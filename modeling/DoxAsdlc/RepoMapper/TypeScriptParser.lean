import DoxAsdlc.RepoMapper.ContextBuilder

/-!
# The TypeScript parser of the repo mapper

The parser walks the syntax tree of a file and collects the symbols, the imports and the names of
the exports.  The declarations below an export statement are handled when the walk meets the
statement; the walk goes on below it.

The syntax tree is given.  The text of a node is the part of the file that it stands for.

## Main definitions

* `SyntaxNode` — a node of the syntax tree.
* `TypeScriptParser.declaration` — what a declaration gives.
* `TypeScriptParser.extractFromNode`, `parseFile` — the walk.
-/

namespace DoxAsdlc.RepoMapper

/-- A node of the syntax tree. -/
inductive SyntaxNode where
  | mk (type text : String) (startRow endRow : ℕ) (children : List SyntaxNode)

namespace SyntaxNode

def type : SyntaxNode → String
  | mk type .. => type

def text : SyntaxNode → String
  | mk _ text .. => text

def startRow : SyntaxNode → ℕ
  | mk _ _ startRow .. => startRow

def endRow : SyntaxNode → ℕ
  | mk _ _ _ endRow _ => endRow

def children : SyntaxNode → List SyntaxNode
  | mk _ _ _ _ children => children

/-- A leaf. -/
def leaf (type text : String) (row : ℕ) : SyntaxNode := mk type text row row []

end SyntaxNode

/-- A node with the node before it, below the same parent. -/
abbrev Placed := Option SyntaxNode × SyntaxNode

/-- Each node with the one before it. -/
def placed : Option SyntaxNode → List SyntaxNode → List Placed
  | _, [] => []
  | prev, node :: nodes => (prev, node) :: placed (some node) nodes

namespace TypeScriptParser

/-! ## Texts -/

/-- `str.strip`, of the characters of a class. -/
def stripOf (p : Char → Bool) (l : List Char) : List Char :=
  ((l.dropWhile p).reverse.dropWhile p).reverse

/-- `_find_child_by_type`. -/
def findChildByType (node : SyntaxNode) (typeName : String) : Option SyntaxNode :=
  node.children.find? (·.type = typeName)

/-- A line of a JSDoc comment, without what marks it. -/
def cleanLine (line : List Char) : Option (List Char) :=
  let line := stripOf isSpace line
  let line := if "/**".toList.isPrefixOf line then stripOf isSpace (line.drop 3) else line
  if "*/".toList.isPrefixOf line then none
  else
    let line := if ['*'].isPrefixOf line then stripOf isSpace (line.drop 1) else line
    if line ≠ [] ∧ ¬ ['@'].isPrefixOf line then some line else none

/-- `_extract_jsdoc`, with the node before the one that is documented. -/
def extractJsdoc (prev : Option SyntaxNode) : Option String :=
  match prev with
  | none => none
  | some comment =>
    if comment.type = "comment" ∧ "/**".toList.isPrefixOf comment.text.toList then
      let cleaned := (comment.text.toList.splitOn '\n').filterMap cleanLine
      if cleaned ≠ [] then some (String.ofList ([' '].intercalate cleaned)) else none
    else none

/-- `_extract_parameters`. -/
def extractParameters (node : SyntaxNode) : String :=
  match findChildByType node "formal_parameters" with
  | none => ""
  | some paramsNode =>
    ", ".intercalate ((paramsNode.children.filter fun child =>
      child.type ∈ ["required_parameter", "optional_parameter", "identifier"]).map
        SyntaxNode.text)

/-- `_extract_return_type`. -/
def extractReturnType (node : SyntaxNode) : Option String :=
  (((node.children.filter (·.type = "type_annotation")).flatMap SyntaxNode.children).find?
    fun typeChild => typeChild.type ∉ [":", "type_annotation"]).map SyntaxNode.text

/-- The parameters and the return type, behind what a signature begins with. -/
def signatureOf (start : String) (node : SyntaxNode) : String :=
  start ++ "(" ++ extractParameters node ++ ")" ++
    match given (extractReturnType node) with
    | none => ""
    | some returnType => ": " ++ returnType

/-- `_build_function_signature`. -/
def buildFunctionSignature (node : SyntaxNode) (name : String) : String :=
  signatureOf ("function " ++ name) node

/-- `_build_method_signature`. -/
def buildMethodSignature (node : SyntaxNode) (name : String) : String := signatureOf name node

/-- `_build_arrow_function_signature`. -/
def buildArrowFunctionSignature (node : SyntaxNode) (name : String) : String :=
  signatureOf ("const " ++ name ++ " = ") node ++ " => ..."

/-! ## Symbols -/

section

variable (filePath : String)

/-- A symbol that stands where a node does. -/
def symbolAt (node : SyntaxNode) (name : String) (kind : SymbolKind) (signature : String)
    (docstring : Option String) : SymbolInfo where
  name := name
  kind := kind
  filePath := filePath
  startLine := node.startRow + 1
  endLine := node.endRow + 1
  signature := some signature
  docstring := docstring
  references := []

/-- The text of the first child of a type. -/
def childText (node : SyntaxNode) (typeName : String) : Option String :=
  (findChildByType node typeName).map SyntaxNode.text

/-- `_extract_function`. -/
def extractFunction (at_ : Placed) : SymbolInfo :=
  let name := (childText at_.2 "identifier").getD "anonymous"
  symbolAt filePath at_.2 name .function (buildFunctionSignature at_.2 name) (extractJsdoc at_.1)

/-- `_extract_method`. -/
def extractMethod (at_ : Placed) : SymbolInfo :=
  let name := (childText at_.2 "property_identifier").getD "anonymous"
  symbolAt filePath at_.2 name .method (buildMethodSignature at_.2 name) (extractJsdoc at_.1)

/-- The class that a class extends. -/
def baseName (node : SyntaxNode) : Option String :=
  ((findChildByType node "class_heritage").bind (findChildByType · "extends_clause")).bind
    fun extendsClause =>
      (extendsClause.children.find? fun child =>
        child.type ∈ ["type_identifier", "identifier"]).map SyntaxNode.text

/-- `_extract_class`. -/
def extractClass (at_ : Placed) : SymbolInfo :=
  let name := ((childText at_.2 "type_identifier").or (childText at_.2 "identifier")).getD
    "AnonymousClass"
  let signature := match baseName at_.2 with
    | none => "class " ++ name
    | some base => "class " ++ name ++ " extends " ++ base
  symbolAt filePath at_.2 name .cls signature (extractJsdoc at_.1)

/-- The methods of a class. -/
def extractMethods (node : SyntaxNode) : List SymbolInfo :=
  match findChildByType node "class_body" with
  | none => []
  | some classBody => ((placed none classBody.children).filter
      (·.2.type = "method_definition")).map (extractMethod filePath)

/-- `_extract_interface`. -/
def extractInterface (at_ : Placed) : SymbolInfo :=
  let name := (childText at_.2 "type_identifier").getD "AnonymousInterface"
  symbolAt filePath at_.2 name .interface ("interface " ++ name) (extractJsdoc at_.1)

/-- The symbol of a variable, or of an arrow function that is bound to one. -/
def extractVariable (at_ : Placed) (declarator : SyntaxNode) (name : String) : SymbolInfo :=
  match findChildByType declarator "arrow_function" with
  | some arrowFunction => symbolAt filePath at_.2 name .function
      (buildArrowFunctionSignature arrowFunction name) (extractJsdoc at_.1)
  | none => symbolAt filePath at_.2 name .variable ("const " ++ name) none

/-- The symbols of `_extract_variable_declarations`. -/
def extractVariableDeclarations (at_ : Placed) : List SymbolInfo :=
  (at_.2.children.filter (·.type = "variable_declarator")).filterMap fun declarator =>
    (childText declarator "identifier").map (extractVariable filePath at_ declarator)

/-- What a declaration gives: its symbols, and the names that it may export. -/
def declaration (at_ : Placed) : List SymbolInfo × List String :=
  if at_.2.type = "function_declaration" then
    let symbol := extractFunction filePath at_
    ([symbol], [symbol.name])
  else if at_.2.type = "class_declaration" then
    let symbol := extractClass filePath at_
    (symbol :: extractMethods filePath at_.2, [symbol.name])
  else if at_.2.type = "interface_declaration" then
    let symbol := extractInterface filePath at_
    ([symbol], [symbol.name])
  else if at_.2.type = "lexical_declaration" then
    let symbols := extractVariableDeclarations filePath at_
    (symbols, symbols.map SymbolInfo.name)
  else ([], [])

/-! ## Imports -/

/-- The names that a part of an import clause brings in. -/
def clauseNames (clauseChild : SyntaxNode) : List String :=
  if clauseChild.type = "identifier" then [clauseChild.text]
  else if clauseChild.type = "named_imports" then
    (clauseChild.children.filter (·.type = "import_specifier")).filterMap
      (childText · "identifier")
  else if clauseChild.type = "namespace_import" then (childText clauseChild "identifier").toList
  else []

/-- `_extract_import`; the last string of the statement is the source. -/
def extractImport (node : SyntaxNode) : Option ImportInfo :=
  let names := ((node.children.filter (·.type = "import_clause")).flatMap
    SyntaxNode.children).flatMap clauseNames
  let source := match (node.children.filter (·.type = "string")).getLast? with
    | none => []
    | some string => stripOf (fun c => c = '\'' || c = '"') string.text.toList
  if source = [] then none
  else some ⟨String.ofList source, names, ['.'].isPrefixOf source || ['/'].isPrefixOf source,
    node.startRow + 1⟩

/-! ## The walk -/

/-- What is collected. -/
structure Extraction where
  symbols : List SymbolInfo := []
  imports : List ImportInfo := []
  exports : List String := []
  deriving DecidableEq

instance : Append Extraction where
  append e e' := ⟨e.symbols ++ e'.symbols, e.imports ++ e'.imports, e.exports ++ e'.exports⟩

/-- `_handle_export_statement`. -/
def handleExportStatement (node : SyntaxNode) : Extraction where
  symbols := (placed none node.children).flatMap fun child => (declaration filePath child).1
  exports := (placed none node.children).flatMap fun child => (declaration filePath child).2

/-- What a node gives by itself; `exported` says whether it is below an export statement, as
`_is_exported` does. -/
def handleNode (exported : Bool) (at_ : Placed) : Extraction :=
  if at_.2.type = "import_statement" then { imports := (extractImport at_.2).toList }
  else if at_.2.type = "export_statement" then handleExportStatement filePath at_.2
  else
    { symbols := (declaration filePath at_).1
      exports := if exported then (declaration filePath at_).2 else [] }

mutual

/-- `_extract_from_node`. -/
def extractFromNode (exported : Bool) (prev : Option SyntaxNode) : SyntaxNode → Extraction
  | .mk type text startRow endRow children =>
    let node := SyntaxNode.mk type text startRow endRow children
    handleNode filePath exported (prev, node) ++
      -- The walk does not go into the bodies of classes.
      if type ∉ ["class_body", "class_declaration"] then
        extractFromNodes (exported || type = "export_statement") none children
      else {}

/-- The loop over the children. -/
def extractFromNodes (exported : Bool) (prev : Option SyntaxNode) : List SyntaxNode → Extraction
  | [] => {}
  | node :: nodes => extractFromNode exported prev node ++
      extractFromNodes exported (some node) nodes

end

/-- `parse_file`, of the content of a file and its syntax tree. -/
def parseFile (content : String) (rootNode : SyntaxNode) : MappedFile :=
  let extraction := extractFromNode filePath false none rootNode
  { path := filePath
    imports := extraction.imports.map ImportInfo.source
    exports := extraction.exports
    symbols := extraction.symbols
    rawContent := content }

end

end TypeScriptParser

end DoxAsdlc.RepoMapper
