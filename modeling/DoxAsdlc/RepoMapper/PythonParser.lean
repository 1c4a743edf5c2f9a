import DoxAsdlc.RepoMapper.AddOrder
import DoxAsdlc.RepoMapper.ContextBuilder

/-!
# The Python parser of the repo mapper

The parser walks the syntax tree of a module breadth first.  A function and a class give a symbol
when the walk comes to them, and a class gives another one for each function in its body.  What is
imported is kept once for each statement: the first part of its first name, or what it is from.

The tree is given, with the texts of its expressions and the docstrings.

## Main definitions

* `Node`, `SyntaxTree` — the syntax tree.
* `walk`, `parseFile` — the parser.
* `Placement` — a module among the files of a repository.
* `Placement.Complete` — what is promised of the parser and of the graph.
* `Placement.Plain` — when the promise is kept.

## Main results

* `walk_perm` — the walk comes to each node once.
* `resolveImport_eq_some` — the file that an import leads to.
* `complete_iff` — when the promise is kept.
-/

namespace DoxAsdlc.RepoMapper.PythonParser

/-! ## The syntax tree -/

/-- An argument, with the text of its annotation. -/
structure Argument where
  arg : String
  annotation : Option String
  deriving DecidableEq

/-- The definition of a function, with the number of its defaults. -/
structure FunctionDef where
  name : String
  args : List Argument
  defaults : ℕ
  returns : Option String
  docstring : Option String
  lineno : ℕ
  endLineno : Option ℕ
  deriving DecidableEq

/-- The definition of a class, with the texts of its bases. -/
structure ClassDef where
  name : String
  bases : List String
  docstring : Option String
  lineno : ℕ
  endLineno : Option ℕ
  deriving DecidableEq

/-- What a node is.  An `import` statement has a name at least. -/
inductive Label where
  | functionDef (node : FunctionDef)
  | asyncFunctionDef (node : FunctionDef)
  | classDef (node : ClassDef)
  | importNames (first : String) (rest : List String) (lineno : ℕ)
  | importFrom (module : Option String) (names : List String) (level lineno : ℕ)
  | other
  deriving DecidableEq

/-- A node: the children before its body, the body, and the children after it. -/
inductive Node where
  | mk (label : Label) (before body after : List Node)

namespace Node

def label : Node → Label
  | mk label .. => label

def body : Node → List Node
  | mk _ _ body _ => body

/-- `ast.iter_child_nodes`. -/
def children : Node → List Node
  | mk _ before body after => before ++ body ++ after

end Node

/-- `node.end_lineno or node.lineno`. -/
def lastLine (lineno : ℕ) (endLineno : Option ℕ) : ℕ := (endLineno.filter (· ≠ 0)).getD lineno

/-- What identifies a definition. -/
structure Definition where
  name : String
  kind : SymbolKind
  startLine : ℕ
  endLine : ℕ
  deriving DecidableEq

/-- A name without an underscore in front. -/
def IsPublic (name : String) : Prop := name.toList.head? ≠ some '_'

instance (name : String) : Decidable (IsPublic name) := inferInstanceAs (Decidable (_ ≠ _))

namespace Label

/-- The definition that a node is; a function directly in the body of a class is a method. -/
def definition? (inClass : Bool) : Label → Option Definition
  | functionDef node | asyncFunctionDef node =>
    some ⟨node.name, if inClass then .method else .function, node.lineno,
      lastLine node.lineno node.endLineno⟩
  | classDef node => some ⟨node.name, .cls, node.lineno, lastLine node.lineno node.endLineno⟩
  | _ => none

def isClass : Label → Bool
  | classDef _ => true
  | _ => false

/-- The text of what is imported from: a dot for each level, and the module. -/
def fromText (module : Option String) (level : ℕ) : String :=
  String.ofList (List.replicate level '.') ++ module.getD ""

/-- The modules that an import statement names. -/
def modules : Label → List String
  | importNames first rest _ => first :: rest
  | importFrom module _ level _ => [fromText module level]
  | _ => []

end Label

/-- A node, and whether it is directly in the body of a class. -/
abbrev Place := Bool × Node

/-- The definition at a place. -/
def definitionAt (place : Place) : Option Definition := place.2.label.definition? place.1

mutual

/-- The nodes of a tree. -/
def places (inClass : Bool) : Node → List Place
  | .mk label before body after =>
    (inClass, Node.mk label before body after) ::
      (placesOf false before ++ placesOf label.isClass body ++ placesOf false after)

def placesOf (inClass : Bool) : List Node → List Place
  | [] => []
  | node :: nodes => places inClass node ++ placesOf inClass nodes

end

mutual

/-- The definitions that are in no other one. -/
def topLevel : Node → List Node
  | .mk label before body after =>
    if (label.definition? false).isSome then [.mk label before body after]
    else topLevelOf before ++ topLevelOf body ++ topLevelOf after

def topLevelOf : List Node → List Node
  | [] => []
  | node :: nodes => topLevel node ++ topLevelOf nodes

end

/-- The syntax tree of a module.  No two definitions begin on the same line. -/
structure SyntaxTree where
  body : List Node
  lines : (((placesOf false body).filterMap definitionAt).map Definition.startLine).Nodup

namespace SyntaxTree

variable (tree : SyntaxTree)

def root : Node := .mk .other [] tree.body []

/-- The nodes of a module. -/
def nodes : List Place := placesOf false tree.body

/-- The functions, the async functions and the classes of a module. -/
def definitions : List Definition := tree.nodes.filterMap definitionAt

/-- The public names of the definitions at the top level. -/
def publicNames : List String :=
  (((topLevelOf tree.body).filterMap fun node => node.label.definition? false).filter
    (IsPublic ·.name)).map Definition.name

/-- The modules that the import statements name. -/
def modules : List String := tree.nodes.flatMap fun place => place.2.label.modules

end SyntaxTree

/-! ## The parser -/

@[simp] theorem placesOf_append {inClass : Bool} {nodes nodes' : List Node} :
    placesOf inClass (nodes ++ nodes') = placesOf inClass nodes ++ placesOf inClass nodes' := by
  induction nodes with
  | nil => simp [placesOf]
  | cons node nodes ih => simp [placesOf, ih]

/-- The nodes do not depend on what the list is the body of. -/
theorem map_snd_placesOf {inClass : Bool} {nodes : List Node} :
    (placesOf inClass nodes).map Prod.snd = (placesOf false nodes).map Prod.snd := by
  induction nodes with
  | nil => simp [placesOf]
  | cons node nodes ih =>
    cases node
    simp [placesOf, places, ih]

/-- The nodes of a tree are the root and the nodes below its children. -/
theorem map_snd_places {inClass : Bool} {node : Node} :
    (places inClass node).map Prod.snd = node :: (placesOf false node.children).map Prod.snd := by
  obtain ⟨label, before, body, after⟩ := node
  simp [places, Node.children, @map_snd_placesOf label.isClass]

/-- `ast.walk`, from the nodes that wait. -/
def walk : List Node → List Node
  | [] => []
  | node :: todo => node :: walk (todo ++ node.children)
termination_by todo => (placesOf false todo).length
decreasing_by
  have hlength := congrArg List.length (@map_snd_places false node)
  simp only [List.length_map, List.length_cons] at hlength
  simp only [placesOf_append, placesOf, List.length_append]
  omega

/-- **The walk comes to each node once.** -/
theorem walk_perm (todo : List Node) :
    (walk todo).Perm ((placesOf false todo).map Prod.snd) := by
  fun_induction walk todo with
  | case1 => simp [placesOf]
  | case2 node todo ih =>
    rw [placesOf, List.map_append, map_snd_places, List.cons_append]
    apply List.Perm.cons
    rw [placesOf_append, List.map_append] at ih
    exact ih.trans List.perm_append_comm

section

variable (filePath : String)

/-- `_build_signature`; the last arguments are marked as having defaults. -/
def buildSignature (node : FunctionDef) : String :=
  let argsParts := node.args.map fun arg =>
    match arg.annotation with
    | none => arg.arg
    | some annotation => arg.arg ++ ": " ++ annotation
  let argsParts := argsParts.mapIdx fun i part =>
    if argsParts.length ≤ i + node.defaults then part ++ " = ..." else part
  let returns := match node.returns with
    | none => ""
    | some returns => " -> " ++ returns
  "def " ++ node.name ++ "(" ++ ", ".intercalate argsParts ++ ")" ++ returns

/-- The symbol of a function. -/
def symbolOf (kind : SymbolKind) (node : FunctionDef) : SymbolInfo where
  name := node.name
  kind := kind
  filePath := filePath
  startLine := node.lineno
  endLine := lastLine node.lineno node.endLineno
  signature := some (buildSignature node)
  docstring := node.docstring
  references := []

/-- `_extract_function`. -/
def extractFunction : FunctionDef → SymbolInfo := symbolOf filePath .function

/-- `_extract_method`. -/
def extractMethod : FunctionDef → SymbolInfo := symbolOf filePath .method

/-- `_extract_class`. -/
def extractClass (node : ClassDef) : SymbolInfo where
  name := node.name
  kind := .cls
  filePath := filePath
  startLine := node.lineno
  endLine := lastLine node.lineno node.endLineno
  signature := some (
    if node.bases ≠ [] then "class " ++ node.name ++ "(" ++ ", ".intercalate node.bases ++ ")"
    else "class " ++ node.name)
  docstring := node.docstring
  references := []

/-- `_extract_import`. -/
def extractImport : Label → Option ImportInfo
  | .importNames first rest lineno =>
    some ⟨String.ofList (first.toList.takeWhile (· ≠ '.')), first :: rest, false, lineno⟩
  | .importFrom module names level lineno =>
    let source := module.getD ""
    let isRelative := decide (0 < level)
    let source :=
      if isRelative then String.ofList (List.replicate level '.') ++ source else source
    some ⟨source, names, isRelative, lineno⟩
  | _ => none

/-- The symbols that a node gives. -/
def symbolsOf (node : Node) : List SymbolInfo :=
  match node.label with
  | .functionDef function => [extractFunction filePath function]
  | .classDef cls => extractClass filePath cls :: node.body.filterMap fun item =>
    match item.label with
    | .functionDef method => some (extractMethod filePath method)
    | _ => none
  | _ => []

/-- `_extract_exports`. -/
def extractExports (symbols : List SymbolInfo) : List String :=
  (symbols.filter fun s => IsPublic s.name).map SymbolInfo.name

/-- `parse_file`, of the content of a file and its syntax tree. -/
def parseFile (content : String) (tree : SyntaxTree) : MappedFile :=
  let nodes := walk [tree.root]
  let symbols := nodes.flatMap (symbolsOf filePath)
  let imports := nodes.filterMap fun node => extractImport node.label
  { path := filePath
    imports := imports.map ImportInfo.source
    exports := extractExports symbols
    symbols := symbols
    rawContent := content }

end

/-! ## A module among the files of a repository -/

/-- A module, and the files that are added to the graph before it and after it.  Modules are looked
for below the roots. -/
structure Placement where
  roots : List String
  before : List ParsedFile
  after : List ParsedFile
  filePath : String
  content : String
  tree : SyntaxTree
  distinct : (before.map ParsedFile.path ++ filePath :: after.map ParsedFile.path).Nodup

namespace Placement

variable (p : Placement)

/-- What the module is parsed to. -/
def parsed : MappedFile := parseFile p.filePath p.content p.tree

def files : List ParsedFile := p.before ++ p.parsed.toParsedFile :: p.after

/-- The files that are known when the module is added. -/
def earlier : List String := p.before.map ParsedFile.path ++ [p.filePath]

end Placement

/-- The files that may hold a module of a directory: that of a package, and that of a module. -/
def candidates (dir : PosixPath) (name : String) : List String :=
  if name = "" then [(dir.join "__init__.py").str]
  else [(dir.join (dotsToSlashes name ++ "/__init__.py")).str,
    (dir.join (dotsToSlashes name ++ ".py")).str]

/-- The number of the dots in front of a text. -/
def dots (source : String) : ℕ := (source.toList.takeWhile (· = '.')).length

/-- The directory that a relative import starts from. -/
def baseDir (filePath source : String) : PosixPath :=
  PosixPath.parent^[dots source - 1] (PosixPath.parse filePath).parent

/-- The module of a relative import, below its directory. -/
def below (source : String) : String := String.ofList (source.toList.drop (dots source))

/-- A text that begins with a dot. -/
def IsRelative (source : String) : Prop := source.toList.head? = some '.'

instance (source : String) : Decidable (IsRelative source) := inferInstanceAs (Decidable (_ = _))

namespace Placement

variable (p : Placement)

/-- The file of a module that is imported, if there is one. -/
def fileOf (source : String) : Option String :=
  (if IsRelative source then candidates (baseDir p.filePath source) (below source)
    else p.roots.flatMap fun root => candidates (PosixPath.parse root) source).find?
      (· ∈ p.files.map ParsedFile.path)

/-- What is promised: a symbol for each definition, each public name once, an import for each module
that is named, and an edge to its file if there is one. -/
structure Complete : Prop where
  symbols : (p.parsed.symbols.map fun s => Definition.mk s.name s.kind s.startLine s.endLine).Perm
    p.tree.definitions
  nodup_exports : p.parsed.exports.Nodup
  mem_exports : ∀ name, name ∈ p.parsed.exports ↔ name ∈ p.tree.publicNames
  imports : ∀ source ∈ p.tree.modules, source ∈ p.parsed.imports
  edges : ∀ source ∈ p.tree.modules, ∀ file, p.fileOf source = some file →
    file ∈ (DependencyGraph.build p.files).targets p.filePath

end Placement

/-! ## When the promise is kept -/

/-- The first part of a dotted name. -/
def firstPart (name : String) : String := String.ofList (name.toList.takeWhile (· ≠ '.'))

/-- What is looked for on account of a statement: the first part of the first name of an `import`,
and what a `from` imports from. -/
def Label.asked : Label → List String
  | .importNames first _ _ => [firstPart first]
  | .importFrom module _ level _ => [fromText module level]
  | _ => []

/-- What is looked for on account of a module. -/
def SyntaxTree.asked (tree : SyntaxTree) : List String :=
  tree.nodes.flatMap fun place => place.2.label.asked

/-- The first path that contains a text. -/
def IsFirstWith (paths : List String) (part path : String) : Prop :=
  ∃ front rest, paths = front ++ path :: rest ∧ contains part path ∧
    ∀ other ∈ front, ¬ contains part other

namespace Placement

variable (p : Placement)

/-- A file is found for a text.  A relative one leads to the file of a module, of the directory if
there is no name, or to one without an extension; another one to the first file that is known and
has it in its path. -/
def Leads (source file : String) : Prop :=
  if IsRelative source then
    let dir := baseDir p.filePath source
    let target := if below source ≠ "" then dir.join (dotsToSlashes (below source) ++ ".py")
      else dir.join "__init__.py"
    file ∈ p.earlier ∧ (file = target.str ∨
      file = (dir.join (dotsToSlashes (below source))).str ∧ target.str ∉ p.earlier)
  else IsFirstWith p.earlier (dotsToSlashes source) file

/-- There are no async functions and no functions directly in the body of a class; the public
definitions are at the top level, under different names; every module that is named is looked for,
and its file, if there is one, is found for something that is looked for. -/
structure Plain : Prop where
  sync : ∀ place ∈ p.tree.nodes, ∀ node, place.2.label ≠ .asyncFunctionDef node
  free : ∀ item node, (true, item) ∈ p.tree.nodes → item.label ≠ .functionDef node
  topLevel : ∀ place ∈ p.tree.nodes, ∀ d, definitionAt place = some d → IsPublic d.name →
    place.2 ∈ topLevelOf p.tree.body
  distinct : ((p.tree.definitions.filter (IsPublic ·.name)).map Definition.name).Nodup
  asked : ∀ source ∈ p.tree.modules, source ∈ p.tree.asked
  found : ∀ source ∈ p.tree.modules, ∀ file, p.fileOf source = some file →
    ∃ asked ∈ p.tree.asked, p.Leads asked file

end Placement

/-! ## Where nodes are -/

theorem mem_places_self {inClass : Bool} {node : Node} : (inClass, node) ∈ places inClass node := by
  cases node
  simp [places]

theorem mem_placesOf {inClass : Bool} {node : Node} {nodes : List Node} (h : node ∈ nodes) :
    (inClass, node) ∈ placesOf inClass nodes := by
  induction nodes with
  | nil => simp at h
  | cons first nodes ih =>
    rw [placesOf, List.mem_append]
    cases List.mem_cons.mp h with
    | inl hhead => exact .inl (hhead ▸ mem_places_self)
    | inr htail => exact .inr (ih htail)

mutual

/-- What is in the body of a node of a tree is a node of the tree. -/
theorem body_mem_places (inClass : Bool) : ∀ node, ∀ place ∈ places inClass node,
    ∀ item ∈ place.2.body, (place.2.label.isClass, item) ∈ places inClass node
  | .mk label before body after => by
    intro place hplace item hitem
    rw [places] at hplace ⊢
    apply List.mem_cons_of_mem
    simp only [List.mem_cons, List.mem_append] at hplace ⊢
    cases hplace with
    | inl hself =>
      subst hself
      exact .inl (.inr (mem_placesOf hitem))
    | inr hbelow =>
      rcases hbelow with (hbefore | hbody) | hafter
      · exact .inl (.inl (body_mem_placesOf _ before place hbefore item hitem))
      · exact .inl (.inr (body_mem_placesOf _ body place hbody item hitem))
      · exact .inr (body_mem_placesOf _ after place hafter item hitem)

theorem body_mem_placesOf (inClass : Bool) : ∀ nodes, ∀ place ∈ placesOf inClass nodes,
    ∀ item ∈ place.2.body, (place.2.label.isClass, item) ∈ placesOf inClass nodes
  | [] => by simp [placesOf]
  | node :: nodes => by
    intro place hplace item hitem
    rw [placesOf, List.mem_append] at hplace ⊢
    cases hplace with
    | inl hnode => exact .inl (body_mem_places inClass node place hnode item hitem)
    | inr hnodes => exact .inr (body_mem_placesOf inClass nodes place hnodes item hitem)

end

theorem isClass_of_definition {label : Label} (h : ¬ (label.definition? false).isSome) :
    label.isClass = false := by
  cases label with
  | classDef node => simp [Label.definition?] at h
  | _ => rfl

mutual

/-- A definition at the top level is a node of the tree, and not in the body of a class. -/
theorem topLevel_spec : ∀ node, ∀ top ∈ topLevel node,
    (false, top) ∈ places false node ∧ (top.label.definition? false).isSome
  | .mk label before body after => by
    intro top htop
    rw [topLevel] at htop
    split at htop
    · next hdefinition =>
      obtain rfl := List.mem_singleton.mp htop
      exact ⟨mem_places_self, hdefinition⟩
    · next hother =>
      rw [places, isClass_of_definition hother]
      simp only [List.mem_append] at htop
      rcases htop with (hbefore | hbody) | hafter
      · have hspec := topLevelOf_spec before top hbefore
        exact ⟨by simp [hspec.1], hspec.2⟩
      · have hspec := topLevelOf_spec body top hbody
        exact ⟨by simp [hspec.1], hspec.2⟩
      · have hspec := topLevelOf_spec after top hafter
        exact ⟨by simp [hspec.1], hspec.2⟩

theorem topLevelOf_spec : ∀ nodes, ∀ top ∈ topLevelOf nodes,
    (false, top) ∈ placesOf false nodes ∧ (top.label.definition? false).isSome
  | [] => by simp [topLevelOf]
  | node :: nodes => by
    intro top htop
    rw [topLevelOf, List.mem_append] at htop
    rw [placesOf, List.mem_append]
    cases htop with
    | inl hnode => exact ⟨.inl (topLevel_spec node top hnode).1, (topLevel_spec node top hnode).2⟩
    | inr hnodes =>
      exact ⟨.inr (topLevelOf_spec nodes top hnodes).1, (topLevelOf_spec nodes top hnodes).2⟩

end

/-! ## The symbols -/

/-- What identifies the definition of a symbol. -/
def identified (s : SymbolInfo) : Definition := ⟨s.name, s.kind, s.startLine, s.endLine⟩

variable {filePath content : String} {tree : SyntaxTree}

theorem mem_definitions {d : Definition} :
    d ∈ tree.definitions ↔ ∃ place ∈ tree.nodes, definitionAt place = some d :=
  List.mem_filterMap

/-- The definition of a function. -/
def FunctionDef.definition (node : FunctionDef) (inClass : Bool) : Definition :=
  ⟨node.name, if inClass then .method else .function, node.lineno,
    lastLine node.lineno node.endLineno⟩

theorem definitionAt_functionDef {place : Place} {node : FunctionDef}
    (h : place.2.label = .functionDef node) :
    definitionAt place = some (node.definition place.1) := by
  simp [definitionAt, h, Label.definition?, FunctionDef.definition]

theorem definitionAt_asyncFunctionDef {place : Place} {node : FunctionDef}
    (h : place.2.label = .asyncFunctionDef node) :
    definitionAt place = some (node.definition place.1) := by
  simp [definitionAt, h, Label.definition?, FunctionDef.definition]

theorem definitionAt_classDef {place : Place} {node : ClassDef}
    (h : place.2.label = .classDef node) :
    definitionAt place =
      some ⟨node.name, .cls, node.lineno, lastLine node.lineno node.endLineno⟩ := by
  simp [definitionAt, h, Label.definition?]

/-- The line on which a definition begins tells where it is. -/
theorem place_eq {place place' : Place} {d d' : Definition} (hplace : place ∈ tree.nodes)
    (hplace' : place' ∈ tree.nodes) (hd : definitionAt place = some d)
    (hd' : definitionAt place' = some d') (hline : d.startLine = d'.startLine) :
    place = place' := by
  have hlines : tree.nodes.Pairwise fun a b => ∀ d, definitionAt a = some d →
      ∀ d', definitionAt b = some d' → d.startLine ≠ d'.startLine := by
    have hnodup := tree.lines
    rwa [List.Nodup, List.pairwise_map, List.pairwise_filterMap] at hnodup
  by_contra hne
  have hsymm : Std.Symm fun a b : Place => ∀ d, definitionAt a = some d →
      ∀ d', definitionAt b = some d' → d.startLine ≠ d'.startLine :=
    ⟨fun a b h d hd d' hd' heq => h d' hd' d hd heq.symm⟩
  exact hlines.forall hplace hplace' hne d hd d' hd' hline

/-- The symbols are those that the nodes give. -/
theorem symbols_perm : (parseFile filePath content tree).symbols.Perm
    (tree.nodes.flatMap fun place => symbolsOf filePath place.2) := by
  have hroot : symbolsOf filePath tree.root = [] := rfl
  have hwalk := (walk_perm [tree.root]).flatMap_right (symbolsOf filePath)
  rw [placesOf, placesOf, List.append_nil, map_snd_places, List.flatMap_cons, hroot,
    List.nil_append, List.flatMap_map] at hwalk
  simpa [parseFile, SyntaxTree.nodes, SyntaxTree.root, Node.children] using hwalk

theorem mem_symbols {s : SymbolInfo} : s ∈ (parseFile filePath content tree).symbols ↔
    ∃ place ∈ tree.nodes, s ∈ symbolsOf filePath place.2 := by
  rw [symbols_perm.mem_iff, List.mem_flatMap]

/-- A symbol comes from a function that is not async, or from a class. -/
theorem exists_place {s : SymbolInfo} (h : s ∈ (parseFile filePath content tree).symbols) :
    ∃ place ∈ tree.nodes, ∃ d, definitionAt place = some d ∧ d.startLine = s.startLine ∧
      ∀ node, place.2.label ≠ .asyncFunctionDef node := by
  obtain ⟨place, hplace, hs⟩ := mem_symbols.mp h
  cases hlabel : place.2.label with
  | functionDef node =>
    simp only [symbolsOf, hlabel, List.mem_singleton] at hs
    refine ⟨place, hplace, _, definitionAt_functionDef hlabel, ?_, by simp [hlabel]⟩
    rw [hs]
    rfl
  | classDef node =>
    simp only [symbolsOf, hlabel, List.mem_cons, List.mem_filterMap] at hs
    cases hs with
    | inl hself =>
      refine ⟨place, hplace, _, definitionAt_classDef hlabel, ?_, by simp [hlabel]⟩
      rw [hself]
      rfl
    | inr hmethod =>
      obtain ⟨item, hitem, hs⟩ := hmethod
      have hbody := body_mem_placesOf false tree.body place hplace item hitem
      cases hfunction : item.label with
      | functionDef method =>
        simp only [hfunction, Option.some.injEq] at hs
        refine ⟨_, hbody, _, definitionAt_functionDef hfunction, ?_, by simp [hfunction]⟩
        rw [← hs]
        rfl
      | _ => simp [hfunction] at hs
  | _ => simp [symbolsOf, hlabel] at hs

/-- Without async functions and functions in classes a node gives the symbol of its definition. -/
theorem map_symbolsOf {place : Place} (hplace : place ∈ tree.nodes)
    (hsync : ∀ node, place.2.label ≠ .asyncFunctionDef node)
    (hfree : ∀ item node, (true, item) ∈ tree.nodes → item.label ≠ .functionDef node) :
    (symbolsOf filePath place.2).map identified = (definitionAt place).toList := by
  cases hlabel : place.2.label with
  | functionDef node =>
    have houtside : place.1 = false := by
      by_contra hinside
      have hplace' : (true, place.2) ∈ tree.nodes := by
        rw [← eq_true_of_ne_false hinside]
        exact hplace
      exact hfree place.2 node hplace' hlabel
    simp [symbolsOf, hlabel, definitionAt, Label.definition?, houtside, identified, extractFunction,
      symbolOf]
  | asyncFunctionDef node => exact absurd hlabel (hsync node)
  | classDef node =>
    have hmethods : place.2.body.filterMap (fun item =>
        match item.label with
        | .functionDef method => some (extractMethod filePath method)
        | _ => none) = [] := by
      rw [List.filterMap_eq_nil_iff]
      intro item hitem
      have hbody := body_mem_placesOf false tree.body place hplace item hitem
      rw [hlabel] at hbody
      have hfunction := fun f => hfree item f hbody
      split
      · next f heq => exact absurd heq (hfunction f)
      · rfl
    simp [symbolsOf, hlabel, hmethods, definitionAt, Label.definition?, identified, extractClass]
  | _ => simp [symbolsOf, hlabel, definitionAt, Label.definition?]

/-- Each definition has one symbol exactly where no function is async or directly in the body of a
class. -/
theorem symbols_perm_iff :
    ((parseFile filePath content tree).symbols.map identified).Perm tree.definitions ↔
      (∀ place ∈ tree.nodes, ∀ node, place.2.label ≠ .asyncFunctionDef node) ∧
        ∀ item node, (true, item) ∈ tree.nodes → item.label ≠ .functionDef node := by
  constructor
  · intro h
    constructor
    · intro place hplace node hlabel
      have hd := definitionAt_asyncFunctionDef hlabel
      have hmem := h.mem_iff.mpr (mem_definitions.mpr ⟨place, hplace, hd⟩)
      obtain ⟨s, hs, hsd⟩ := List.mem_map.mp hmem
      obtain ⟨place', hplace', d', hd', hline, hsync⟩ := exists_place hs
      have hstart : d'.startLine = node.lineno := by
        rw [hline]
        exact congrArg Definition.startLine hsd
      have heq := place_eq hplace hplace' hd hd' hstart.symm
      exact hsync node (heq ▸ hlabel)
    · intro item node hitem hlabel
      have hs : extractFunction filePath node ∈ (parseFile filePath content tree).symbols :=
        mem_symbols.mpr ⟨_, hitem, by simp [symbolsOf, hlabel]⟩
      obtain ⟨place, hplace, hd⟩ := mem_definitions.mp
        (h.mem_iff.mp (List.mem_map_of_mem (f := identified) hs))
      have hd' := @definitionAt_functionDef (true, item) node hlabel
      have heq := place_eq hplace hitem hd hd' rfl
      rw [heq, hd'] at hd
      have hkind := congrArg Definition.kind (Option.some.inj hd)
      simp [FunctionDef.definition, identified, extractFunction, symbolOf] at hkind
  · intro h
    have hperm := (@symbols_perm filePath content tree).map identified
    rw [List.map_flatMap] at hperm
    refine hperm.trans (List.Perm.of_eq ?_)
    rw [SyntaxTree.definitions, List.filterMap_eq_flatMap_toList]
    exact List.flatMap_congr fun place hplace =>
      map_symbolsOf hplace (h.1 place hplace) h.2

/-! ## The exports -/

theorem exports_eq : (parseFile filePath content tree).exports =
    (((parseFile filePath content tree).symbols.map identified).filter
      (IsPublic ·.name)).map Definition.name := by
  rw [List.filter_map, List.map_map]
  rfl

/-- A definition has its name wherever it is. -/
theorem exists_definition {place : Place} {d : Definition} (h : definitionAt place = some d) :
    ∃ d', place.2.label.definition? false = some d' ∧ d'.name = d.name := by
  rw [definitionAt] at h
  cases hlabel : place.2.label <;> simp only [hlabel, Label.definition?, reduceCtorEq] at h ⊢
  all_goals
    obtain rfl := Option.some.inj h
    exact ⟨_, rfl, rfl⟩

theorem mem_publicNames {name : String} : name ∈ tree.publicNames ↔
    ∃ top ∈ topLevelOf tree.body, ∃ d, top.label.definition? false = some d ∧
      IsPublic d.name ∧ d.name = name := by
  simp only [SyntaxTree.publicNames, List.mem_map, List.mem_filter, List.mem_filterMap,
    decide_eq_true_eq]
  grind

/-- Where each definition has one symbol, each public name at the top level is listed once exactly
if the public definitions are there and have different names. -/
theorem exports_iff
    (hsymbols : ((parseFile filePath content tree).symbols.map identified).Perm tree.definitions) :
    ((parseFile filePath content tree).exports.Nodup ∧
      ∀ name, name ∈ (parseFile filePath content tree).exports ↔ name ∈ tree.publicNames) ↔
    (∀ place ∈ tree.nodes, ∀ d, definitionAt place = some d → IsPublic d.name →
        place.2 ∈ topLevelOf tree.body) ∧
      ((tree.definitions.filter (IsPublic ·.name)).map Definition.name).Nodup := by
  have hperm : (parseFile filePath content tree).exports.Perm
      ((tree.definitions.filter (IsPublic ·.name)).map Definition.name) := by
    rw [exports_eq]
    exact (hsymbols.filter _).map _
  have hmem : ∀ name, name ∈ (parseFile filePath content tree).exports ↔
      ∃ d ∈ tree.definitions, IsPublic d.name ∧ d.name = name := by
    intro name
    rw [hperm.mem_iff]
    simp [and_assoc]
  rw [hperm.nodup_iff, and_comm]
  apply and_congr_left
  intro hnodup
  constructor
  · intro h place hplace d hd hpublic
    have hdefinition := mem_definitions.mpr ⟨place, hplace, hd⟩
    obtain ⟨top, htop, d', hd', hpublic', hname⟩ :=
      mem_publicNames.mp ((h d.name).mp ((hmem d.name).mpr ⟨d, hdefinition, hpublic, rfl⟩))
    have hplace' : (false, top) ∈ tree.nodes := (topLevelOf_spec tree.body top htop).1
    have hdefinition' := mem_definitions.mpr ⟨_, hplace', hd'⟩
    have heq : d' = d := List.inj_on_of_nodup_map hnodup
      (List.mem_filter.mpr ⟨hdefinition', by simpa using hpublic'⟩)
      (List.mem_filter.mpr ⟨hdefinition, by simpa using hpublic⟩) hname
    rw [place_eq hplace hplace' hd hd' (by rw [heq])]
    exact htop
  · intro h name
    rw [hmem, mem_publicNames]
    constructor
    · intro hlisted
      obtain ⟨d, hd, hpublic, hname⟩ := hlisted
      obtain ⟨place, hplace, hd⟩ := mem_definitions.mp hd
      obtain ⟨d', hd', hname'⟩ := exists_definition hd
      exact ⟨place.2, h place hplace d hd hpublic, d', hd', by rwa [hname'], hname'.trans hname⟩
    · intro hlisted
      obtain ⟨top, htop, d, hd, hpublic, hname⟩ := hlisted
      have hplace : (false, top) ∈ tree.nodes := (topLevelOf_spec tree.body top htop).1
      exact ⟨d, mem_definitions.mpr ⟨_, hplace, hd⟩, hpublic, hname⟩

/-! ## The imports -/

theorem mem_asked_label {label : Label} {source : String} :
    (∃ info, extractImport label = some info ∧ info.source = source) ↔ source ∈ label.asked := by
  cases label with
  | importNames first rest lineno => simp [extractImport, Label.asked, firstPart, eq_comm]
  | importFrom module names level lineno =>
    cases level <;> simp [extractImport, Label.asked, Label.fromText, eq_comm]
  | _ => simp [extractImport, Label.asked]

/-- The imports are of what is looked for. -/
theorem mem_imports {source : String} :
    source ∈ (parseFile filePath content tree).imports ↔ source ∈ tree.asked := by
  have hwalk : ∀ node, node ∈ walk [tree.root] ↔
      node = tree.root ∨ ∃ place ∈ tree.nodes, place.2 = node := by
    intro node
    rw [(walk_perm [tree.root]).mem_iff, placesOf, placesOf, List.append_nil, map_snd_places,
      List.mem_cons, List.mem_map]
    simp [SyntaxTree.nodes, SyntaxTree.root, Node.children]
  have hmem : source ∈ (parseFile filePath content tree).imports ↔
      ∃ node ∈ walk [tree.root], source ∈ node.label.asked := by
    simp only [parseFile, List.mem_map, List.mem_filterMap, ← mem_asked_label]
    grind
  have hroot : tree.root.label.asked = [] := rfl
  simp only [hmem, hwalk, SyntaxTree.asked, List.mem_flatMap]
  constructor
  · intro h
    obtain ⟨node, hnode, hsource⟩ := h
    rcases hnode with rfl | ⟨place, hplace, rfl⟩
    · simp [hroot] at hsource
    · exact ⟨place, hplace, hsource⟩
  · intro h
    obtain ⟨place, hplace, hsource⟩ := h
    exact ⟨place.2, .inr ⟨place, hplace, rfl⟩, hsource⟩

namespace Placement

variable {p : Placement}

/-- The first of two files that is known. -/
theorem first_known {known : List String} {target other file : String} :
    (if target ∈ known then some target else if other ∈ known then some other else none)
        = some file ↔
      file ∈ known ∧ (file = target ∨ file = other ∧ target ∉ known) := by
  by_cases htarget : target ∈ known
  · simp only [htarget, if_true, Option.some.injEq, not_true, and_false, or_false]
    exact ⟨fun h => ⟨h ▸ htarget, h.symm⟩, fun h => h.2.symm⟩
  · simp only [htarget, if_false, not_false_eq_true, and_true]
    by_cases hother : other ∈ known
    · simp only [hother, if_true, Option.some.injEq]
      exact ⟨fun h => ⟨h ▸ hother, .inr h.symm⟩,
        fun h => (h.2.resolve_left fun heq => htarget (heq ▸ h.1)).symm⟩
    · simp only [hother, if_false, reduceCtorEq, false_iff, not_and, not_or]
      exact fun hfile => ⟨fun heq => htarget (heq ▸ hfile), fun heq => hother (heq ▸ hfile)⟩

/-- **What an import leads to.** -/
theorem resolveImport_eq_some {source file : String} :
    resolveImport p.earlier p.filePath source = some file ↔ p.Leads source file := by
  rw [resolveImport, Leads]
  by_cases hrelative : IsRelative source
  · have hdot : source.toList.head? = some '.' := hrelative
    rw [if_pos hdot, if_pos hrelative, resolveRelativeImport]
    exact first_known
  · have hdot : ¬ source.toList.head? = some '.' := hrelative
    rw [if_neg hdot, if_neg hrelative, List.find?_eq_some_iff_append, IsFirstWith]
    simp only [Bool.not_eq_true']
    constructor
    · rintro ⟨hcontains, front, rest, hpaths, hfront⟩
      exact ⟨front, rest, hpaths, hcontains, fun other hother => by simp [hfront other hother]⟩
    · rintro ⟨front, rest, hpaths, hcontains, hfront⟩
      exact ⟨hcontains, front, rest, hpaths, fun other hother => by simpa using hfront other hother⟩

theorem ne_empty_of_mem_candidates {dir : PosixPath} (hdir : dir.Normal) {name file : String}
    (h : file ∈ candidates dir name) : file ≠ "" := by
  rw [candidates] at h
  split at h
  · rw [List.mem_singleton.mp h]
    exact (hdir.join _).str_ne_empty
  · simp only [List.mem_cons, List.not_mem_nil, or_false] at h
    cases h with
    | inl hpackage => exact hpackage ▸ (hdir.join _).str_ne_empty
    | inr hmodule => exact hmodule ▸ (hdir.join _).str_ne_empty

theorem fileOf_ne_empty {source file : String} (h : p.fileOf source = some file) : file ≠ "" := by
  have hmem := List.mem_of_find?_eq_some h
  split at hmem
  · exact ne_empty_of_mem_candidates ((PosixPath.normal_parse _).parent.iterate_parent _) hmem
  · obtain ⟨root, -, hcandidate⟩ := List.mem_flatMap.mp hmem
    exact ne_empty_of_mem_candidates (PosixPath.normal_parse _) hcandidate

/-- The edges of a module. -/
theorem mem_targets {file : String} :
    file ∈ (DependencyGraph.build p.files).targets p.filePath ↔
      ∃ asked ∈ p.tree.asked, p.Leads asked file ∧ file ≠ "" := by
  have hdistinct : (p.files.map ParsedFile.path).Nodup := by
    rw [files, List.map_append, List.map_cons]
    exact p.distinct
  have htargets := DependencyGraph.targets_build hdistinct
  have hpath : p.parsed.path = p.filePath := rfl
  rw [hpath] at htargets
  rw [files, htargets, DependencyGraph.mem_targetsOf]
  simp only [hpath, ← resolveImport_eq_some]
  constructor
  · intro h
    obtain ⟨source, hsource, hresolve⟩ := h
    exact ⟨source, mem_imports.mp hsource, hresolve⟩
  · intro h
    obtain ⟨source, hsource, hresolve⟩ := h
    exact ⟨source, mem_imports.mpr hsource, hresolve⟩

/-- Every definition, every public name and every module that is named is found once exactly where
no function is async or a method, the public definitions are at the top level under different names,
and the imports look for all modules and lead to their files. -/
theorem complete_iff (p : Placement) : p.Complete ↔ p.Plain := by
  have himports : (∀ source ∈ p.tree.modules, source ∈ p.parsed.imports) ↔
      ∀ source ∈ p.tree.modules, source ∈ p.tree.asked := by
    simp only [parsed, mem_imports]
  have hedges : ∀ source file, p.fileOf source = some file →
      (file ∈ (DependencyGraph.build p.files).targets p.filePath ↔
        ∃ asked ∈ p.tree.asked, p.Leads asked file) := by
    intro source file hfile
    rw [mem_targets]
    simp [fileOf_ne_empty hfile]
  constructor
  · intro h
    have hsymbols := symbols_perm_iff.mp h.symbols
    have hexports := (exports_iff h.symbols).mp ⟨h.nodup_exports, h.mem_exports⟩
    exact ⟨hsymbols.1, hsymbols.2, hexports.1, hexports.2, himports.mp h.imports,
      fun source hsource file hfile =>
        (hedges source file hfile).mp (h.edges source hsource file hfile)⟩
  · intro h
    have hsymbols := (@symbols_perm_iff p.filePath p.content p.tree).mpr ⟨h.sync, h.free⟩
    have hexports := (exports_iff hsymbols).mpr ⟨h.topLevel, h.distinct⟩
    exact ⟨hsymbols, hexports.1, hexports.2, himports.mpr h.asked,
      fun source hsource file hfile =>
        (hedges source file hfile).mpr (h.found source hsource file hfile)⟩

/-- A method. -/
def method : Node := .mk (.functionDef ⟨"f", [⟨"self", none⟩], 0, none, none, 2, some 2⟩) [] [] []

/-- A module with a class that has a method. -/
def moduleWithMethod : Placement where
  roots := ["/repo"]
  before := []
  after := []
  filePath := "/repo/a.py"
  content := "class A:\n    def f(self): return 1\n"
  tree :=
    { body := [.mk (.classDef ⟨"A", [], none, 1, some 2⟩) [] [method] []]
      lines := by simp [method, placesOf, places, definitionAt, Label.definition?, Node.label] }
  distinct := by simp

/-- The method is a function as well. -/
theorem not_complete_method : ¬ moduleWithMethod.Complete := by
  intro h
  have hmethod : (true, method) ∈ moduleWithMethod.tree.nodes := by
    simp [moduleWithMethod, SyntaxTree.nodes, placesOf, places, Label.isClass, mem_places_self]
  exact (symbols_perm_iff.mp h.symbols).2 method _ hmethod rfl

end Placement

end DoxAsdlc.RepoMapper.PythonParser
