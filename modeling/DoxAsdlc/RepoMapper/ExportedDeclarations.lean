import DoxAsdlc.RepoMapper.TypeScriptParser

/-!
# How often the TypeScript parser counts a declaration

The walk handles the declarations of an export statement when it meets the statement and again
when it meets the declarations, and whatever is declared anywhere below the statement is listed
as exported.  So each declaration gives its symbols once, and each exported name is listed once,
exactly where nothing is declared below an export statement.

## Main definitions

* `visited` — the nodes of the walk, each with whether it is below an export statement.
* `Declares` — the declarations that the parser handles.
* `OnceEach` — what is promised.

## Main results

* `extractFromNode_symbols`, `extractFromNode_exports` — the walk, node by node.
* `onceEach_iff` — when the promise is kept.
-/

namespace DoxAsdlc.RepoMapper.TypeScriptParser

variable {filePath : String}

/-! ## The nodes of the walk -/

/-- A place of the walk: whether it is below an export statement, and the node. -/
abbrev Place := Bool × Placed

mutual

/-- The places of the walk from a node on. -/
def visited (exported : Bool) (prev : Option SyntaxNode) : SyntaxNode → List Place
  | .mk type text startRow endRow children =>
    (exported, prev, SyntaxNode.mk type text startRow endRow children) ::
      if type ∉ ["class_body", "class_declaration"] then
        visitedNodes (exported || type = "export_statement") none children
      else []

/-- The places of the walk from nodes of one parent on. -/
def visitedNodes (exported : Bool) (prev : Option SyntaxNode) : List SyntaxNode → List Place
  | [] => []
  | node :: nodes => visited exported prev node ++ visitedNodes exported (some node) nodes

end

section

variable {A : Type} {part : Extraction → List A} (happend : ∀ e e', part (e ++ e') = part e ++ part e')
  (hempty : part {} = [])

include happend hempty

mutual

/-- What is collected is what the places of the walk give. -/
theorem part_extractFromNode (exported : Bool) (prev : Option SyntaxNode) : ∀ node,
    part (extractFromNode filePath exported prev node) =
      (visited exported prev node).flatMap fun place => part (handleNode filePath place.1 place.2)
  | .mk type text startRow endRow children => by
    rw [extractFromNode, visited, happend, List.flatMap_cons]
    split
    · rw [part_extractFromNodes]
    · rw [hempty]
      rfl

theorem part_extractFromNodes (exported : Bool) (prev : Option SyntaxNode) : ∀ nodes,
    part (extractFromNodes filePath exported prev nodes) =
      (visitedNodes exported prev nodes).flatMap fun place =>
        part (handleNode filePath place.1 place.2)
  | [] => by
    rw [extractFromNodes, visitedNodes, hempty]
    rfl
  | node :: nodes => by
    rw [extractFromNodes, visitedNodes, happend, List.flatMap_append, part_extractFromNode,
      part_extractFromNodes]

end

end

theorem extractFromNode_symbols {exported : Bool} {prev : Option SyntaxNode} {node : SyntaxNode} :
    (extractFromNode filePath exported prev node).symbols =
      (visited exported prev node).flatMap fun place =>
        (handleNode filePath place.1 place.2).symbols :=
  part_extractFromNode (fun _ _ => rfl) rfl exported prev node

theorem extractFromNode_exports {exported : Bool} {prev : Option SyntaxNode} {node : SyntaxNode} :
    (extractFromNode filePath exported prev node).exports =
      (visited exported prev node).flatMap fun place =>
        (handleNode filePath place.1 place.2).exports :=
  part_extractFromNode (fun _ _ => rfl) rfl exported prev node

theorem mem_visited_self (exported : Bool) (prev : Option SyntaxNode) (node : SyntaxNode) :
    (exported, prev, node) ∈ visited exported prev node := by
  obtain ⟨type, text, startRow, endRow, children⟩ := node
  rw [visited]
  exact List.mem_cons_self

theorem mem_visitedNodes {exported : Bool} {prev : Option SyntaxNode} {nodes : List SyntaxNode}
    {child : Placed} (hchild : child ∈ placed prev nodes) :
    (exported, child) ∈ visitedNodes exported prev nodes := by
  induction nodes generalizing prev with
  | nil => simp [placed] at hchild
  | cons node nodes ih =>
    rw [visitedNodes, List.mem_append]
    cases List.mem_cons.mp hchild with
    | inl hhead => exact .inl (hhead ▸ mem_visited_self exported prev node)
    | inr htail => exact .inr (ih htail)

mutual

/-- Below an export statement the walk comes to every child. -/
theorem child_mem_visited (exported : Bool) (prev : Option SyntaxNode) : ∀ node,
    ∀ place ∈ visited exported prev node, place.2.2.type = "export_statement" →
      ∀ child ∈ placed none place.2.2.children, (true, child) ∈ visited exported prev node
  | .mk type text startRow endRow children => by
    intro place hplace hexport child hchild
    rw [visited] at hplace ⊢
    cases List.mem_cons.mp hplace with
    | inl hhead =>
      subst hhead
      obtain rfl : type = "export_statement" := hexport
      apply List.mem_cons_of_mem
      have hmem : (true, child) ∈ visitedNodes true none children := mem_visitedNodes hchild
      simpa using hmem
    | inr htail =>
      apply List.mem_cons_of_mem
      by_cases hskip : type ∉ ["class_body", "class_declaration"]
      · rw [if_pos hskip] at htail ⊢
        exact children_mem_visited _ none children place htail hexport child hchild
      · rw [if_neg hskip] at htail
        simp at htail

theorem children_mem_visited (exported : Bool) (prev : Option SyntaxNode) : ∀ nodes,
    ∀ place ∈ visitedNodes exported prev nodes, place.2.2.type = "export_statement" →
      ∀ child ∈ placed none place.2.2.children, (true, child) ∈ visitedNodes exported prev nodes
  | [] => by simp [visitedNodes]
  | node :: nodes => by
    intro place hplace hexport child hchild
    rw [visitedNodes, List.mem_append] at hplace ⊢
    cases hplace with
    | inl hnode => exact .inl (child_mem_visited exported prev node place hnode hexport child hchild)
    | inr hnodes =>
      exact .inr (children_mem_visited exported _ nodes place hnodes hexport child hchild)

end

/-! ## Declarations -/

/-- A declaration that the parser handles: of a function, a class, an interface, or of a variable
with a name. -/
def Declares (node : SyntaxNode) : Prop :=
  node.type ∈ ["function_declaration", "class_declaration", "interface_declaration"] ∨
    node.type = "lexical_declaration" ∧ ∃ declarator ∈ node.children,
      declarator.type = "variable_declarator" ∧
        ∃ child ∈ declarator.children, child.type = "identifier"

theorem findChildByType_isSome {node : SyntaxNode} {typeName : String} :
    (findChildByType node typeName).isSome ↔ ∃ child ∈ node.children, child.type = typeName := by
  simp [findChildByType]

theorem extractVariableDeclarations_eq_nil {at_ : Placed} :
    extractVariableDeclarations filePath at_ = [] ↔
      ¬ ∃ declarator ∈ at_.2.children, declarator.type = "variable_declarator" ∧
        ∃ child ∈ declarator.children, child.type = "identifier" := by
  have hname : ∀ declarator, childText declarator "identifier" = none ↔
      ¬ ∃ child ∈ declarator.children, child.type = "identifier" := by
    intro declarator
    rw [← findChildByType_isSome, childText, Option.map_eq_none_iff, Option.not_isSome_iff_eq_none]
  simp only [extractVariableDeclarations, List.filterMap_eq_nil_iff, List.mem_filter,
    decide_eq_true_eq, Option.map_eq_none_iff, hname]
  grind

/-- A node gives symbols where it declares something. -/
theorem symbols_eq_nil {at_ : Placed} :
    (declaration filePath at_).1 = [] ↔ ¬ Declares at_.2 := by
  simp only [declaration, Declares]
  split_ifs with hfunction hclass hinterface hlexical
  · simp [hfunction]
  · simp [hclass]
  · simp [hinterface]
  · rw [extractVariableDeclarations_eq_nil]
    simp [hlexical]
  · simp [hfunction, hclass, hinterface, hlexical]

/-- A node gives names where it gives symbols. -/
theorem names_eq_nil {at_ : Placed} :
    (declaration filePath at_).2 = [] ↔ ¬ Declares at_.2 := by
  rw [← @symbols_eq_nil filePath]
  simp only [declaration]
  split_ifs
  · simp
  · simp
  · simp
  · exact List.map_eq_nil_iff
  · simp

theorem not_declares_export {node : SyntaxNode} (h : node.type = "export_statement") :
    ¬ Declares node := by
  simp [Declares, h]

theorem not_declares_import {node : SyntaxNode} (h : node.type = "import_statement") :
    ¬ Declares node := by
  simp [Declares, h]

/-! ## The promise -/

section

variable (filePath) (rootNode : SyntaxNode)

/-- One symbol for each declaration that the walk visits, and for each method of a class. -/
def declaredSymbols : List SymbolInfo :=
  (visited false none rootNode).flatMap fun place => (declaration filePath place.2).1

/-- The names of the declarations that an export statement exports. -/
def exportedNames : List String :=
  ((visited false none rootNode).filter (·.2.2.type = "export_statement")).flatMap fun place =>
    (placed none place.2.2.children).flatMap fun child => (declaration filePath child).2

/-- Each declaration gives its symbols once, and each exported name is listed once. -/
structure OnceEach : Prop where
  symbols : (extractFromNode filePath false none rootNode).symbols.Perm
    (declaredSymbols filePath rootNode)
  nodup : (extractFromNode filePath false none rootNode).exports.Nodup
  exports : ∀ name, name ∈ (extractFromNode filePath false none rootNode).exports ↔
    name ∈ exportedNames filePath rootNode

end

/-- What a place gives: what it declares, and the declarations of an export statement again. -/
theorem handleNode_symbols (place : Place) :
    (handleNode filePath place.1 place.2).symbols = (declaration filePath place.2).1 ++
      if place.2.2.type = "export_statement" then
        (handleExportStatement filePath place.2.2).symbols else [] := by
  by_cases himport : place.2.2.type = "import_statement"
  · simp [handleNode, himport, symbols_eq_nil.mpr (not_declares_import himport)]
  · by_cases hexport : place.2.2.type = "export_statement"
    · simp [handleNode, hexport, symbols_eq_nil.mpr (not_declares_export hexport)]
    · simp [handleNode, himport, hexport]

theorem length_flatMap_append {A B : Type} {f g : A → List B} {l : List A}
    (h : (l.flatMap fun a => f a ++ g a).length = (l.flatMap f).length) : ∀ a ∈ l, g a = [] := by
  induction l with
  | nil => simp
  | cons a l ih =>
    have hsub : (l.flatMap f).length ≤ (l.flatMap fun a => f a ++ g a).length := by
      simp only [List.length_flatMap, List.length_append]
      exact List.sum_le_sum fun a _ => Nat.le_add_right _ _
    simp only [List.flatMap_cons, List.length_append] at h
    have hhead : g a = [] := List.length_eq_zero_iff.mp (by omega)
    have htail := ih (by omega)
    simpa [hhead] using htail

/-- What is listed as exported by a place that declares something below an export statement. -/
theorem handleNode_exports_ne_nil {place : Place} (hexported : place.1 = true)
    (hdeclares : Declares place.2.2) : (handleNode filePath place.1 place.2).exports ≠ [] := by
  have himport := mt not_declares_import (not_not.mpr hdeclares)
  have hexport := mt not_declares_export (not_not.mpr hdeclares)
  have hnames := mt (@names_eq_nil filePath place.2).mp (not_not.mpr hdeclares)
  simpa [handleNode, himport, hexport, hexported] using hnames

/-- Nothing is declared below an export statement. -/
def NothingExported (rootNode : SyntaxNode) : Prop :=
  ∀ place ∈ visited false none rootNode, place.1 = true → ¬ Declares place.2.2

/-- Without declarations the export statements give nothing. -/
theorem NothingExported.children {rootNode : SyntaxNode} (h : NothingExported rootNode)
    {place : Place} (hplace : place ∈ visited false none rootNode)
    (hexport : place.2.2.type = "export_statement") :
    ∀ child ∈ placed none place.2.2.children, ¬ Declares child.2 := by
  intro child hchild
  exact h (true, child) (child_mem_visited false none rootNode place hplace hexport child hchild) rfl

theorem NothingExported.exportedNames {rootNode : SyntaxNode} (h : NothingExported rootNode) :
    exportedNames filePath rootNode = [] := by
  rw [TypeScriptParser.exportedNames, List.flatMap_eq_nil_iff]
  intro place hplace
  obtain ⟨hplace, hexport⟩ := List.mem_filter.mp hplace
  rw [List.flatMap_eq_nil_iff]
  intro child hchild
  exact names_eq_nil.mpr (h.children hplace (by simpa using hexport) child hchild)

theorem NothingExported.symbols {rootNode : SyntaxNode} (h : NothingExported rootNode) :
    (extractFromNode filePath false none rootNode).symbols =
      declaredSymbols filePath rootNode := by
  rw [extractFromNode_symbols, declaredSymbols]
  apply List.flatMap_congr
  intro place hplace
  rw [handleNode_symbols]
  split
  · next hexport =>
    have hnone : (handleExportStatement filePath place.2.2).symbols = [] := by
      rw [handleExportStatement, List.flatMap_eq_nil_iff]
      intro child hchild
      exact symbols_eq_nil.mpr (h.children hplace hexport child hchild)
    rw [hnone, List.append_nil]
  · rw [List.append_nil]

theorem NothingExported.exports {rootNode : SyntaxNode} (h : NothingExported rootNode) :
    (extractFromNode filePath false none rootNode).exports = [] := by
  rw [extractFromNode_exports, List.flatMap_eq_nil_iff]
  intro place hplace
  by_cases himport : place.2.2.type = "import_statement"
  · simp [handleNode, himport]
  by_cases hexport : place.2.2.type = "export_statement"
  · have hnone : (handleExportStatement filePath place.2.2).exports = [] := by
      rw [handleExportStatement, List.flatMap_eq_nil_iff]
      intro child hchild
      exact names_eq_nil.mpr (h.children hplace hexport child hchild)
    simp [handleNode, hexport, hnone]
  · by_cases hexported : place.1 = true
    · simp [handleNode, himport, hexport, names_eq_nil.mpr (h place hplace hexported)]
    · simp [handleNode, himport, hexport, hexported]

/-- Where every declaration is counted once, the export statements declare nothing. -/
theorem OnceEach.exportedNames {rootNode : SyntaxNode} (h : OnceEach filePath rootNode) :
    exportedNames filePath rootNode = [] := by
  have hlength := h.symbols.length_eq
  rw [extractFromNode_symbols, declaredSymbols] at hlength
  simp only [handleNode_symbols] at hlength
  have hnone := length_flatMap_append hlength
  rw [TypeScriptParser.exportedNames, List.flatMap_eq_nil_iff]
  intro place hplace
  obtain ⟨hplace, hexport⟩ := List.mem_filter.mp hplace
  have hsymbols := hnone place hplace
  rw [if_pos (by simpa using hexport), handleExportStatement, List.flatMap_eq_nil_iff] at hsymbols
  rw [List.flatMap_eq_nil_iff]
  intro child hchild
  exact names_eq_nil.mpr (symbols_eq_nil.mp (hsymbols child hchild))

/-- Every declaration is counted once, and every exported name listed once, exactly where nothing
is declared below an export statement. -/
theorem onceEach_iff (filePath : String) (rootNode : SyntaxNode) :
    OnceEach filePath rootNode ↔ NothingExported rootNode := by
  constructor
  · intro h place hplace hexported hdeclares
    have hexports : (extractFromNode filePath false none rootNode).exports = [] := by
      rw [List.eq_nil_iff_forall_not_mem]
      intro name hname
      simpa [h.exportedNames] using (h.exports name).mp hname
    rw [extractFromNode_exports, List.flatMap_eq_nil_iff] at hexports
    exact handleNode_exports_ne_nil hexported hdeclares (hexports place hplace)
  · intro h
    constructor
    · rw [h.symbols]
    · simp [h.exports]
    · simp [h.exports, h.exportedNames]

/-- `export function f() {}`. -/
def exportedFunction : SyntaxNode :=
  .mk "program" "export function f() \x7b\x7d" 0 0
    [.mk "export_statement" "export function f() \x7b\x7d" 0 0
      [.leaf "export" "export" 0,
        .mk "function_declaration" "function f() \x7b\x7d" 0 0
          [.leaf "function" "function" 0, .leaf "identifier" "f" 0,
            .mk "formal_parameters" "()" 0 0 [.leaf "(" "(" 0, .leaf ")" ")" 0],
            .mk "statement_block" "\x7b\x7d" 0 0 [.leaf "\x7b" "\x7b" 0, .leaf "\x7d" "\x7d" 0]]]]

/-- The function is counted twice, and its name is listed twice. -/
theorem exportedFunction_twice : ¬ OnceEach "f.ts" exportedFunction := by
  intro h
  have hexports : (extractFromNode "f.ts" false none exportedFunction).exports = ["f", "f"] := by
    decide
  have hnodup := h.nodup
  simp [hexports] at hnodup

end DoxAsdlc.RepoMapper.TypeScriptParser
