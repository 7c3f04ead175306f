import SourceOutline.Proofs.Outline.Parameters
import SourceOutline.Proofs.Python.FormFeedRules

/-! The outline of a source with a form feed in front of a row: when there is one, and what it is. -/

namespace SourceOutline

/-- A function without the source of its definition. -/
def FunctionOutline.textless (function : FunctionOutline) : FunctionOutline := { function with text := "" }

/-- A class without the source of its definition and those of its methods. -/
def ClassOutline.textless (owner : ClassOutline) : ClassOutline :=
  { owner with text := "", methods := owner.methods.map FunctionOutline.textless }

/-- An outline without the sources of definitions. -/
def ModuleOutline.textless (outline : ModuleOutline) : ModuleOutline :=
  { outline with
    functions := outline.functions.map FunctionOutline.textless
    classes := outline.classes.map ClassOutline.textless }

/-- Outlines one after the other lose their sources one by one. -/
theorem ModuleOutline.textless_append (first second : ModuleOutline) :
    (first ++ second).textless = first.textless ++ second.textless := by
  show ModuleOutline.mk _ _ _ _ _ = ModuleOutline.mk _ _ _ _ _
  simp only [ModuleOutline.functions_append, ModuleOutline.classes_append, ModuleOutline.imports_append,
    ModuleOutline.exports_append, ModuleOutline.omissions_append, List.map_append, ModuleOutline.textless]

namespace Python

/-- The child of a node in a role is in that role. -/
theorem role_of_child? {node child : Node} {role : Role} (found : node.child? role = some child) :
    child.role = role := by
  have same := List.find?_some found
  exact beq_iff_eq.mp same

/-- Only statements of expressions consist of literals. -/
theorem literalText_of_ne {source : List Char} {statement : Node} (other : statement.kind ≠ .expressionStatement) :
    literalText source statement = none := by
  unfold literalText
  split
  · rename_i kind _
    exact absurd kind other
  · rfl

section

variable {front : List Char} {node node' : Node}

namespace Node.Displaced

/-- Displaced nodes are of one kind. -/
theorem kind (displaced : Node.Displaced front node node') : node'.kind = node.kind := by
  cases displaced with
  | above alike | behind alike => exact alike.kind
  | frame => rfl

/-- Displaced nodes are in one role. -/
theorem role (displaced : Node.Displaced front node node') : node'.role = node.role := by
  cases displaced with
  | above alike | behind alike => exact alike.role
  | frame => rfl

/-- Displaced nodes start in the same row. -/
theorem line (displaced : Node.Displaced front node node') : node'.line = node.line := by
  rw [Node.line, Node.line]
  congr 1
  cases displaced with
  | above alike => exact (Python.Displaced.row (.inl alike.start))
  | behind alike => exact (Python.Displaced.row (.inr alike.start))
  | frame spans lower row inside => exact row

/-- The parts of displaced nodes are displaced. -/
theorem children (displaced : Node.Displaced front node node') :
    List.Forall₂ (Node.Displaced front) node.children node'.children := by
  cases displaced with
  | above alike => exact alike.children.imp fun _ _ => .above
  | behind alike => exact alike.children.imp fun _ _ => .behind
  | frame spans lower row inside => exact inside

/-- The named parts of displaced nodes are displaced. -/
theorem namedChildren (displaced : Node.Displaced front node node') :
    List.Forall₂ (Node.Displaced front) node.namedChildren node'.namedChildren :=
  filter_rel (fun _ _ displaced => by rw [Node.isNamed, Node.isNamed, displaced.kind]) displaced.children

/-- The children of displaced nodes in one role are displaced. -/
theorem child? (displaced : Node.Displaced front node node') (role : Role) :
    Option.Rel (Node.Displaced front) (node.child? role) (node'.child? role) :=
  find?_rel (fun _ _ displaced => by rw [displaced.role]) displaced.children

/-- Displaced nodes that do not extend over several lines are displaced as a whole, with their texts. -/
theorem whole (displaced : Node.Displaced front node node')
    (single : node.kind.spansLines = false ∨ node.role.spansLines = false) (back : List Char) :
    ∃ same, SameTexts (front ++ back) (front ++ '\x0c' :: back) same ∧ Node.Alike same node node' := by
  cases displaced with
  | above alike => exact ⟨_, precedes_sameTexts front back, alike⟩
  | behind alike => exact ⟨_, follows_sameTexts front back, alike⟩
  | frame spans lower row inside =>
    rcases single with kind | role
    · exact absurd (spans.symm.trans kind) (by decide)
    · exact absurd (lower.symm.trans role) (by decide)

/-- Parts of headers are displaced as a whole, with their texts. -/
theorem child?_whole (displaced : Node.Displaced front node node') (role : Role) (single : role.spansLines = false)
    (back : List Char) : node.child? role = none ∧ node'.child? role = none ∨
      ∃ child child' same, node.child? role = some child ∧ node'.child? role = some child' ∧
        SameTexts (front ++ back) (front ++ '\x0c' :: back) same ∧ Node.Alike same child child' := by
  have both := displaced.child? role
  cases found : node.child? role with
  | none =>
    rw [found] at both
    exact .inl ⟨rfl, eq_none_of_rel_none both⟩
  | some child =>
    rw [found] at both
    obtain ⟨child', found', parts⟩ := exists_of_rel_some both
    obtain ⟨same, texts, alike⟩ := parts.whole (.inr (role_of_child? found ▸ single)) back
    exact .inr ⟨child, child', same, rfl, found', texts, alike⟩

variable (back : List Char)

/-- The result of a displaced function has the same type. -/
theorem returns_eq (displaced : Node.Displaced front node node') :
    (node'.child? .returns).map (Node.collapsed (front ++ '\x0c' :: back)) =
      (node.child? .returns).map (Node.collapsed (front ++ back)) := by
  rcases displaced.child?_whole .returns rfl back with ⟨none, none'⟩ | ⟨type, type', same, found, found', texts, alike⟩
  · rw [none, none']
    rfl
  · rw [found, found', Option.map_some, Option.map_some, texts.collapsed_eq alike]

/-- The parameters of a displaced function are listed alike. -/
theorem parameters_eq (displaced : Node.Displaced front node node') :
    listedParameters (front ++ '\x0c' :: back) (((node'.child? .parameters).map Node.namedChildren).getD []) =
      listedParameters (front ++ back) (((node.child? .parameters).map Node.namedChildren).getD []) := by
  rcases displaced.child?_whole .parameters rfl back with
    ⟨none, none'⟩ | ⟨list, list', same, found, found', texts, alike⟩
  · rw [none, none']
    rfl
  · rw [found, found']
    exact texts.listedParameters_eq alike.namedChildren

/-- A displaced class is derived from the same classes. -/
theorem bases_eq (displaced : Node.Displaced front node node') :
    baseNames (front ++ '\x0c' :: back) node' = baseNames (front ++ back) node := by
  rcases displaced.child?_whole .bases rfl back with ⟨none, none'⟩ | ⟨list, list', same, found, found', texts, alike⟩
  · rw [baseNames, baseNames, none, none']
    rfl
  · refine texts.baseNames_eq ?_
    rw [found, found']
    exact alike.namedChildren

/-- A displaced definition says the same about itself. -/
theorem bodyDoc_eq (displaced : Node.Displaced front node node') :
    bodyDoc (front ++ '\x0c' :: back) node' = bodyDoc (front ++ back) node := by
  have body := displaced.child? .body
  unfold bodyDoc
  generalize node.child? .body = block, node'.child? .body = block' at body ⊢
  cases body with
  | none => rfl
  | @some block block' blocks =>
    have found : Option.Rel (Node.Displaced front) (block.namedChildren.find? fun part => !part.isComment)
        (block'.namedChildren.find? fun part => !part.isComment) :=
      find?_rel (fun _ _ displaced => by rw [Node.isComment, Node.isComment, displaced.kind]) blocks.namedChildren
    rw [Option.bind_some, Option.bind_some, docstring_eq_bind, docstring_eq_bind]
    generalize (block.namedChildren.find? fun part => !part.isComment) = first,
      (block'.namedChildren.find? fun part => !part.isComment) = first' at found ⊢
    cases found with
    | none => rfl
    | @some first first' firsts =>
      rw [Option.bind_some, Option.bind_some]
      by_cases expression : first.kind = .expressionStatement
      · obtain ⟨same, texts, alike⟩ := firsts.whole (.inl (by rw [expression]; rfl)) back
        rw [texts.literalText_eq alike]
      · rw [literalText_of_ne expression, literalText_of_ne (firsts.kind ▸ expression)]

/-- Displaced functions have the same outline, apart from their sources. -/
theorem functionOutline_eq (displaced : Node.Displaced front node node') (span span' : Node) :
    (functionOutline (front ++ '\x0c' :: back) node' span').map FunctionOutline.textless =
      (functionOutline (front ++ back) node span).map FunctionOutline.textless := by
  have isAsync : (node'.children.any fun child => child.kind == .asyncKeyword) =
      node.children.any fun child => child.kind == .asyncKeyword :=
    any_rel (fun _ _ displaced => by rw [displaced.kind]) displaced.children
  unfold functionOutline
  rcases displaced.child?_whole .name rfl back with ⟨none, none'⟩ | ⟨name, name', same, found, found', texts, alike⟩
  · rw [none, none']
    rfl
  · simp only [found, found', Option.map_some, FunctionOutline.foldl_addParameter, FunctionOutline.textless,
      texts.text_eq alike, displaced.line, isAsync, displaced.returns_eq back, displaced.bodyDoc_eq back,
      displaced.parameters_eq back]

/-- The definitions below the decorators of displaced statements are displaced. -/
theorem definitionOf_rel (displaced : Node.Displaced front node node') :
    Option.Rel (Node.Displaced front) (definitionOf node) (definitionOf node') := by
  unfold definitionOf
  rw [displaced.kind]
  split
  · exact .some displaced
  · exact .some displaced
  · exact displaced.child? .definition
  · exact .none

/-- Displaced statements define the same methods, apart from their sources. -/
theorem methodOutline_eq (displaced : Node.Displaced front node node') :
    ((methodOutline (front ++ '\x0c' :: back) node').1.map FunctionOutline.textless,
        (methodOutline (front ++ '\x0c' :: back) node').2) =
      ((methodOutline (front ++ back) node).1.map FunctionOutline.textless,
        (methodOutline (front ++ back) node).2) := by
  have definition := displaced.definitionOf_rel
  unfold methodOutline
  generalize definitionOf node = found, definitionOf node' = found' at definition ⊢
  cases definition with
  | none => rfl
  | @some inner inner' inners =>
    have function := inners.functionOutline_eq back node node'
    simp only [inners.kind, inners.line]
    generalize functionOutline (front ++ back) inner node = method,
      functionOutline (front ++ '\x0c' :: back) inner' node' = method' at function ⊢
    cases method with
    | none =>
      rw [Option.map_none, Option.map_eq_none_iff] at function
      rw [function]
    | some method =>
      obtain ⟨method', rfl, same⟩ := Option.map_eq_some_iff.mp function
      split
      · simp [same]
      · rfl

/-- Displaced classes have the same outline, apart from their sources. -/
theorem classOutline_eq (displaced : Node.Displaced front node node') (span span' : Node) :
    (classOutline (front ++ '\x0c' :: back) node' span').map (fun found => (found.1.textless, found.2)) =
      (classOutline (front ++ back) node span).map fun found => (found.1.textless, found.2) := by
  have members : List.Forall₂ (Node.Displaced front) (((node.child? .body).map Node.namedChildren).getD [])
      (((node'.child? .body).map Node.namedChildren).getD []) := by
    have body := displaced.child? .body
    generalize node.child? .body = block, node'.child? .body = block' at body ⊢
    cases body with
    | none => exact .nil
    | some blocks => exact blocks.namedChildren
  have methods := map_eq_of_rel (fun _ _ member => member.methodOutline_eq back) members
  have functions := congrArg (List.flatMap Prod.fst) methods
  have notes := congrArg (List.flatMap Prod.snd) methods
  simp only [List.flatMap_map] at functions notes
  unfold classOutline
  rcases displaced.child?_whole .name rfl back with ⟨none, none'⟩ | ⟨name, name', same, found, found', texts, alike⟩
  · rw [none, none']
    rfl
  · simp only [found, found', Option.map_some, ClassOutline.textless, texts.text_eq alike, displaced.line,
      displaced.bases_eq back, displaced.bodyDoc_eq back, List.flatMap_map, List.map_flatMap, functions, notes]

/-- Displaced definitions have the same outline, apart from their sources. -/
theorem definitionOutline_eq (displaced : Node.Displaced front node node') (span span' : Node) :
    (definitionOutline (front ++ '\x0c' :: back) node' span').textless =
      (definitionOutline (front ++ back) node span).textless := by
  have function := displaced.functionOutline_eq back span span'
  have owner := displaced.classOutline_eq back span span'
  unfold definitionOutline
  rw [displaced.kind, displaced.line]
  split
  · generalize functionOutline (front ++ back) node span = found,
      functionOutline (front ++ '\x0c' :: back) node' span' = found' at function ⊢
    cases found with
    | none =>
      rw [Option.map_none, Option.map_eq_none_iff] at function
      rw [function]
    | some found =>
      obtain ⟨found', rfl, same⟩ := Option.map_eq_some_iff.mp function
      simp [ModuleOutline.textless, same]
  · generalize classOutline (front ++ back) node span = found,
      classOutline (front ++ '\x0c' :: back) node' span' = found' at owner ⊢
    cases found with
    | none =>
      rw [Option.map_none, Option.map_eq_none_iff] at owner
      rw [owner]
    | some found =>
      obtain ⟨found', rfl, same⟩ := Option.map_eq_some_iff.mp owner
      obtain ⟨first, second⟩ := Prod.mk.inj same
      simp [ModuleOutline.textless, first, second]
  · rfl

/-- Displaced statements have the same outline, apart from the sources of definitions. -/
theorem statementOutline_eq (displaced : Node.Displaced front node node') :
    (statementOutline (front ++ '\x0c' :: back) node').textless =
      (statementOutline (front ++ back) node).textless := by
  have definition := displaced.child? .definition
  unfold statementOutline
  rw [displaced.kind, displaced.line]
  split
  · exact displaced.definitionOutline_eq back node node'
  · exact displaced.definitionOutline_eq back node node'
  · generalize node.child? .definition = found, node'.child? .definition = found' at definition ⊢
    cases definition with
    | none => rfl
    | some inner => exact inner.definitionOutline_eq back node node'
  · rename_i kind
    obtain ⟨same, texts, alike⟩ := displaced.whole (.inl (by rw [kind]; rfl)) back
    rw [texts.collapsed_eq alike]
  · rfl

end Node.Displaced

/-- The trees have the same outline, apart from the sources of definitions. -/
theorem TreeDisplaced.treeOutline_eq (displaced : TreeDisplaced front node node') (back : List Char) :
    (treeOutline (front ++ '\x0c' :: back) node').textless = (treeOutline (front ++ back) node).textless := by
  have statements : List.Forall₂ (Node.Displaced front) node.namedChildren node'.namedChildren :=
    filter_rel (fun _ _ displaced => by rw [Node.isNamed, Node.isNamed, displaced.kind]) displaced.parts
  unfold treeOutline
  generalize node.namedChildren = found, node'.namedChildren = found' at statements ⊢
  induction statements with
  | nil => rfl
  | cons first rest ih =>
    simp only [List.map_cons, List.foldr_cons, ModuleOutline.textless_append, ih, first.statementOutline_eq back]

end

/-- A source with a form feed in front of a row where nothing is open is accepted exactly when the tree of the source
tolerates it, and then everything in the outline is the same, apart from the sources of definitions. -/
theorem outline_formFeed {front back : List Char} {listed : ModuleOutline}
    (accepted : outline (front ++ back) = .ok listed) (starts : StartsRow front back) :
    ∃ tree, parse (front ++ back) = some tree ∧
      ((∃ copied, outline (front ++ '\x0c' :: back) = .ok copied) ↔
        Tolerates (rowsOf (front ++ back)) (Mark.pass {} front).row tree) ∧
      ∀ copied, outline (front ++ '\x0c' :: back) = .ok copied → copied.textless = listed.textless := by
  obtain ⟨tree, parsed, checked, rfl⟩ := outline_eq_ok.mp accepted
  obtain ⟨tree', parsed', displaced⟩ := exists_treeDisplaced starts parsed
  have legal := isLegal_displaced (rowIndent_formFeed starts.flush back) displaced.toPartsAlike
    ((checkStructure_eq_ok_iff _ _).mp checked)
  rw [← checkStructure_eq_ok_iff] at legal
  refine ⟨tree, parsed, ?_, fun copied found => ?_⟩
  · rw [← legal]
    constructor
    · rintro ⟨copied, found⟩
      obtain ⟨other, again, checked', -⟩ := outline_eq_ok.mp found
      cases parsed'.symm.trans again
      exact checked'
    · exact fun checked' => ⟨_, outline_eq_ok.mpr ⟨tree', parsed', checked', rfl⟩⟩
  · obtain ⟨other, again, -, rfl⟩ := outline_eq_ok.mp found
    cases parsed'.symm.trans again
    exact displaced.treeOutline_eq back

/-- A form feed in front of the only statement of a body is tolerated, and one in front of the definition is not. -/
theorem outline_formFeed_body :
    let header := "def f(a):\n".toList
    let body := "    'd'\n".toList
    ∃ listed, outline (header ++ body) = .ok listed ∧
      (∃ copied, outline (header ++ '\x0c' :: body) = .ok copied ∧ copied.textless = listed.textless) ∧
      ∃ tree, parse (header ++ body) = some tree ∧ ¬Tolerates (rowsOf (header ++ body)) 0 tree := by
  intro header body
  have rows : ((pieces (header ++ body)).map rowsBetween).any (fun rows =>
      rows.length == 3 && textOf ((rows.take 1).flatMap (· ++ [feed])) == header) = true := by
    decide +kernel
  obtain ⟨all, between, rows⟩ := (Option.any_eq_true _ _).mp rows
  obtain ⟨own, cut, rfl⟩ := Option.map_eq_some_iff.mp between
  simp only [Bool.and_eq_true, beq_iff_eq] at rows
  obtain ⟨count, text⟩ := rows
  obtain ⟨first, second, third, split⟩ := List.length_eq_three.mp count
  rw [split] at text
  have fine : (outline (header ++ body)).isOk = true := by decide +kernel
  have fine' : (outline (header ++ '\x0c' :: body)).isOk = true := by decide +kernel
  obtain ⟨listed, accepted⟩ := isOk_outline_iff.mp fine
  obtain ⟨copied, copy⟩ := isOk_outline_iff.mp fine'
  obtain ⟨_, _, _, same⟩ := outline_formFeed accepted ⟨own, [first], second, [third], cut, split, text⟩
  obtain ⟨tree, parsed, tolerated, _⟩ := @outline_formFeed [] (header ++ body) listed accepted
    ⟨own, [], first, [second, third], cut, split, rfl⟩
  refine ⟨listed, accepted, ⟨copied, copy, same copied copy⟩, tree, parsed, fun tolerates => ?_⟩
  have refused : (outline ('\x0c' :: (header ++ body))).isOk = false := by decide +kernel
  exact Bool.false_ne_true (refused.symm.trans (isOk_outline_iff.mpr (tolerated.mpr tolerates)))

end Python

end SourceOutline
