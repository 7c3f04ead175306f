import SourceOutline.Proofs.Outline.Rendering
import SourceOutline.Proofs.Python.Roundtrip
import SourceOutline.Proofs.Python.Standing
import SourceOutline.Proofs.Script.RecordNames

/-! Every record of an outline has a name, except for methods whose key is the literal of the empty text. -/

namespace SourceOutline

namespace Python

variable {source : List Char} {tree definition : Node}

/-- A part of a tree is spelled with the tokens of the tree. -/
theorem Within.spelled {given : List Token} (within : Within tree definition) (spelled : tree.Spelled given) :
    definition.Spelled given := by
  induction within with
  | refl => exact spelled
  | tail _ member ih => exact ih.children _ member

/-- A token that is written has a text. -/
theorem Encloses.text_ne_nil {given : List Token} (stands : ∀ token ∈ given, token.Stands source) {node : Node}
    (encloses : Encloses given node.start node.stop) : node.text source ≠ [] := by
  obtain ⟨token, member, written, starts, stops⟩ := encloses
  obtain ⟨front, word, inside, begins, ends, plain⟩ := stands token member
  have same : node.text source = word := by
    refine Python.textBetween_eq inside ?_ ?_
    · rw [← starts, begins, offset_pass]
      exact Nat.zero_add _
    · rw [← stops, ends, offset_pass]
      exact Nat.zero_add _
  exact same ▸ (plain written).1

/-- The name of a definition is an identifier that is written in the source. -/
theorem name_ne_nil (parsed : parse source = some tree) (within : Within tree definition)
    (kind : definition.kind.isNamed = true) {name : Node} (named : definition.child? .name = some name) :
    name.text source ≠ [] := by
  obtain ⟨given, spelled, stands⟩ := exists_spelled parsed
  have own := (within.spelled spelled).formed.named kind name named
  exact ((within.child named).spelled spelled).formed.token (by rw [own]; rfl) |>.text_ne_nil stands

/-- Functions and methods of an accepted source have names. -/
theorem function_named (parsed : parse source = some tree) {function : FunctionOutline}
    (lists : (treeOutline source tree).Lists function) : function.name ≠ "" := by
  obtain ⟨definition, span, within, kind, outlined, _⟩ := defines_of_lists lists
  obtain ⟨name, named, rfl⟩ := Option.map_eq_some_iff.mp outlined
  rw [FunctionOutline.foldl_addParameter]
  intro empty
  exact name_ne_nil parsed within (by rw [kind]; rfl) named (by simpa using congrArg String.toList empty)

/-- Classes of an accepted source have names. -/
theorem class_named (parsed : parse source = some tree) {owner : ClassOutline}
    (member : owner ∈ (treeOutline source tree).classes) : owner.name ≠ "" := by
  obtain ⟨definition, span, notes, within, kind, outlined⟩ := exists_of_mem_classes member
  obtain ⟨name, named, same⟩ := Option.map_eq_some_iff.mp outlined
  rw [← (Prod.mk.inj same).1]
  intro empty
  exact name_ne_nil parsed within (by rw [kind]; rfl) named (by simpa using congrArg String.toList empty)

end Python

open Script in
/-- Functions and classes have names, which are the placeholder where the source tells none, and so have methods,
except for those whose key is the literal of the empty text: their names are empty. -/
theorem records_named {text : List Char} (window : Nat) {tree : SyntaxTree} (legible : tree.IsLegible text)
    {source : List Char} {listed : ModuleOutline} (accepted : Python.outline source = .ok listed) :
    ((outline text window tree).functions.map FunctionOutline.name = tree.functionNames.map (·.getD anonymous) ∧
      (∀ function ∈ (outline text window tree).functions, function.name ≠ "") ∧
      List.Forall₂ NamesClass tree.classes (outline text window tree).classes) ∧
    (∀ function, listed.Lists function → function.name ≠ "") ∧ ∀ owner ∈ listed.classes, owner.name ≠ "" := by
  have names := names_functions text window tree
  refine ⟨⟨names, fun function member => ?_, namesClasses window legible.classes legible.keys⟩, ?_⟩
  · have listed : function.name ∈ tree.functionNames.map (·.getD anonymous) := names ▸ List.mem_map_of_mem member
    obtain ⟨name, among, same⟩ := List.mem_map.mp listed
    rw [← same]
    exact getD_anonymous_ne_empty fun empty => legible.functions (empty ▸ among)
  · obtain ⟨tree, parsed, _, rfl⟩ := Python.outline_eq_ok.mp accepted
    exact ⟨fun function => Python.function_named parsed, fun owner => Python.class_named parsed⟩

open Script in
/-- The literal of the empty text is the only key that leaves a method without a name. -/
theorem records_named_literals :
    ∃ tree : SyntaxTree, tree.IsLegible "class A \x7b ''() \x7b\x7d 1() \x7b\x7d \x7d".toList ∧
      (∃ owner, (outline "class A \x7b ''() \x7b\x7d 1() \x7b\x7d \x7d".toList 10 tree).classes = [owner] ∧
        owner.name ≠ "" ∧ ∃ first second, owner.methods = [first, second] ∧ first.name = "" ∧ second.name ≠ "") ∧
      ∃ listed, Python.outline "def f():\n    pass\n".toList = .ok listed ∧
        ∀ function, listed.Lists function → function.name ≠ "" := by
  let place (start stop : Int) : Json := .object
    [("start", .object [("line", .int 1), ("column", .int start)]),
      ("end", .object [("line", .int 1), ("column", .int stop)])]
  let key (value : Json) (start stop : Int) : Json := .object
    [("type", .string "Literal"), ("value", value), ("loc", place start stop)]
  let method (key : Json) (start stop : Int) : Json := .object
    [("type", .string "MethodDefinition"), ("key", key),
      ("value", .object [("params", .array []), ("loc", place start stop)]), ("loc", place start stop)]
  let members := [method (key (.string "") 10 12) 10 17, method (key (.int 1) 18 19) 18 24]
  let node : Json := .object
    [("type", .string "ClassDeclaration"),
      ("id", .object [("type", .string "Identifier"), ("name", .string "A")]),
      ("body", .object [("body", .array members)]), ("loc", place 0 26)]
  let span (start stop : Nat) : Span := ⟨⟨1, start⟩, ⟨1, stop⟩⟩
  let definition : Script.Class := ⟨some ⟨"A", none⟩, none, members, span 0 26⟩
  let literal (value : Json) (start stop : Nat) : Script.Node :=
    .mk "Literal" none none (some value) none none (some (span start stop))
  have decoded : Statement.decode .outer node = .ok (.classDef definition) := by
    rw [Statement.decode]
    rfl
  have functions : (⟨[node]⟩ : SyntaxTree).functionNames = [] := by
    simp only [SyntaxTree.functionNames, SyntaxTree.declarations, List.filterMap_cons, decoded]
    rfl
  have classes : (⟨[node]⟩ : SyntaxTree).classes = [definition] := by
    simp only [SyntaxTree.classes, SyntaxTree.declarations, List.filterMap_cons, decoded]
    rfl
  have keys : definition.methodKeys = [literal (.string "") 10 12, literal (.int 1) 18 19] := by
    cbv
  have legible : SyntaxTree.IsLegible "class A \x7b ''() \x7b\x7d 1() \x7b\x7d \x7d".toList ⟨[node]⟩ := by
    refine ⟨by simp [functions], by rw [classes]; decide, ?_⟩
    rw [classes, List.forall_mem_singleton, keys, List.forall_mem_cons, List.forall_mem_singleton]
    refine ⟨⟨by decide, ?_⟩, by decide, ?_⟩
    · rintro _ ⟨⟩
      exact ⟨10, 12, by decide⟩
    · rintro _ ⟨⟩
      exact ⟨18, 19, by decide⟩
  have fine : (Python.outline "def f():\n    pass\n".toList).isOk = true := by decide +kernel
  obtain ⟨listed, accepted⟩ := Python.isOk_outline_iff.mp fine
  obtain ⟨⟨-, -, each⟩, named, -⟩ := records_named 10 legible accepted
  rw [classes] at each
  obtain ⟨owner, others, own, none, same⟩ := List.forall₂_cons_left_iff.mp each
  have methods := own.methods
  rw [keys] at methods
  obtain ⟨first, later, empty, rest, split⟩ := List.forall₂_cons_left_iff.mp methods
  obtain ⟨second, last, number, done, split'⟩ := List.forall₂_cons_left_iff.mp rest
  rw [List.forall₂_nil_left_iff.mp done] at split'
  rw [List.forall₂_nil_left_iff.mp none] at same
  refine ⟨⟨[node]⟩, legible, ⟨owner, same, own.nonempty, first, second, by rw [split, split'], ?_, ?_⟩, listed,
    accepted, named⟩
  · exact empty.empty.mpr ⟨.inl rfl, rfl⟩
  · exact fun nameless => absurd (number.empty.mp nameless).2 (by simp [literal, Script.Node.value])

end SourceOutline
