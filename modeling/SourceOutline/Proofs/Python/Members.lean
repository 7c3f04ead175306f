import SourceOutline.Proofs.Python.Nesting
import SourceOutline.Proofs.Python.Shift

/-! The methods of the classes at the top: the statements that define them, and what their texts spell. -/

namespace SourceOutline.Python

open Text

/-- A statement in the body of the definition that another statement consists of. -/
def IsMember (span part : Node) : Prop :=
  ∃ definition block, definitionOf span = some definition ∧ definition.child? .body = some block ∧
    part ∈ block.namedChildren

section

variable {source : List Char} {span part : Node} {owner : ClassOutline} {method : FunctionOutline}

/-- A method is defined by a statement in the body of its class. -/
theorem exists_member (among : owner ∈ (statementOutline source span).classes) (member : method ∈ owner.methods) :
    ∃ part, IsMember span part ∧ method ∈ (methodOutline source part).1 := by
  obtain ⟨definition, of⟩ := exists_definitionOf (.inr (List.ne_nil_of_mem among))
  rw [statementOutline_of_definitionOf of] at among
  unfold definitionOutline at among
  split at among
  · cases found : functionOutline source definition span <;> simp [found] at among
  · cases found : classOutline source definition span with
    | none => simp [found] at among
    | some both =>
      obtain ⟨other, omissions⟩ := both
      obtain rfl : owner = other := by simpa [found] using among
      obtain ⟨name, _, same⟩ := Option.map_eq_some_iff.mp found
      rw [← (Prod.mk.inj same).1] at member
      obtain ⟨listed, inside, member⟩ := List.mem_flatMap.mp member
      obtain ⟨part, below, rfl⟩ := List.mem_map.mp inside
      refine ⟨part, ?_, member⟩
      cases body : definition.child? .body with
      | none => simp [body] at below
      | some block => exact ⟨definition, block, of, body, by simpa [body] using below⟩
  · simp at among

/-- The statement that defines a method is the definition of a function, maybe with decorators. -/
theorem exists_function_of_method (member : method ∈ (methodOutline source part).1) :
    ∃ definition, definitionOf part = some definition ∧ definition.kind = .functionDefinition ∧
      functionOutline source definition part = some method := by
  unfold methodOutline at member
  split at member
  · rename_i definition of
    split at member
    · rename_i isFunction
      cases found : functionOutline source definition part with
      | none => simp [found] at member
      | some function =>
        obtain rfl : method = function := by simpa [found] using member
        exact ⟨definition, of, beq_iff_eq.mp isFunction, found⟩
    · simp at member
  · simp at member

/-- The text of a definition in the body of one at the top holds that definition and nothing else. -/
theorem exists_excerpt_of_member {tree : Node} (parsed : parse source = some tree) (top : span ∈ tree.namedChildren)
    (isMember : IsMember span part) (defines : part.kind.defines = true) :
    ∃ level front text back again, Excerpt source part front text back again ∧ IsAlone level text again := by
  obtain ⟨definition, block, of, body, inside⟩ := isMember
  obtain ⟨layout, laid, begins⟩ := begins_of_parse parsed (List.mem_filter.mp top).1 (defines_of_definitionOf of)
  obtain ⟨_, _, later⟩ := begins.inside of body
  obtain ⟨level, begins⟩ := later part (List.mem_filter.mp inside).1 defines
  obtain ⟨front, text, back, again, both⟩ := exists_alone laid begins defines
  exact ⟨level, front, text, back, again, both⟩

/-- The block that holds a statement of the body of a definition at the top occurs in the tree. -/
theorem exists_occurs_of_member {tree : Node} (parsed : parse source = some tree) (top : span ∈ tree.namedChildren)
    (isMember : IsMember span part) : ∃ block, Occurs tree block ∧ part ∈ block.namedChildren := by
  obtain ⟨definition, block, of, body, inside⟩ := isMember
  obtain ⟨layout, laid, begins⟩ := begins_of_parse parsed (List.mem_filter.mp top).1 (defines_of_definitionOf of)
  obtain ⟨defines, kind, _⟩ := begins.inside of body
  have named : block ∈ definition.namedChildren :=
    List.mem_filter.mpr ⟨List.mem_of_find?_eq_some body, by rw [Node.isNamed, kind]; rfl⟩
  have occurs : Occurs tree definition := (Occurs.part .root top).trans (occurs_definitionOf of defines)
  exact ⟨block, occurs.part named, inside⟩

end

/-- The text of every method of an accepted source has the tokens of its definition in the source; and it has the
string literals exactly when the definition stands at the first column, or no line that starts in a literal starts with
a blank and none that ends in one ends with a carriage return. -/
theorem spelled_method_text {source : List Char} {outlined : ModuleOutline}
    (extracted : outline source = .ok outlined) :
    ∀ owner ∈ outlined.classes, ∀ method ∈ owner.methods, ∃ span part, IsTop source span ∧
      owner ∈ (statementOutline source span).classes ∧ IsMember span part ∧ method ∈ (methodOutline source part).1 ∧
      ∃ found others, pieces (part.text source) = some found ∧ pieces method.text.toList = some others ∧
        (spelled others).filter Item.isToken = (spelled found).filter Item.isToken ∧
        (spelled others = spelled found ↔ part.start.column = 0 ∨ (spelled found).IsChain (IsFlush Item.char?)) := by
  intro owner among method member
  obtain ⟨tree, parsed, _, rfl⟩ := outline_eq_ok.mp extracted
  rw [classes_treeOutline] at among
  obtain ⟨span, top, among⟩ := List.mem_flatMap.mp among
  obtain ⟨part, isMember, listed⟩ := exists_member among member
  refine ⟨span, part, ⟨tree, parsed, top⟩, among, isMember, listed, ?_⟩
  obtain ⟨definition, of, _, outlined⟩ := exists_function_of_method listed
  obtain ⟨_, _, text, _, _, excerpt, _⟩ :=
    exists_excerpt_of_member parsed top isMember (defines_of_definitionOf of)
  obtain ⟨found, cut, some_piece, solid⟩ := excerpt.solid
  have ends : text.getLast? ≠ some '\n' := by
    obtain ⟨before, c, after, rfl, _, single⟩ := exists_firm cut some_piece solid
    intro last
    rw [List.getLast?_append_of_ne_nil _ (by simp)] at last
    exact single (List.mem_of_getLast? last)
  rw [← excerpt.text_eq] at cut ends
  obtain ⟨others, again, kept⟩ := spelled_dedented cut ends
  refine ⟨found, others, cut, ?_, kept⟩
  rw [text_functionOutline outlined, String.toList_ofList, again]

/-- The text of a method with a literal over two lines has the tokens of the method, but the literal loses a blank. -/
theorem spelled_method_text_literal :
    let source := "class C:\n def f(s): \"\"\"a\n b\"\"\"\n".toList
    ∃ outlined, outline source = .ok outlined ∧
      outlined.classes.map (fun owner => owner.methods.map (·.text)) = [["def f(s): \"\"\"a\nb\"\"\""]] ∧
      ∀ owner ∈ outlined.classes, ∀ method ∈ owner.methods, ∃ span part, IsTop source span ∧ IsMember span part ∧
        ∃ found others, pieces (part.text source) = some found ∧ pieces method.text.toList = some others ∧
          (spelled others).filter Item.isToken = (spelled found).filter Item.isToken ∧
          spelled others ≠ spelled found := by
  intro source
  let style : StringStyle := ⟨'"', true, false, false⟩
  let listed : List Piece :=
    [⟨.token (.word "def"), "def".toList⟩, ⟨.blank, [' ']⟩, ⟨.token (.word "f"), ['f']⟩,
      ⟨.token (.operator "("), ['(']⟩, ⟨.token (.word "s"), ['s']⟩, ⟨.token (.operator ")"), [')']⟩,
      ⟨.token (.operator ":"), [':']⟩, ⟨.blank, [' ']⟩,
      ⟨.token (.stringOpen style), "\"\"\"".toList⟩, ⟨.content, ['a']⟩, ⟨.content, ['\n']⟩,
      ⟨.content, [' ']⟩, ⟨.content, ['b']⟩, ⟨.token .stringClose, "\"\"\"".toList⟩]
  have placed : ∀ tree, parse source = some tree → ∀ span ∈ tree.namedChildren, ∀ definition,
      definitionOf span = some definition → ∀ block, definition.child? .body = some block →
        ∀ part ∈ block.namedChildren, part.start.column = 1 ∧ pieces (part.text source) = some listed := by
    have checked : (parse source).all (fun tree => tree.namedChildren.all fun span =>
        (definitionOf span).all fun definition => (definition.child? .body).all fun block =>
          block.namedChildren.all fun part =>
            part.start.column == 1 && pieces (part.text source) == some listed) = true := by
      decide +kernel
    intro tree parsed span top definition of block body part inside
    rw [parsed] at checked
    have parts := List.all_eq_true.mp checked span top
    rw [of, Option.all_some, body, Option.all_some] at parts
    simpa using List.all_eq_true.mp parts part inside
  have texts : (outline source).toOption.map (fun outlined =>
      outlined.classes.map (fun owner => owner.methods.map (·.text))) =
        some [["def f(s): \"\"\"a\nb\"\"\""]] := by
    decide +kernel
  cases extracted : outline source with
  | error failure => simp [extracted, Except.toOption] at texts
  | ok outlined =>
    simp only [extracted, Except.toOption, Option.map_some, Option.some.injEq] at texts
    refine ⟨outlined, rfl, texts, fun owner among method member => ?_⟩
    obtain ⟨span, part, ⟨tree, parsed, top⟩, _, isMember, _, found, others, cut, again, tokens, literals⟩ :=
      spelled_method_text extracted owner among method member
    refine ⟨span, part, ⟨tree, parsed, top⟩, isMember, found, others, cut, again, tokens, fun same => ?_⟩
    obtain ⟨definition, block, of, body, inside⟩ := isMember
    obtain ⟨column, own⟩ := placed tree parsed span top definition of block body part inside
    obtain rfl : listed = found := Option.some.inj (own.symm.trans cut)
    rcases literals.mp same with flush | chain
    · rw [column] at flush
      cases flush
    · simp [listed, spelled, Piece.items, Symbol.isTrivia, IsFlush, Item.char?] at chain

end SourceOutline.Python
