import SourceOutline.Proofs.Python.Members
import SourceOutline.Proofs.Python.Outdenting
import SourceOutline.Proofs.Python.ShiftedTexts

/-! The text of a method that stands evenly behind blanks is outlined as the method in its source. -/

namespace SourceOutline.Python

open Text

/-- Without room for blanks nothing goes. -/
theorem shifted_zero {cs : List Char} (plain : '\r' ∉ cs) : shifted some 0 0 cs = cs := by
  induction cs with
  | nil => rfl
  | cons c rest ih =>
    obtain ⟨noReturn, later⟩ := not_or.mp (mt List.mem_cons.mpr plain)
    simp [shifted_cons, Ne.symm noReturn, ih later]

/-- A statement stands behind blanks alone on its row, as do all rows of its text; there are neither carriage returns
nor form feeds in it. -/
def StandsEvenly (source : List Char) (node : Node) : Prop :=
  ∃ above edge, source.take node.start.offset = above ++ edge ∧ (Mark.pass {} above).column = 0 ∧
    IsEven edge (node.text source) ∧ '\x0c' ∉ node.text source

/-- What occurs in a tree that is spelled with tokens is spelled with them. -/
theorem Occurs.spelled {given : List Token} {tree node : Node} (occurs : Occurs tree node)
    (spelled : tree.Spelled given) : node.Spelled given := by
  induction occurs with
  | root => exact spelled
  | part _ member ih => exact ih.children _ (List.mem_filter.mp member).1

section

variable {source above edge text back : List Char} (evenly : Evenly source above edge text back)

include evenly

/-- What stands at the start of the text is shifted to the first column. -/
theorem Evenly.dedented_eq {node copy : Node} (excerpt : Excerpt source node (above ++ edge) text back copy) :
    dedented source node = shifted some edge.length 0 text := by
  have column : node.start.column = edge.length := by
    rw [excerpt.start]
    exact (rowIndent_behind evenly.first evenly.even.blank []).1
  by_cases flush : node.start.column = 0
  · rw [dedented, if_pos flush, excerpt.text_eq, ← column, flush, shifted_zero evenly.even.plain]
  · rw [dedented_eq_shifted flush ?_, column, excerpt.text_eq]
    obtain ⟨before, c, after, whole, _, single⟩ := evenly.firm
    rw [excerpt.text_eq, whole, List.getLast?_append_of_ne_nil _ (by simp)]
    exact fun last => single (List.mem_of_getLast? last)

/-- A function in an accepted source is the only record of its shifted text, which has its name, its types and its
parameters, shifted themselves. -/
theorem Evenly.outline_shifted {tree parent node definition copy : Node} {level : Nat} {function : FunctionOutline}
    (parsed : parse source = some tree) (accepted : checkStructure source tree = .ok ()) (occurs : Occurs tree parent)
    (member : node ∈ parent.namedChildren) (excerpt : Excerpt source node (above ++ edge) text back copy)
    (alone : IsAlone level text copy) (of : definitionOf node = some definition)
    (kind : definition.kind = .functionDefinition) (found : functionOutline source definition node = some function) :
    ∃ description tags, outline function.text.toList = .ok { functions := [
      { function.raised node.start.row with
        parameters := function.parameters.map (shiftedText edge.length)
        description := description
        tags := tags }] } := by
  obtain ⟨again, stop, parsed', accepted', start, alike⟩ :=
    evenly.exists_accepted accepted occurs member excerpt alone of
  obtain ⟨given, spelled, stands⟩ := exists_spelled parsed
  have whole : source = (above ++ edge) ++ (text ++ back) := by rw [evenly.whole]; simp
  have copies := @transcribes_shifted _ _ _ _ edge.length _ whole evenly.even.plain stands
  have pair : SpelledAlike (Outdented (Mark.pass {} (above ++ edge)) edge.length text) given node again :=
    ⟨alike, (occurs.part member).spelled spelled⟩
  have definitions := copies.definitionOf_rel pair
  rw [of] at definitions
  obtain ⟨definition', of', inner⟩ := exists_of_rel_some definitions
  have named := Node.isNamed_of_defines (defines_of_definitionOf of')
  have listed := copies.functionOutline_eq inner (by rw [kind]; rfl) node again
  have own : function.text.toList = shifted some edge.length 0 text := by
    rw [text_functionOutline found, String.toList_ofList, evenly.dedented_eq excerpt]
  have line : definition'.line = function.line - node.start.row := by
    rw [line_functionOutline found, Node.line, Node.line, excerpt.start, evenly.lessRows.row _ _ inner.alike.start]
    omega
  have same : String.ofList (dedented (shifted some edge.length 0 text) again) = function.text := by
    obtain ⟨seen, within, place, place'⟩ := alike.stop
    obtain rfl : text = seen :=
      eq_of_pass List.prefix_rfl within (excerpt.start ▸ excerpt.stop.symm.trans place)
    rw [dedented, if_pos (congrArg Mark.column start), Node.text, start, place',
      ← @String.ofList_toList function.text, own]
    refine congrArg String.ofList (textBetween_eq (List.prefix_refl ([] ++ _)) rfl ?_)
    rw [offset_pass]
    exact Nat.zero_add _
  refine ⟨(bodyDoc (shifted some edge.length 0 text) definition').description,
    (bodyDoc (shifted some edge.length 0 text) definition').tags, ?_⟩
  rw [own, outline, parsed']
  show (checkStructure _ _ >>= fun _ => Except.ok (treeOutline _ _)) = _
  rw [accepted']
  show Except.ok (treeOutline _ _) = _
  rw [treeOutline, Node.namedChildren, Node.children, List.filter_cons_of_pos named]
  refine congrArg Except.ok ((ModuleOutline.append_empty _).trans ?_)
  simp only [statementOutline_of_definitionOf of', definitionOutline, copies.kind inner, kind, listed, found, same,
    line, Option.map_some]
  rfl

end

/-- A line that is not at its start is shifted to itself. -/
theorem shiftedText_eq {text : String} (single : '\n' ∉ text.toList) (width : Nat) : shiftedText width text = text := by
  have kept : ∀ cs : List Char, '\n' ∉ cs → shifted some width 0 cs = cs := by
    intro cs single
    induction cs with
    | nil => rfl
    | cons c rest ih =>
      obtain ⟨noFeed, later⟩ := not_or.mp (mt List.mem_cons.mpr single)
      have noReturn : ¬(c = '\r' ∧ rest.head? = some '\n') := fun both => later (List.mem_of_head? both.2)
      simp [shifted_cons, Ne.symm noFeed, noReturn, ih later]
  rw [shiftedText, kept _ single, String.ofList_toList]

/-- A statement that stands evenly and is found in a text of its own stands evenly there. -/
theorem StandsEvenly.exists_evenly {source front text back : List Char} {node again : Node}
    (stands : StandsEvenly source node) (excerpt : Excerpt source node front text back again) :
    ∃ above edge, front = above ++ edge ∧ Evenly source above edge text back := by
  obtain ⟨above, edge, split, first, even, sound⟩ := stands
  rw [excerpt.text_eq] at even sound
  obtain rfl : front = above ++ edge := by
    rw [← split, excerpt.start, offset_pass, excerpt.whole]
    simp
  obtain ⟨found, cut, some_piece, solid⟩ := excerpt.solid
  exact ⟨above, edge, rfl, by rw [excerpt.whole]; simp, first, even, sound, exists_firm cut some_piece solid⟩

/-- The text of a method that stands evenly behind blanks is accepted, and its outline is that method and no other
record, at a line that counts from the first line of the statement, when no parameter holds a line break; what it says
about itself is read from the shifted text. -/
theorem outline_method_text {source : List Char} {tree span part : Node} {method : FunctionOutline}
    (parsed : parse source = some tree) (accepted : checkStructure source tree = .ok ())
    (top : span ∈ tree.namedChildren) (isMember : IsMember span part) (listed : method ∈ (methodOutline source part).1)
    (stands : StandsEvenly source part) (single : ∀ parameter ∈ method.parameters, '\n' ∉ parameter.toList) :
    ∃ description tags, outline method.text.toList =
      .ok { functions := [{ method.raised part.start.row with description := description, tags := tags }] } := by
  obtain ⟨definition, of, kind, found⟩ := exists_function_of_method listed
  obtain ⟨block, occurs, inside⟩ := exists_occurs_of_member parsed top isMember
  obtain ⟨_, _, _, _, _, excerpt, alone⟩ := exists_excerpt_of_member parsed top isMember (defines_of_definitionOf of)
  obtain ⟨above, edge, rfl, evenly⟩ := stands.exists_evenly excerpt
  obtain ⟨description, tags, again⟩ := evenly.outline_shifted parsed accepted occurs inside excerpt alone of kind found
  have parameters : method.parameters.map (shiftedText edge.length) = method.parameters :=
    (List.map_congr_left fun parameter member => shiftedText_eq (single parameter member) edge.length).trans
      (List.map_id _)
  rw [parameters] at again
  exact ⟨description, tags, again⟩

/-- Every function and every class at the top belongs to a statement, and every method of a class to one in its body.
When the former starts at the first column, its text is accepted and has the same record and no other, at lines that
count from the first line of the statement; so does the text of a method, apart from what it says about itself, when its
statement stands evenly behind blanks and no parameter holds a line break. -/
theorem outline_text_shape {source : List Char} {outlined : ModuleOutline} (extracted : outline source = .ok outlined) :
    (∀ function ∈ outlined.functions, ∃ span, IsTop source span ∧
      function ∈ (statementOutline source span).functions ∧ (span.start.column = 0 →
        outline function.text.toList = .ok { functions := [function.raised span.start.row] })) ∧
    ∀ owner ∈ outlined.classes, ∃ span, IsTop source span ∧
      owner ∈ (statementOutline source span).classes ∧ (span.start.column = 0 →
        ∃ omissions, outline owner.text.toList =
          .ok { classes := [owner.raised span.start.row], omissions := omissions }) ∧
      ∀ method ∈ owner.methods, ∃ part, IsMember span part ∧ method ∈ (methodOutline source part).1 ∧
        (StandsEvenly source part → (∀ parameter ∈ method.parameters, '\n' ∉ parameter.toList) →
          ∃ description tags, outline method.text.toList = .ok { functions := [
            { method.raised part.start.row with description := description, tags := tags }] }) := by
  obtain ⟨functions, classes⟩ := outline_text_eq extracted
  refine ⟨functions, fun owner among => ?_⟩
  obtain ⟨span, top, inside, again⟩ := classes owner among
  refine ⟨span, top, inside, again, fun method member => ?_⟩
  obtain ⟨part, isMember, listed⟩ := exists_member inside member
  refine ⟨part, isMember, listed, fun stands single => ?_⟩
  obtain ⟨tree, parsed, accepted, _⟩ := outline_eq_ok.mp extracted
  obtain ⟨tree', parsed', among⟩ := top
  obtain rfl : tree = tree' := Option.some.inj (parsed.symm.trans parsed')
  exact outline_method_text parsed accepted among isMember listed stands single

/-- A function behind another statement, a decorated class and its method with a comment in the body are found again
from their texts. -/
theorem outline_text_shape_three :
    let source := "x = 1\ndef f(a, b: int = 2):\n    return a\n\n@d\nclass C(B):\n".toList ++
      "    def m(self, k=1) -> int:\n        # n\n        return k\n".toList
    ∃ outlined, outline source = .ok outlined ∧ outlined.functions.map (·.name) = ["f"] ∧
      outlined.classes.map (fun owner => (owner.name, owner.methods.map (·.name))) = [("C", ["m"])] ∧
      (∀ function ∈ outlined.functions, ∃ above,
        outline function.text.toList = .ok { functions := [function.raised above] }) ∧
      ∀ owner ∈ outlined.classes,
        (∃ above omissions,
          outline owner.text.toList = .ok { classes := [owner.raised above], omissions := omissions }) ∧
        ∀ method ∈ owner.methods, ∃ above description tags, outline method.text.toList = .ok { functions := [
          { method.raised above with description := description, tags := tags }] } := by
  intro source
  let text := "def m(self, k=1) -> int:\n        # n\n        return k".toList
  have flush : ∀ tree, parse source = some tree → ∀ span ∈ tree.namedChildren, span.start.column = 0 ∧
      ∀ definition, definitionOf span = some definition → ∀ block, definition.child? .body = some block →
        ∀ part ∈ block.namedChildren, (definitionOf part).isSome = true →
          part.start.offset = 61 ∧ part.text source = text := by
    have checked : (parse source).all (fun tree => tree.namedChildren.all fun span => span.start.column == 0 &&
        (definitionOf span).all fun definition => (definition.child? .body).all fun block =>
          block.namedChildren.all fun part => !(definitionOf part).isSome ||
            part.start.offset == 61 && part.text source == text) = true := by
      decide +kernel
    intro tree parsed span member
    rw [parsed] at checked
    have own := List.all_eq_true.mp checked span member
    simp only [Bool.and_eq_true, beq_iff_eq] at own
    refine ⟨own.1, fun definition of block body part inside isSome => ?_⟩
    have parts := own.2
    rw [of, Option.all_some, body, Option.all_some] at parts
    simpa [isSome] using List.all_eq_true.mp parts part inside
  have even : IsEven "    ".toList text := by
    obtain ⟨first, rest, cut, code, rows⟩ : ∃ first rest, pieces text = some (first :: rest) ∧ first.isCode = true ∧
        (rowsBetween (first :: rest)).tail =
          [blanksOf "        ".toList ++ [⟨.token .comment, "# n".toList⟩],
            blanksOf "        ".toList ++ [⟨.token (.word "return"), "return".toList⟩, ⟨.blank, [' ']⟩,
              ⟨.token (.word "k"), ['k']⟩]] := by
      refine ⟨⟨.token (.word "def"), "def".toList⟩, (pieces text).get!.tail, ?_⟩
      decide +kernel
    have blank : AllBlank "    ".toList := by decide
    refine ⟨blank, by decide, first, rest, cut, code, ?_⟩
    rw [rows]
    refine List.forall_mem_cons.mpr ⟨?_, List.forall_mem_singleton.mpr ?_⟩
    · exact @StandsBehind.deep _ "    ".toList _ [] blank rfl
    · exact @StandsBehind.deep _ "    ".toList _ _ blank rfl
  have names : (outline source).toOption.map (fun outlined => (outlined.functions.map (·.name),
      outlined.classes.map (fun owner => (owner.name, owner.methods.map (·.name))),
      outlined.classes.all fun owner => owner.methods.all fun method =>
        method.parameters.all fun parameter => !parameter.toList.contains '\n')) =
        some (["f"], [("C", ["m"])], true) := by
    decide +kernel
  cases extracted : outline source with
  | error failure => simp [extracted, Except.toOption] at names
  | ok outlined =>
    obtain ⟨functions, classes⟩ := outline_text_shape extracted
    simp only [extracted, Except.toOption, Option.map_some, Option.some.injEq, Prod.mk.injEq] at names
    obtain ⟨listed, owners, single⟩ := names
    refine ⟨outlined, rfl, listed, owners, fun function among => ?_, fun owner among => ?_⟩
    · obtain ⟨span, ⟨tree, parsed, top⟩, _, again⟩ := functions function among
      exact ⟨_, again (flush tree parsed span top).1⟩
    · obtain ⟨span, ⟨tree, parsed, top⟩, _, again, methods⟩ := classes owner among
      obtain ⟨column, parts⟩ := flush tree parsed span top
      obtain ⟨omissions, own⟩ := again column
      refine ⟨⟨_, omissions, own⟩, fun method member => ?_⟩
      obtain ⟨part, ⟨definition, block, of, body, inside⟩, found, again⟩ := methods method member
      obtain ⟨inner, of', _, _⟩ := exists_function_of_method found
      obtain ⟨offset, own⟩ := parts definition of block body part inside (by rw [of']; rfl)
      refine ⟨_, again ⟨source.take 57, "    ".toList, ?_, by decide +kernel, own ▸ even, ?_⟩
        fun parameter among' => ?_⟩
      · rw [offset]
        decide +kernel
      · rw [own]
        decide
      · have checked := List.all_eq_true.mp (List.all_eq_true.mp (List.all_eq_true.mp single owner among) method member)
          parameter among'
        simpa using checked

end SourceOutline.Python
