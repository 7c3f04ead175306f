import SourceOutline.Proofs.Python.FormFeedRows
import SourceOutline.Proofs.Python.Roundtrip
import SourceOutline.Proofs.Python.Seats

/-! The rows, columns and texts of a source with a form feed in front of a row, and the nodes of its tree. -/

namespace SourceOutline.Python

open Text

/-- Places in a row or below it, where the second one is one character further on. -/
structure OneApart (top : Nat) (mark mark' : Mark) : Prop where
  /-- There is one character more. -/
  offset : mark'.offset = mark.offset + 1
  /-- The row is the same. -/
  row : mark'.row = mark.row
  /-- It is not above the first one. -/
  below : top ≤ mark.row
  /-- The column is one further on in the first row only. -/
  column : mark'.column = mark.column + if mark.row = top then 1 else 0

/-- Places stay one character apart behind one more character. -/
theorem OneApart.step {top : Nat} {mark mark' : Mark} (apart : OneApart top mark mark') (c : Char) :
    OneApart top (mark.step c) (mark'.step c) := by
  obtain ⟨offset, same, below, column⟩ := apart
  unfold Mark.step
  split
  · have other : mark.row + 1 ≠ top := by omega
    exact ⟨by simp [offset], by simp [same], Nat.le_succ_of_le below, by simp [other]⟩
  · exact ⟨by simp [offset], same, below, by simp only [column]; omega⟩

/-- Places stay one character apart behind a text. -/
theorem OneApart.pass {top : Nat} {mark mark' : Mark} (apart : OneApart top mark mark') (text : List Char) :
    OneApart top (mark.pass text) (mark'.pass text) := by
  induction text generalizing mark mark' with
  | nil => exact apart
  | cons c rest ih => exact ih (apart.step c)

section

variable {front : List Char} {mark mark' : Mark}

/-- Places behind the form feed are one character further on. -/
theorem Follows.oneApart (follows : Follows front mark mark') : OneApart (Mark.pass {} front).row mark mark' := by
  obtain ⟨seen, rfl, rfl⟩ := follows
  have here : OneApart (Mark.pass {} front).row (Mark.pass {} front) ((Mark.pass {} front).step '\x0c') :=
    ⟨rfl, rfl, Nat.le_refl _, (if_pos rfl).symm ▸ rfl⟩
  rw [Mark.pass_append, Mark.pass_append]
  exact here.pass seen

/-- Behind a line feed the row is further down. -/
theorem row_lt_pass {text : List Char} (feed : '\n' ∈ text) (mark : Mark) : mark.row < (mark.pass text).row := by
  obtain ⟨above, below, rfl⟩ := List.append_of_mem feed
  have rows := row_pass mark (above ++ '\n' :: below)
  have some_line := List.length_pos_of_ne_nil (splitLines_ne_nil above)
  have another := List.length_pos_of_ne_nil (splitLines_ne_nil below)
  rw [splitLines_append_newline, List.length_append] at rows
  omega

/-- Places in front of the form feed are above its row. -/
theorem Precedes.row_lt (precedes : Precedes front mark mark') : mark.row < (Mark.pass {} front).row := by
  obtain ⟨_, seen, rest, rfl, feed, rfl⟩ := precedes
  rw [Mark.pass_append]
  exact row_lt_pass feed _

/-- Places in front of the form feed lie within the text there. -/
theorem Precedes.offset_le (precedes : Precedes front mark mark') : mark.offset ≤ front.length := by
  obtain ⟨_, seen, rest, rfl, _, rfl⟩ := precedes
  rw [offset_pass, List.length_append]
  exact (Nat.zero_add _).symm ▸ Nat.le_add_right _ _

/-- A place does not stand on both sides of the form feed. -/
theorem Follows.not_precedes (follows : Follows front mark mark') {other : Mark} : ¬Precedes front mark other :=
  fun precedes => Nat.not_lt_of_le follows.oneApart.below precedes.row_lt

/-- The form feed leaves rows as they are. -/
theorem Displaced.row (displaced : Displaced front mark mark') : mark'.row = mark.row := by
  rcases displaced with ⟨rfl, _⟩ | follows
  · rfl
  · exact follows.oneApart.row

/-- The form feed moves the columns of its row by one. -/
theorem Displaced.column (displaced : Displaced front mark mark') :
    mark'.column = mark.column + if mark.row = (Mark.pass {} front).row then 1 else 0 := by
  rcases displaced with precedes | follows
  · rw [if_neg (Nat.ne_of_lt precedes.row_lt), precedes.1, Nat.add_zero]
  · exact follows.oneApart.column

end

/-- Texts in front of the form feed are the same. -/
theorem precedes_sameTexts (front back : List Char) :
    SameTexts (front ++ back) (front ++ '\x0c' :: back) (Precedes front) := by
  intro start start' stop stop' starts stops
  have first := starts.offset_le
  have last := stops.offset_le
  obtain ⟨rfl, _⟩ := starts
  obtain ⟨rfl, _⟩ := stops
  have short : stop'.offset - start'.offset ≤ (front.drop start'.offset).length := by
    rw [List.length_drop]
    omega
  unfold textBetween
  rw [List.drop_append_of_le_length first, List.drop_append_of_le_length first,
    List.take_append_of_le_length short, List.take_append_of_le_length short]

/-- Between places behind a text stands what stands there without it. -/
theorem textBetween_behind (front back seen seen' : List Char) :
    textBetween (front ++ back) (Mark.pass {} (front ++ seen)) (Mark.pass {} (front ++ seen')) =
      (back.drop seen.length).take (seen'.length - seen.length) := by
  simp only [textBetween, offset_pass, List.length_append, Nat.zero_add]
  rw [Nat.add_sub_add_left, List.drop_length_add_append]

/-- Texts behind the form feed are the same. -/
theorem follows_sameTexts (front back : List Char) :
    SameTexts (front ++ back) (front ++ '\x0c' :: back) (Follows front) := by
  rintro _ _ _ _ ⟨seen, rfl, rfl⟩ ⟨seen', rfl, rfl⟩
  rw [textBetween_behind, List.append_cons, List.append_cons front _ seen, List.append_cons front _ seen',
    textBetween_behind]

/-- The form feed indents its row by one character more, and no other one. -/
theorem rowIndent_formFeed {front : List Char} (flush : (Mark.pass {} front).column = 0) (back : List Char)
    (row : Nat) : rowIndent (rowsOf (front ++ '\x0c' :: back)) row =
      rowIndent (rowsOf (front ++ back)) row + if row = (Mark.pass {} front).row then 1 else 0 := by
  obtain ⟨first, later, lines⟩ := List.exists_cons_of_ne_nil (splitLines_ne_nil back)
  have fed : splitLines ('\x0c' :: back) = ('\x0c' :: first) :: later := by
    rw [splitLines_cons (by decide), lines]
    rfl
  simp only [rowIndent, rowText, rowsOf, List.getElem?_toArray]
  rcases newline_of_column_zero flush with rfl | ⟨above, rfl⟩
  · rw [List.nil_append, List.nil_append, fed, lines]
    cases row with
    | zero => rfl
    | succ row => rfl
  · have count := row_pass {} (above ++ ['\n'])
    rw [splitLines_append_newline, splitLines_nil, List.length_append, List.length_singleton] at count
    have top : (Mark.pass {} (above ++ ['\n'])).row = (splitLines above).length := by
      have zero : ({} : Mark).row = 0 := rfl
      omega
    rw [top, List.append_assoc, List.append_assoc, List.singleton_append, List.singleton_append,
      splitLines_append_newline, splitLines_append_newline, fed, lines]
    by_cases higher : row < (splitLines above).length
    · rw [List.getElem?_append_left higher, List.getElem?_append_left higher, if_neg (Nat.ne_of_lt higher),
        Nat.add_zero]
    · obtain ⟨further, rfl⟩ := Nat.exists_eq_add_of_le (Nat.le_of_not_lt higher)
      rw [List.getElem?_append_right (Nat.le_add_right _ _), List.getElem?_append_right (Nat.le_add_right _ _),
        Nat.add_sub_cancel_left]
      cases further with
      | zero => simp [isIndent]
      | succ further => simp

/-- A row starts at the first column. -/
theorem StartsRow.flush {front back : List Char} (starts : StartsRow front back) :
    (Mark.pass {} front).column = 0 := by
  obtain ⟨_, above, _, _, _, _, rfl⟩ := starts
  rcases List.eq_nil_or_concat above with rfl | ⟨higher, row, rfl⟩
  · rfl
  · rw [List.concat_eq_append, List.flatMap_append, textOf_append, Mark.pass_append, List.flatMap_singleton,
      textOf_append, Mark.pass_append]
    rfl

mutual

/-- A node at places of which more is known is known to correspond more closely. -/
theorem Node.Alike.narrow {same same' : Mark → Mark → Prop} {move : Mark → Mark}
    (stronger : ∀ number mark', same (move number) mark' → same' (move number) mark') {node node' : Node}
    (alike : Node.Alike same (node.relocate move) node') : Node.Alike same' (node.relocate move) node' := by
  cases node with
  | mk kind role start stop parts =>
    cases alike with
    | mk starts stops inside => exact .mk (stronger _ _ starts) (stronger _ _ stops) (narrowAll stronger inside)

/-- Nodes at places of which more is known are known to correspond more closely. -/
theorem narrowAll {same same' : Mark → Mark → Prop} {move : Mark → Mark}
    (stronger : ∀ number mark', same (move number) mark' → same' (move number) mark') {nodes nodes' : List Node}
    (alike : List.Forall₂ (Node.Alike same) (Node.relocateAll move nodes) nodes') :
    List.Forall₂ (Node.Alike same') (Node.relocateAll move nodes) nodes' := by
  cases nodes with
  | nil =>
    cases alike
    exact .nil
  | cons node rest =>
    cases alike with
    | cons first later => exact .cons (first.narrow stronger) (narrowAll stronger later)

end

/-- A node and the one in its place in the copy with a form feed: they stand above the row of the form feed, or
behind it, or they may extend over several lines, start in the same row and are made of such nodes. -/
inductive Node.Displaced (front : List Char) : Node → Node → Prop where
  /-- The nodes stand above the row. -/
  | above {node node' : Node} (alike : Node.Alike (Precedes front) node node') : Displaced front node node'
  /-- The nodes stand behind the form feed. -/
  | behind {node node' : Node} (alike : Node.Alike (Follows front) node node') : Displaced front node node'
  /-- The nodes are made of such nodes. -/
  | frame {kind : Kind} {role : Role} {start stop start' stop' : Mark} {parts parts' : List Node}
    (spans : kind.spansLines = true) (lower : role.spansLines = true) (row : start'.row = start.row)
    (inside : List.Forall₂ (Node.Displaced front) parts parts') :
    Displaced front (.mk kind role start stop parts) (.mk kind role start' stop' parts')

/-- All tokens of a line stand above the row of the form feed, or all of them behind it. -/
def Line.OneSided (front : List Char) (line : Line) : Prop :=
  ∃ line', Line.ReadAlike (Precedes front) line line' ∨ Line.ReadAlike (Follows front) line line'

section

variable {front : List Char}

/-- A node on a line stands on the side where the line stands. -/
theorem Node.IsOn.displaced {line : Line} (oneSided : line.OneSided front) {node node' : Node}
    (on : node.IsOn line) (alike : Node.Alike (Python.Displaced front) node node') :
    Node.Displaced front node node' := by
  obtain ⟨numbered, rfl⟩ := on
  obtain ⟨line', above | behind⟩ := oneSided
  · refine .above (alike.narrow fun number mark' either => either.resolve_right fun follows => ?_)
    exact follows.not_precedes (above.place number)
  · refine .behind (alike.narrow fun number mark' either => either.resolve_left fun precedes => ?_)
    exact (behind.place number).not_precedes precedes

section

variable {given : List Line} (oneSided : ∀ line ∈ given, line.OneSided front)

include oneSided

/-- A node that is on a line or made of nodes on lines is displaced as they are. -/
theorem Node.Framed.displaced {node node' : Node} (framed : node.Framed given)
    (alike : Node.Alike (Python.Displaced front) node node') : Node.Displaced front node node' := by
  induction framed generalizing node' with
  | on among on => exact on.displaced (oneSided _ among) alike
  | frame spans lower inside ih =>
    cases alike with
    | mk starts stops parts =>
      refine .frame spans lower starts.row ?_
      clear inside
      induction parts with
      | nil => exact .nil
      | cons first later each =>
        obtain ⟨here, behind⟩ := List.forall_mem_cons.mp ih
        exact .cons (here first) (each behind)

/-- Nodes that are on lines or made of nodes on lines are displaced as they are. -/
theorem AllFramed.displaced {nodes nodes' : List Node} (framed : AllFramed given nodes)
    (alike : List.Forall₂ (Node.Alike (Python.Displaced front)) nodes nodes') :
    List.Forall₂ (Node.Displaced front) nodes nodes' := by
  induction alike with
  | nil => exact .nil
  | cons first later ih =>
    obtain ⟨here, behind⟩ := List.forall_mem_cons.mp framed
    exact .cons (here.displaced oneSided first) (ih behind)

end

end

/-- Nodes of one kind that start in the same row and whose parts stand at places that correspond. -/
structure Node.PartsAlike (front : List Char) (node node' : Node) : Prop where
  /-- The kind is the same. -/
  kind : node'.kind = node.kind
  /-- The row is the same. -/
  row : node'.start.row = node.start.row
  /-- The parts correspond. -/
  alike : List.Forall₂ (Node.Alike (Python.Displaced front)) node.children node'.children

/-- The tree of a source and that of the copy with a form feed in front of a row. -/
structure TreeDisplaced (front : List Char) (tree tree' : Node) : Prop extends Node.PartsAlike front tree tree' where
  /-- The parts are displaced, each as a whole or with its own parts. -/
  parts : List.Forall₂ (Node.Displaced front) tree.children tree'.children

/-- A source with a form feed in front of a row has the tree of the source, at places that correspond. -/
theorem exists_treeDisplaced {front back : List Char} (starts : StartsRow front back) {tree : Node}
    (parsed : parse (front ++ back) = some tree) :
    ∃ tree', parse (front ++ '\x0c' :: back) = some tree' ∧ TreeDisplaced front tree tree' := by
  obtain ⟨layout, layout', laid, laid', displaced⟩ := exists_displaced starts
  obtain ⟨other, again, framed⟩ := exists_framed parsed
  cases laid.symm.trans again
  obtain ⟨_, again, parsed⟩ := Option.bind_eq_some_iff.mp parsed
  cases laid.symm.trans again
  obtain ⟨nodes, found, same⟩ := Option.bind_eq_some_iff.mp parsed
  cases same
  have lines : List.Forall₂ (Line.Alike (Displaced front)) layout.lines layout'.lines :=
    displaced.lines.imp fun _ _ line => line.toAlike
  obtain ⟨nodes', found', alike⟩ :=
    statements_alike (fun deeper _ => takeWhile_alike displaced.notes deeper) lines found
  have oneSided : ∀ line ∈ layout.lines.map Line.opening, line.OneSided front := by
    intro line member
    obtain ⟨own, among, rfl⟩ := List.mem_map.mp member
    obtain ⟨line', _, here⟩ := exists_of_mem_rel displaced.lines.flip among
    exact ⟨line', here.side.imp (fun side => ⟨side.tokens, side.some_token⟩) fun side => ⟨side.tokens, side.some_token⟩⟩
  have all := List.rel_append alike (joins_alike displaced.notes)
  refine ⟨.mk .module .part {} (Mark.pass {} (front ++ '\x0c' :: back)) (nodes' ++ Line.joins layout'.notes),
    ?_, ⟨rfl, rfl, all⟩, framed.displaced oneSided all⟩
  rw [parse, laid', Option.bind_eq_bind, Option.bind_some, found']
  rfl

end SourceOutline.Python
