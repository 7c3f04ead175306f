import SourceOutline.Proofs.Python.Evenness
import SourceOutline.Proofs.Python.ReturnedPlaces

/-! Where the places of a text stand when the text is shifted to the left. -/

namespace SourceOutline.Python

open Text

/-- Nothing is passed between a place and itself. -/
theorem nil_of_pass {mark : Mark} {seen : List Char} (here : mark = mark.pass seen) : [] = seen := by
  have offsets := congrArg Mark.offset here
  rw [offset_pass] at offsets
  exact (List.eq_nil_of_length_eq_zero (by omega)).symm

/-- Places of one text that stand at the same offset have the same characters in front. -/
theorem eq_of_pass {text seen seen' : List Char} (within : seen <+: text) (within' : seen' <+: text) {start : Mark}
    (same : start.pass seen = start.pass seen') : seen = seen' := by
  have offsets := congrArg Mark.offset same
  rw [offset_pass, offset_pass] at offsets
  exact (List.prefix_of_prefix_length_le within within' (by omega)).eq_of_length (by omega)

/-- The blanks at the start of a text are those of its first row. -/
theorem takeWhile_splitLines (cs : List Char) :
    ((splitLines cs)[0]?.getD []).takeWhile isIndent = cs.takeWhile isIndent := by
  induction cs with
  | nil => rfl
  | cons c rest ih =>
    by_cases feed : c = '\n'
    · subst feed
      rw [splitLines_newline]
      rfl
    · rw [splitLines_cons feed]
      obtain ⟨line, later, lines⟩ := List.exists_cons_of_ne_nil (splitLines_ne_nil rest)
      rw [lines] at ih ⊢
      simp only [consLine, List.getElem?_cons_zero, Option.getD_some, List.takeWhile_cons] at ih ⊢
      rw [ih]

/-- A row is indented by the blanks behind the place where it starts. -/
theorem rowIndent_pass {above : List Char} (first : (Mark.pass {} above).column = 0) (rest : List Char) :
    rowIndent (rowsOf (above ++ rest)) (Mark.pass {} above).row = (rest.takeWhile isIndent).length := by
  simp only [rowIndent, rowText, rowsOf, List.getElem?_toArray]
  rw [← takeWhile_splitLines rest]
  rcases newline_of_column_zero first with rfl | ⟨front, rfl⟩
  · rfl
  · have count := row_pass {} (front ++ ['\n'])
    rw [splitLines_append_newline, splitLines_nil, List.length_append, List.length_singleton] at count
    have top : (Mark.pass {} (front ++ ['\n'])).row = (splitLines front).length := by
      have zero : ({} : Mark).row = 0 := rfl
      omega
    rw [List.append_assoc, List.singleton_append, splitLines_append_newline, top,
      List.getElem?_append_right (Nat.le_refl _), Nat.sub_self]

/-- A shift moves no rows. -/
theorem row_shifted (width room : Nat) (cs : List Char) :
    (Mark.pass {} (shifted some width room cs)).row = (Mark.pass {} cs).row := by
  have count : (shifted some width room cs).count '\n' = cs.count '\n' := by
    induction cs generalizing room with
    | nil => rfl
    | cons c rest ih =>
      rw [shifted_cons]
      split
      · rename_i feed
        rw [feed, List.count_cons_self, List.count_cons_self, ih]
      · rename_i other
        split
        · rw [ih, List.count_cons_of_ne other]
        · split
          · rw [ih, List.count_cons_of_ne other]
          · rw [List.count_cons_of_ne other, List.count_cons_of_ne other, ih]
  rw [row_pass_count, row_pass_count, count]

section

variable {width : Nat}

/-- The blanks at the start of a text go, as far as there is room. -/
theorem takeWhile_shifted {cs : List Char} (plain : '\r' ∉ cs) (sound : '\x0c' ∉ cs) (room : Nat) :
    ((shifted some width room cs).takeWhile isIndent).length = (cs.takeWhile isIndent).length - room := by
  induction cs generalizing room with
  | nil => simp [shifted]
  | cons c rest ih =>
    obtain ⟨noReturn, plain⟩ := not_or.mp (mt List.mem_cons.mpr plain)
    obtain ⟨noFeed, sound⟩ := not_or.mp (mt List.mem_cons.mpr sound)
    have inner := ih plain sound
    by_cases blank : c = ' ' ∨ c = '\t'
    · have indent : isIndent c = true := by rcases blank with rfl | rfl <;> rfl
      have other : c ≠ '\n' := by rcases blank with rfl | rfl <;> decide
      rw [shifted_cons, if_neg other, if_neg fun both => noReturn both.1.symm, List.takeWhile_cons_of_pos indent,
        List.length_cons]
      split
      · rename_i some_room
        rw [inner]
        omega
      · rename_i no_room
        obtain rfl : room = 0 := by
          by_contra some_room
          exact no_room ⟨some_room, blank⟩
        rw [List.takeWhile_cons_of_pos indent, List.length_cons, inner]
        rfl
    · have solid : isIndent c ≠ true := by
        obtain ⟨space, tab⟩ := not_or.mp blank
        simp [isIndent, space, tab, Ne.symm noFeed]
      rw [List.takeWhile_cons_of_neg solid, shifted_cons]
      split
      · rw [List.takeWhile_cons_of_neg solid]
        simp
      · rw [if_neg fun both => noReturn both.1.symm, if_neg fun both => blank both.2, List.takeWhile_cons_of_neg solid]
        simp

/-- At the start of a row there is room for the whole width. -/
theorem shifted_row {above : List Char} (plain : '\r' ∉ above) (first : (Mark.pass {} above).column = 0)
    (rest : List Char) :
    shifted some width width (above ++ rest) = shifted some width width above ++ shifted some width width rest ∧
      (Mark.pass {} (shifted some width width above)).column = 0 := by
  rw [shifted_append_plain plain]
  rcases newline_of_column_zero first with rfl | ⟨front, rfl⟩
  · exact ⟨rfl, rfl⟩
  · have front_plain : '\r' ∉ front := fun member => plain (List.mem_append_left _ member)
    rw [roomBehind_append, roomBehind_cons, if_pos rfl, shifted_append_plain front_plain, shifted_cons, if_pos rfl]
    refine ⟨rfl, ?_⟩
    rw [Mark.pass_append]
    rfl

/-- The rows of a shifted text are less far indented. -/
theorem rowIndent_shifted {seen rest : List Char} (plain : '\r' ∉ seen ++ rest) (sound : '\x0c' ∉ seen ++ rest) :
    rowIndent (rowsOf (shifted some width width (seen ++ rest))) (Mark.pass {} (shifted some width width seen)).row =
      rowIndent (rowsOf (seen ++ rest)) (Mark.pass {} seen).row - width := by
  obtain ⟨above, line, rfl, single, first⟩ := exists_lastLine seen
  rw [List.append_assoc] at plain sound ⊢
  have above_plain : '\r' ∉ above := fun member => plain (List.mem_append_left _ member)
  obtain ⟨whole, first'⟩ := @shifted_row width _ above_plain first (line ++ rest)
  obtain ⟨start, _⟩ := @shifted_row width _ above_plain first line
  have row := (pass_line single (Mark.pass {} above)).1
  rw [row_shifted, Mark.pass_append, row, rowIndent_pass first, whole, ← row_shifted width width above,
    rowIndent_pass first', takeWhile_shifted (fun member => plain (List.mem_append_right _ member))
      fun member => sound (List.mem_append_right _ member)]

/-- What a shift takes from a text are blanks and returns. -/
theorem mem_shifted_or {c : Char} {cs : List Char} (member : c ∈ cs) (room : Nat) :
    c ∈ shifted some width room cs ∨ c = ' ' ∨ c = '\t' ∨ c = '\r' := by
  induction cs generalizing room with
  | nil => cases member
  | cons d rest ih =>
    rw [shifted_cons]
    rcases List.mem_cons.mp member with rfl | inside
    · split
      · exact .inl List.mem_cons_self
      · split
        · rename_i return_
          exact .inr (.inr (.inr return_.1))
        · split
          · rename_i blank
            exact .inr (blank.2.imp_right .inl)
          · exact .inl List.mem_cons_self
    · have inner := fun room => ih inside room
      split
      · exact (inner _).imp_left (List.mem_cons_of_mem d)
      · split
        · exact inner _
        · split
          · exact inner _
          · exact (inner _).imp_left (List.mem_cons_of_mem d)

/-- Blanks move the place by one column each. -/
theorem column_of_isIndent {line : List Char} (blank : ∀ c ∈ line, isIndent c = true) (mark : Mark) :
    (mark.pass line).column = mark.column + line.length := by
  induction line generalizing mark with
  | nil => rfl
  | cons c rest ih =>
    obtain ⟨first, later⟩ := List.forall_mem_cons.mp blank
    have step : (mark.step c).column = mark.column + 1 := by
      simp only [isIndent, Bool.or_eq_true, beq_iff_eq] at first
      rcases first with (rfl | rfl) | rfl <;> rfl
    show ((mark.step c).pass rest).column = _
    rw [ih later, step, List.length_cons]
    omega

/-- Only blanks in front count when something else follows. -/
theorem takeWhile_append_firm {front back : List Char} (firm : ∀ c, back.head? = some c → isIndent c = false) :
    (front ++ back).takeWhile isIndent = front.takeWhile isIndent := by
  have nothing : back.takeWhile isIndent = [] := by
    cases back with
    | nil => rfl
    | cons c rest => rw [List.takeWhile_cons, firm c rfl, if_neg Bool.false_ne_true]
  rw [List.takeWhile_append, nothing, List.append_nil]
  split
  · rename_i whole
    exact ((List.takeWhile_prefix isIndent).eq_of_length whole).symm
  · rfl

/-- A place that is followed by no blank opens its row when it does so in the shifted text. -/
theorem opens_of_shifted {seen rest : List Char} (plain : '\r' ∉ seen ++ rest)
    (firm : ∀ c, rest.head? = some c → isIndent c = false)
    (opens : (Mark.pass {} (shifted some width width seen)).column =
      rowIndent (rowsOf (shifted some width width (seen ++ rest)))
        (Mark.pass {} (shifted some width width seen)).row) :
    (Mark.pass {} seen).column = rowIndent (rowsOf (seen ++ rest)) (Mark.pass {} seen).row := by
  obtain ⟨above, line, rfl, single, first⟩ := exists_lastLine seen
  rw [List.append_assoc] at plain opens ⊢
  have above_plain : '\r' ∉ above := fun member => plain (List.mem_append_left _ member)
  have line_plain : '\r' ∉ line := fun member => plain (by simp [member])
  obtain ⟨whole, first'⟩ := @shifted_row width _ above_plain first (line ++ rest)
  obtain ⟨start, _⟩ := @shifted_row width _ above_plain first line
  have single' : '\n' ∉ shifted some width width line := fun member =>
    single ((shifted_sublist some width width line).subset member)
  have rest_plain : '\r' ∉ rest := fun member => plain (by simp [member])
  have stops : ∀ room c, (shifted some width room rest).head? = some c → isIndent c = false := by
    intro room c
    cases rest with
    | nil => exact nofun
    | cons d more =>
      have solid := firm d rfl
      have blank : ¬(d = ' ' ∨ d = '\t') := by
        rintro (rfl | rfl) <;> cases solid
      have noReturn : d ≠ '\r' := fun same => rest_plain (same ▸ List.mem_cons_self)
      have stays : ¬(room ≠ 0 ∧ (d = ' ' ∨ d = '\t')) := fun both => blank both.2
      rw [shifted_cons, if_neg (mt And.left noReturn : ¬(d = '\r' ∧ _)), if_neg stays]
      split <;>
        · intro same
          cases same
          exact solid
  have row := pass_line single' (Mark.pass {} (shifted some width width above))
  rw [start, whole, Mark.pass_append, row.1, rowIndent_pass first', shifted_append_plain line_plain,
    takeWhile_append_firm (stops _)] at opens
  rw [first'] at row
  have blank := @List.takeWhile_prefix _ (shifted some width width line) isIndent
  have own := blank.eq_of_length_le (by omega)
  have all : ∀ c ∈ line, isIndent c = true := by
    intro c member
    rcases @mem_shifted_or width _ _ member width with kept | rfl | rfl | rfl
    · rw [← own] at kept
      exact List.all_eq_true.mp List.all_takeWhile c kept
    · rfl
    · rfl
    · exact absurd member line_plain
  have same : line.takeWhile isIndent = line := List.takeWhile_eq_self_iff.mpr all
  rw [Mark.pass_append, column_of_isIndent all, first, (pass_line single _).1, rowIndent_pass first,
    takeWhile_append_firm firm, same, Nat.zero_add]

/-- Blanks in front of a text take up the room for them. -/
theorem shifted_edge {edge : List Char} (blank : AllBlank edge) (room : Nat) (cs : List Char) :
    shifted some width (edge.length + room) (edge ++ cs) = shifted some width room cs := by
  induction edge with
  | nil => rw [List.length_nil, Nat.zero_add, List.nil_append]
  | cons c rest ih =>
    obtain ⟨first, later⟩ := List.forall_mem_cons.mp blank
    have other : c ≠ '\n' ∧ c ≠ '\r' := by rcases first with rfl | rfl <;> decide
    rw [List.cons_append, shifted_cons, if_neg other.1, if_neg fun both => other.2 both.1,
      if_pos ⟨by rw [List.length_cons]; omega, first⟩, ← ih later, List.length_cons]
    congr 1
    omega

end

/-- Places of a shifted text correspond to places of a source whose rows are further indented by a width; some of them
are places where statements may start. -/
structure LessRows (source text : List Char) (above width : Nat) (same : Mark → Mark → Prop) (seat : Mark → Prop) :
    Prop where
  /-- Rows count from the first row of the text. -/
  row : ∀ mark mark', same mark mark' → mark.row = above + mark'.row
  /-- Rows are less far indented. -/
  margin : ∀ mark mark', same mark mark' →
    rowIndent (rowsOf text) mark'.row = rowIndent (rowsOf source) mark.row - width
  /-- Where a statement opens its row of the text it opens its row of the source. -/
  opens : ∀ mark mark', same mark mark' → seat mark → mark'.column = rowIndent (rowsOf text) mark'.row →
    mark.column = rowIndent (rowsOf source) mark.row

/-- A place of a text that starts somewhere, at which something stands that is no blank. -/
def Firm (start : Mark) (text : List Char) (mark : Mark) : Prop :=
  ∃ seen c rest, text = seen ++ c :: rest ∧ mark = start.pass seen ∧ isIndent c = false

/-- A text stands behind blanks at the start of a row of a source, and so do its other rows; it holds no form feed
and ends with something that is no blank. -/
structure Evenly (source above edge text back : List Char) : Prop where
  /-- The text stands in the source. -/
  whole : source = above ++ ((edge ++ text) ++ back)
  /-- The blanks are at the start of a row. -/
  first : (Mark.pass {} above).column = 0
  /-- The rows of the text stand behind them. -/
  even : IsEven edge text
  /-- There is no form feed. -/
  sound : '\x0c' ∉ text
  /-- The text ends on a row that is not empty. -/
  firm : ∃ before c after, text = before ++ c :: after ∧ isIndent c = false ∧ '\n' ∉ c :: after

namespace Evenly

variable {source above edge text back : List Char} (evenly : Evenly source above edge text back)

include evenly

/-- The blanks and the text are a stretch of the source. -/
theorem sameRows : SameRows source (edge ++ text) (Mark.pass {} above).row
    (Corresponds (Mark.pass {} above) (edge ++ text)) := by
  obtain ⟨before, c, after, rfl, firm, single⟩ := evenly.firm
  exact sameRows_of_flush evenly.whole rfl evenly.first ⟨edge ++ before, c, after, by simp, firm, single⟩

/-- There is neither a return nor a form feed in the blanks and the text. -/
theorem plain : '\r' ∉ edge ++ text ∧ '\x0c' ∉ edge ++ text := by
  constructor <;> intro member <;> rcases List.mem_append.mp member with inside | inside
  · rcases evenly.even.blank _ inside with same | same <;> cases same
  · exact evenly.even.plain inside
  · rcases evenly.even.blank _ inside with same | same <;> cases same
  · exact evenly.sound inside

/-- The shifted text is that of the blanks and the text. -/
theorem shifted_eq (cs : List Char) :
    shifted some edge.length 0 cs = shifted some edge.length edge.length (edge ++ cs) :=
  (shifted_edge evenly.even.blank 0 cs).symm

/-- The rows of the shifted text are those of the source, less far indented. -/
theorem lessRows : LessRows source (shifted some edge.length 0 text) (Mark.pass {} (above ++ edge)).row edge.length
    (Outdented (Mark.pass {} (above ++ edge)) edge.length text) (Firm (Mark.pass {} (above ++ edge)) text) := by
  have rows := evenly.sameRows
  obtain ⟨plain, sound⟩ := evenly.plain
  have single : '\n' ∉ edge := fun member => by
    rcases evenly.even.blank _ member with same | same <;> cases same
  have start : (Mark.pass {} (above ++ edge)).row = (Mark.pass {} above).row := by
    rw [Mark.pass_append]
    exact (pass_line single _).1
  have both : ∀ mark mark', Outdented (Mark.pass {} (above ++ edge)) edge.length text mark mark' →
      ∃ seen rest, text = seen ++ rest ∧ mark = Mark.pass {} (above ++ edge ++ seen) ∧
        Corresponds (Mark.pass {} above) (edge ++ text) mark (Mark.pass {} (edge ++ seen)) ∧
        mark' = Mark.pass {} (shifted some edge.length edge.length (edge ++ seen)) := by
    rintro mark mark' ⟨seen, ⟨rest, rfl⟩, rfl, rfl⟩
    refine ⟨seen, rest, rfl, (Mark.pass_append _ _ _).symm, ⟨edge ++ seen, ⟨rest, by simp⟩, ?_, rfl⟩, ?_⟩
    · rw [← Mark.pass_append, ← Mark.pass_append, List.append_assoc]
    · rw [evenly.shifted_eq seen]
  refine ⟨fun mark mark' same => ?_, fun mark mark' same => ?_, fun mark mark' same seat opens => ?_⟩
  · obtain ⟨seen, rest, rfl, _, corresponds, rfl⟩ := both _ _ same
    rw [rows.row _ _ corresponds, row_shifted, start]
  · obtain ⟨seen, rest, rfl, _, corresponds, rfl⟩ := both _ _ same
    rw [evenly.shifted_eq, rows.margin _ _ corresponds]
    rw [← List.append_assoc] at plain sound ⊢
    exact rowIndent_shifted plain sound
  · obtain ⟨seen, rest, rfl, place, corresponds, rfl⟩ := both _ _ same
    obtain ⟨seen', c, rest', split, again, firm⟩ := seat
    have length : seen'.length = seen.length := by
      have offsets := congrArg Mark.offset (place.symm.trans again)
      simp only [Mark.pass_append, offset_pass] at offsets
      omega
    obtain ⟨rfl, rfl⟩ := List.append_inj split length.symm
    rw [evenly.shifted_eq] at opens
    rw [rows.column _ _ corresponds, rows.margin _ _ corresponds]
    rw [← List.append_assoc] at plain opens ⊢
    refine opens_of_shifted plain (fun d first => ?_) opens
    cases first
    exact firm

end Evenly

end SourceOutline.Python
