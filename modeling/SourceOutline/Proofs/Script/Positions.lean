import Mathlib.Algebra.Order.Ring.Nat
import SourceOutline.Proofs.Text.Lines
import SourceOutline.Script.Extract

/-! The engine's positions address the source exactly, whichever terminators its lines end in. -/

namespace SourceOutline.Script

open Text

/-- The offsets where the line terminators of a text end, when the text starts at an offset. -/
def terminatorEnds (offset : Nat) : List Char → List Nat
  | [] => []
  | '\r' :: '\n' :: rest => (offset + 2) :: terminatorEnds (offset + 2) rest
  | c :: rest =>
    if isTerminator c then (offset + 1) :: terminatorEnds (offset + 1) rest
    else terminatorEnds (offset + 1) rest

/-- How many units of sixteen bits a text takes. -/
def units (cs : List Char) : Nat := (cs.map charUnits).sum

/-- The position of a boundary between characters: its line is counted by the terminators that end at
it or before, its column by the units behind the last of them. -/
def positionAt (source : List Char) (boundary : Nat) : Position :=
  let before := (terminatorEnds 0 source).filter (· ≤ boundary)
  ⟨1 + before.length, units ((source.take boundary).drop (before.getLast?.getD 0))⟩

/-- A boundary lies between a carriage return and the line feed that completes its terminator. -/
def PartsReturn (source : List Char) (boundary : Nat) : Prop :=
  (source.take boundary).getLast? = some '\r' ∧ (source.drop boundary).head? = some '\n'

instance (source : List Char) (boundary : Nat) : Decidable (PartsReturn source boundary) :=
  inferInstanceAs (Decidable (_ ∧ _))

/-- Every character takes one or two units. -/
theorem charUnits_eq (c : Char) : charUnits c = 1 ∨ charUnits c = 2 := by
  unfold charUnits
  split
  · exact .inl rfl
  · exact .inr rfl

/-- The columns of a text at the start of a line cover that text. -/
theorem takeColumns_append (front rest : List Char) :
    takeColumns (units front) (front ++ rest) = front := by
  induction front with
  | nil => simp [units, takeColumns]
  | cons c later ih =>
    have total : units (c :: later) = charUnits c + units later := by simp [units]
    rcases charUnits_eq c with one | two
    · rw [total, one, Nat.add_comm, List.cons_append, takeColumns, one, Nat.add_sub_cancel, ih]
    · have left : units later + 1 + 1 - 2 = units later := by omega
      rw [total, two, Nat.add_comm, List.cons_append, takeColumns, two, left, ih]

/-- Behind the columns of a text at the start of a line stands the rest of the line. -/
theorem dropColumns_append (front rest : List Char) :
    dropColumns (units front) (front ++ rest) = rest := by
  induction front with
  | nil => simp [units, dropColumns]
  | cons c later ih =>
    have total : units (c :: later) = charUnits c + units later := by simp [units]
    rcases charUnits_eq c with one | two
    · rw [total, one, Nat.add_comm, List.cons_append, dropColumns, one, Nat.add_sub_cancel, ih]
    · have left : units later + 1 + 1 - 2 = units later := by omega
      rw [total, two, Nat.add_comm, List.cons_append, dropColumns, two, left, ih]

/-- Two texts share the line in which the first one ends. -/
theorem splitLines_append_of_eq {front cs last first : List Char} {lines later : List (List Char)}
    (before : splitLines front = lines ++ [last]) (behind : splitLines cs = first :: later) :
    splitLines (front ++ cs) = lines ++ (last ++ first) :: later := by
  induction front generalizing lines last with
  | nil =>
    cases lines with
    | nil =>
      have empty : [] = last := by simpa using before
      simpa [← empty] using behind
    | cons line rest => simp at before
  | cons c rest ih =>
    by_cases feed : c = '\n'
    · subst feed
      rw [splitLines_newline] at before
      cases lines with
      | nil => exact absurd (List.cons.inj before).2 (splitLines_ne_nil rest)
      | cons line more =>
        obtain ⟨rfl, inner⟩ := List.cons.inj before
        rw [List.cons_append, splitLines_newline, ih inner]
        rfl
    · rw [splitLines_cons feed] at before
      rw [List.cons_append, splitLines_cons feed]
      cases pieces : splitLines rest with
      | nil => exact absurd pieces (splitLines_ne_nil rest)
      | cons line more =>
        rw [pieces, consLine] at before
        -- The character goes into the first line, which may be the last one as well.
        cases lines with
        | nil =>
          obtain ⟨rfl, rfl⟩ : c :: line = last ∧ more = [] := by simpa using before
          rw [ih (show splitLines rest = [] ++ [line] from pieces)]
          rfl
        | cons other others =>
          obtain ⟨rfl, rfl⟩ : c :: line = other ∧ more = others ++ [last] := by simpa using before
          rw [ih (show splitLines rest = (line :: others) ++ [last] from pieces)]
          rfl

/-- A character that is no return before a line feed ends a line on its own or not at all. -/
theorem terminatorEnds_cons {c : Char} {cs : List Char} (offset : Nat)
    (loud : ¬(c = '\r' ∧ cs.head? = some '\n')) :
    terminatorEnds offset (c :: cs) =
      if isTerminator c then (offset + 1) :: terminatorEnds (offset + 1) cs
      else terminatorEnds (offset + 1) cs := by
  refine terminatorEnds.eq_3 offset c cs fun rest isReturn feed => ?_
  exact loud ⟨isReturn, by rw [feed]; rfl⟩

/-- Every text has a last line. -/
theorem exists_splitLines_eq (cs : List Char) : ∃ lines last, splitLines cs = lines ++ [last] :=
  ⟨_, _, (List.dropLast_concat_getLast (splitLines_ne_nil cs)).symm⟩

/-- Where the last line of a text starts, when the text starts at an offset. -/
def lineStart (offset : Nat) (cs : List Char) : Nat :=
  (terminatorEnds offset cs).getLast?.getD offset

/-- The lines of a text: as many as terminators in it, and what stands behind the last of them. -/
theorem sourceLines_eq (offset : Nat) (cs : List Char) :
    ∃ lines, sourceLines cs = lines ++ [cs.drop (lineStart offset cs - offset)] ∧
      lines.length = (terminatorEnds offset cs).length ∧ offset ≤ lineStart offset cs := by
  unfold sourceLines lineStart
  fun_induction terminatorEnds offset cs with
  | case1 offset => exact ⟨[], by simp⟩
  | case2 offset rest ih =>
    obtain ⟨lines, same, count, within⟩ := ih
    have joined : unifyTerminators ('\r' :: '\n' :: rest) = '\n' :: unifyTerminators rest := by
      simp [unifyTerminators_cons, isTerminator]
    rw [List.getLast?_cons, Option.getD_some]
    refine ⟨[] :: lines, ?_, by simp [count], by omega⟩
    have shifted : (terminatorEnds (offset + 2) rest).getLast?.getD (offset + 2) - offset =
        (terminatorEnds (offset + 2) rest).getLast?.getD (offset + 2) - (offset + 2) + 1 + 1 := by
      omega
    rw [joined, splitLines_newline, same, shifted, List.drop_succ_cons, List.drop_succ_cons]
    rfl
  | case3 offset c rest lone ends ih =>
    obtain ⟨lines, same, count, within⟩ := ih
    have loud : ¬(c = '\r' ∧ rest.head? = some '\n') := by
      rintro ⟨isReturn, feed⟩
      obtain ⟨later, split⟩ := List.head?_eq_some_iff.mp feed
      exact lone later isReturn split
    rw [List.getLast?_cons, Option.getD_some]
    refine ⟨[] :: lines, ?_, by simp [count], by omega⟩
    have shifted : (terminatorEnds (offset + 1) rest).getLast?.getD (offset + 1) - offset =
        (terminatorEnds (offset + 1) rest).getLast?.getD (offset + 1) - (offset + 1) + 1 := by
      omega
    rw [unifyTerminators_cons, if_neg loud, if_pos ends, splitLines_newline, same, shifted,
      List.drop_succ_cons]
    rfl
  | case4 offset c rest lone plain ih =>
    obtain ⟨lines, same, count, within⟩ := ih
    have other : isTerminator c = false := by simpa using plain
    have feed : c ≠ '\n' := fun isFeed => by simp [isFeed, isTerminator] at other
    rw [unifyTerminators_cons_of_plain other, splitLines_cons feed, same]
    cases ends : terminatorEnds (offset + 1) rest with
    | nil =>
      -- Without a terminator behind it the character belongs to the last line.
      have first : lines = [] := List.eq_nil_of_length_eq_zero (by rw [count, ends]; rfl)
      exact ⟨[], by simp [first, consLine]⟩
    | cons first later =>
      rw [ends, List.getLast?_cons, Option.getD_some] at within
      rw [ends] at count
      have some_line : 0 < lines.length := by
        rw [count]
        simp
      obtain ⟨line, more, rfl⟩ := List.exists_cons_of_length_pos some_line
      have shifted : (first :: later).getLast?.getD offset - offset =
          (first :: later).getLast?.getD (offset + 1) - (offset + 1) + 1 := by
        rw [List.getLast?_cons, Option.getD_some, Option.getD_some]
        omega
      refine ⟨(c :: line) :: more, ?_, by simpa using count, ?_⟩
      · rw [shifted, List.drop_succ_cons]
        rfl
      · rw [List.getLast?_cons, Option.getD_some]
        omega

/-- The terminators of a text end within it. -/
theorem mem_terminatorEnds {offset stop : Nat} {cs : List Char}
    (member : stop ∈ terminatorEnds offset cs) : offset < stop ∧ stop ≤ offset + cs.length := by
  fun_induction terminatorEnds offset cs with
  | case1 => cases member
  | case2 offset rest ih =>
    rcases List.mem_cons.mp member with rfl | later
    · simp
    · have inside := ih later
      simp only [List.length_cons]
      omega
  | case3 offset c rest _ _ ih =>
    rcases List.mem_cons.mp member with rfl | later
    · simp
    · have inside := ih later
      simp only [List.length_cons]
      omega
  | case4 offset c rest _ _ ih =>
    have inside := ih member
    simp only [List.length_cons]
    omega

/-- The terminators of two texts are those of each, unless a return is parted from its line feed. -/
theorem terminatorEnds_append {front cs : List Char} (offset : Nat)
    (apart : ¬(front.getLast? = some '\r' ∧ cs.head? = some '\n')) :
    terminatorEnds offset (front ++ cs) =
      terminatorEnds offset front ++ terminatorEnds (offset + front.length) cs := by
  -- A character at the end of the front sees the rest just as one inside sees what follows it.
  have alone : ∀ c rest, (∀ later, c = '\r' → rest = '\n' :: later → False) →
      ¬((c :: rest).getLast? = some '\r' ∧ cs.head? = some '\n') →
        ¬(c = '\r' ∧ (rest ++ cs).head? = some '\n') := by
    rintro c rest lone parted ⟨isReturn, feed⟩
    cases rest with
    | nil => exact parted ⟨by rw [isReturn]; rfl, feed⟩
    | cons next later =>
      have isFeed : next = '\n' := by simpa using feed
      exact lone later isReturn (by rw [isFeed])
  have inside : ∀ c rest, ¬((c :: rest).getLast? = some '\r' ∧ cs.head? = some '\n') →
      ¬(rest.getLast? = some '\r' ∧ cs.head? = some '\n') := by
    rintro c rest parted ⟨last, feed⟩
    exact parted ⟨by rw [List.getLast?_cons, last]; rfl, feed⟩
  fun_induction terminatorEnds offset front with
  | case1 => simp
  | case2 offset rest ih =>
    have further : offset + 2 + rest.length = offset + ('\r' :: '\n' :: rest).length := by
      simp only [List.length_cons]
      omega
    simp only [List.cons_append, terminatorEnds, ih (inside _ _ (inside _ _ apart)), further]
  | case3 offset c rest lone ends ih =>
    have further : offset + 1 + rest.length = offset + (c :: rest).length := by
      simp only [List.length_cons]
      omega
    rw [List.cons_append, terminatorEnds_cons offset (alone c rest lone apart), if_pos ends,
      ih (inside _ _ apart), further, List.cons_append]
  | case4 offset c rest lone plain ih =>
    have further : offset + 1 + rest.length = offset + (c :: rest).length := by
      simp only [List.length_cons]
      omega
    rw [List.cons_append, terminatorEnds_cons offset (alone c rest lone apart), if_neg plain,
      ih (inside _ _ apart), further]

/-- The position of a boundary is told by the lines of the text before it. -/
theorem positionAt_eq {front cs : List Char}
    (apart : ¬(front.getLast? = some '\r' ∧ cs.head? = some '\n')) :
    ∃ lines last, sourceLines front = lines ++ [last] ∧
      positionAt (front ++ cs) front.length = ⟨lines.length + 1, units last⟩ := by
  obtain ⟨lines, same, count, _⟩ := sourceLines_eq 0 front
  refine ⟨lines, _, same, ?_⟩
  have before : (terminatorEnds 0 (front ++ cs)).filter (· ≤ front.length) =
      terminatorEnds 0 front := by
    rw [terminatorEnds_append 0 apart, List.filter_append]
    have here : (terminatorEnds 0 front).filter (· ≤ front.length) = terminatorEnds 0 front := by
      refine List.filter_eq_self.mpr fun stop member => ?_
      have inside := mem_terminatorEnds member
      simp only [decide_eq_true_eq]
      omega
    have behind : (terminatorEnds (0 + front.length) cs).filter (· ≤ front.length) = [] := by
      refine List.filter_eq_nil_iff.mpr fun stop member => ?_
      have inside := mem_terminatorEnds member
      simp only [decide_eq_true_eq]
      omega
    rw [here, behind, List.append_nil]
  simp only [positionAt, before, List.take_left, count, lineStart, Nat.sub_zero, Nat.add_comm]

/-- A stretch of existing lines covers those lines. -/
theorem slice_append (above : List (List Char)) {covered : List (List Char)}
    (below : List (List Char)) (some_line : covered ≠ []) (start stop : Nat) :
    slice (above ++ covered ++ below)
        ⟨⟨above.length + 1, start⟩, ⟨above.length + covered.length, stop⟩⟩ =
      some (sliceLines start stop covered) := by
  have positive : 0 < covered.length := List.length_pos_iff.mpr some_line
  have exists_ : ¬(above.length + 1 = 0 ∨ above.length + covered.length < above.length + 1) := by
    omega
  have within : ¬(above ++ covered ++ below).length < above.length + covered.length := by
    simp only [List.length_append]
    omega
  have count : above.length + covered.length - (above.length + 1) + 1 = covered.length := by omega
  have taken : ((above ++ covered ++ below).drop (above.length + 1 - 1)).take
      (above.length + covered.length - (above.length + 1) + 1) = covered := by
    rw [count, Nat.add_sub_cancel, List.append_assoc, List.drop_left, List.take_left]
  unfold slice
  rw [if_neg ?_]
  · simp only [taken]
  · simp only [Bool.or_eq_true, decide_eq_true_eq]
    rintro (outside | beyond)
    · exact exists_ outside
    · exact within beyond

/-- The positions around a text whose lines end in line feeds address that text. -/
theorem slice_splitLines {front cs tail last ending : List Char} {lines further : List (List Char)}
    (before : splitLines front = lines ++ [last])
    (through : splitLines (front ++ cs) = further ++ [ending]) :
    slice (splitLines (front ++ cs ++ tail))
      ⟨⟨lines.length + 1, units last⟩, ⟨further.length + 1, units ending⟩⟩ = some cs := by
  obtain ⟨first, later, inside⟩ := List.exists_cons_of_ne_nil (splitLines_ne_nil cs)
  obtain ⟨next, below, behind⟩ := List.exists_cons_of_ne_nil (splitLines_ne_nil tail)
  have restored := intercalate_splitLines cs
  have whole := splitLines_append_of_eq through behind
  have joined := through.symm.trans (splitLines_append_of_eq before inside)
  rw [inside] at restored
  rcases List.eq_nil_or_concat later with rfl | ⟨middle, final, rfl⟩
  · -- The text lies within one line.
    obtain ⟨rfl, same⟩ := List.append_inj' joined rfl
    have ended : ending = last ++ first := by simpa using same
    have text : first = cs := by simpa [List.intercalate] using restored
    have span : slice (further ++ [ending ++ next] ++ below)
        ⟨⟨further.length + 1, units last⟩, ⟨further.length + 1, units ending⟩⟩ =
          some (sliceLines (units last) (units ending) [ending ++ next]) :=
      slice_append further below (by simp) _ _
    have wide : max (units ending) (units last) = units ending := by
      rw [ended]
      simp [units]
    rw [whole, ← List.singleton_append, ← List.append_assoc, span, sliceLines, sliceLine, wide,
      takeColumns_append, ended, dropColumns_append, text]
  · -- The text starts in one line and ends in another.
    rw [List.concat_eq_append] at joined restored
    have split : further ++ [ending] = (lines ++ (last ++ first) :: middle) ++ [final] := by
      rw [joined, List.append_assoc, List.cons_append]
    obtain ⟨rfl, same⟩ := List.append_inj' split rfl
    have ended : ending = final := by simpa using same
    have count : (lines ++ (last ++ first) :: middle).length + 1 =
        lines.length + ((last ++ first) :: (middle ++ [ending ++ next])).length := by
      simp only [List.length_append, List.length_cons, List.length_nil]
      omega
    have some_line : (last ++ first) :: (middle ++ [ending ++ next]) ≠ [] := by simp
    have span := slice_append lines below some_line (units last) (units ending)
    have placed : lines ++ (last ++ first) :: middle ++ (ending ++ next) :: below =
        lines ++ (last ++ first) :: (middle ++ [ending ++ next]) ++ below := by simp
    obtain ⟨second, others, more⟩ : ∃ second others, middle ++ [ending ++ next] = second :: others :=
      List.exists_cons_of_ne_nil (by simp)
    rw [whole, placed, count, span, more, sliceLines, ← more]
    · simp only [List.getLast?_concat, Option.getD_some, List.dropLast_concat, takeColumns_append,
        dropColumns_append, ended]
      exact congrArg some restored
    · simp

/-- No character but a line feed ends a line once terminators are unified. -/
theorem unifyTerminators_eq_self {cs : List Char}
    (unified : ∀ c ∈ cs, isTerminator c = true → c = '\n') : unifyTerminators cs = cs := by
  induction cs with
  | nil => rfl
  | cons c rest ih =>
    have inner := ih fun other member => unified other (List.mem_cons_of_mem c member)
    have loud : ¬(c = '\r' ∧ rest.head? = some '\n') := by
      rintro ⟨rfl, _⟩
      exact absurd (unified '\r' List.mem_cons_self rfl) (by decide)
    rw [unifyTerminators_cons, if_neg loud, inner]
    split
    · rename_i ends
      rw [unified c List.mem_cons_self ends]
    · rfl

/-- A source and its copy with unified terminators have the same lines. -/
theorem sourceLines_unifyTerminators (source : List Char) :
    sourceLines (unifyTerminators source) = sourceLines source := by
  have unified : unifyTerminators (unifyTerminators source) = unifyTerminators source :=
    unifyTerminators_eq_self fun _ member ends => eq_newline_of_mem_unifyTerminators member ends
  rw [sourceLines, unified, sourceLines]

/-- The positions of two boundaries that part no terminator address the text between them, whose
terminators become line feeds; hence a source and its copy with line feeds have the same outline. -/
theorem slice_positionAt (source : List Char) :
    (∀ start stop, start ≤ stop → stop ≤ source.length → ¬PartsReturn source start →
        ¬PartsReturn source stop →
      slice (sourceLines source) ⟨positionAt source start, positionAt source stop⟩ =
        some (unifyTerminators ((source.take stop).drop start))) ∧
      ∀ docWindow tree,
        outline (unifyTerminators source) docWindow tree = outline source docWindow tree := by
  constructor
  · intro start stop ordered within apartStart apartStop
    have through : source.take stop = source.take start ++ (source.take stop).drop start := by
      have parts := (List.take_append_drop start (source.take stop)).symm
      rwa [List.take_take, Nat.min_eq_left ordered] at parts
    obtain ⟨lines, last, before, first⟩ := positionAt_eq apartStart
    obtain ⟨further, ending, behind, second⟩ := positionAt_eq apartStop
    rw [List.take_append_drop, List.length_take, Nat.min_eq_left (Nat.le_trans ordered within)] at first
    rw [List.take_append_drop, List.length_take, Nat.min_eq_left within] at second
    -- Neither boundary parts a terminator, so the three texts are unified one by one.
    have inner : unifyTerminators (source.take stop) =
        unifyTerminators (source.take start) ++ unifyTerminators ((source.take stop).drop start) := by
      refine (congrArg unifyTerminators through).trans (unifyTerminators_append ?_)
      intro isReturn feed
      rw [List.drop_take, List.head?_take] at feed
      split at feed
      · cases feed
      · exact apartStart ⟨isReturn, feed⟩
    have outer : unifyTerminators source =
        unifyTerminators (source.take stop) ++ unifyTerminators (source.drop stop) := by
      refine (congrArg unifyTerminators (List.take_append_drop stop source).symm).trans ?_
      exact unifyTerminators_append fun isReturn feed => apartStop ⟨isReturn, feed⟩
    rw [sourceLines] at before behind
    rw [inner] at behind
    rw [sourceLines, outer, inner, first, second]
    exact slice_splitLines before behind
  · intro docWindow tree
    simp only [outline, sourceLines_unifyTerminators]

/-- A stretch over a pair of terminators and a character of two units is addressed as a whole. -/
theorem slice_positionAt_pair :
    ¬PartsReturn "aé\r\n😀b\u2028c".toList 1 ∧ ¬PartsReturn "aé\r\n😀b\u2028c".toList 6 ∧
      positionAt "aé\r\n😀b\u2028c".toList 6 = ⟨2, 3⟩ ∧
      slice (sourceLines "aé\r\n😀b\u2028c".toList)
        ⟨positionAt "aé\r\n😀b\u2028c".toList 1, positionAt "aé\r\n😀b\u2028c".toList 6⟩ =
          some "é\n😀b".toList := by
  have start : ¬PartsReturn "aé\r\n😀b\u2028c".toList 1 := by decide
  have stop : ¬PartsReturn "aé\r\n😀b\u2028c".toList 6 := by decide
  refine ⟨start, stop, by decide, ?_⟩
  have addressed := (slice_positionAt "aé\r\n😀b\u2028c".toList).1 1 6 (by decide) (by decide) start stop
  exact addressed.trans (by decide)

end SourceOutline.Script
