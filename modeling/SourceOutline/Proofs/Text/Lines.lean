import SourceOutline.Text.Lines

/-! Laws of lines: splitting undoes joining, and terminators are unified piece by piece. -/

namespace SourceOutline.Text

/-- A property that all items of a list lack is checked item by item. -/
theorem forall_mem_of_all {α : Type} {property : α → Bool} {items : List α}
    (checked : (items.all fun item => !property item) = true) :
    ∀ item ∈ items, property item = false := by
  simpa using checked

/-- The empty text is one empty line. -/
@[simp] theorem splitLines_nil : splitLines [] = [[]] := rfl

/-- A line feed opens an empty line. -/
@[simp] theorem splitLines_newline (cs : List Char) :
    splitLines ('\n' :: cs) = [] :: splitLines cs := by
  simp [splitLines]

/-- Any other character goes into the first line. -/
theorem splitLines_cons {c : Char} (other : c ≠ '\n') (cs : List Char) :
    splitLines (c :: cs) = consLine c (splitLines cs) := by
  simp [splitLines, other]

/-- A text without line feed stands in front of the first line of what follows. -/
theorem splitLines_append_of_not_mem {front : List Char} (whole : '\n' ∉ front)
    {cs first : List Char} {later : List (List Char)} (lines : splitLines cs = first :: later) :
    splitLines (front ++ cs) = (front ++ first) :: later := by
  -- Each character of the front is put before the line that is already there.
  induction front with
  | nil => simpa using lines
  | cons c rest ih =>
    have other : c ≠ '\n' := fun same => whole (same ▸ List.mem_cons_self)
    have inner := ih fun member => whole (List.mem_cons_of_mem c member)
    rw [List.cons_append, splitLines_cons other, inner]
    rfl

/-- A text without line feed is a single line. -/
theorem splitLines_of_not_mem {cs : List Char} (whole : '\n' ∉ cs) : splitLines cs = [cs] := by
  simpa using splitLines_append_of_not_mem whole splitLines_nil

/-- A line feed separates the lines before it from those behind it. -/
theorem splitLines_append_newline (front cs : List Char) :
    splitLines (front ++ '\n' :: cs) = splitLines front ++ splitLines cs := by
  -- The first line of the front grows while the lines behind the line feed stay.
  induction front with
  | nil => simp
  | cons c rest ih =>
    by_cases same : c = '\n'
    · subst same
      simp [ih]
    · rw [List.cons_append, splitLines_cons same, splitLines_cons same, ih]
      cases pieces : splitLines rest with
      | nil => exact absurd pieces (splitLines_ne_nil rest)
      | cons first later => rfl

/-- Lines joined by line feeds are the first one and those behind it. -/
theorem intercalate_cons (line : List Char) {rest : List (List Char)} (some_line : rest ≠ []) :
    ['\n'].intercalate (line :: rest) = line ++ '\n' :: ['\n'].intercalate rest := by
  cases rest with
  | nil => exact absurd rfl some_line
  | cons next later => simp [List.intercalate]

/-- Joined by line feeds and split again, lines are what they were. -/
theorem splitLines_intercalate {lines : List (List Char)} (some_line : lines ≠ [])
    (whole : ∀ line ∈ lines, '\n' ∉ line) : splitLines (['\n'].intercalate lines) = lines := by
  induction lines with
  | nil => exact absurd rfl some_line
  | cons line rest ih =>
    have here := whole line List.mem_cons_self
    cases rest with
    | nil => simpa [List.intercalate] using splitLines_of_not_mem here
    | cons next later =>
      have inner := ih (by simp) fun other member => whole other (List.mem_cons_of_mem line member)
      rw [intercalate_cons line (by simp), splitLines_append_newline, splitLines_of_not_mem here, inner]
      rfl

/-- What stands on a line stands in the text. -/
theorem mem_of_mem_splitLines {c : Char} {text line : List Char} (member : line ∈ splitLines text) (inside : c ∈ line) :
    c ∈ text := by
  induction text generalizing line with
  | nil =>
    rw [splitLines_nil, List.mem_singleton] at member
    rw [member] at inside
    cases inside
  | cons d rest ih =>
    by_cases feed : d = '\n'
    · subst feed
      rw [splitLines_newline] at member
      rcases List.mem_cons.mp member with rfl | below
      · cases inside
      · exact List.mem_cons_of_mem _ (ih below inside)
    · obtain ⟨first, later, lines⟩ := List.exists_cons_of_ne_nil (splitLines_ne_nil rest)
      rw [splitLines_cons feed, lines, consLine] at member
      rcases List.mem_cons.mp member with rfl | below
      · rcases List.mem_cons.mp inside with rfl | behind
        · exact List.mem_cons_self
        · exact List.mem_cons_of_mem d (ih (lines ▸ List.mem_cons_self) behind)
      · exact List.mem_cons_of_mem d (ih (lines ▸ List.mem_cons_of_mem first below) inside)

/-- Every character but line feeds stands on a line. -/
theorem exists_mem_splitLines {c : Char} {text : List Char} (member : c ∈ text) (other : c ≠ '\n') :
    ∃ line ∈ splitLines text, c ∈ line := by
  induction text with
  | nil => cases member
  | cons d rest ih =>
    by_cases feed : d = '\n'
    · subst feed
      obtain ⟨line, among, inside⟩ := ih ((List.mem_cons.mp member).resolve_left other)
      exact ⟨line, by rw [splitLines_newline]; exact List.mem_cons_of_mem [] among, inside⟩
    · obtain ⟨first, later, lines⟩ := List.exists_cons_of_ne_nil (splitLines_ne_nil rest)
      rw [splitLines_cons feed, lines, consLine]
      rcases List.mem_cons.mp member with rfl | behind
      · exact ⟨c :: first, List.mem_cons_self, List.mem_cons_self⟩
      · obtain ⟨line, among, inside⟩ := ih behind
        rw [lines] at among
        rcases List.mem_cons.mp among with rfl | below
        · exact ⟨d :: line, List.mem_cons_self, List.mem_cons_of_mem d inside⟩
        · exact ⟨line, List.mem_cons_of_mem _ below, inside⟩

/-- Lines with a text behind the last one. -/
def endingIn (tail : List Char) : List (List Char) → List (List Char)
  | [] => []
  | [line] => [line ++ tail]
  | line :: next :: later => line :: endingIn tail (next :: later)

/-- A text without line feed stands behind the last line of what comes before. -/
theorem splitLines_append {tail : List Char} (whole : '\n' ∉ tail) (cs : List Char) :
    splitLines (cs ++ tail) = endingIn tail (splitLines cs) := by
  induction cs with
  | nil => simpa [endingIn] using splitLines_of_not_mem whole
  | cons c rest ih =>
    cases pieces : splitLines rest with
    | nil => exact absurd pieces (splitLines_ne_nil rest)
    | cons first later =>
      rw [pieces] at ih
      by_cases same : c = '\n'
      · subst same
        simp [ih, pieces, endingIn]
      · rw [List.cons_append, splitLines_cons same, splitLines_cons same, ih, pieces]
        cases later <;> rfl

/-- The lines before the last one do not change. -/
theorem dropLast_endingIn (tail : List Char) (lines : List (List Char)) :
    (endingIn tail lines).dropLast = lines.dropLast := by
  fun_induction endingIn tail lines with
  | case1 => rfl
  | case2 => rfl
  | case3 line next later ih =>
    have some_line : endingIn tail (next :: later) ≠ [] := by cases later <;> simp [endingIn]
    rw [List.dropLast_cons_of_ne_nil some_line, ih]
    rfl

/-- The last line is the one that grows. -/
theorem getLast?_endingIn (tail : List Char) (lines : List (List Char)) :
    (endingIn tail lines).getLast? = lines.getLast?.map (· ++ tail) := by
  fun_induction endingIn tail lines with
  | case1 => rfl
  | case2 => rfl
  | case3 line next later ih =>
    have some_line : endingIn tail (next :: later) ≠ [] := by cases later <;> simp [endingIn]
    rw [List.getLast?_cons_of_ne_nil some_line, ih, List.getLast?_cons_cons]

/-- A line before the last one is followed by a line feed. -/
theorem exists_newline_of_mem_dropLast {lines : List (List Char)} {line : List Char}
    (member : line ∈ lines.dropLast) :
    ∃ front rest, ['\n'].intercalate lines = front ++ line ++ '\n' :: rest := by
  induction lines with
  | nil => simp at member
  | cons first later ih =>
    cases later with
    | nil => simp at member
    | cons next more =>
      have joined : ['\n'].intercalate (first :: next :: more) =
          first ++ '\n' :: ['\n'].intercalate (next :: more) := by
        simp [List.intercalate]
      rcases List.mem_cons.mp member with rfl | deeper
      · exact ⟨[], _, joined⟩
      · obtain ⟨front, rest, same⟩ := ih deeper
        exact ⟨first ++ '\n' :: front, rest, by simp [joined, same]⟩

/-- What the rule for one terminator keeps in mind is whether a line feed comes next. -/
private theorem unifying_flag (cs : List Char) :
    (cs.foldr
      (fun c (unified : List Char × Bool) =>
        if c == '\r' && unified.2 then (unified.1, false)
        else if isTerminator c then ('\n' :: unified.1, c == '\n')
        else (c :: unified.1, false))
      ([], false)).2 = (cs.head? == some '\n') := by
  cases cs with
  | nil => rfl
  | cons c rest =>
    simp only [List.foldr_cons, List.head?_cons]
    split
    · rename_i silent
      have isReturn : c = '\r' := by simp at silent; exact silent.1
      simp [isReturn]
    · split
      · rfl
      · rename_i plain
        have other : c ≠ '\n' := fun same => plain (by simp [same, isTerminator])
        simpa using other

/-- The empty text has no terminators. -/
@[simp] theorem unifyTerminators_nil : unifyTerminators [] = [] := rfl

/-- A character stays itself unless it is a terminator or the return before a line feed. -/
theorem unifyTerminators_cons (c : Char) (cs : List Char) :
    unifyTerminators (c :: cs) =
      if c = '\r' ∧ cs.head? = some '\n' then unifyTerminators cs
      else (if isTerminator c then '\n' else c) :: unifyTerminators cs := by
  have flag := unifying_flag cs
  simp only [unifyTerminators, List.foldr_cons, flag]
  by_cases silent : c = '\r' ∧ cs.head? = some '\n'
  · simp [silent]
  · have loud : (c == '\r' && cs.head? == some '\n') = false := by simpa using silent
    rw [if_neg silent]
    simp only [loud, Bool.false_eq_true, if_false]
    cases isTerminator c <;> rfl

/-- A character that ends no line stays itself. -/
theorem unifyTerminators_cons_of_plain {c : Char} (plain : isTerminator c = false)
    (cs : List Char) : unifyTerminators (c :: cs) = c :: unifyTerminators cs := by
  have other : c ≠ '\r' := fun same => by simp [same, isTerminator] at plain
  simp [unifyTerminators_cons, other, plain]

/-- A text that ends no line stays in front of what follows. -/
theorem unifyTerminators_append_of_plain {front : List Char}
    (plain : ∀ c ∈ front, isTerminator c = false) (cs : List Char) :
    unifyTerminators (front ++ cs) = front ++ unifyTerminators cs := by
  induction front with
  | nil => rfl
  | cons c rest ih =>
    rw [List.cons_append, unifyTerminators_cons_of_plain (plain c List.mem_cons_self),
      ih fun other member => plain other (List.mem_cons_of_mem c member)]
    rfl

/-- Two texts are unified one after the other unless a return is parted from its line feed. -/
theorem unifyTerminators_append {front cs : List Char}
    (apart : front.getLast? = some '\r' → cs.head? ≠ some '\n') :
    unifyTerminators (front ++ cs) = unifyTerminators front ++ unifyTerminators cs := by
  induction front with
  | nil => rfl
  | cons c rest ih =>
    cases rest with
    | nil =>
      -- Only here does the character see what follows the front.
      have loud : ¬(c = '\r' ∧ cs.head? = some '\n') := fun both =>
        apart (by simp [both.1]) both.2
      simp [unifyTerminators_cons, loud]
    | cons next later =>
      have inner := ih (by simpa [List.getLast?_cons_cons] using apart)
      simp only [List.cons_append] at inner ⊢
      rw [unifyTerminators_cons, unifyTerminators_cons c (next :: later), inner]
      by_cases silent : c = '\r' ∧ next = '\n' <;> simp [silent]

/-- A character that is no line feed was the first one already. -/
theorem eq_cons_of_unifyTerminators {cs rest : List Char} {c : Char} (plain : c ≠ '\n')
    (unified : unifyTerminators cs = c :: rest) :
    ∃ later, cs = c :: later ∧ unifyTerminators later = rest := by
  cases cs with
  | nil => simp at unified
  | cons d later =>
    rw [unifyTerminators_cons] at unified
    split at unified
    · -- A silent return is followed by a line feed, which would have come first.
      rename_i silent
      cases later with
      | nil => simp at silent
      | cons next more =>
        have feed : next = '\n' := by simpa using silent.2
        simp [feed, unifyTerminators_cons, Ne.symm plain] at unified
    · split at unified
      · exact absurd (List.cons.inj unified).1.symm plain
      · exact ⟨later, by rw [(List.cons.inj unified).1], (List.cons.inj unified).2⟩

/-- A character that is no line feed stood between the same two texts already. -/
theorem eq_append_of_unifyTerminators {cs front rest : List Char} {c : Char} (plain : c ≠ '\n')
    (unified : unifyTerminators cs = front ++ c :: rest) :
    ∃ before after, cs = before ++ c :: after ∧ unifyTerminators after = rest := by
  induction cs generalizing front with
  | nil => simp at unified
  | cons d later ih =>
    cases front with
    | nil =>
      obtain ⟨after, same, unifiedAfter⟩ := eq_cons_of_unifyTerminators plain unified
      exact ⟨[], after, same, unifiedAfter⟩
    | cons first more =>
      rw [unifyTerminators_cons] at unified
      have inner : ∃ deeper, unifyTerminators later = deeper ++ c :: rest := by
        split at unified
        · exact ⟨first :: more, unified⟩
        · exact ⟨more, (List.cons.inj unified).2⟩
      obtain ⟨deeper, same⟩ := inner
      obtain ⟨before, after, found, unifiedAfter⟩ := ih same
      exact ⟨d :: before, after, by simp [found], unifiedAfter⟩

/-- No terminator but the line feed is left. -/
theorem eq_newline_of_mem_unifyTerminators {cs : List Char} {c : Char}
    (member : c ∈ unifyTerminators cs) (ends : isTerminator c = true) : c = '\n' := by
  induction cs with
  | nil => simp at member
  | cons d rest ih =>
    rw [unifyTerminators_cons] at member
    split at member
    · exact ih member
    · rcases List.mem_cons.mp member with same | later
      · split at same
        · exact same
        · simp_all
      · exact ih later

end SourceOutline.Text
