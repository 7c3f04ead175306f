import Mathlib.Data.List.TakeWhile
import SourceOutline.Text.Blank
import SourceOutline.Text.Search

/-! Laws of searching and trimming: what is found, and what stands around it without effect. -/

namespace SourceOutline.Text

/-- What is found is the rest of the text, and it begins with the pattern. -/
theorem eq_append_of_fromFirst {pattern cs rest : List Char}
    (found : fromFirst pattern cs = some rest) : ∃ front, cs = front ++ rest ∧ pattern <+: rest := by
  induction cs with
  | nil =>
    simp only [fromFirst] at found
    split at found
    · rename_i empty
      cases found
      exact ⟨[], rfl, by simp_all⟩
    · cases found
  | cons c later ih =>
    simp only [fromFirst] at found
    split at found
    · rename_i here
      cases found
      exact ⟨[], rfl, List.isPrefixOf_iff_prefix.mp here⟩
    · obtain ⟨front, same, opens⟩ := ih found
      exact ⟨c :: front, by simp [same], opens⟩

/-- A pattern that stands somewhere is found there or before. -/
theorem exists_fromFirst_append (pattern before after : List Char) :
    ∃ rest, fromFirst pattern (before ++ pattern ++ after) = some rest ∧
      (pattern ++ after).length ≤ rest.length := by
  induction before with
  | nil =>
    refine ⟨pattern ++ after, ?_, Nat.le_refl _⟩
    rw [List.nil_append]
    cases whole : pattern ++ after with
    | nil => simp_all [fromFirst]
    | cons c more => simp [fromFirst, List.isPrefixOf_iff_prefix.mpr ⟨after, whole⟩]
  | cons c more ih =>
    simp only [List.cons_append, fromFirst]
    split
    · refine ⟨_, rfl, ?_⟩
      simp only [List.length_append, List.length_cons]
      omega
    · exact ih

/-- A text that begins with the pattern is found at once. -/
theorem fromFirst_of_prefix {pattern cs : List Char} (opens : pattern <+: cs) :
    fromFirst pattern cs = some cs := by
  cases cs with
  | nil => simp [fromFirst, List.prefix_nil.mp opens]
  | cons c rest => simp [fromFirst, List.isPrefixOf_iff_prefix.mpr opens]

/-- A front that lacks the first character of the pattern is passed over. -/
theorem fromFirst_append_of_not_mem {first : Char} {pattern front : List Char}
    (lacks : first ∉ front) (cs : List Char) :
    fromFirst (first :: pattern) (front ++ cs) = fromFirst (first :: pattern) cs := by
  induction front with
  | nil => rfl
  | cons c rest ih =>
    have other : first ≠ c := fun same => lacks (same ▸ List.mem_cons_self)
    have inner := ih fun member => lacks (List.mem_cons_of_mem c member)
    simp [fromFirst, other, inner]

/-- A pattern that begins a text goes on beginning it when the text is cut before foreign characters. -/
theorem prefix_of_prefix_append {pattern cs tail : List Char}
    (foreign : ∀ c ∈ tail, c ∉ pattern) (opens : pattern <+: cs ++ tail) : pattern <+: cs := by
  -- The pattern cannot reach into the tail, whose characters it does not have.
  rcases List.prefix_or_prefix_of_prefix opens (List.prefix_append cs tail) with inside | beyond
  · exact inside
  · obtain ⟨reach, rfl⟩ := beyond
    have within : reach <+: tail := (List.prefix_append_right_inj cs).mp opens
    cases reach with
    | nil => simp
    | cons c rest =>
      have member : c ∈ tail := within.subset List.mem_cons_self
      exact absurd (by simp) (foreign c member)

/-- Foreign characters behind a text stay behind what is found in it. -/
theorem fromFirst_append {pattern tail : List Char} (foreign : ∀ c ∈ tail, c ∉ pattern)
    (some_char : pattern ≠ []) (cs : List Char) :
    fromFirst pattern (cs ++ tail) = (fromFirst pattern cs).map (· ++ tail) := by
  induction cs with
  | nil =>
    -- Nothing is found in the tail alone.
    obtain ⟨first, rest, rfl⟩ := List.exists_cons_of_ne_nil some_char
    have lacks : first ∉ tail := fun member => foreign first member List.mem_cons_self
    have passed : fromFirst (first :: rest) (tail ++ []) = fromFirst (first :: rest) [] :=
      fromFirst_append_of_not_mem lacks []
    simpa [fromFirst] using passed
  | cons c rest ih =>
    have same : pattern.isPrefixOf (c :: (rest ++ tail)) = pattern.isPrefixOf (c :: rest) := by
      rw [Bool.eq_iff_iff, List.isPrefixOf_iff_prefix, List.isPrefixOf_iff_prefix]
      refine ⟨fun opens => prefix_of_prefix_append foreign opens, fun opens => ?_⟩
      exact opens.trans (List.prefix_append (c :: rest) tail)
    simp only [List.cons_append, fromFirst, same, ih]
    split <;> rfl

/-- A text that ends with the pattern is cut behind it, whatever foreign characters follow. -/
theorem throughLast_append {pattern cs tail : List Char} (foreign : ∀ c ∈ tail, c ∉ pattern)
    (some_char : pattern ≠ []) (closes : pattern <:+ cs) :
    throughLast pattern (cs ++ tail) = some cs := by
  -- Read backward, the tail is a front without the first character of the pattern.
  obtain ⟨first, rest, reversed⟩ := List.exists_cons_of_ne_nil (List.reverse_ne_nil_iff.mpr some_char)
  have lacks : first ∉ tail.reverse := fun member =>
    foreign first (List.mem_reverse.mp member)
      (List.mem_reverse.mp (reversed ▸ List.mem_cons_self))
  rw [throughLast, List.reverse_append, reversed, fromFirst_append_of_not_mem lacks, ← reversed,
    fromFirst_of_prefix (List.reverse_prefix.mpr closes)]
  simp

/-- Blanks in front of a text are trimmed away. -/
theorem trim_blank_append {blanks : List Char} (blank : ∀ c ∈ blanks, isBlank c = true)
    (cs : List Char) : trim (blanks ++ cs) = trim cs := by
  have front : blanks.dropWhile isBlank = [] := List.dropWhile_eq_nil_iff.mpr blank
  simp [trim, trimStart, List.dropWhile_append, front]

/-- Blanks behind a text are trimmed away. -/
theorem trim_append_blank {blanks : List Char} (blank : ∀ c ∈ blanks, isBlank c = true)
    (cs : List Char) : trim (cs ++ blanks) = trim cs := by
  -- Whether anything but blanks stands in the text decides where the trimming stops.
  have back : blanks.reverse.dropWhile isBlank = [] :=
    List.dropWhile_eq_nil_iff.mpr fun c member => blank c (List.mem_reverse.mp member)
  have all : blanks.dropWhile isBlank = [] := List.dropWhile_eq_nil_iff.mpr blank
  simp only [trim, trimStart, trimEnd, List.dropWhile_append]
  cases kept : (cs.dropWhile isBlank).isEmpty with
  | true => simp [List.isEmpty_iff.mp kept, all]
  | false => simp [List.dropWhile_append, back]

/-- A trimmed text is a stretch of the text. -/
theorem trim_isInfix (cs : List Char) : trim cs <:+: cs := by
  have ends : trimEnd (trimStart cs) <+: trimStart cs := by
    simpa [trimEnd] using List.reverse_prefix.mpr
      (List.dropWhile_suffix isBlank : _ <:+ (trimStart cs).reverse)
  exact ends.isInfix.trans (List.dropWhile_suffix isBlank).isInfix

/-- A text that ends in a character other than a blank keeps its end when it is trimmed. -/
theorem suffix_trim {ending cs : List Char} (closes : ending <:+ cs)
    (firm : ∀ c ∈ ending, isBlank c = false) : ending <:+ trim cs := by
  -- The ending stops both the trimming of the front and that of the end.
  obtain ⟨front, rfl⟩ := closes
  have back : ending.reverse.dropWhile isBlank = ending.reverse := by
    cases reversed : ending.reverse with
    | nil => rfl
    | cons c rest => simp [firm c (by rw [← List.mem_reverse, reversed]; simp)]
  have start : ∃ kept, (front ++ ending).dropWhile isBlank = kept ++ ending := by
    rw [List.dropWhile_append]
    split
    · refine ⟨[], ?_⟩
      cases ending with
      | nil => rfl
      | cons c rest => simp [firm c List.mem_cons_self]
    · exact ⟨_, rfl⟩
  obtain ⟨kept, same⟩ := start
  rw [trim, trimStart, same, trimEnd, List.reverse_append, List.dropWhile_append]
  cases empty : ending.reverse.isEmpty with
  | true => simp_all
  | false => simp [back, empty]

/-- A text that begins with characters other than blanks keeps its beginning when it is trimmed. -/
theorem prefix_trim {opening cs : List Char} (opens : opening <+: cs)
    (firm : ∀ c ∈ opening, isBlank c = false) : opening <+: trim cs := by
  -- The text is not empty behind the opening only, so the trimming of the end stops in time.
  obtain ⟨rest, rfl⟩ := opens
  have start : (opening ++ rest).dropWhile isBlank = opening ++ rest ∨ opening = [] := by
    cases opening with
    | nil => exact .inr rfl
    | cons c more => exact .inl (by simp [firm c List.mem_cons_self])
  have back : opening.reverse.dropWhile isBlank = opening.reverse := by
    cases reversed : opening.reverse with
    | nil => rfl
    | cons c more => simp [firm c (List.mem_reverse.mp (reversed ▸ List.mem_cons_self))]
  rcases start with same | empty
  · rw [trim, trimStart, same, trimEnd, List.reverse_append, List.dropWhile_append]
    split
    · simp [back]
    · simp
  · simp [empty]

/-- A text with no blank at either end is not changed by trimming. -/
theorem trim_eq_self {cs : List Char} (front : ∀ c ∈ cs.head?, isBlank c = false)
    (back : ∀ c ∈ cs.getLast?, isBlank c = false) : trim cs = cs := by
  have start : cs.dropWhile isBlank = cs := by
    cases cs with
    | nil => rfl
    | cons c rest => simp [front c rfl]
  have ending : cs.reverse.dropWhile isBlank = cs.reverse := by
    cases reversed : cs.reverse with
    | nil => rfl
    | cons c rest =>
      have last : cs.getLast? = some c := by rw [List.getLast?_eq_head?_reverse, reversed]; rfl
      simp [back c last]
  rw [trim, trimStart, start, trimEnd, ending, List.reverse_reverse]

/-- A trimmed text does not end in a blank. -/
theorem isBlank_getLast?_trim (cs : List Char) : ∀ c ∈ (trim cs).getLast?, isBlank c = false := by
  intro c last
  rw [trim, trimEnd, List.getLast?_reverse] at last
  -- What is left of the reversed text starts where the blanks stop.
  have stops := List.head?_dropWhile_not isBlank (trimStart cs).reverse
  rw [Option.mem_def.mp last] at stops
  simpa using stops

/-- Behind a character that is no blank only the end of a text is trimmed. -/
theorem trim_cons {c : Char} (firm : isBlank c = false) (cs : List Char) :
    trim (c :: cs) = c :: trimEnd cs := by
  have front : (c :: cs).dropWhile isBlank = c :: cs := by simp [firm]
  rw [trim, trimStart, front, trimEnd, trimEnd, List.reverse_cons, List.dropWhile_append]
  cases stop : (cs.reverse.dropWhile isBlank).isEmpty with
  | true => simp [firm, List.isEmpty_iff.mp stop]
  | false => simp

/-- Trimming the end first makes no difference. -/
theorem trim_trimEnd (cs : List Char) : trim (trimEnd cs) = trim cs := by
  -- The text is its trimmed end with blanks behind it.
  have parts : trimEnd cs ++ (cs.reverse.takeWhile isBlank).reverse = cs := by
    rw [trimEnd, ← List.reverse_append, List.takeWhile_append_dropWhile, List.reverse_reverse]
  have blanks : ∀ c ∈ (cs.reverse.takeWhile isBlank).reverse, isBlank c = true := by
    intro c member
    exact List.mem_takeWhile_imp (List.mem_reverse.mp member)
  calc trim (trimEnd cs)
    _ = trim (trimEnd cs ++ (cs.reverse.takeWhile isBlank).reverse) :=
      (trim_append_blank blanks _).symm
    _ = trim cs := by rw [parts]

end SourceOutline.Text
