import Mathlib.Data.List.Chain
import SourceOutline.Text.Blank

/-! Texts reduced to their words: no blank at either end, and never two in a row. -/

namespace SourceOutline.Text

/-- A word holds a character, and no blank. -/
def IsWord (word : List Char) : Prop := word ≠ [] ∧ ∀ c ∈ word, isBlank c = false

/-- A text without blanks in front, behind, or next to each other. -/
structure IsTidy (cs : List Char) : Prop where
  /-- It does not begin with a blank. -/
  front : ∀ c ∈ cs.head?, isBlank c = false
  /-- It does not end with a blank. -/
  back : ∀ c ∈ cs.getLast?, isBlank c = false
  /-- Of two neighbours at most one is a blank. -/
  apart : cs.IsChain fun c d => isBlank c = false ∨ isBlank d = false

/-- Words are kept apart from what is no word. -/
theorem isWord_of_mem_keepWord {front word : List Char} {later : List (List Char)}
    (plain : ∀ c ∈ front, isBlank c = false) (rest : ∀ word ∈ later, IsWord word)
    (member : word ∈ keepWord front later) : IsWord word := by
  unfold keepWord at member
  split at member
  · exact rest word member
  · rename_i some_char
    rcases List.mem_cons.mp member with rfl | inside
    · exact ⟨by simpa using some_char, plain⟩
    · exact rest word inside

/-- What a text is reduced to are words. -/
theorem isWord_of_mem_words {cs word : List Char} (member : word ∈ words cs) : IsWord word := by
  -- The word under way holds no blank, and the finished ones are words.
  have read : ∀ cs : List Char,
      let pieces := cs.foldr
        (fun c (pieces : List Char × List (List Char)) =>
          if isBlank c then ([], keepWord pieces.1 pieces.2) else (c :: pieces.1, pieces.2))
        ([], [])
      (∀ c ∈ pieces.1, isBlank c = false) ∧ ∀ word ∈ pieces.2, IsWord word := by
    intro cs
    induction cs with
    | nil => simp
    | cons c rest ih =>
      obtain ⟨plain, finished⟩ := ih
      rw [List.foldr_cons]
      split
      · exact ⟨by simp, fun word member => isWord_of_mem_keepWord plain finished member⟩
      · rename_i loud
        exact ⟨List.forall_mem_cons.mpr ⟨by simpa using loud, plain⟩, finished⟩
  exact isWord_of_mem_keepWord (read cs).1 (read cs).2 member

/-- A word is tidy. -/
theorem IsWord.isTidy {word : List Char} (isWord : IsWord word) : IsTidy word where
  front c first := isWord.2 c (List.mem_of_head? first)
  back c last := isWord.2 c (List.mem_of_getLast? last)
  apart := (List.pairwise_of_forall_mem_list fun c inside _ _ => .inl (isWord.2 c inside)).isChain

/-- A word in front of a tidy text makes a tidy text with a space between them. -/
theorem IsTidy.cons {word cs : List Char} (isWord : IsWord word) (tidy : IsTidy cs) (some_char : cs ≠ []) :
    IsTidy (word ++ ' ' :: cs) := by
  obtain ⟨first, rest, rfl⟩ := List.exists_cons_of_ne_nil some_char
  refine ⟨fun c isFirst => ?_, fun c isLast => ?_, ?_⟩
  · rw [List.head?_append_of_ne_nil _ isWord.1] at isFirst
    exact isWord.isTidy.front c isFirst
  · rw [List.getLast?_append_of_ne_nil _ (by simp), List.getLast?_cons_cons] at isLast
    exact tidy.back c isLast
  · -- The space has a character other than a blank on either side.
    rw [List.isChain_append, List.isChain_cons_cons]
    exact ⟨isWord.isTidy.apart, ⟨.inr (tidy.front first rfl), tidy.apart⟩,
      fun c last _ _ => .inl (isWord.isTidy.back c last)⟩

/-- Words with single spaces between them are tidy. -/
theorem isTidy_intercalate {pieces : List (List Char)} (all : ∀ word ∈ pieces, IsWord word) :
    IsTidy ([' '].intercalate pieces) := by
  induction pieces with
  | nil => exact ⟨by simp, by simp, by simp⟩
  | cons word rest ih =>
    have here := all word List.mem_cons_self
    have inner := ih fun other member => all other (List.mem_cons_of_mem word member)
    cases rest with
    | nil => simpa [List.intercalate] using here.isTidy
    | cons next later =>
      have some_char : [' '].intercalate (next :: later) ≠ [] := by
        have nonempty := (all next (by simp)).1
        cases later <;> simp [List.intercalate, nonempty]
      have joined : [' '].intercalate (word :: next :: later) =
          word ++ ' ' :: [' '].intercalate (next :: later) := by simp [List.intercalate]
      rw [joined]
      exact inner.cons here some_char

/-- A collapsed text is tidy. -/
theorem isTidy_collapse (cs : List Char) : IsTidy (collapse cs) :=
  isTidy_intercalate fun _ member => isWord_of_mem_words member

end SourceOutline.Text
