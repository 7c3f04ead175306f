import SourceOutline.Proofs.Text.Shift
import SourceOutline.Text.Blank

/-! Texts whose lines end with a carriage return and a line feed. -/

namespace SourceOutline.Text

/-- The same text with a carriage return in front of every line feed. -/
def withReturns (cs : List Char) : List Char :=
  cs.flatMap fun c => if c = '\n' then ['\r', '\n'] else [c]

/-- Without text there is no line break. -/
@[simp] theorem withReturns_nil : withReturns [] = [] := rfl

/-- A line feed gets a carriage return. -/
@[simp] theorem withReturns_feed (cs : List Char) :
    withReturns ('\n' :: cs) = '\r' :: '\n' :: withReturns cs := rfl

/-- Any other character stays. -/
theorem withReturns_cons {c : Char} (other : c ≠ '\n') (cs : List Char) :
    withReturns (c :: cs) = c :: withReturns cs := by
  simp [withReturns, other]

/-- Texts one after the other get their carriage returns on their own. -/
@[simp] theorem withReturns_append (front back : List Char) :
    withReturns (front ++ back) = withReturns front ++ withReturns back := List.flatMap_append

/-- A text on one line stays as it is. -/
theorem withReturns_of_not_mem {cs : List Char} (single : '\n' ∉ cs) : withReturns cs = cs := by
  induction cs with
  | nil => rfl
  | cons c rest ih =>
    obtain ⟨other, later⟩ := not_or.mp (mt List.mem_cons.mpr single)
    rw [withReturns_cons (Ne.symm other), ih later]

/-- Only the empty text becomes empty. -/
theorem withReturns_eq_nil {cs : List Char} : withReturns cs = [] ↔ cs = [] := by
  cases cs with
  | nil => simp
  | cons c rest =>
    by_cases feed : c = '\n'
    · simp [feed]
    · simp [withReturns_cons feed]

/-- No characters but carriage returns are added. -/
theorem mem_of_mem_withReturns {c : Char} (other : c ≠ '\r') {cs : List Char}
    (member : c ∈ withReturns cs) : c ∈ cs := by
  obtain ⟨d, inside, same⟩ := List.mem_flatMap.mp member
  split at same
  · rename_i feed
    subst feed
    simp only [List.mem_cons, other, List.not_mem_nil, or_false, false_or] at same
    exact same ▸ inside
  · exact List.mem_singleton.mp same ▸ inside

/-- A shift that takes no blanks away takes the carriage returns away again. -/
theorem shifted_withReturns (cs : List Char) : shifted some 0 0 (withReturns cs) = cs := by
  induction cs with
  | nil => rfl
  | cons c rest ih =>
    by_cases feed : c = '\n'
    · subst feed
      simp [shifted_cons, ih]
    · have unbroken : (withReturns rest).head? ≠ some '\n' := by
        cases rest with
        | nil => simp
        | cons d later =>
          by_cases feed' : d = '\n'
          · simp [feed']
          · simpa [withReturns_cons feed'] using feed'
      rw [withReturns_cons feed, shifted_cons, if_neg feed, if_neg fun both => unbroken both.2,
        if_neg (by simp), ih]

section

/-- What has been read of a text from its end: the word under way, and the words behind it. -/
private abbrev reading (c : Char) (pieces : List Char × List (List Char)) :
    List Char × List (List Char) :=
  if isBlank c then ([], keepWord pieces.1 pieces.2) else (c :: pieces.1, pieces.2)

/-- A carriage return behind a text is no word. -/
theorem words_append_return (cs : List Char) : words (cs ++ ['\r']) = words cs := by
  rw [words, words, List.foldr_append]
  rfl

/-- Carriage returns separate no words that line feeds do not. -/
theorem words_withReturns (cs : List Char) : words (withReturns cs) = words cs := by
  have read : (withReturns cs).foldr reading ([], []) = cs.foldr reading ([], []) := by
    induction cs with
    | nil => rfl
    | cons c rest ih =>
      by_cases feed : c = '\n'
      · subst feed
        rw [withReturns_feed, List.foldr_cons, List.foldr_cons, List.foldr_cons, ih]
        rfl
      · rw [withReturns_cons feed, List.foldr_cons, List.foldr_cons, ih]
  rw [words, words, read]

end

/-- A text that is another one with carriage returns, of which the one at its start may be missing and
one may stand at its end. -/
structure IsReturned (cs cs' : List Char) : Prop where
  /-- Between the two ends the carriage returns are complete. -/
  whole : ∃ front back, (front = [] ∨ front = ['\r']) ∧
    (back = [] ∨ back = ['\r'] ∧ cs.getLast? ≠ some '\n') ∧ front ++ cs' = withReturns cs ++ back

/-- The words are the same. -/
theorem IsReturned.collapse_eq {cs cs' : List Char} (returned : IsReturned cs cs') :
    collapse cs' = collapse cs := by
  obtain ⟨front, back, starts, ends, same⟩ := returned
  have before : words (front ++ cs') = words cs' := by
    rcases starts with rfl | rfl <;> rfl
  have behind : words (withReturns cs ++ back) = words cs := by
    rcases ends with rfl | ⟨rfl, _⟩
    · rw [List.append_nil, words_withReturns]
    · rw [words_append_return, words_withReturns]
  rw [collapse, collapse, ← before, same, behind]

end SourceOutline.Text
