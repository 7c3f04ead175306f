import Mathlib.Data.String.Basic
import SourceOutline.Proofs.Text.Search

/-! Texts parted at byte offsets, where an offset that is no boundary between characters is a trespass. -/

namespace SourceOutline.Text

open String (utf8Len)

/-- Why a place in a source cannot be read. -/
inductive Trespass where
  /-- There is no such line. -/
  | noLine
  /-- The offset lies behind the text. -/
  | pastEnd
  /-- The offset lies within a character. -/
  | insideCharacter
  /-- The stretch ends before it starts. -/
  | backwards
  /-- The difference is below zero. -/
  | belowZero
  deriving DecidableEq

/-- The texts before and behind a byte offset. -/
def partAt : Nat → List Char → Except Trespass (List Char × List Char)
  | 0, cs => .ok ([], cs)
  | _ + 1, [] => .error .pastEnd
  | offset + 1, c :: rest =>
    -- A character is passed as a whole or not at all.
    if offset + 1 < c.utf8Size then .error .insideCharacter
    else (partAt (offset + 1 - c.utf8Size) rest).map fun parts => (c :: parts.1, parts.2)

/-- The text between two byte offsets. -/
def stretchOf (start stop : Nat) (cs : List Char) : Except Trespass (List Char) :=
  -- Both offsets have to be boundaries, in order.
  if stop < start then .error .backwards
  else do
    let (front, _) ← partAt stop cs
    let (_, inside) ← partAt start front
    return inside

/-- The byte offset of the first occurrence of a pattern in a text that starts at an offset. -/
def firstOffset (pattern : List Char) (offset : Nat) : List Char → Option Nat
  | [] => if pattern.isEmpty then some offset else none
  | c :: rest =>
    if pattern.isPrefixOf (c :: rest) then some offset
    else firstOffset pattern (offset + c.utf8Size) rest

/-- The byte offset of the last occurrence of a pattern in a text that starts at an offset. -/
def lastOffset (pattern : List Char) (offset : Nat) : List Char → Option Nat
  | [] => if pattern.isEmpty then some offset else none
  | c :: rest =>
    -- An occurrence further behind wins.
    match lastOffset pattern (offset + c.utf8Size) rest with
    | some found => some found
    | none => if pattern.isPrefixOf (c :: rest) then some offset else none

/-- A text can be parted behind each of its beginnings. -/
theorem partAt_utf8Len (front back : List Char) :
    partAt (utf8Len front) (front ++ back) = .ok (front, back) := by
  induction front with
  | nil => rw [String.utf8Len_nil, partAt, List.nil_append]
  | cons c rest ih =>
    obtain ⟨less, size⟩ : ∃ less, c.utf8Size = less + 1 := Nat.exists_eq_add_one.mpr c.utf8Size_pos
    have whole : utf8Len (c :: rest) = utf8Len rest + less + 1 := by rw [String.utf8Len_cons, size, Nat.add_assoc]
    have left : utf8Len rest + less + 1 - c.utf8Size = utf8Len rest := by omega
    rw [whole, List.cons_append, partAt, if_neg (by omega), left, ih]
    rfl

/-- A text is parted without trespass exactly behind each of its beginnings. -/
theorem partAt_eq_ok_iff {offset : Nat} {cs front back : List Char} :
    partAt offset cs = .ok (front, back) ↔ cs = front ++ back ∧ offset = utf8Len front := by
  refine ⟨fun parted => ?_, fun ⟨whole, same⟩ => by rw [whole, same, partAt_utf8Len]⟩
  fun_induction partAt offset cs generalizing front with
  | case1 => cases parted; exact ⟨rfl, rfl⟩
  | case2 => cases parted
  | case3 => cases parted
  | case4 less c rest within ih =>
    cases inner : partAt (less + 1 - c.utf8Size) rest with
    | error trespass => rw [inner] at parted; cases parted
    | ok parts =>
      rw [inner] at parted
      cases parted
      obtain ⟨whole, count⟩ := ih inner
      refine ⟨congrArg (c :: ·) whole, ?_⟩
      rw [String.utf8Len_cons]
      omega

example : partAt 1 ['é', 'a'] = .error .insideCharacter := by decide

/-- A stretch is read without trespass exactly between two boundaries that are in order. -/
theorem stretchOf_eq_ok_iff {start stop : Nat} {cs inside : List Char} :
    stretchOf start stop cs = .ok inside ↔ ∃ before behind, cs = before ++ inside ++ behind ∧
      start = utf8Len before ∧ stop = utf8Len (before ++ inside) := by
  unfold stretchOf
  constructor
  · intro read
    split at read
    · cases read
    · cases outer : partAt stop cs with
      | error trespass => rw [outer] at read; cases read
      | ok parts =>
        cases inner : partAt start parts.1 with
        | error trespass => simp only [outer, inner, bind, Except.bind] at read; cases read
        | ok pieces =>
          simp only [outer, inner, bind, Except.bind, pure, Except.pure] at read
          obtain rfl := Except.ok.inj read
          obtain ⟨whole, stops⟩ := partAt_eq_ok_iff.mp outer
          obtain ⟨front, starts⟩ := partAt_eq_ok_iff.mp inner
          exact ⟨pieces.1, parts.2, by rw [← front, whole], starts, by rw [← front, stops]⟩
  · rintro ⟨before, behind, rfl, rfl, rfl⟩
    have ordered : ¬utf8Len (before ++ inside) < utf8Len before := by
      rw [String.utf8Len_append]
      omega
    rw [if_neg ordered, partAt_utf8Len]
    show (do let (_, inside) ← partAt (utf8Len before) (before ++ inside); return inside) = _
    rw [partAt_utf8Len]
    rfl

/-- A pattern that is found at all is found at the offset of what is in front of it. -/
theorem firstOffset_cases (pattern : List Char) (offset : Nat) (cs : List Char) :
    (fromFirst pattern cs = none ∧ firstOffset pattern offset cs = none) ∨
      ∃ front rest, cs = front ++ rest ∧ fromFirst pattern cs = some rest ∧
        firstOffset pattern offset cs = some (offset + utf8Len front) := by
  fun_induction firstOffset pattern offset cs with
  | case1 offset empty => exact .inr ⟨[], [], rfl, by rw [fromFirst, if_pos empty], rfl⟩
  | case2 offset some_char => exact .inl ⟨by rw [fromFirst, if_neg some_char], rfl⟩
  | case3 offset c rest here => exact .inr ⟨[], c :: rest, rfl, by rw [fromFirst, if_pos here], rfl⟩
  | case4 offset c rest other ih =>
    rw [fromFirst, if_neg other]
    rcases ih with absent | ⟨front, behind, whole, found, placed⟩
    · exact .inl absent
    · refine .inr ⟨c :: front, behind, congrArg (c :: ·) whole, found, placed.trans ?_⟩
      rw [String.utf8Len_cons, Nat.add_assoc, Nat.add_comm c.utf8Size]

/-- What is found in a text is found in a longer one, which may hold one more occurrence, at its end. -/
theorem fromFirst_concat {pattern : List Char} (some_char : pattern ≠ []) (cs : List Char) (c : Char) :
    fromFirst pattern (cs ++ [c]) =
      match fromFirst pattern cs with
      | some rest => some (rest ++ [c])
      | none => if pattern.isSuffixOf (cs ++ [c]) then some pattern else none := by
  have nothing : fromFirst pattern [] = none := by rw [fromFirst, if_neg (by simpa using some_char)]
  induction cs with
  | nil =>
    have same : pattern <+: [c] ↔ pattern <:+ [c] := by
      have whole : pattern <+: [] ++ [c] ↔ pattern = [] ++ [c] ∨ pattern <+: [] := List.prefix_concat_iff
      rw [List.prefix_nil, or_iff_left some_char] at whole
      rw [List.suffix_cons_iff, List.suffix_nil, or_iff_left some_char]
      exact whole
    rw [nothing, List.nil_append, fromFirst, nothing]
    simp only [List.isPrefixOf_iff_prefix, List.isSuffixOf_iff_suffix, same]
    split
    · rename_i ends
      rw [ends.eq_of_length_le (List.length_pos_iff.mpr some_char)]
    · rfl
  | cons d rest ih =>
    have parted : pattern <+: (d :: rest) ++ [c] ↔ pattern = (d :: rest) ++ [c] ∨ pattern <+: d :: rest :=
      List.prefix_concat_iff
    rw [List.cons_append] at parted ⊢
    rw [fromFirst, fromFirst]
    simp only [List.isPrefixOf_iff_prefix, List.isSuffixOf_iff_suffix, parted, List.suffix_cons_iff]
    by_cases here : pattern <+: d :: rest
    · rw [if_pos (.inr here), if_pos here]
      rfl
    · rw [if_neg here]
      by_cases whole : pattern = d :: (rest ++ [c])
      · -- A pattern as long as the text is not found in a part of it.
        have absent : fromFirst pattern rest = none := by
          cases found : fromFirst pattern rest with
          | none => rfl
          | some behind =>
            obtain ⟨front, same, opens⟩ := eq_append_of_fromFirst found
            have long := opens.length_le
            rw [whole, same] at long
            simp only [List.length_cons, List.length_append] at long
            omega
        rw [absent, if_pos (.inl whole)]
        simp [whole]
      · rw [if_neg (not_or.mpr ⟨whole, here⟩), ih]
        simp only [List.isSuffixOf_iff_suffix, whole, false_or]

/-- The last occurrence in a text is the last one behind its first character, or else at its start. -/
theorem throughLast_cons {pattern : List Char} (some_char : pattern ≠ []) (c : Char) (rest : List Char) :
    throughLast pattern (c :: rest) =
      match throughLast pattern rest with
      | some front => some (c :: front)
      | none => if pattern.isPrefixOf (c :: rest) then some pattern else none := by
  have same : pattern.reverse.isSuffixOf (rest.reverse ++ [c]) = pattern.isPrefixOf (c :: rest) := by
    rw [List.isSuffixOf, List.reverse_reverse, List.reverse_append, List.reverse_reverse]
    rfl
  rw [throughLast, throughLast, List.reverse_cons,
    fromFirst_concat (List.reverse_ne_nil_iff.mpr some_char), same]
  cases fromFirst pattern.reverse rest.reverse with
  | some found => simp
  | none =>
    simp only [Option.map_none]
    split <;> simp

/-- The last occurrence of a pattern is where the text through it ends. -/
theorem lastOffset_cases {pattern : List Char} (some_char : pattern ≠ []) (offset : Nat) (cs : List Char) :
    (throughLast pattern cs = none ∧ lastOffset pattern offset cs = none) ∨
      ∃ front behind, cs = front ++ pattern ++ behind ∧ throughLast pattern cs = some (front ++ pattern) ∧
        lastOffset pattern offset cs = some (offset + utf8Len front) := by
  induction cs generalizing offset with
  | nil =>
    have shown : ¬pattern.isEmpty = true := by simpa using some_char
    have absent : throughLast pattern [] = none := by
      rw [throughLast, List.reverse_nil, fromFirst, if_neg (by simpa using some_char)]
      rfl
    exact .inl ⟨absent, by rw [lastOffset, if_neg shown]⟩
  | cons c rest ih =>
    rw [throughLast_cons some_char, lastOffset]
    rcases ih (offset + c.utf8Size) with ⟨absent, unplaced⟩ | ⟨front, behind, whole, found, placed⟩
    · rw [absent, unplaced]
      by_cases here : pattern.isPrefixOf (c :: rest) = true
      · obtain ⟨behind, same⟩ := List.isPrefixOf_iff_prefix.mp here
        exact .inr ⟨[], behind, same.symm, by simp [here], by simp [here]⟩
      · exact .inl ⟨by simp [here], by simp [here]⟩
    · rw [found, placed]
      refine .inr ⟨c :: front, behind, by rw [whole]; rfl, rfl, congrArg some ?_⟩
      rw [String.utf8Len_cons, Nat.add_assoc, Nat.add_comm c.utf8Size]

end SourceOutline.Text
