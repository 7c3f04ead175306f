import Mathlib.Data.List.Basic
import Mathlib.Tactic.IntervalCases
import Mathlib.Tactic.SplitIfs
import SourceOutline.Json.Reader
import SourceOutline.Json.Writer

/-! Texts, numbers and words read back as the tokens that they were written for. -/

namespace SourceOutline.Json

/-- What follows a number ends it. -/
def Stops (rest : List Char) : Prop :=
  ∀ c, rest.head? = some c → c.isDigit = false ∧ c ≠ '.' ∧ c ≠ 'e' ∧ c ≠ 'E'

section Text

/-- Characters are appended one after the other. -/
theorem toList_foldl_push (text : String) (cs : List Char) :
    (cs.foldl String.push text).toList = text.toList ++ cs := by
  induction cs generalizing text with
  | nil => simp
  | cons c rest ih => rw [List.foldl_cons, ih, String.toList_push, List.append_assoc]; rfl

/-- A quoted text is its escaped characters between quotes. -/
theorem toList_quote (text : String) :
    (quote text).toList = '"' :: (text.toList.flatMap escapedChar ++ ['"']) := by
  have escaped : ∀ (cs : List Char) (written : String),
      (cs.foldl (fun written c => (escapedChar c).foldl String.push written) written).toList =
        written.toList ++ cs.flatMap escapedChar := by
    intro cs
    induction cs with
    | nil => simp
    | cons c rest ih =>
      intro written
      rw [List.foldl_cons, ih, toList_foldl_push, List.flatMap_cons, List.append_assoc]
  rw [quote, String.toList_push, escaped]
  rfl

/-- A control character is read from the number in its escape. -/
theorem textBody_control {n : Nat} (control : n < 0x20) (done rest : List Char) :
    textBody .plain done (['\\', 'u', '0', '0'] ++ hexByte n ++ rest) =
      textBody .plain (Char.ofNat n :: done) rest := by
  -- Thirty-two numbers, each with its own two digits.
  interval_cases n <;> rfl

/-- A character is read back from its escaped form. -/
theorem textBody_escapedChar (c : Char) (done rest : List Char) :
    textBody .plain done (escapedChar c ++ rest) = textBody .plain (c :: done) rest := by
  -- Seven characters have escapes of their own.
  simp only [escapedChar, beq_iff_eq]
  split_ifs with quote backslash backspace formFeed lineFeed carriageReturn tab control
  iterate 7
    subst c
    rfl
  · have read := textBody_control control done rest
    rwa [Char.ofNat_toNat] at read
  · -- All other characters stand for themselves.
    rw [List.singleton_append, textBody]
    · simp [textStep, backslash, control]
    · simpa using quote

/-- A text is read back from its escaped characters up to the closing quote. -/
theorem textBody_escaped (cs done rest : List Char) :
    textBody .plain done (cs.flatMap escapedChar ++ '"' :: rest) = some (String.ofList (done.reverse ++ cs), rest) := by
  induction cs generalizing done with
  | nil => simp [textBody]
  | cons c more ih =>
    rw [List.flatMap_cons, List.append_assoc, textBody_escapedChar, ih]
    simp

/-- A quoted text is read as that text. -/
theorem token_quote (text : String) (rest : List Char) :
    token ((quote text).toList ++ rest) = some (.text text, rest) := by
  rw [toList_quote, List.cons_append, List.append_assoc, List.singleton_append]
  have body := textBody_escaped text.toList [] rest
  rw [List.reverse_nil, List.nil_append, String.ofList_toList] at body
  simp [token, body]

end Text

section Number

/-- Only zero is written with the digit zero in front. -/
theorem eq_zero_of_head?_toDigits {n : Nat} (zero : (Nat.toDigits 10 n).head? = some '0') : n = 0 := by
  -- The first digit is that of the number without its last digit.
  induction n using Nat.strong_induction_on with
  | h n ih =>
    by_cases single : n < 10
    · rw [Nat.toDigits_of_lt_base single] at zero
      interval_cases n <;> simp_all +decide
    · have shorter : (Nat.toDigits 10 (n / 10)).head? = some '0' := by
        rw [Nat.toDigits_of_base_le (by decide) (Nat.not_lt.mp single), List.head?_append] at zero
        rwa [List.head?_eq_some_head Nat.toDigits_ne_nil, Option.some_or,
          ← List.head?_eq_some_head Nat.toDigits_ne_nil] at zero
      have := ih (n / 10) (by omega) shorter
      omega

/-- Digits do not make a number smaller. -/
theorem le_ofDigitChars (cs : List Char) (start : Nat) : start ≤ Nat.ofDigitChars 10 cs start := by
  induction cs generalizing start with
  | nil => exact Nat.le_refl start
  | cons c rest ih =>
    rw [Nat.ofDigitChars_cons]
    exact Nat.le_trans (by omega) (ih _)

/-- Digits of a number that fits are gathered into it. -/
theorem gather_of_le (cs : List Char) {start : Nat} (fits : Nat.ofDigitChars 10 cs start ≤ digitLimit) :
    gather start cs = ⟨Nat.ofDigitChars 10 cs start, 0⟩ := by
  -- What has been gathered on the way is never more than the whole number.
  induction cs generalizing start with
  | nil => rfl
  | cons c rest ih =>
    rw [Nat.ofDigitChars_cons] at fits ⊢
    have next : start * 10 + digitValue c = 10 * start + (c.toNat - '0'.toNat) := by
      rw [digitValue, Nat.mul_comm]
    rw [gather]
    simp only [next, if_pos (Nat.le_trans (le_ofDigitChars rest _) fits)]
    exact ih fits

/-- What does not start with a digit has no digits at its start. -/
theorem digits_of_stops {rest : List Char} (stops : Stops rest) :
    rest.takeWhile Char.isDigit = [] ∧ rest.dropWhile Char.isDigit = rest := by
  cases rest with
  | nil => exact ⟨rfl, rfl⟩
  | cons c more =>
    obtain ⟨noDigit, -⟩ := stops c rfl
    simp [noDigit]

/-- What ends a number opens no fraction. -/
theorem fractionPart_of_stops {rest : List Char} (stops : Stops rest) : fractionPart rest = some (none, rest) := by
  unfold fractionPart
  split
  · exact absurd rfl (stops '.' rfl).2.1
  · rfl

/-- What ends a number opens no exponent. -/
theorem exponentPart_of_stops {rest : List Char} (stops : Stops rest) : exponentPart rest = some (none, rest) := by
  cases rest with
  | nil => rfl
  | cons c more =>
    obtain ⟨-, -, noSmall, noLarge⟩ := stops c rfl
    simp [exponentPart, noSmall, noLarge]

/-- The digits of a number that fits stand for it. -/
theorem value_toDigits {n : Nat} (fits : n ≤ digitLimit) :
    NumberText.value ⟨false, Nat.toDigits 10 n, none, none⟩ = some (.nat n) := by
  have whole : Nat.ofDigitChars 10 (Nat.toDigits 10 n) 0 = n := Nat.ofDigitChars_toDigits (by decide) (by decide)
  have gathered := gather_of_le (Nat.toDigits 10 n) (whole.symm ▸ fits)
  rw [whole] at gathered
  simp [NumberText.value, gathered, nat]

/-- A number that fits is read back from its digits. -/
theorem number_toDigits {n : Nat} (fits : n ≤ digitLimit) {rest : List Char} (stops : Stops rest) :
    number (Nat.toDigits 10 n ++ rest) = some (.nat n, rest) := by
  have digits : ∀ c ∈ Nat.toDigits 10 n, c.isDigit = true := fun c member =>
    Nat.isDigit_of_mem_toDigits (by decide) (by decide) member
  obtain ⟨none, all⟩ := digits_of_stops stops
  have whole : (Nat.toDigits 10 n ++ rest).takeWhile Char.isDigit = Nat.toDigits 10 n := by
    rw [List.takeWhile_append_of_pos digits, none, List.append_nil]
  have behind : (Nat.toDigits 10 n ++ rest).dropWhile Char.isDigit = rest := by
    rw [List.dropWhile_append_of_pos digits, all]
  have unsigned : ((Nat.toDigits 10 n ++ rest).head? == some '-') = false := by
    have shown := @Nat.toDigits_ne_nil n 10
    have first := digits _ (List.head_mem shown)
    rw [List.head?_append, List.head?_eq_some_head shown, Option.some_or, beq_eq_false_iff_ne]
    intro sign
    rw [Option.some.inj sign] at first
    exact absurd first (by decide)
  have plain : ((Nat.toDigits 10 n).length > 1 && (Nat.toDigits 10 n).head? == some '0') = false := by
    rw [Bool.and_eq_false_iff, or_iff_not_imp_right]
    intro zero
    obtain rfl := eq_zero_of_head?_toDigits (by simpa using zero)
    decide
  have shown : (Nat.toDigits 10 n).isEmpty = false := by simp [Nat.toDigits_ne_nil]
  have refused : ((Nat.toDigits 10 n).isEmpty || (decide ((Nat.toDigits 10 n).length > 1) &&
      (Nat.toDigits 10 n).head? == some '0')) = false := by rw [shown, plain]; rfl
  simp only [number, unsigned, Bool.false_eq_true, if_false, whole, behind, refused, fractionPart_of_stops stops,
    exponentPart_of_stops stops, value_toDigits fits, Option.bind_eq_bind, Option.bind_some]

/-- A number that fits is read as that number. -/
theorem token_nat {n : Nat} (fits : n ≤ digitLimit) {rest : List Char} (stops : Stops rest) :
    token ((writeScalar (.nat n)).toList ++ rest) = some (.scalar (.nat n), rest) := by
  have spelled : (writeScalar (.nat n)).toList = Nat.toDigits 10 n := Nat.toList_repr
  have read := number_toDigits fits stops
  rw [spelled]
  obtain ⟨c, more, digits⟩ := List.exists_cons_of_ne_nil (@Nat.toDigits_ne_nil n 10)
  have digit : c.isDigit = true :=
    Nat.isDigit_of_mem_toDigits (by decide) (by decide) (digits ▸ List.mem_cons_self : c ∈ Nat.toDigits 10 n)
  have other : ∀ mark : Char, mark.isDigit = false → c ≠ mark := by
    rintro mark noDigit rfl
    exact absurd digit (by simp [noDigit])
  rw [digits, List.cons_append] at read ⊢
  simp [token, other, digit, read]

end Number

/-- The words for truth values and for what is absent are read as such. -/
theorem token_word (value : Json) (rest : List Char) (word : value = .null ∨ ∃ truth, value = .bool truth) :
    token ((writeScalar value).toList ++ rest) = some (.scalar value, rest) := by
  rcases word with rfl | ⟨truth, rfl⟩
  · rfl
  · cases truth <;> rfl

end SourceOutline.Json
