import SourceOutline.Proofs.Text.Lines
import SourceOutline.Python.Lexer

/-! Tokens are cut off without looking beyond the next separating character. -/

namespace SourceOutline.Python

open Text

/-- The characters that no token holds, comments and texts of string literals aside. -/
def separators : List Char :=
  ['\n', '\\', '#', ' ', '\t', '\r', '\x0b', '\x0c', '\ufeff', '\u2060', '\u200b']

/-- A text is empty or starts with a separating character. -/
def IsParted (tail : List Char) : Prop := ∀ c, tail.head? = some c → c ∈ separators

/-- The empty text is parted from what stands before it. -/
theorem IsParted.nil : IsParted [] := fun _ first => by cases first

/-- A separating character parts. -/
theorem IsParted.cons {c : Char} (separator : c ∈ separators) (rest : List Char) :
    IsParted (c :: rest) := by
  intro first same
  cases same
  exact separator

/-- The characters before the next separating one, and what stands behind them. -/
theorem exists_parted (rest : List Char) :
    ∃ word tail, rest = word ++ tail ∧ (∀ c ∈ word, c ∉ separators) ∧ IsParted tail := by
  refine ⟨rest.takeWhile (· ∉ separators), rest.dropWhile (· ∉ separators),
    List.takeWhile_append_dropWhile.symm, fun c member => ?_, fun c first => ?_⟩
  · simpa using List.all_eq_true.mp List.all_takeWhile c member
  · have stopped := List.head?_dropWhile_not (· ∉ separators) rest
    rw [first] at stopped
    simpa using stopped

/-- A run of digits stands at the start of the text. -/
theorem digitRun_isPrefix (isDigit : Char → Bool) (behindDigit : Bool) (cs : List Char) :
    digitRun isDigit behindDigit cs <+: cs := by
  induction cs generalizing behindDigit with
  | nil => exact List.nil_prefix
  | cons c rest ih =>
    rw [digitRun]
    split
    · exact (List.prefix_cons_inj c).mpr (ih true)
    · split
      · exact (List.prefix_cons_inj c).mpr (ih false)
      · exact List.nil_prefix

/-- A letter stands at the start of the text. -/
theorem letterOf_isPrefix (letters cs : List Char) : letterOf letters cs <+: cs := by
  cases cs with
  | nil => exact List.nil_prefix
  | cons c rest =>
    rw [letterOf]
    split
    · exact ⟨rest, rfl⟩
    · exact List.nil_prefix

/-- A start of the text and a start of what stands behind it make up a longer one. -/
theorem append_isPrefix {front back cs : List Char} (first : front <+: cs)
    (second : back <+: cs.drop front.length) : front ++ back <+: cs := by
  obtain ⟨rest, rfl⟩ := first
  rw [List.drop_left] at second
  exact (List.prefix_append_right_inj front).mpr second

/-- An exponent stands at the start of the text. -/
theorem exponentRun_isPrefix (cs : List Char) : exponentRun cs <+: cs := by
  simp only [exponentRun]
  split
  · exact List.nil_prefix
  · refine append_isPrefix (append_isPrefix (letterOf_isPrefix _ _) (letterOf_isPrefix _ _)) ?_
    rw [List.length_append]
    exact digitRun_isPrefix _ _ _

/-- There is no number of another base without a leading zero. -/
theorem baseRun_of_ne {cs : List Char} (other : cs.head? ≠ some '0') : baseRun cs = [] := by
  unfold baseRun
  split
  · exact absurd rfl other
  · rfl

/-- A number of another base stands at the start of the text. -/
theorem baseRun_isPrefix (cs : List Char) : baseRun cs <+: cs := by
  unfold baseRun
  split
  · rename_i letter rest
    split
    · rename_i isDigit _
      simp only
      split
      · exact List.nil_prefix
      · have digits := digitRun_isPrefix isDigit true rest
        exact (List.prefix_cons_inj '0').mpr ((List.prefix_cons_inj letter).mpr digits)
    · exact List.nil_prefix
  · exact List.nil_prefix

/-- The point of a decimal number and the digits behind it, empty when there is no point. -/
def fractionRun : List Char → List Char
  | '.' :: rest => '.' :: digitRun Char.isDigit false rest
  | _ => []

/-- There is no fraction without a point. -/
theorem fractionRun_of_ne {cs : List Char} (other : cs.head? ≠ some '.') : fractionRun cs = [] := by
  unfold fractionRun
  split
  · exact absurd rfl other
  · rfl

/-- A fraction stands at the start of the text. -/
theorem fractionRun_isPrefix (cs : List Char) : fractionRun cs <+: cs := by
  unfold fractionRun
  split
  · exact (List.prefix_cons_inj '.').mpr (digitRun_isPrefix _ _ _)
  · exact List.nil_prefix

/-- A decimal number is made up of digits, a fraction and an exponent. -/
theorem decimalRun_eq (cs : List Char) :
    decimalRun cs =
      let whole := digitRun Char.isDigit false cs
      let fraction := fractionRun (cs.drop whole.length)
      if whole.isEmpty && fraction.length < 2 then []
      else whole ++ fraction ++ exponentRun (cs.drop (whole ++ fraction).length) := rfl

/-- A decimal number stands at the start of the text. -/
theorem decimalRun_isPrefix (cs : List Char) : decimalRun cs <+: cs := by
  simp only [decimalRun_eq]
  split
  · exact List.nil_prefix
  · refine append_isPrefix (append_isPrefix (digitRun_isPrefix _ _ _) (fractionRun_isPrefix _)) ?_
    exact exponentRun_isPrefix _

/-- The marks of a number stand at the start of the text. -/
theorem numberSuffix_isPrefix (cs : List Char) : numberSuffix cs <+: cs :=
  append_isPrefix (letterOf_isPrefix _ _) (letterOf_isPrefix _ _)

/-- A number stands at the start of the text. -/
theorem numberRun_isPrefix (cs : List Char) : numberRun cs <+: cs := by
  have digits : (if (baseRun cs).isEmpty then decimalRun cs else baseRun cs) <+: cs := by
    split
    · exact decimalRun_isPrefix cs
    · exact baseRun_isPrefix cs
  have marked : ∀ run, run <+: cs →
      (if run.isEmpty then [] else run ++ numberSuffix (cs.drop run.length)) <+: cs := by
    intro run start
    split
    · exact List.nil_prefix
    · exact append_isPrefix start (numberSuffix_isPrefix _)
  exact marked _ digits

/-- The digits of every base are stopped by separating characters. -/
theorem baseDigits_stops {letter : Char} {isDigit : Char → Bool}
    (based : baseDigits letter = some isDigit) : ∀ c ∈ separators, isDigit c = false := by
  unfold baseDigits at based
  split at based
  all_goals
    cases based
    try exact forall_mem_of_all (by decide)

section

variable {tail : List Char} (parted : IsParted tail)

include parted

/-- A parted text is empty, or a separating character and what stands behind it. -/
theorem IsParted.cases_on : tail = [] ∨ ∃ c ∈ separators, ∃ rest, tail = c :: rest := by
  cases tail with
  | nil => exact .inl rfl
  | cons c rest => exact .inr ⟨c, parted c rfl, rest, rfl⟩

/-- Nothing is taken from a parted text that separating characters stop. -/
theorem takeWhile_parted {property : Char → Bool}
    (stops : ∀ c ∈ separators, property c = false) (word : List Char) :
    (word ++ tail).takeWhile property = word.takeWhile property := by
  induction word with
  | nil =>
    rcases parted.cases_on with rfl | ⟨c, separator, rest, rfl⟩
    · rfl
    · simp [stops c separator]
  | cons c rest ih => simp [List.takeWhile_cons, ih]

/-- A run of digits ends before a parted text. -/
theorem digitRun_parted (isDigit : Char → Bool) (stops : ∀ c ∈ separators, isDigit c = false)
    (behindDigit : Bool) (word : List Char) :
    digitRun isDigit behindDigit (word ++ tail) = digitRun isDigit behindDigit word := by
  induction word generalizing behindDigit with
  | nil =>
    rcases parted.cases_on with rfl | ⟨c, separator, rest, rfl⟩
    · rfl
    · have other := forall_mem_of_all
        (show separators.all (fun c => !(c == '_')) = true by decide) c separator
      simp [digitRun, stops c separator, other]
  | cons c rest ih => simp [digitRun, ih]

/-- No letter is taken from a parted text. -/
theorem letterOf_parted (letters : List Char)
    (stops : ∀ c ∈ separators, letters.contains c = false) (word : List Char) :
    letterOf letters (word ++ tail) = letterOf letters word := by
  cases word with
  | nil =>
    rcases parted.cases_on with rfl | ⟨c, separator, rest, rfl⟩
    · rfl
    · simpa [letterOf] using stops c separator
  | cons c rest => rfl

/-- A text without separating characters does not reach into a parted one. -/
theorem isPrefixOf_parted {text : List Char} (whole : ∀ c ∈ separators, text.contains c = false)
    (word : List Char) : text.isPrefixOf (word ++ tail) = text.isPrefixOf word := by
  induction text generalizing word with
  | nil => simp
  | cons first later ih =>
    have inner : ∀ c ∈ separators, later.contains c = false := fun c separator => by
      have apart := whole c separator
      simp only [List.contains_cons, Bool.or_eq_false_iff] at apart
      exact apart.2
    cases word with
    | nil =>
      rcases parted.cases_on with rfl | ⟨c, separator, rest, rfl⟩
      · rfl
      · have apart := whole c separator
        simp only [List.contains_cons, Bool.or_eq_false_iff, beq_eq_false_iff_ne] at apart
        simp [List.isPrefixOf, Ne.symm apart.1]
    | cons c rest => simp [List.isPrefixOf, ih inner]

/-- An exponent ends before a parted text. -/
theorem exponentRun_parted (word : List Char) : exponentRun (word ++ tail) = exponentRun word := by
  have letters := letterOf_parted parted ['e', 'E'] (forall_mem_of_all (by decide))
  have signs := letterOf_parted parted ['+', '-'] (forall_mem_of_all (by decide))
  have digits := digitRun_parted parted Char.isDigit (forall_mem_of_all (by decide))
  have letter := (letterOf_isPrefix ['e', 'E'] word).length_le
  have sign := (letterOf_isPrefix ['+', '-'] (word.drop (letterOf ['e', 'E'] word).length)).length_le
  rw [List.length_drop] at sign
  simp only [exponentRun, letters, List.drop_append_of_le_length letter, signs]
  rw [List.drop_append_of_le_length (by omega), digits]

/-- A number of another base ends before a parted text. -/
theorem baseRun_parted (word : List Char) : baseRun (word ++ tail) = baseRun word := by
  match word with
  | [] =>
    rcases parted.cases_on with rfl | ⟨c, separator, rest, rfl⟩
    · rfl
    · have other := forall_mem_of_all
        (show separators.all (fun c => !(c == '0')) = true by decide) c separator
      exact baseRun_of_ne (by simpa using other)
  | [c] =>
    rcases parted.cases_on with rfl | ⟨next, separator, rest, rfl⟩
    · rfl
    · have unbased := forall_mem_of_all
        (show separators.all (fun c => !(baseDigits c).isSome) = true by decide) next separator
      simp only [Option.isSome_eq_false_iff, Option.isNone_iff_eq_none] at unbased
      by_cases zero : c = '0'
      · subst zero
        simp [baseRun, unbased]
      · exact (baseRun_of_ne (by simpa using zero)).trans (baseRun_of_ne (by simpa using zero)).symm
  | c :: letter :: rest =>
    by_cases zero : c = '0'
    · subst zero
      cases based : baseDigits letter with
      | none => simp [baseRun, based]
      | some isDigit =>
        simp [baseRun, based, digitRun_parted parted isDigit (baseDigits_stops based)]
    · exact (baseRun_of_ne (by simpa using zero)).trans (baseRun_of_ne (by simpa using zero)).symm

/-- A fraction ends before a parted text. -/
theorem fractionRun_parted (word : List Char) : fractionRun (word ++ tail) = fractionRun word := by
  cases word with
  | nil =>
    rcases parted.cases_on with rfl | ⟨c, separator, rest, rfl⟩
    · rfl
    · have other := forall_mem_of_all
        (show separators.all (fun c => !(c == '.')) = true by decide) c separator
      exact fractionRun_of_ne (by simpa using other)
  | cons c rest =>
    by_cases point : c = '.'
    · subst point
      simp [fractionRun, digitRun_parted parted Char.isDigit (forall_mem_of_all (by decide))]
    · exact (fractionRun_of_ne (by simpa using point)).trans
        (fractionRun_of_ne (by simpa using point)).symm

/-- A decimal number ends before a parted text. -/
theorem decimalRun_parted (word : List Char) : decimalRun (word ++ tail) = decimalRun word := by
  have digits := digitRun_parted parted Char.isDigit (forall_mem_of_all (by decide))
  have whole := digitRun_isPrefix Char.isDigit false word
  have mantissa := append_isPrefix whole (fractionRun_isPrefix _)
  simp only [decimalRun_eq, digits, List.drop_append_of_le_length whole.length_le,
    fractionRun_parted parted, List.drop_append_of_le_length mantissa.length_le,
    exponentRun_parted parted]

/-- The marks of a number end before a parted text. -/
theorem numberSuffix_parted (word : List Char) : numberSuffix (word ++ tail) = numberSuffix word := by
  have longs := letterOf_parted parted ['l', 'L'] (forall_mem_of_all (by decide))
  have imaginaries := letterOf_parted parted ['j', 'J'] (forall_mem_of_all (by decide))
  have long := (letterOf_isPrefix ['l', 'L'] word).length_le
  simp only [numberSuffix, longs, List.drop_append_of_le_length long, imaginaries]

/-- A number ends before a parted text. -/
theorem numberRun_parted (word : List Char) : numberRun (word ++ tail) = numberRun word := by
  have digits : (if (baseRun word).isEmpty then decimalRun word else baseRun word) <+: word := by
    split
    · exact decimalRun_isPrefix word
    · exact baseRun_isPrefix word
  simp only [numberRun, baseRun_parted parted, decimalRun_parted parted,
    List.drop_append_of_le_length digits.length_le, numberSuffix_parted parted]

/-- Three quotes do not reach into a parted text. -/
theorem threeQuotes_parted {quote : Char} (other : quote ∉ separators) (more : List Char) :
    ((quote :: (more ++ tail)).take 3 == [quote, quote, quote]) =
      ((quote :: more).take 3 == [quote, quote, quote]) := by
  rcases parted.cases_on with rfl | ⟨c, separator, rest, rfl⟩
  · rw [List.append_nil]
  · have apart : c ≠ quote := fun same => other (same ▸ separator)
    match more with
    | [] => simp [apart]
    | [second] => simp [apart]
    | _ :: _ :: _ => rfl

/-- The quotes of a string literal do not reach into a parted text. -/
theorem stringStart_parted (word : List Char) : stringStart (word ++ tail) = stringStart word := by
  have unquoted := forall_mem_of_all (show separators.all (fun c => !isQuote c) = true by decide)
  have letters := takeWhile_parted parted (show ∀ c ∈ separators, isStringLetter c = false from
    forall_mem_of_all (by decide)) word
  have within := (@List.takeWhile_prefix _ word isStringLetter).length_le
  simp only [stringStart, letters, List.drop_append_of_le_length within]
  cases behind : word.drop (word.takeWhile isStringLetter).length with
  | nil =>
    rcases parted.cases_on with rfl | ⟨c, separator, rest, rfl⟩
    · rfl
    · simp [unquoted c separator]
  | cons quote more =>
    simp only [List.cons_append]
    cases quoted : isQuote quote with
    | false => rfl
    | true =>
      have other : quote ∉ separators := fun member => by
        rw [unquoted quote member] at quoted
        cases quoted
      simp only [threeQuotes_parted parted other more]

/-- An operator ends before a parted text. -/
theorem operatorStart_parted (word : List Char) :
    operatorStart (word ++ tail) = operatorStart word := by
  have whole : ∀ operator ∈ operators, ∀ c ∈ separators, operator.toList.contains c = false := by
    intro operator member
    have checked := List.all_eq_true.mp (show operators.all (fun operator =>
      separators.all fun c => !operator.toList.contains c) = true by decide) operator member
    exact forall_mem_of_all checked
  have same : ∀ list : List String, (∀ operator ∈ list, operator ∈ operators) →
      list.find? (fun operator => operator.toList.isPrefixOf (word ++ tail)) =
        list.find? fun operator => operator.toList.isPrefixOf word := by
    intro list known
    induction list with
    | nil => rfl
    | cons operator rest ih =>
      have here := whole operator (known operator List.mem_cons_self)
      rw [List.find?_cons, List.find?_cons, isPrefixOf_parted parted here,
        ih fun other member => known other (List.mem_cons_of_mem operator member)]
  exact same operators fun _ member => member

/-- A mark of a replacement field does not reach into a parted text. -/
theorem fieldCut_parted (modes : List Mode) (c : Char) (word : List Char) :
    fieldCut modes c (word ++ tail) = fieldCut modes c word := by
  cases word with
  | nil =>
    rcases parted.cases_on with rfl | ⟨next, separator, rest, rfl⟩
    · rfl
    · have other := forall_mem_of_all (show separators.all (fun letter =>
        !(decide ('a' ≤ letter) && decide (letter ≤ 'z'))) = true by decide) next separator
      unfold fieldCut
      simp [other]
  | cons next rest => rfl

/-- A token ends before a parted text. -/
theorem tokenCut_parted (modes : List Mode) (c : Char) (word : List Char) :
    tokenCut modes c (word ++ tail) = tokenCut modes c word := by
  have continued := takeWhile_parted parted (show ∀ c ∈ separators, isIdentifierContinue c = false from
    forall_mem_of_all (by decide +kernel)) word
  have quoted := stringStart_parted parted (c :: word)
  have digits := numberRun_parted parted (c :: word)
  have operator := operatorStart_parted parted (c :: word)
  rw [List.cons_append] at quoted digits operator
  simp only [tokenCut, operatorCut, quoted, continued, digits, operator, fieldCut_parted parted]

end

/-- The opening of a string literal is no longer than the text. -/
theorem stringStart_length_le {cs : List Char} {style : StringStyle} {length : Nat}
    (found : stringStart cs = some (style, length)) : length ≤ cs.length := by
  simp only [stringStart] at found
  split at found
  · cases found
  · rename_i quote rest behind
    split at found
    · have left := congrArg List.length behind
      rw [List.length_drop, List.length_cons] at left
      obtain ⟨rfl, rfl⟩ := Prod.mk.inj (Option.some.inj found)
      split
      · rename_i triple
        simp only [Bool.and_eq_true, beq_iff_eq] at triple
        have three := congrArg List.length triple.2
        simp only [List.length_take, List.length_drop, List.length_cons, List.length_nil] at three
        omega
      · omega
    · cases found

/-- An operator is no longer than the text. -/
theorem operatorStart_length_le {cs : List Char} {operator : String}
    (found : operatorStart cs = some operator) : operator.length ≤ cs.length := by
  have start := List.find?_some found
  exact (List.isPrefixOf_iff_prefix.mp start).length_le

/-- A mark of a replacement field is no longer than the text it is cut from. -/
theorem fieldCut_further_le {modes : List Mode} {c : Char} {word : List Char} {cut : Cut}
    (found : fieldCut modes c word = some cut) : cut.further ≤ word.length := by
  unfold fieldCut at found
  split at found
  · split at found
    · cases found
      exact Nat.zero_le _
    · split at found
      · rename_i conversion
        cases found
        cases word with
        | nil => simp at conversion
        | cons letter rest => exact Nat.succ_le_succ (Nat.zero_le _)
      · cases found
  · cases found

/-- A closing bracket is a single character. -/
theorem closeCut_further {modes : List Mode} {c : Char} {cut : Cut}
    (found : closeCut modes c = some cut) : cut.further = 0 := by
  unfold closeCut at found
  split at found
  · split at found <;> cases found
    rfl
  · split at found <;> cases found
    rfl
  · cases found

/-- An operator or a bracket is no longer than the text it is cut from. -/
theorem operatorCut_further_le {modes : List Mode} {c : Char} {word : List Char} {cut : Cut}
    (found : operatorCut modes c word = some cut) : cut.further ≤ word.length := by
  unfold operatorCut at found
  split at found
  · rename_i mark marked
    cases found
    exact fieldCut_further_le marked
  · split at found
    · cases found
      exact Nat.zero_le _
    · split at found
      · rw [closeCut_further found]
        exact Nat.zero_le _
      · obtain ⟨operator, start, rfl⟩ := Option.map_eq_some_iff.mp found
        have short := operatorStart_length_le start
        rw [List.length_cons] at short
        show operator.length - 1 ≤ word.length
        omega

/-- A token is no longer than the text it is cut from. -/
theorem tokenCut_further_le {modes : List Mode} {c : Char} {word : List Char} {cut : Cut}
    (found : tokenCut modes c word = some cut) : cut.further ≤ word.length := by
  unfold tokenCut at found
  split at found
  · rename_i style length opened
    cases found
    have short := stringStart_length_le opened
    rw [List.length_cons] at short
    show length - 1 ≤ word.length
    omega
  · split at found
    · cases found
      exact (List.takeWhile_prefix isIdentifierContinue).length_le
    · simp only at found
      split at found
      · exact operatorCut_further_le found
      · cases found
        have short := (numberRun_isPrefix (c :: word)).length_le
        rw [List.length_cons] at short
        show (numberRun (c :: word)).length - 1 ≤ word.length
        omega

end SourceOutline.Python
