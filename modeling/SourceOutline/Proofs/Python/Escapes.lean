import Mathlib.Algebra.Group.Nat.Even
import Mathlib.Data.List.DropRight
import Mathlib.Data.Nat.Digits.Defs
import SourceOutline.Proofs.Python.Signs

/-! Escapes in string literals: how a text is written with them, and which of them are read. -/

namespace SourceOutline.Python

/-- The digits of all bases up to sixteen, in lower case and in upper case. -/
def digitRows : List (List Char) := ["0123456789abcdef".toList, "0123456789ABCDEF".toList]

/-- A character is the digit of a value in a base. -/
def IsDigit (base : Nat) (c : Char) (value : Nat) : Prop :=
  value < base ∧ ∃ row ∈ digitRows, row[value]? = some c

/-- Digits, the first of which weighs most, make up a number. -/
def Numeral (base : Nat) (digits : List Char) (number : Nat) : Prop :=
  ∃ values, List.Forall₂ (IsDigit base) digits values ∧ Nat.ofDigits base values.reverse = number

/-- The letters that introduce a code point, with how many digits it has. -/
def codePointLetters : List (Char × Nat) := [('x', 2), ('u', 4), ('U', 8)]

/-- The letters that stand for other characters behind a backslash, with these; marks stand for themselves. -/
def letterForms : List (Char × Char) :=
  [('\\', '\\'), ('\'', '\''), ('"', '"'), ('n', '\n'), ('t', '\t'), ('r', '\r'), ('a', '\x07'), ('b', '\x08'),
    ('f', '\x0c'), ('v', '\x0b')]

/-- What may be written for a character in a literal that is not raw. -/
inductive IsForm (c : Char) : List Char → Prop where
  /-- The character itself, unless it is a backslash. -/
  | itself (plain : c ≠ '\\') : IsForm c [c]
  /-- A letter or a mark behind a backslash. -/
  | letter {letter : Char} (known : (letter, c) ∈ letterForms) : IsForm c ['\\', letter]
  /-- The code point in as many digits of base sixteen as the letter before them demands. -/
  | codePoint {letter : Char} {digits : List Char} (introduced : (letter, digits.length) ∈ codePointLetters)
    (numeral : Numeral 16 digits c.toNat) : IsForm c ('\\' :: letter :: digits)
  /-- The code point in three digits of base eight. -/
  | octal {digits : List Char} (three : digits.length = 3) (numeral : Numeral 8 digits c.toNat) :
    IsForm c ('\\' :: digits)

/-- A text is written as the content of a literal that is not raw: each character in one of its forms, with
lines joined anywhere between them. -/
inductive WrittenAs : List Char → List Char → Prop where
  /-- Nothing is left to be written. -/
  | nil : WrittenAs [] []
  /-- A character is written in one of its forms. -/
  | char {c : Char} {form text content : List Char} (isForm : IsForm c form) (later : WrittenAs text content) :
    WrittenAs (c :: text) (form ++ content)
  /-- A backslash joins a line to the next one. -/
  | join {text content : List Char} (later : WrittenAs text content) : WrittenAs text ('\\' :: '\n' :: content)

instance (base : Nat) (c : Char) (value : Nat) : Decidable (IsDigit base c value) :=
  inferInstanceAs (Decidable (_ ∧ _))

section

variable {c : Char} {value number start : Nat} {digits cs : List Char}

/-- The digits of base sixteen are read as their values. -/
theorem hexDigit?_eq_some_iff : hexDigit? c = some value ↔ IsDigit 16 c value := by
  constructor
  · intro read
    -- Only the first characters of all can be digits, and each of these can be asked.
    have each : ∀ code < 103, ∀ value ∈ hexDigit? (Char.ofNat code), IsDigit 16 (Char.ofNat code) value := by
      decide
    have small : c.toNat < 103 := by
      simp only [hexDigit?, Char.isDigit, Bool.and_eq_true, decide_eq_true_eq] at read
      split at read
      · rename_i range
        exact Nat.lt_of_le_of_lt (show c.toNat ≤ 57 from range.2) (by decide)
      · split at read
        · rename_i range
          exact Nat.lt_of_le_of_lt (show c.toNat ≤ 102 from range.2) (by decide)
        · split at read
          · rename_i range
            exact Nat.lt_of_le_of_lt (show c.toNat ≤ 70 from range.2) (by decide)
          · cases read
    rw [← Char.ofNat_toNat c] at read ⊢
    exact each c.toNat small value read
  · rintro ⟨small, row, member, found⟩
    have each : ∀ value < 16, ∀ row ∈ digitRows, row[value]?.bind hexDigit? = some value := by decide
    have read := each value small row member
    rwa [found] at read

/-- The number of digits read one after the other. -/
theorem numeral_iff {base : Nat} : Numeral base digits number ↔
    ∃ values, List.Forall₂ (IsDigit base) digits values ∧
      values.foldl (fun number value => number * base + value) 0 = number := by
  have same : ∀ values : List Nat, Nat.ofDigits base values.reverse =
      values.foldl (fun number value => number * base + value) 0 := by
    intro values
    rw [Nat.ofDigits_eq_foldr, List.foldr_reverse]
    congr 1
    funext number value
    rw [Nat.mul_comm, Nat.add_comm]
    rfl
  simp only [Numeral, same]

/-- Digits of base sixteen behind those of a number are read as one number. -/
theorem foldlM_hexDigit?_eq_some_iff :
    digits.foldlM (fun value c => (hexDigit? c).map (value * 16 + ·)) start = some number ↔
      ∃ values, List.Forall₂ (IsDigit 16) digits values ∧
        values.foldl (fun number value => number * 16 + value) start = number := by
  induction digits generalizing start with
  | nil => simp
  | cons c rest ih =>
    rw [List.foldlM_cons, Option.bind_eq_bind, Option.bind_eq_some_iff]
    constructor
    · rintro ⟨next, first, later⟩
      obtain ⟨value, digit, rfl⟩ := Option.map_eq_some_iff.mp first
      obtain ⟨values, each, total⟩ := ih.mp later
      exact ⟨value :: values, .cons (hexDigit?_eq_some_iff.mp digit) each, total⟩
    · rintro ⟨_, _ | @⟨_, value, _, values, digit, each⟩, total⟩
      exact ⟨_, by rw [hexDigit?_eq_some_iff.mpr digit]; rfl, ih.mpr ⟨values, each, total⟩⟩

/-- Numbers are read from their digits of base sixteen. -/
theorem hexNumber_eq_some_iff : hexNumber digits = some number ↔ Numeral 16 digits number := by
  rw [numeral_iff]
  exact foldlM_hexDigit?_eq_some_iff

/-- Characters are told by their code points. -/
theorem charOf_eq_some_iff : charOf number = some c ↔ c.toNat = number := by
  rw [charOf]
  by_cases valid : number.isValidChar
  · rw [dif_pos valid, Option.some_inj]
    constructor
    · rintro rfl
      rfl
    · rintro rfl
      exact Char.toNat_inj.mp rfl
  · rw [dif_neg valid]
    constructor
    · rintro ⟨⟩
    · rintro rfl
      exact absurd c.valid valid

/-- The code point of a character is read from digits that make it up, or from a plus sign and such digits. -/
def IsRead (digits : List Char) (c : Char) : Prop :=
  Numeral 16 digits c.toNat ∨ ∃ unsigned, digits = '+' :: unsigned ∧ Numeral 16 unsigned c.toNat

/-- A plus sign is no digit. -/
theorem not_numeral_plus : ¬Numeral 16 ('+' :: digits) number := by
  rintro ⟨_, _ | ⟨⟨small, row, member, found⟩, _⟩, _⟩
  have none_plus : ∀ value < 16, ∀ row ∈ digitRows, row[value]? ≠ some '+' := by decide
  exact none_plus _ small row member found

/-- A code point of given width is read exactly when so many characters follow and it is read from them. -/
theorem hexChar_eq_some_iff {width : Nat} : hexChar width cs = some c ↔
    ∃ digits later, cs = digits ++ later ∧ digits.length = width ∧ IsRead digits c := by
  have signed : (hexNumber (if (cs.take width).head? == some '+' then (cs.take width).drop 1
      else cs.take width)).bind charOf = some c ↔ IsRead (cs.take width) c := by
    rw [Option.bind_eq_some_iff, IsRead]
    simp only [hexNumber_eq_some_iff, charOf_eq_some_iff]
    -- One sign is dropped, and what starts with a sign is no number itself.
    split
    · rename_i plus
      obtain ⟨rest, split⟩ := List.head?_eq_some_iff.mp (beq_iff_eq.mp plus)
      simp [split, not_numeral_plus]
    · rename_i unsigned
      have other : ∀ rest, cs.take width ≠ '+' :: rest := fun rest same => unsigned (by simp [same])
      simp [other]
  unfold hexChar
  dsimp only
  constructor
  · intro read
    split at read
    · rename_i long
      exact ⟨_, _, (List.take_append_drop width cs).symm, long, signed.mp read⟩
    · cases read
  · rintro ⟨digits, later, rfl, rfl, read⟩
    rw [List.take_left] at signed ⊢
    rw [if_pos rfl, signed]
    exact read

end

section

variable {c letter : Char} {width : Nat} {digits text content : List Char}

/-- What a backslash stands for is read before what follows. -/
theorem unescape_backslash (rest : List Char) :
    unescape ('\\' :: rest) = (escape rest).1 ++ unescape (rest.drop (escape rest).2) := by
  rw [unescape]
  rfl

/-- Any other character stands for itself. -/
theorem unescape_plain (plain : c ≠ '\\') (rest : List Char) : unescape (c :: rest) = c :: unescape rest := by
  rw [unescape, if_neg (by simpa using plain)]

/-- A letter that introduces a code point stands for it, if one is read behind it, and else for itself. -/
theorem escape_codePoint (introduced : (letter, width) ∈ codePointLetters) (rest : List Char) :
    escape (letter :: rest) = match hexChar width rest with
      | some meant => ([meant], 1 + width)
      | none => (['\\', letter], 1) := by
  simp only [codePointLetters, List.mem_cons, Prod.mk.injEq, List.not_mem_nil, or_false] at introduced
  rcases introduced with ⟨rfl, rfl⟩ | ⟨rfl, rfl⟩ | ⟨rfl, rfl⟩ <;> rfl

/-- A code point that is read stands for its character. -/
theorem unescape_read (introduced : (letter, digits.length) ∈ codePointLetters) (read : IsRead digits c)
    (later : List Char) : unescape ('\\' :: letter :: (digits ++ later)) = c :: unescape later := by
  have meant : hexChar digits.length (digits ++ later) = some c :=
    hexChar_eq_some_iff.mpr ⟨digits, later, rfl, rfl, read⟩
  rw [unescape_backslash, escape_codePoint introduced, meant]
  simp [Nat.add_comm 1]

/-- Without a code point behind it the letter stays, and so does the backslash. -/
theorem unescape_unread {rest : List Char} (introduced : (letter, width) ∈ codePointLetters)
    (unread : hexChar width rest = none) : unescape ('\\' :: letter :: rest) = '\\' :: letter :: unescape rest := by
  rw [unescape_backslash, escape_codePoint introduced, unread]
  rfl

/-- A letter with a meaning stands for another character. -/
theorem unescape_letter (known : (letter, c) ∈ letterForms) (rest : List Char) :
    unescape ('\\' :: letter :: rest) = c :: unescape rest := by
  have each : ∀ form ∈ letterForms, form.1 ≠ '\n' ∧ letterEscape form.1 = some form.2 := by decide
  obtain ⟨feed, meant⟩ := each _ known
  rw [unescape_backslash, escape, if_neg (by simpa using feed), meant]
  rfl

/-- The digits of base eight are told by their code points, and have no other meaning. -/
theorem octalDigit {value : Nat} (digit : IsDigit 8 c value) :
    ('0' ≤ c ∧ c ≤ '7') ∧ c.toNat - '0'.toNat = value ∧ c ≠ '\n' ∧ letterEscape c = none ∧
      escapeWidth c = none := by
  obtain ⟨small, row, member, found⟩ := digit
  -- Asked about the digits themselves and not about all characters, of which there are too many.
  have each : ∀ value < 8, ∀ row ∈ digitRows, row[value]?.all fun c =>
      ('0' ≤ c ∧ c ≤ '7') ∧ c.toNat - '0'.toNat = value ∧ c ≠ '\n' ∧ letterEscape c = none ∧
        escapeWidth c = none := by decide
  have digit := each value small row member
  rw [found] at digit
  exact of_decide_eq_true digit

/-- Three digits of base eight stand for a character, whatever follows. -/
theorem unescape_octal (three : digits.length = 3) (numeral : Numeral 8 digits c.toNat) (rest : List Char) :
    unescape ('\\' :: (digits ++ rest)) = c :: unescape rest := by
  obtain ⟨values, each, total⟩ := numeral_iff.mp numeral
  match digits, values, each, three with
  | [c₁, c₂, c₃], [_, _, _], .cons one (.cons two (.cons three .nil)), _ =>
    obtain ⟨range, rfl, feed, letter, width⟩ := octalDigit one
    obtain ⟨range₂, rfl, -⟩ := octalDigit two
    obtain ⟨range₃, rfl, -⟩ := octalDigit three
    -- The run ends after two more digits, even if others follow.
    have run : octalRun (c₂ :: c₃ :: rest) = [c₂, c₃] := by
      simp [octalRun, range₂, range₃]
    have number : octalNumber [c₁, c₂, c₃] = c.toNat := total
    rw [List.cons_append, unescape_backslash, escape, if_neg (by simpa using feed), letter, width]
    simp only [List.cons_append, List.nil_append, run, number, Char.ofNat_toNat]
    simp [range]

/-- A form of a character is read as that character, whatever follows. -/
theorem unescape_form {form : List Char} (isForm : IsForm c form) (rest : List Char) :
    unescape (form ++ rest) = c :: unescape rest := by
  cases isForm with
  | itself plain => exact unescape_plain plain rest
  | letter known => exact unescape_letter known rest
  | codePoint introduced numeral => exact unescape_read introduced (.inl numeral) rest
  | octal three numeral => exact unescape_octal three numeral rest

/-- However a text is written in a literal that is not raw, it is read back. -/
theorem unescape_of_writtenAs (written : WrittenAs text content) : unescape content = text := by
  induction written with
  | nil => rw [unescape]
  | char isForm _ ih => rw [unescape_form isForm, ih]
  | join _ ih =>
    rw [unescape_backslash, ← ih]
    rfl

/-- A text in which digits of both cases and bases, a mark and a joined line follow each other. -/
theorem unescape_of_writtenAs_mixed :
    WrittenAs "é7\n\"".toList ("\\u00E9".toList ++ ("\\067".toList ++
      '\\' :: '\n' :: ("\\x0a".toList ++ ("\\\"".toList ++ [])))) ∧
      unescape "\\u00E9\\067\\\n\\x0a\\\"".toList = "é7\n\"".toList := by
  have written : WrittenAs "é7\n\"".toList ("\\u00E9".toList ++ ("\\067".toList ++
      '\\' :: '\n' :: ("\\x0a".toList ++ ("\\\"".toList ++ [])))) :=
    .char (.codePoint (by decide) ⟨[0, 0, 14, 9], by decide, by decide⟩)
      (.char (.octal (by decide) ⟨[0, 6, 7], by decide, by decide⟩)
        (.join (.char (.codePoint (by decide) ⟨[0, 10], by decide, by decide⟩)
          (.char (.letter (by decide)) .nil))))
  exact ⟨written, unescape_of_writtenAs written⟩

end

/-- Backslashes at the end of a text come in pairs, so that one behind them is not itself escaped. -/
def IsFree (front : List Char) : Prop := Even (front.rtakeWhile (· = '\\')).length

instance (front : List Char) : Decidable (IsFree front) := inferInstanceAs (Decidable (Even _))

section

variable {c letter : Char} {width : Nat} {front rest digits : List Char}

/-- The backslashes at the end of a text are those at the end of its rest, unless they are all of it. -/
theorem length_rtakeWhile_cons (c : Char) (rest : List Char) :
    ((c :: rest).rtakeWhile (· = '\\')).length =
      if (rest.rtakeWhile (· = '\\')).length = rest.length then rest.length + if c = '\\' then 1 else 0
      else (rest.rtakeWhile (· = '\\')).length := by
  simp only [List.rtakeWhile, List.reverse_cons, List.takeWhile_append, List.length_reverse]
  split
  · by_cases same : c = '\\' <;> simp [same]
  · rfl

/-- There are at most as many backslashes at the end of a text as characters. -/
theorem length_rtakeWhile_le (rest : List Char) : (rest.rtakeWhile (· = '\\')).length ≤ rest.length := by
  simpa [List.rtakeWhile] using (List.takeWhile_prefix (· = '\\') (l := rest.reverse)).length_le

/-- What another character than a backslash stands before is as free as without it. -/
theorem isFree_cons (plain : c ≠ '\\') : IsFree (c :: rest) ↔ IsFree rest := by
  rw [IsFree, IsFree, length_rtakeWhile_cons, if_neg plain]
  split
  · rename_i all
    rw [all, Nat.add_zero]
  · rfl

/-- What a backslash takes along is as free as without the two. -/
theorem isFree_pair : IsFree ('\\' :: c :: rest) ↔ IsFree rest := by
  have within := length_rtakeWhile_le rest
  -- If the rest is all backslashes, both of the two are counted or neither is.
  rw [IsFree, IsFree, length_rtakeWhile_cons, length_rtakeWhile_cons, List.length_cons, Nat.even_iff, Nat.even_iff]
  by_cases same : c = '\\'
  · simp only [same, if_true]
    split <;> split <;> omega
  · simp only [same, if_false, if_true]
    split <;> split <;> omega

/-- What other characters than backslashes stand before is as free as without them. -/
theorem isFree_append (plain : '\\' ∉ front) : IsFree (front ++ rest) ↔ IsFree rest := by
  induction front with
  | nil => rfl
  | cons c front ih =>
    rw [List.cons_append, isFree_cons fun same => plain (same ▸ List.mem_cons_self),
      ih fun member => plain (List.mem_cons_of_mem c member)]

/-- No backslash belongs to a code point. -/
theorem not_mem_of_isRead (read : IsRead digits c) : '\\' ∉ digits := by
  intro member
  have meant : hexChar digits.length digits = some c :=
    hexChar_eq_some_iff.mpr ⟨digits, [], (List.append_nil digits).symm, rfl, read⟩
  rw [hexChar_eq_none (by rwa [List.take_length]) (by decide) (by decide)] at meant
  cases meant

/-- A code point is the same with a backslash behind the characters it may be read from. -/
theorem hexChar_append (width : Nat) (rest more : List Char) :
    hexChar width (rest ++ '\\' :: more) = hexChar width rest := by
  by_cases long : width ≤ rest.length
  · rw [hexChar, hexChar, List.take_append_of_le_length long]
  · -- With too few characters the backslash would have to be a digit.
    have short : (rest.take width).length ≠ width := by
      rw [List.length_take]
      omega
    have member : '\\' ∈ (rest ++ '\\' :: more).take width := by
      obtain ⟨extra, split⟩ : ∃ extra, width = rest.length + (extra + 1) := ⟨width - rest.length - 1, by omega⟩
      rw [split, List.take_length_add_append]
      simp
    rw [hexChar_eq_none member (by decide) (by decide), hexChar, if_neg short]

/-- Digits of base eight are the same with a backslash behind them. -/
theorem octalRun_append (rest more : List Char) : octalRun (rest ++ '\\' :: more) = octalRun rest := by
  match rest with
  | [] => rfl
  | [c] => simp [octalRun, List.takeWhile_cons]
  | c :: d :: later => rfl

/-- An escape is the same with a backslash behind the characters it may be read from. -/
theorem escape_append (some_char : rest ≠ []) (more : List Char) :
    escape (rest ++ '\\' :: more) = escape rest := by
  obtain ⟨c, later, rfl⟩ := List.exists_cons_of_ne_nil some_char
  simp only [List.cons_append, escape, hexChar_append, octalRun_append]

/-- What a backslash takes along is a character and maybe digits, but no further backslash. -/
theorem exists_escape (c : Char) (rest : List Char) : ∃ digits later, rest = digits ++ later ∧ '\\' ∉ digits ∧
    (escape (c :: rest)).2 = digits.length + 1 := by
  rw [escape]
  split
  · exact ⟨[], rest, rfl, List.not_mem_nil, rfl⟩
  · cases letterEscape c with
    | some meant => exact ⟨[], rest, rfl, List.not_mem_nil, rfl⟩
    | none =>
      cases escapeWidth c with
      | some width =>
        dsimp only
        cases found : hexChar width rest with
        | some meant =>
          obtain ⟨digits, later, rfl, rfl, read⟩ := hexChar_eq_some_iff.mp found
          exact ⟨digits, later, rfl, not_mem_of_isRead read, Nat.add_comm 1 _⟩
        | none => exact ⟨[], rest, rfl, List.not_mem_nil, rfl⟩
      | none =>
        dsimp only
        split
        · obtain ⟨later, split⟩ := (List.takeWhile_prefix _).trans (List.take_prefix 2 rest)
          refine ⟨octalRun rest, later, split.symm, fun member => ?_, rfl⟩
          have digit := List.all_eq_true.mp List.all_takeWhile _ member
          revert digit
          decide
        · exact ⟨[], rest, rfl, List.not_mem_nil, rfl⟩

/-- What stands before a backslash that is not itself escaped is read on its own. -/
theorem unescape_append_backslash (free : IsFree front) (more : List Char) :
    unescape (front ++ '\\' :: more) = unescape front ++ unescape ('\\' :: more) := by
  fun_induction unescape front with
  | case1 => rfl
  | case2 c rest isBackslash escaped ih =>
    obtain rfl := beq_iff_eq.mp isBackslash
    have some_char : rest ≠ [] := by
      rintro rfl
      exact absurd free (by decide)
    -- What the escape takes along holds no backslash, so it ends before the one behind.
    have same := escape_append some_char more
    obtain ⟨d, behind, rfl⟩ := List.exists_cons_of_ne_nil some_char
    obtain ⟨digits, later, rfl, plain, used⟩ := exists_escape d behind
    have dropped : (d :: (digits ++ later)).drop (digits.length + 1) = later := by simp
    have dropped' : (d :: (digits ++ later) ++ '\\' :: more).drop (digits.length + 1) = later ++ '\\' :: more := by
      simp
    simp only [escaped, used, dropped] at ih ⊢
    rw [List.cons_append, unescape_backslash, same, used, dropped',
      ih ((isFree_append plain).mp (isFree_pair.mp free)), List.append_assoc]
  | case3 c rest other ih =>
    have plain : c ≠ '\\' := by simpa using other
    rw [List.cons_append, unescape_plain plain, ih ((isFree_cons plain).mp free), List.cons_append]

/-- A letter that introduces a code point, behind a backslash that is not itself escaped, is replaced together
with the characters that its width demands exactly when these are all there and a code point is read from them:
they are digits of base sixteen that make up the code point of a character, or a plus sign and such digits. If
not, the backslash and the letter stay, and what is behind them is read as if it stood alone. -/
theorem unescape_codePoint (free : IsFree front) (introduced : (letter, width) ∈ codePointLetters)
    (rest : List Char) :
    (∀ digits later c, rest = digits ++ later → digits.length = width → IsRead digits c →
      unescape (front ++ '\\' :: letter :: rest) = unescape front ++ c :: unescape later) ∧
    ((∀ digits later c, rest = digits ++ later → digits.length = width → ¬IsRead digits c) →
      unescape (front ++ '\\' :: letter :: rest) = unescape front ++ '\\' :: letter :: unescape rest) := by
  rw [unescape_append_backslash free]
  constructor
  · rintro digits later c rfl rfl read
    rw [unescape_read introduced read]
  · intro unread
    have none_read : hexChar width rest = none := by
      rw [Option.eq_none_iff_forall_ne_some]
      intro c found
      obtain ⟨digits, later, split, long, read⟩ := hexChar_eq_some_iff.mp found
      exact unread digits later c split long read
    rw [unescape_unread introduced none_read]

/-- Behind a backslash in a pair, a plus sign takes the place of a digit, and three digits are too few. -/
theorem unescape_codePoint_plus :
    IsFree "\\\\".toList ∧ IsRead "+041".toList 'A' ∧
      unescape "\\\\\\u+041b".toList = "\\Ab".toList ∧ unescape "\\\\\\u041".toList = "\\\\u041".toList := by
  have free : IsFree "\\\\".toList := by decide
  have read : IsRead "+041".toList 'A' := .inr ⟨"041".toList, rfl, [0, 4, 1], by decide, by decide⟩
  have introduced : ('u', 4) ∈ codePointLetters := by decide
  refine ⟨free, read, ?_, ?_⟩
  · exact ((unescape_codePoint free introduced "+041b".toList).1 "+041".toList ['b'] 'A' rfl rfl read).trans
      (by decide +kernel)
  · refine ((unescape_codePoint free introduced "041".toList).2 fun digits later c split long => ?_).trans
      (by decide +kernel)
    have three : "041".toList.length = digits.length + later.length := by rw [split, List.length_append]
    rw [show "041".toList.length = 3 from rfl, long] at three
    omega

end

end SourceOutline.Python
