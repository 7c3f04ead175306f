import SourceOutline.Proofs.Python.Margins

/-! Code holds no blanks of any script, and literals hold none but in their text. -/

namespace SourceOutline.Python

open Text

/-- What is checked for each blank holds of all. -/
theorem forall_isBlank {property : Char → Bool}
    (checked : blankRanges.all fun range =>
      (List.range (range.2 + 1 - range.1)).all fun n => property (Char.ofNat (range.1 + n))) {c : Char}
    (blank : isBlank c = true) : property c = true := by
  obtain ⟨range, member, above, below⟩ : ∃ range ∈ blankRanges, range.1 ≤ c.toNat ∧ c.toNat ≤ range.2 := by
    unfold isBlank at blank
    generalize blankRanges = ranges at blank ⊢
    induction ranges with
    | nil => cases blank
    | cons range rest ih =>
      rw [inRanges] at blank
      split at blank
      · cases blank
      · split at blank
        · exact ⟨range, List.mem_cons_self, by omega, by omega⟩
        · obtain ⟨other, member, within⟩ := ih blank
          exact ⟨other, .tail _ member, within⟩
  have here := List.all_eq_true.mp (List.all_eq_true.mp checked range member) (c.toNat - range.1)
    (List.mem_range.mpr (by omega))
  rwa [Nat.add_sub_cancel' above, Char.ofNat_toNat] at here

/-- Where all blanks fail, what succeeds is no blank. -/
theorem firm_of_fails (property : Char → Bool)
    (checked : blankRanges.all fun range =>
      (List.range (range.2 + 1 - range.1)).all fun n => !property (Char.ofNat (range.1 + n))) {c : Char}
    (holds : property c = true) : isBlank c = false := by
  rw [Bool.eq_false_iff]
  intro blank
  have fails := @forall_isBlank (fun c => !property c) checked c blank
  rw [holds] at fails
  cases fails

/-- Every character of a run of digits is a digit or an underscore. -/
theorem firm_digitRun {isDigit : Char → Bool} (digits : ∀ c, isDigit c = true → isBlank c = false)
    (behindDigit : Bool) (cs : List Char) : ∀ c ∈ digitRun isDigit behindDigit cs, isBlank c = false := by
  induction cs generalizing behindDigit with
  | nil => simp [digitRun]
  | cons c rest ih =>
    rw [digitRun]
    split
    · rename_i digit
      exact List.forall_mem_cons.mpr ⟨digits c digit, ih true⟩
    · split
      · rename_i underscore
        simp only [Bool.and_eq_true, beq_iff_eq] at underscore
        exact List.forall_mem_cons.mpr ⟨underscore.1 ▸ by decide, ih false⟩
      · simp

/-- A letter is one of those given. -/
theorem firm_letterOf {letters : List Char} (firm : letters.all fun c => !isBlank c) (cs : List Char) :
    ∀ c ∈ letterOf letters cs, isBlank c = false := by
  cases cs with
  | nil => simp [letterOf]
  | cons c rest =>
    rw [letterOf]
    split
    · rename_i known
      refine List.forall_mem_singleton.mpr ?_
      simpa using List.all_eq_true.mp firm c (List.contains_iff_mem.mp known)
    · simp

/-- Decimal digits are no blanks. -/
theorem firm_isDigit (c : Char) (digit : c.isDigit = true) : isBlank c = false :=
  firm_of_fails _ (by decide) digit

/-- An exponent holds no blanks. -/
theorem firm_exponentRun (cs : List Char) : ∀ c ∈ exponentRun cs, isBlank c = false := by
  simp only [exponentRun]
  split
  · simp
  · exact List.forall_mem_append.mpr ⟨List.forall_mem_append.mpr ⟨firm_letterOf (by decide) _,
      firm_letterOf (by decide) _⟩, firm_digitRun firm_isDigit _ _⟩

/-- The digits of every base are no blanks, and neither are the letters before them. -/
theorem firm_baseDigits {letter : Char} {isDigit : Char → Bool} (based : baseDigits letter = some isDigit) :
    isBlank letter = false ∧ ∀ c, isDigit c = true → isBlank c = false := by
  refine ⟨firm_of_fails (fun c => (baseDigits c).isSome) (by decide) (by rw [based]; rfl), ?_⟩
  unfold baseDigits at based
  split at based
  · cases based
    exact fun c digit => firm_of_fails _ (by decide) digit
  · cases based
    exact fun c digit => firm_of_fails _ (by decide) digit
  · cases based
    exact fun c digit => firm_of_fails (fun c => c == '0' || c == '1') (by decide) digit
  · cases based

/-- A number of another base holds no blanks. -/
theorem firm_baseRun (cs : List Char) : ∀ c ∈ baseRun cs, isBlank c = false := by
  unfold baseRun
  split
  · split
    · rename_i based
      obtain ⟨letter, digits⟩ := firm_baseDigits based
      simp only
      split
      · simp
      · exact List.forall_mem_cons.mpr ⟨by decide, List.forall_mem_cons.mpr ⟨letter, firm_digitRun digits _ _⟩⟩
    · simp
  · simp

/-- A decimal number holds no blanks. -/
theorem firm_decimalRun (cs : List Char) : ∀ c ∈ decimalRun cs, isBlank c = false := by
  have fraction : ∀ cs, ∀ c ∈ fractionRun cs, isBlank c = false := by
    intro cs
    unfold fractionRun
    split
    · exact List.forall_mem_cons.mpr ⟨by decide, firm_digitRun firm_isDigit _ _⟩
    · simp
  simp only [decimalRun_eq]
  split
  · simp
  · exact List.forall_mem_append.mpr ⟨List.forall_mem_append.mpr ⟨firm_digitRun firm_isDigit _ _, fraction _⟩,
      firm_exponentRun _⟩

/-- A number holds no blanks. -/
theorem firm_numberRun (cs : List Char) : ∀ c ∈ numberRun cs, isBlank c = false := by
  have suffix : ∀ cs, ∀ c ∈ numberSuffix cs, isBlank c = false := fun cs =>
    List.forall_mem_append.mpr ⟨firm_letterOf (by decide) _, firm_letterOf (by decide) _⟩
  simp only [numberRun]
  generalize same : (if (baseRun cs).isEmpty then decimalRun cs else baseRun cs) = digits
  split
  · simp
  · refine List.forall_mem_append.mpr ⟨?_, suffix _⟩
    rw [← same]
    split
    · exact firm_decimalRun cs
    · exact firm_baseRun cs

/-- Quotes are no blanks. -/
theorem firm_isQuote {c : Char} (quote : isQuote c = true) : isBlank c = false := firm_of_fails _ (by decide) quote

/-- The opening of a string literal holds a character and no blanks. -/
theorem firm_stringStart {cs : List Char} {style : StringStyle} {length : Nat}
    (found : stringStart cs = some (style, length)) : 0 < length ∧ ∀ c ∈ cs.take length, isBlank c = false := by
  simp only [stringStart] at found
  generalize same : cs.takeWhile isStringLetter = letters at found
  have letter : ∀ c ∈ letters, isBlank c = false := fun c member => by
    rw [← same] at member
    exact firm_of_fails _ (by decide) (List.mem_takeWhile_imp member)
  obtain ⟨behind, rfl⟩ : letters <+: cs := same ▸ List.takeWhile_prefix isStringLetter
  rw [List.drop_left] at found
  split at found
  · cases found
  · rename_i quote rest
    split at found
    · rename_i quoted
      obtain ⟨-, rfl⟩ := Prod.mk.inj (Option.some.inj found)
      rw [List.take_length_add_append]
      refine ⟨by split <;> omega, List.forall_mem_append.mpr ⟨letter, ?_⟩⟩
      split
      · rename_i triple
        simp only [Bool.and_eq_true, beq_iff_eq] at triple
        rw [triple.2]
        simpa using firm_isQuote quoted
      · simpa using firm_isQuote quoted
    · cases found

/-- An operator or a bracket holds no blanks. -/
theorem firm_operatorCut {modes : List Mode} {c : Char} {cs : List Char} {cut : Cut}
    (next : operatorCut modes c cs = some cut) : ∀ d ∈ (c :: cs).take (cut.further + 1), isBlank d = false := by
  unfold operatorCut at next
  split at next
  · rename_i mark marked
    cases next
    unfold fieldCut at marked
    split at marked
    · split at marked
      · rename_i colon
        cases marked
        simp [beq_iff_eq.mp colon, show isBlank ':' = false by decide]
      · split at marked
        · rename_i conversion
          cases marked
          cases cs with
          | nil => simp at conversion
          | cons letter rest =>
            simp only [List.head?_cons, Option.any_some, Bool.and_eq_true, beq_iff_eq] at conversion
            have firm : isBlank letter = false :=
              firm_of_fails (fun letter => decide ('a' ≤ letter) && decide (letter ≤ 'z')) (by decide)
                (by simpa using conversion.2)
            simp [conversion.1, firm, show isBlank '!' = false by decide]
        · cases marked
    · cases marked
  · split at next
    · rename_i closing opens
      cases next
      have firm : isBlank c = false :=
        firm_of_fails (fun c => (closingOf c).isSome) (by decide) (by rw [opens]; rfl)
      simpa using firm
    · split at next
      · rename_i closes
        rw [closeCut_further next]
        have firm : isBlank c = false :=
          firm_of_fails (fun c => c == ')' || c == ']' || c == '\x7d') (by decide) closes
        simpa using firm
      · obtain ⟨operator, start, rfl⟩ := Option.map_eq_some_iff.mp next
        have known := List.mem_of_find?_eq_some start
        have checked := List.all_eq_true.mp (show operators.all (fun operator =>
          operator.length != 0 && operator.toList.all fun c => !isBlank c) = true by decide) operator known
        simp only [Bool.and_eq_true, bne_iff_ne, List.all_eq_true, Bool.not_eq_true'] at checked
        obtain ⟨rest, whole⟩ : operator.toList <+: c :: cs := by
          have starts := List.find?_some (p := fun operator : String => operator.toList.isPrefixOf (c :: cs)) start
          exact List.isPrefixOf_iff_prefix.mp starts
        have length : operator.length - 1 + 1 = operator.toList.length := by
          rw [String.length_toList]
          omega
        rw [← whole]
        show ∀ d ∈ (operator.toList ++ rest).take (operator.length - 1 + 1), isBlank d = false
        rw [length, List.take_left]
        exact checked.2

/-- A token outside the text of literals holds no blanks. -/
theorem firm_tokenCut {modes : List Mode} {c : Char} {cs : List Char} {cut : Cut}
    (next : tokenCut modes c cs = some cut) : ∀ d ∈ (c :: cs).take (cut.further + 1), isBlank d = false := by
  unfold tokenCut at next
  split at next
  · rename_i style length opened
    cases next
    obtain ⟨some_char, firm⟩ := firm_stringStart opened
    rwa [← Nat.sub_add_cancel some_char] at firm
  · split at next
    · rename_i letter
      cases next
      have starts : isBlank c = false := firm_of_fails _ (by decide +kernel) letter
      refine List.forall_mem_cons.mpr ⟨starts, fun d member => ?_⟩
      have run := List.takeWhile_prefix isIdentifierContinue (l := cs)
      rw [← List.prefix_iff_eq_take.mp run] at member
      exact firm_of_fails _ (by decide +kernel) (List.mem_takeWhile_imp member)
    · simp only at next
      split at next
      · exact firm_operatorCut next
      · rename_i some_digit
        cases next
        have run := numberRun_isPrefix (c :: cs)
        have firm := firm_numberRun (c :: cs)
        have length : (numberRun (c :: cs)).length - 1 + 1 = (numberRun (c :: cs)).length := by
          have nonempty := List.length_pos_iff.mpr (by simpa using some_digit)
          omega
        show ∀ d ∈ (c :: cs).take ((numberRun (c :: cs)).length - 1 + 1), isBlank d = false
        rw [length, ← List.prefix_iff_eq_take.mp run]
        exact firm

/-- A token in the text of a literal starts with a quote or a brace. -/
theorem firm_textCut {style : StringStyle} {modes : List Mode} {c : Char} {rest : List Char} {cut : Cut}
    {symbol : Symbol} (quoted : isQuote style.quote = true) (next : textCut style modes c rest = some cut)
    (token : cut.part = .token symbol) : isBlank c = false := by
  unfold textCut at next
  split at next
  · cases next
    cases token
  split at next
  · rename_i quote
    exact beq_iff_eq.mp quote ▸ firm_isQuote quoted
  split at next
  · rename_i brace
    simp only [Bool.and_eq_true, beq_iff_eq] at brace
    exact brace.2 ▸ by decide
  split at next
  · rename_i brace
    simp only [Bool.and_eq_true, beq_iff_eq] at brace
    exact brace.2 ▸ by decide
  · split at next <;> cases next
    cases token

/-- A token that is neither a comment nor a join holds no blanks. -/
theorem firm_nextCut {modes : List Mode} {c : Char} {rest behind : List Char} {cut : Cut} {symbol : Symbol}
    (quoted : IsQuoted modes) (next : nextCut modes c (rest ++ behind) = some cut)
    (whole : cut.further = rest.length) (token : cut.part = .token symbol) (written : symbol.isTrivia = false) :
    ∀ d ∈ c :: rest, isBlank d = false := by
  unfold nextCut at next
  split at next
  · have first := firm_textCut (quoted _ List.mem_cons_self) next token
    rcases textCut_cases next with ⟨rfl, rfl⟩ | ⟨⟨tail, again⟩, _⟩
    · cases token
    · -- Behind the first quote or brace only the same one stands.
      have same : rest = List.replicate cut.further c := (List.append_inj again (by simp [whole])).1
      refine List.forall_mem_cons.mpr ⟨first, fun d member => ?_⟩
      rw [same] at member
      rw [(List.mem_replicate.mp member).2]
      exact first
  · obtain ⟨first, single⟩ := formatCut_token next token
    rw [single] at whole
    rw [List.eq_nil_of_length_eq_zero whole.symm, List.forall_mem_singleton]
    unfold formatCut at next
    split at next
    · rename_i brace
      exact beq_iff_eq.mp brace ▸ by decide
    split at next
    · rename_i brace
      exact beq_iff_eq.mp brace ▸ by decide
    · split at next <;> cases next
      cases token
  · unfold codeCut at next
    split at next
    · cases next
      split at token <;> cases token
    split at next
    · cases next
      cases token
    split at next
    · cases next
      cases token
      cases written
    split at next
    · obtain ⟨_, _, rfl⟩ := Option.map_eq_some_iff.mp next
      cases token
      cases written
    · have firm := firm_tokenCut next
      rwa [whole, List.take_succ_cons, List.take_left] at firm

end SourceOutline.Python
