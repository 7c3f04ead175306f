import SourceOutline.Proofs.Python.Cutting
import SourceOutline.Proofs.Python.Pieces
import SourceOutline.Proofs.Text.Lines

/-! A stretch of a source is cut into the same pieces when it stands alone. -/

namespace SourceOutline.Python

open Text

/-- The text of some pieces. -/
def textOf (found : List Piece) : List Char := found.flatMap Piece.text

/-- Without pieces there is no text. -/
@[simp] theorem textOf_nil : textOf [] = [] := rfl

/-- The text of a piece stands before that of the pieces behind it. -/
@[simp] theorem textOf_cons (piece : Piece) (found : List Piece) :
    textOf (piece :: found) = piece.text ++ textOf found := List.flatMap_cons

/-- Pieces side by side make up texts side by side. -/
@[simp] theorem textOf_append (front back : List Piece) :
    textOf (front ++ back) = textOf front ++ textOf back := List.flatMap_append

/-- A run that lies within the first of two texts is a run of that text. -/
theorem length_takeWhile_within {property : Char → Bool} {word tail : List Char}
    (within : ((word ++ tail).takeWhile property).length ≤ word.length) :
    ((word ++ tail).takeWhile property).length = (word.takeWhile property).length := by
  rw [List.takeWhile_append] at within ⊢
  split at within
  · rename_i whole
    rw [List.length_append] at within
    rw [if_pos whole, List.length_append, whole]
    omega
  · rename_i part
    rw [if_neg part]

/-- A line break that lies within the first of two texts is one of that text. -/
theorem joinLength_within {word tail : List Char} {length : Nat}
    (joins : joinLength (word ++ tail) = some length) (within : length ≤ word.length) :
    joinLength word = some length := by
  unfold joinLength at joins
  split at joins
  · rename_i rest same
    cases joins
    cases word with
    | nil => cases within
    | cons c more =>
      rw [List.cons_append] at same
      rw [(List.cons.inj same).1]
      rfl
  · rename_i rest same
    cases joins
    match word with
    | c :: d :: more =>
      rw [List.cons_append, List.cons_append] at same
      rw [(List.cons.inj same).1, (List.cons.inj (List.cons.inj same).2).1]
      rfl
  · cases joins

section

variable {tail : List Char} (parted : IsParted tail)

include parted

/-- A character that separates nothing stands first in a text whatever is parted from its end. -/
theorem head?_parted {c : Char} (other : c ∉ separators) (word : List Char) :
    ((word ++ tail).head? == some c) = (word.head? == some c) := by
  cases word with
  | nil =>
    rcases parted.cases_on with rfl | ⟨d, separator, rest, rfl⟩
    · rfl
    · have apart : d ≠ c := fun same => other (same ▸ separator)
      simp [apart]
  | cons d rest => rfl

/-- What a backslash takes along stays the same when it lies within the text. -/
theorem escapeLength_parted {style : StringStyle} {word : List Char}
    (within : escapeLength style (word ++ tail) ≤ word.length) :
    escapeLength style word = escapeLength style (word ++ tail) := by
  match word with
  | [] => exact (Nat.le_zero.mp within).symm
  | [c] =>
    rcases parted.cases_on with rfl | ⟨d, separator, rest, rfl⟩
    · rfl
    · have unbroken : ¬(c = '\r' ∧ (d :: rest).head? = some '\n') := by
        rintro ⟨rfl, feed⟩
        cases feed
        simp [escapeLength] at within
      have unnamed : ¬(c = 'N' ∧ (d :: rest).head? = some '\x7b') := by
        rintro ⟨_, brace⟩
        cases brace
        exact absurd separator (by decide)
      rw [List.singleton_append, escapeLength_cons style unbroken unnamed]
      exact escapeLength_cons style (by simp) (by simp)
  | c :: d :: rest =>
    by_cases broken : c = '\r' ∧ d = '\n'
    · obtain ⟨rfl, rfl⟩ := broken
      rfl
    · by_cases opened : c = 'N' ∧ d = '\x7b'
      · obtain ⟨rfl, rfl⟩ := opened
        cases named : style.format && !style.raw with
        | false => simp [escapeLength, named]
        | true =>
          -- The closing brace lies within the text, so the name is read alike.
          have name : (rest ++ tail).takeWhile (· != '\x7d') = rest.takeWhile (· != '\x7d') := by
            rw [List.takeWhile_append]
            refine if_neg fun open_end => ?_
            simp only [List.cons_append, escapeLength, named, if_true, List.takeWhile_append,
              open_end, List.length_append, List.length_cons] at within
            omega
          simp only [List.cons_append, escapeLength, named, if_true, name]
      · have unbroken : ∀ more, ¬(c = '\r' ∧ (d :: more).head? = some '\n') := fun more both =>
          broken ⟨both.1, Option.some.inj both.2⟩
        have unnamed : ∀ more, ¬(c = 'N' ∧ (d :: more).head? = some '\x7b') := fun more both =>
          opened ⟨both.1, Option.some.inj both.2⟩
        exact (escapeLength_cons style (unbroken rest) (unnamed rest)).trans
          (escapeLength_cons style (unbroken (rest ++ tail)) (unnamed (rest ++ tail))).symm

/-- Only a backslash in a literal reaches beyond a separating character. -/
theorem textCut_parted_of_ne {style : StringStyle} (quoted : isQuote style.quote = true) {c : Char}
    (unescaped : c ≠ '\\') (modes : List Mode) (word : List Char) :
    textCut style modes c (word ++ tail) = textCut style modes c word := by
  by_cases separator : c ∈ separators
  · -- A separating character stands for itself, whatever follows.
    have unquoted : c ≠ style.quote := fun same => by
      rw [← same, forall_mem_of_all (show separators.all (fun c => !isQuote c) = true by decide) c separator] at quoted
      cases quoted
    have unopened : c ≠ '\x7b' := fun same => absurd (same ▸ separator) (by decide)
    have unclosed : c ≠ '\x7d' := fun same => absurd (same ▸ separator) (by decide)
    have plain := textCut_of_plain unescaped unquoted unopened unclosed modes
    exact (plain (word ++ tail)).trans (plain word).symm
  · have closing : ((word ++ tail).take 2 == [c, c]) = (word.take 2 == [c, c]) := by
      simpa using threeQuotes_parted parted separator word
    have doubled := head?_parted parted separator word
    simp only [textCut, beq_iff_eq, unescaped, if_false, closing, doubled]

/-- A piece of a literal that lies within the text stays the same. -/
theorem textCut_parted {style : StringStyle} (quoted : isQuote style.quote = true) {modes : List Mode}
    {c : Char} {word : List Char} {cut : Cut}
    (next : textCut style modes c (word ++ tail) = some cut) (within : cut.further ≤ word.length) :
    textCut style modes c word = some cut := by
  by_cases escape : c = '\\'
  · subst escape
    cases (show some ⟨.content, escapeLength style (word ++ tail), modes⟩ = some cut from next)
    have same := escapeLength_parted parted within
    show some (Cut.mk .content (escapeLength style word) modes) = _
    rw [same]
  · rwa [← textCut_parted_of_ne parted quoted escape]

/-- A piece of code that lies within the text stays the same. -/
theorem codeCut_parted {modes : List Mode} {c : Char} {word : List Char} {cut : Cut}
    (next : codeCut modes c (word ++ tail) = some cut) (within : cut.further ≤ word.length) :
    codeCut modes c word = some cut := by
  unfold codeCut at next ⊢
  by_cases feed : (c == '\n') = true
  · rwa [if_pos feed] at next ⊢
  rw [if_neg feed] at next ⊢
  by_cases space : isSpace c = true
  · rwa [if_pos space] at next ⊢
  rw [if_neg space] at next ⊢
  by_cases comment : (c == '#') = true
  · rw [if_pos comment] at next ⊢
    cases next
    rw [length_takeWhile_within within]
  rw [if_neg comment] at next ⊢
  by_cases join : (c == '\\') = true
  · rw [if_pos join] at next ⊢
    obtain ⟨length, joins, rfl⟩ := Option.map_eq_some_iff.mp next
    rw [joinLength_within joins within]
    rfl
  · rw [if_neg join] at next ⊢
    rwa [← tokenCut_parted parted]

/-- A piece that lies within the text stays the same. -/
theorem nextCut_parted {modes : List Mode} (quoted : IsQuoted modes) {c : Char} {word : List Char}
    {cut : Cut} (next : nextCut modes c (word ++ tail) = some cut)
    (within : cut.further ≤ word.length) : nextCut modes c word = some cut := by
  unfold nextCut at next ⊢
  split at next
  · exact textCut_parted parted (quoted _ List.mem_cons_self) next within
  · exact next
  · exact codeCut_parted parted next within

end

/-- A run of characters is no longer than the text. -/
theorem nextCut_further_le {modes : List Mode} {c : Char} {rest : List Char} {cut : Cut}
    (next : nextCut modes c rest = some cut) :
    cut.further ≤ rest.length ∨ cut.modes = modes ∧ modes ≠ [] := by
  unfold nextCut at next
  split at next
  · rcases textCut_cases next with ⟨_, rfl⟩ | ⟨⟨tail, rfl⟩, _⟩
    · exact .inr ⟨rfl, by simp⟩
    · exact .inl (by simp)
  · left
    unfold formatCut at next
    split at next
    · cases next
      exact Nat.zero_le _
    · split at next
      · cases next
        exact Nat.zero_le _
      · split at next <;> cases next
        exact Nat.zero_le _
  · left
    unfold codeCut at next
    split at next
    · cases next
      exact Nat.zero_le _
    · split at next
      · cases next
        exact Nat.zero_le _
      · split at next
        · cases next
          exact (List.takeWhile_prefix _).length_le
        · split at next
          · obtain ⟨length, joins, rfl⟩ := Option.map_eq_some_iff.mp next
            unfold joinLength at joins
            split at joins <;> cases joins <;> simp
          · exact tokenCut_further_le next

/-- Pieces are cut off in front of a text, from what encloses their start to what encloses their
end. -/
inductive CutsTo (tail : List Char) : List Mode → List Piece → List Mode → Prop where
  /-- Without pieces nothing changes. -/
  | done {modes : List Mode} : CutsTo tail modes [] modes
  /-- A piece is cut off, and then the others. -/
  | piece {modes final : List Mode} {c : Char} {rest : List Char} {cut : Cut} {more : List Piece}
    (next : nextCut modes c (rest ++ (textOf more ++ tail)) = some cut)
    (whole : cut.further = rest.length) (behind : CutsTo tail cut.modes more final) :
    CutsTo tail modes (⟨cut.part, c :: rest⟩ :: more) final

/-- A piece does not go beyond the text, since that would leave a string literal open. -/
theorem further_le_of_cuts {modes : List Mode} {c : Char} {rest : List Char} {cut : Cut}
    {more : List Piece} (next : nextCut modes c rest = some cut)
    (behind : Cuts cut.modes (rest.drop cut.further) more) : cut.further ≤ rest.length := by
  rcases nextCut_further_le next with within | ⟨same, open_mode⟩
  · exact within
  · refine Nat.le_of_not_lt fun beyond => ?_
    rw [List.drop_of_length_le (Nat.le_of_lt beyond), same] at behind
    cases behind
    exact open_mode rfl

/-- What a text is cut into makes up the text. -/
theorem Cuts.cutsTo {modes : List Mode} {cs : List Char} {found : List Piece}
    (cuts : Cuts modes cs found) : textOf found = cs ∧ CutsTo [] modes found [] := by
  induction cuts with
  | done => exact ⟨rfl, .done⟩
  | @piece modes c rest cut more next behind ih =>
    obtain ⟨text, inner⟩ := ih
    have within := further_le_of_cuts next behind
    refine ⟨?_, .piece ?_ ?_ inner⟩
    · rw [textOf_cons, text, List.cons_append, List.take_append_drop]
    · rw [text, List.append_nil, List.take_append_drop]
      exact next
    · exact (List.length_take_of_le within).symm

/-- Pieces that are cut off up to the end of a text are what it is cut into. -/
theorem CutsTo.cuts {modes final : List Mode} {found : List Piece}
    (cuts : CutsTo [] modes found final) (closed : final = []) : Cuts modes (textOf found) found := by
  induction cuts with
  | done =>
    subst closed
    exact .done
  | @piece modes final c rest cut more next whole behind ih =>
    have inner := ih closed
    have taken : (rest ++ textOf more).take cut.further = rest := List.take_left' whole.symm
    have left : (rest ++ textOf more).drop cut.further = textOf more := List.drop_left' whole.symm
    rw [List.append_nil] at next
    have cuts := Cuts.piece next (left.symm ▸ inner)
    rwa [taken] at cuts

/-- Pieces are cut off one after the other. -/
theorem CutsTo.append {tail : List Char} {modes final : List Mode} {front back : List Piece}
    (cuts : CutsTo tail modes (front ++ back) final) :
    ∃ between, CutsTo (textOf back ++ tail) modes front between ∧ CutsTo tail between back final := by
  induction front generalizing modes with
  | nil => exact ⟨modes, .done, cuts⟩
  | cons piece rest ih =>
    cases cuts with
    | piece next whole behind =>
      obtain ⟨between, first, second⟩ := ih behind
      refine ⟨between, .piece ?_ whole first, second⟩
      simpa using next

/-- Pieces in front of a text that is parted from them are cut off without that text as well. -/
theorem CutsTo.alone {tail : List Char} {modes final : List Mode} {found : List Piece}
    (cuts : CutsTo tail modes found final) (parted : IsParted tail) (quoted : IsQuoted modes) :
    CutsTo [] modes found final := by
  induction cuts with
  | done => exact .done
  | @piece modes final c rest cut more next whole behind ih =>
    refine .piece ?_ whole (ih (quoted.nextCut next))
    rw [← List.append_assoc] at next
    rw [List.append_nil]
    refine nextCut_parted parted quoted next ?_
    rw [whole, List.length_append]
    exact Nat.le_add_right _ _

end SourceOutline.Python
