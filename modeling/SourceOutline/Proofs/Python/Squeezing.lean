import SourceOutline.Proofs.Python.Firm
import SourceOutline.Proofs.Python.Rows
import SourceOutline.Proofs.Text.Squeeze

/-! A stretch of code on one line: when its tokens and its literals are still the same. -/

namespace SourceOutline.Python

open Text

/-- Items among whose characters each blank is a single space. -/
structure AreTidy (items : List Item) : Prop where
  /-- A blank is a space. -/
  spaces : ∀ c, .char c ∈ items → isBlank c = true → c = ' '
  /-- No space follows another one. -/
  apart : items.IsChain fun item next => ¬(item = .char ' ' ∧ next = .char ' ')

/-- The last ones of tidy items are tidy. -/
theorem AreTidy.of_append {front back : List Item} (tidy : AreTidy (front ++ back)) : AreTidy back :=
  ⟨fun c member => tidy.spaces c (List.mem_append_right front member), tidy.apart.right_of_append⟩

/-- A text is read as items in front of another text, from what encloses its start to what encloses its end. -/
def ReadsAs (tail : List Char) (modes final : List Mode) (items : List Item) (text : List Char) : Prop :=
  ∃ others, textOf others = text ∧ CutsTo tail modes others final ∧ spelled others = items

section

variable {tail : List Char} {modes final : List Mode} {items : List Item}

/-- A text that starts with a piece is read as what the piece spells and what the text behind it is read as. -/
theorem readsAs_piece_iff {c : Char} {rest text : List Char} {cut : Cut}
    (next : nextCut modes c (rest ++ (text ++ tail)) = some cut) (whole : cut.further = rest.length) :
    ReadsAs tail modes final ((Piece.mk cut.part (c :: rest)).items ++ items) (c :: rest ++ text) ↔
      ReadsAs tail cut.modes final items text := by
  constructor
  · rintro ⟨others, same, cuts, read⟩
    cases cuts with
    | done => cases same
    | @piece _ _ c' rest' cut' more next' whole' behind =>
      rw [textOf_cons, List.cons_append, List.cons_append] at same
      obtain ⟨rfl, later⟩ := List.cons.inj same
      have alike : rest' ++ (textOf more ++ tail) = rest ++ (text ++ tail) := by
        rw [← List.append_assoc, ← List.append_assoc]
        exact congrArg (· ++ tail) later
      rw [alike, next] at next'
      cases next'
      obtain ⟨rfl, rfl⟩ := List.append_inj later (whole'.symm.trans whole)
      exact ⟨more, rfl, behind, List.append_cancel_left read⟩
  · rintro ⟨others, rfl, cuts, rfl⟩
    exact ⟨_, by rw [textOf_cons], .piece next whole cuts, by rw [spelled_cons]⟩

/-- Without text nothing is read. -/
theorem readsAs_nil : ReadsAs tail modes modes [] [] := ⟨[], rfl, .done, rfl⟩

end

/-- Two texts agree up to a separator in each of them, or altogether. -/
def BeginAlike (first second : List Char) : Prop :=
  ∃ word tail tail', first = word ++ tail ∧ second = word ++ tail' ∧
    (tail = tail' ∨ IsParted tail ∧ IsParted tail')

namespace BeginAlike

variable {first second : List Char}

/-- Behind the same characters two texts agree as far as they do without them. -/
theorem behind (alike : BeginAlike first second) (front : List Char) :
    BeginAlike (front ++ first) (front ++ second) := by
  obtain ⟨word, tail, tail', rfl, rfl, same⟩ := alike
  exact ⟨front ++ word, tail, tail', by simp, by simp, same⟩

/-- Two texts agree behind a character that separates nothing. -/
theorem tail {c : Char} (other : c ∉ separators) (alike : BeginAlike (c :: first) (c :: second)) :
    BeginAlike first second := by
  obtain ⟨word, rest, rest', same, same', either⟩ := alike
  cases word with
  | nil =>
    rw [List.nil_append] at same same'
    rcases either with whole | ⟨parted, _⟩
    · rw [← same, ← same'] at whole
      obtain ⟨_, rfl⟩ := List.cons.inj whole
      exact ⟨first, [], [], by simp, by simp, .inl rfl⟩
    · exact absurd (parted c (by rw [← same]; rfl)) other
  | cons d word =>
    obtain ⟨_, rfl⟩ := List.cons.inj same
    obtain ⟨_, rfl⟩ := List.cons.inj same'
    exact ⟨word, rest, rest', rfl, rfl, either⟩

/-- A character that separates nothing stands first in both texts or in none. -/
theorem head?_eq {c : Char} (other : c ∉ separators) (alike : BeginAlike first second) :
    (first.head? == some c) = (second.head? == some c) := by
  obtain ⟨word, rest, rest', rfl, rfl, rfl | ⟨parted, parted'⟩⟩ := alike
  · rfl
  · rw [head?_parted parted other, head?_parted parted' other]

end BeginAlike

section

variable {first second : List Char} (alike : BeginAlike first second)

include alike

/-- A token is cut off alike where two texts agree. -/
theorem tokenCut_alike (modes : List Mode) (c : Char) : tokenCut modes c second = tokenCut modes c first := by
  obtain ⟨word, rest, rest', rfl, rfl, rfl | ⟨parted, parted'⟩⟩ := alike
  · rfl
  · rw [tokenCut_parted parted, tokenCut_parted parted']

/-- A piece of a literal that starts with no backslash is cut off alike where two texts agree. -/
theorem textCut_alike {style : StringStyle} (quoted : isQuote style.quote = true) {c : Char} (unescaped : c ≠ '\\')
    (modes : List Mode) : textCut style modes c second = textCut style modes c first := by
  obtain ⟨word, rest, rest', rfl, rfl, rfl | ⟨parted, parted'⟩⟩ := alike
  · rfl
  · rw [textCut_parted_of_ne parted quoted unescaped, textCut_parted_of_ne parted' quoted unescaped]

/-- What a backslash takes along stays the same where two texts agree, unless a line break begins behind it. -/
theorem escapeLength_alike {style : StringStyle} {rest : List Char}
    (starts : second.head? = some ' ' ∨ second.head? = first.head? ∧ first.head? ≠ some '\r')
    (whole : escapeLength style (rest ++ first) = rest.length) :
    escapeLength style (rest ++ second) = rest.length := by
  cases rest with
  | nil =>
    rw [List.nil_append] at whole ⊢
    rcases starts with space | ⟨same, unbroken⟩
    · obtain ⟨more, rfl⟩ := List.head?_eq_some_iff.mp space
      exact escapeLength_cons style (by simp) (by simp)
    · cases second with
      | nil => rfl
      | cons d later =>
        obtain ⟨more, rfl⟩ := List.head?_eq_some_iff.mp same.symm
        have plain : ∀ text : List Char, ¬(d = '\r' ∧ text.head? = some '\n') := fun _ both =>
          unbroken (by rw [both.1]; rfl)
        by_cases named : d = 'N' ∧ later.head? = some '\x7b'
        · -- The name of a character is opened in both texts or in none.
          obtain ⟨rfl, brace⟩ := named
          have opened : more.head? = some '\x7b' := by
            have agrees := (alike.tail (by decide)).head?_eq (c := '\x7b') (by decide)
            simpa [brace] using agrees
          obtain ⟨name, rfl⟩ := List.head?_eq_some_iff.mp opened
          obtain ⟨name', rfl⟩ := List.head?_eq_some_iff.mp brace
          cases format : style.format && !style.raw with
          | false => simp [escapeLength, format]
          | true =>
            simp only [escapeLength, format, if_true, List.length_nil] at whole
            omega
        · have unnamed : ¬(d = 'N' ∧ more.head? = some '\x7b') := by
            rintro ⟨rfl, brace⟩
            have agrees := (alike.tail (by decide)).head?_eq (c := '\x7b') (by decide)
            exact named ⟨rfl, by simpa [brace] using agrees⟩
          rw [escapeLength_cons style (plain more) unnamed] at whole
          rwa [escapeLength_cons style (plain later) named]
  | cons d rest =>
    rw [List.cons_append] at whole ⊢
    by_cases broken : d = '\r' ∧ (rest ++ first).head? = some '\n'
    · obtain ⟨rfl, feed⟩ := broken
      obtain ⟨more, same⟩ := List.head?_eq_some_iff.mp feed
      rw [same] at whole
      cases rest with
      | nil => cases whole
      | cons e later =>
        obtain ⟨rfl, _⟩ := List.cons.inj same
        exact whole
    by_cases named : d = 'N' ∧ (rest ++ first).head? = some '\x7b'
    · obtain ⟨rfl, brace⟩ := named
      obtain ⟨more, same⟩ := List.head?_eq_some_iff.mp brace
      rw [same] at whole
      cases format : style.format && !style.raw with
      | false => simp [escapeLength, format] at whole
      | true =>
        cases rest with
        | nil => simp [escapeLength, format] at whole
        | cons e later =>
          rw [List.cons_append] at same
          obtain ⟨rfl, rfl⟩ := List.cons.inj same
          simp only [escapeLength, format, if_true, List.length_cons] at whole
          rw [List.cons_append]
          simp only [escapeLength, format, if_true, List.length_cons]
          -- The closing brace is among what is taken, so the name ends there in both texts.
          have within := @length_takeWhile_within (· != '\x7d') later first (by omega)
          rw [List.takeWhile_append, if_neg (by omega)]
          omega
    · rw [escapeLength_cons style broken named] at whole
      split at whole
      · rename_i taken
        have single : rest = [] := List.eq_nil_of_length_eq_zero (by simpa using whole.symm)
        subst single
        have apart : d ≠ '\r' ∧ d ≠ 'N' := by
          rcases taken with rfl | rfl | rfl | rfl <;> decide
        rw [escapeLength_cons style (fun both => apart.1 both.1) (fun both => apart.2 both.1), if_pos taken]
        rfl
      · cases whole

end

/-- The piece is a comment or a join. -/
def Piece.isTrivia (piece : Piece) : Bool :=
  match piece.part with
  | .token symbol => symbol.isTrivia
  | _ => false

/-- Code is a token that is cut off as such, whatever else might start there. -/
theorem codeCut_of_isCode {modes : List Mode} {c : Char} {rest text : List Char} {cut : Cut}
    (next : codeCut modes c rest = some cut) (code : (Piece.mk cut.part text).isCode = true) (other : List Char) :
    codeCut modes c other = tokenCut modes c other := by
  unfold codeCut at next ⊢
  by_cases feed : (c == '\n') = true
  · rw [if_pos feed] at next
    cases next
    cases modes <;> cases code
  by_cases space : isSpace c = true
  · rw [if_neg feed, if_pos space] at next
    cases next
    cases code
  by_cases comment : (c == '#') = true
  · rw [if_neg feed, if_neg space, if_pos comment] at next
    cases next
    cases code
  by_cases join : (c == '\\') = true
  · rw [if_neg feed, if_neg space, if_neg comment, if_pos join] at next
    obtain ⟨_, _, rfl⟩ := Option.map_eq_some_iff.mp next
    cases code
  · rw [if_neg feed, if_neg space, if_neg comment, if_neg join]

/-- Outside the text of literals a piece is cut off as code. -/
theorem nextCut_of_outside {modes : List Mode} (outside : inLiteral modes = false) (c : Char) (rest : List Char) :
    nextCut modes c rest = codeCut modes c rest := by
  match modes with
  | .text _ :: _ | .format _ :: _ => cases outside
  | [] | .bracket _ :: _ | .field _ :: _ => rfl

/-- What a piece that spells something is made of does not depend on where the texts behind it differ. -/
theorem nextCut_alike {modes : List Mode} {c : Char} {rest first second : List Char} {cut : Cut}
    (alike : BeginAlike first second)
    (starts : second.head? = some ' ' ∨ second.head? = first.head? ∧ first.head? ≠ some '\r')
    (quoted : IsQuoted modes) (next : nextCut modes c (rest ++ first) = some cut) (whole : cut.further = rest.length)
    (spells : inLiteral modes = true ∨ (Piece.mk cut.part (c :: rest)).isCode = true) :
    nextCut modes c (rest ++ second) = some cut := by
  match modes with
  | .text style :: outer =>
    by_cases escape : c = '\\'
    · subst escape
      cases (show some ⟨.content, escapeLength style (rest ++ first), _⟩ = some cut from next)
      show some (Cut.mk .content (escapeLength style (rest ++ second)) _) = _
      rw [escapeLength_alike alike starts whole]
      exact congrArg (fun length => some (Cut.mk .content length _)) whole.symm
    · exact (textCut_alike (alike.behind rest) (quoted style List.mem_cons_self) escape _).trans next
  | .format triple :: outer => exact next
  | [] | .bracket _ :: _ | .field _ :: _ =>
    have code := spells.resolve_left (by simp [inLiteral])
    have token := codeCut_of_isCode next code
    exact (token _).trans ((tokenCut_alike (alike.behind rest) _ c).trans ((token _).symm.trans next))

/-- The characters of a piece are no blanks, or spelled one by one, or the first one is a separator. -/
theorem piece_cases {modes : List Mode} {c : Char} {rest behind : List Char} {cut : Cut} (quoted : IsQuoted modes)
    (next : nextCut modes c (rest ++ behind) = some cut) (whole : cut.further = rest.length) :
    (∀ d ∈ c :: rest, isBlank d = false) ∨ (Piece.mk cut.part (c :: rest)).items = (c :: rest).map .char ∨
      c ∈ separators := by
  by_cases inside : inLiteral modes = true
  · rcases part_of_inLiteral inside next with content | ⟨symbol, token, written⟩
    · exact .inr (.inl (by simp [Piece.items, content]))
    · exact .inl (firm_nextCut quoted next whole token written)
  · by_cases code : (Piece.mk cut.part (c :: rest)).isCode = true
    · obtain ⟨symbol, token⟩ := exists_symbol_of_isCode code
      rw [Piece.isCode, token] at code
      exact .inl (firm_nextCut quoted next whole token (by simpa using code))
    · right
      right
      rw [nextCut_of_outside (by simpa using inside)] at next
      rcases codeCut_cases next with ⟨rfl, _⟩ | ⟨space, _⟩ | ⟨rfl, _⟩ | ⟨rfl, _⟩ | other
      · decide
      · simp only [isSpace, Bool.or_eq_true, beq_iff_eq] at space
        rcases space with ((((((rfl | rfl) | rfl) | rfl) | rfl) | rfl) | rfl) | rfl <;> decide
      · decide
      · decide
      · exact absurd (other _) code

section

variable {tail : List Char} {modes final : List Mode} {found : List Piece}
  (cuts : CutsTo tail modes found final) (quoted : IsQuoted modes)

include cuts quoted

/-- A stretch that ends with code does not end with a blank. -/
theorem CutsTo.firm_getLast? (ends : ∀ last ∈ found.getLast?, last.isCode = true) :
    ∀ c ∈ (textOf found).getLast?, isBlank c = false := by
  induction cuts with
  | done => simp
  | @piece modes final c rest cut more next whole behind ih =>
    cases more with
    | nil =>
      have code := ends _ rfl
      obtain ⟨symbol, token⟩ := exists_symbol_of_isCode code
      rw [Piece.isCode, token] at code
      rw [textOf_cons, textOf_nil, List.append_nil]
      intro d last
      exact firm_nextCut quoted next whole token (by simpa using code) d (List.mem_of_getLast? last)
    | cons piece later =>
      have some_char : textOf (piece :: later) ≠ [] := by
        cases behind
        simp
      rw [textOf_cons, List.getLast?_append_of_ne_nil _ some_char]
      exact ih (quoted.nextCut next) (by simpa [List.getLast?_cons] using ends)

/-- In a stretch with tidy literals there is no blank in front of the first separator. -/
theorem CutsTo.firm_word (tidy : AreTidy (spelled found)) {word rest : List Char} (split : textOf found = word ++ rest)
    (plain : ∀ c ∈ word, c ∉ separators) : ∀ c ∈ word, isBlank c = false := by
  induction cuts generalizing word with
  | done =>
    obtain ⟨rfl, _⟩ := List.append_eq_nil_iff.mp split.symm
    simp
  | @piece modes final c text cut more next whole behind ih =>
    rw [spelled_cons] at tidy
    have own : c ∉ separators → ∀ d ∈ c :: text, d ∉ separators → isBlank d = false := by
      intro starts d member other
      rcases piece_cases quoted next whole with firm | chars | separator
      · exact firm d member
      · rw [Bool.eq_false_iff]
        intro blank
        have inside : Item.char d ∈ (Piece.mk cut.part (c :: text)).items ++ spelled more := by
          rw [chars]
          exact List.mem_append_left _ (List.mem_map_of_mem member)
        exact other (tidy.spaces d inside blank ▸ by decide)
      · exact absurd separator starts
    cases word with
    | nil => simp
    | cons d word =>
      have first : c = d := (List.cons.inj split).1
      have starts : c ∉ separators := first ▸ plain d List.mem_cons_self
      rw [textOf_cons] at split
      rcases List.append_eq_append_iff.mp split with ⟨more', longer, same⟩ | ⟨more', shorter, same⟩
      · rw [longer] at plain ⊢
        have inner := ih (quoted.nextCut next) tidy.of_append same fun e member => plain e (List.mem_append_right _ member)
        refine List.forall_mem_append.mpr ⟨fun e member => own starts e member ?_, inner⟩
        exact plain e (List.mem_append_left _ member)
      · intro e member
        have among : e ∈ c :: text := by
          show e ∈ (Piece.mk cut.part (c :: text)).text
          rw [shorter]
          exact List.mem_append_left _ member
        exact own starts e among (plain e member)

/-- A stretch with tidy literals that ends with code agrees with what it is squeezed to. -/
theorem CutsTo.beginAlike_squeeze (ends : ∀ last ∈ found.getLast?, last.isCode = true)
    (tidy : AreTidy (spelled found)) : BeginAlike (textOf found ++ tail) (squeeze (textOf found) ++ tail) := by
  obtain ⟨word, rest, split, plain, parted⟩ := exists_parted (textOf found)
  have firm := cuts.firm_word quoted tidy split plain
  have last := cuts.firm_getLast? quoted ends
  refine ⟨word, rest ++ tail, squeeze rest ++ tail, by rw [split, List.append_assoc], ?_, ?_⟩
  · rw [split, squeeze_append_firm firm, List.append_assoc]
  · cases rest with
    | nil => exact .inl rfl
    | cons s later =>
      have separator := parted s rfl
      right
      refine ⟨.cons separator _, ?_⟩
      rw [split, List.getLast?_append_of_ne_nil _ (by simp)] at last
      obtain ⟨more, same⟩ := List.head?_eq_some_iff.mp (head?_squeeze last)
      rw [same]
      refine .cons ?_ _
      split
      · decide
      · exact separator

/-- A piece that spells something in front of a stretch is cut off alike in front of what that is squeezed to. -/
theorem CutsTo.nextCut_squeeze {outer : List Mode} {c : Char} {rest : List Char} {cut : Cut}
    (ends : ∀ last ∈ found.getLast?, last.isCode = true) (tidy : AreTidy (spelled found)) (enclosed : IsQuoted outer)
    (next : nextCut outer c (rest ++ (textOf found ++ tail)) = some cut) (whole : cut.further = rest.length)
    (spells : inLiteral outer = true ∨ (Piece.mk cut.part (c :: rest)).isCode = true) :
    nextCut outer c (rest ++ (squeeze (textOf found) ++ tail)) = some cut := by
  have alike := cuts.beginAlike_squeeze quoted ends tidy
  have last := cuts.firm_getLast? quoted ends
  cases text : textOf found with
  | nil => rwa [text] at next
  | cons d later =>
    rw [text] at alike last next
    refine nextCut_alike alike ?_ enclosed next whole spells
    obtain ⟨more, same⟩ := List.head?_eq_some_iff.mp (head?_squeeze last)
    rw [same]
    by_cases blank : isBlank d = true
    · exact .inl (by simp [blank])
    · refine .inr ⟨by simp [blank], fun carriage => blank ?_⟩
      rw [Option.some.inj carriage]
      decide

end

/-- In the text of a literal something follows on every piece, and it starts with what is spelled next or with no
blank. -/
theorem CutsTo.head_of_inLiteral {tail : List Char} {modes final : List Mode} {found : List Piece}
    (cuts : CutsTo tail modes found final) (quoted : IsQuoted modes) (inside : inLiteral modes = true) {c : Char}
    {rest : List Char} (text : textOf found = c :: rest) :
    (spelled found).head? = some (.char c) ∨ isBlank c = false := by
  cases cuts with
  | done => cases text
  | @piece _ _ d own cut more next whole behind =>
    rw [textOf_cons] at text
    obtain rfl : d = c := (List.cons.inj text).1
    rcases part_of_inLiteral inside next with content | ⟨symbol, token, written⟩
    · exact .inl (by simp [spelled_cons, Piece.items, content])
    · exact .inr (firm_nextCut quoted next whole token written d List.mem_cons_self)

/-- Content in front of a stretch with tidy literals stays when both are squeezed. -/
theorem squeeze_content {tail : List Char} {modes final : List Mode} {found : List Piece}
    (cuts : CutsTo tail modes found final) (quoted : IsQuoted modes) (inside : inLiteral modes = true)
    (some_piece : found ≠ []) {text : List Char} (tidy : AreTidy (text.map .char ++ spelled found)) :
    squeeze (text ++ textOf found) = text ++ squeeze (textOf found) := by
  obtain ⟨d, rest, same⟩ : ∃ d rest, textOf found = d :: rest := by
    cases cuts with
    | done => exact absurd rfl some_piece
    | piece => exact ⟨_, _, rfl⟩
  have space : ∀ c ∈ text, isBlank c = true → c = ' ' := fun c member =>
    tidy.spaces c (List.mem_append_left _ (List.mem_map_of_mem member))
  rw [same]
  refine squeeze_append_of_apart space (List.isChain_append.mpr ⟨?_, .singleton d, ?_⟩) rest
  · have apart := tidy.apart.left_of_append
    rw [List.isChain_map] at apart
    refine apart.imp_of_mem_imp fun c e member member' spaced => ?_
    by_contra both
    simp only [not_or, Bool.not_eq_false] at both
    exact spaced ⟨congrArg _ (space c member both.1), congrArg _ (space e member' both.2)⟩
  · -- What stands behind the content is spelled next, or no blank.
    intro c last e first
    obtain rfl : d = e := by simpa using first
    rcases cuts.head_of_inLiteral quoted inside same with char | firm
    · by_contra both
      simp only [not_or, Bool.not_eq_false] at both
      have behind : .char d ∈ spelled found := List.mem_of_head? char
      have junction := (List.isChain_append.mp tidy.apart).2.2 (.char c) (by simpa using last) (.char d) char
      exact junction ⟨congrArg _ (space c (List.mem_of_getLast? last) both.1),
        congrArg _ (tidy.spaces d (List.mem_append_right _ behind) both.2)⟩
    · exact .inr firm

/-- A stretch that ends with code spells something. -/
theorem spelled_ne_nil {found : List Piece} (some_piece : found ≠ [])
    (ends : ∀ last ∈ found.getLast?, last.isCode = true) : spelled found ≠ [] := by
  obtain ⟨front, last, rfl⟩ := (List.eq_nil_or_concat found).resolve_left some_piece
  rw [List.concat_eq_append] at ends ⊢
  have code := ends last (by simp)
  obtain ⟨symbol, token⟩ := exists_symbol_of_isCode code
  rw [Piece.isCode, token] at code
  have written : symbol.isTrivia = false := by simpa using code
  simp [spelled, Piece.items, token, written]

/-- A comment on one line with what stands behind it takes that along. -/
theorem not_readsAs_comment {tail : List Char} {modes final : List Mode} {items : List Item} {text : List Char}
    (outside : inLiteral modes = false) (single : '\n' ∉ text) (some_item : items ≠ []) :
    ¬ReadsAs tail modes final items ('#' :: text) := by
  rintro ⟨others, same, cuts, rfl⟩
  cases cuts with
  | done => cases same
  | @piece _ _ c rest cut more next whole behind =>
    rw [textOf_cons, List.cons_append] at same
    obtain ⟨rfl, later⟩ := List.cons.inj same
    rw [nextCut_of_outside outside] at next
    have comment : cut = ⟨.token .comment, ((rest ++ (textOf more ++ tail)).takeWhile (· != '\n')).length, modes⟩ :=
      (Option.some.inj next).symm
    rw [← List.append_assoc, later] at comment
    have run : text.takeWhile (· != '\n') = text :=
      List.takeWhile_eq_self_iff.mpr fun d member => by simpa using fun feed : d = '\n' => single (feed ▸ member)
    rw [List.takeWhile_append, run, if_pos rfl] at comment
    have nothing : more = [] := by
      have beyond := congrArg List.length later
      rw [comment] at whole
      simp only [List.length_append] at beyond whole
      have none : textOf more = [] := List.eq_nil_of_length_eq_zero (by omega)
      cases behind with
      | done => rfl
      | piece => cases none
    rw [nothing, comment] at some_item
    exact some_item rfl

/-- A backslash in front of a space is read as nothing. -/
theorem not_readsAs_join {tail : List Char} {modes final : List Mode} {items : List Item} {text : List Char}
    (outside : inLiteral modes = false) (loose : text.head?.all (· == ' ') = true) :
    ¬ReadsAs tail modes final items ('\\' :: text) := by
  rintro ⟨others, same, cuts, rfl⟩
  cases cuts with
  | done => cases same
  | @piece _ _ c rest cut more next whole behind =>
    rw [textOf_cons, List.cons_append] at same
    obtain ⟨rfl, later⟩ := List.cons.inj same
    rw [nextCut_of_outside outside] at next
    obtain ⟨length, joins, rfl⟩ := Option.map_eq_some_iff.mp next
    rw [← List.append_assoc, later] at joins
    cases text with
    | nil =>
      -- Without text behind it nothing is left for the line break.
      obtain ⟨rfl, _⟩ := List.append_eq_nil_iff.mp later
      unfold joinLength at joins
      split at joins <;> cases joins <;> cases whole
    | cons d text =>
      obtain rfl : d = ' ' := by simpa using loose
      cases joins

/-- A character between tokens makes no difference when it is squeezed together with what stands behind it. -/
theorem readsAs_gap_iff {tail : List Char} {modes final : List Mode} {items : List Item} {part : Part} {c : Char}
    (gap : ∀ rest, nextCut modes c rest = some ⟨part, 0, modes⟩)
    (space : ∀ rest, nextCut modes ' ' rest = some ⟨.blank, 0, modes⟩) (silent : (Piece.mk part [c]).items = [])
    (text : List Char) :
    ReadsAs tail modes final items (squeeze (c :: text)) ↔ ReadsAs tail modes final items (squeeze text) := by
  by_cases blank : isBlank c = true
  · by_cases again : text.head?.all isBlank = true
    · rw [squeeze_blank blank again]
    · cases text with
      | nil => exact absurd rfl again
      | cons d text =>
        rw [squeeze_space blank (by simpa using again)]
        exact @readsAs_piece_iff tail modes final items ' ' [] _ _ (space _) rfl
  · have same := @readsAs_piece_iff tail modes final items c [] (squeeze text) _ (gap _) rfl
    rw [squeeze_cons (by simpa using blank)]
    rwa [silent] at same

/-- A piece of code is a character between tokens, a comment, a join, or a token. -/
theorem codeCut_apart {modes : List Mode} {c : Char} {rest : List Char} {cut : Cut}
    (next : codeCut modes c rest = some cut) :
    (∃ part, cut = ⟨part, 0, modes⟩ ∧ (∀ text, (Piece.mk part text).items = []) ∧
        (∀ text, (Piece.mk part text).isTrivia = false) ∧ ∀ other, codeCut modes c other = some cut) ∨
      (c = '#' ∧ cut.part = .token .comment) ∨
      (c = '\\' ∧ ∃ length, joinLength rest = some length ∧ cut = ⟨.token .lineJoin, length, modes⟩) ∨
      ∀ text, (Piece.mk cut.part text).isCode = true := by
  rcases codeCut_cases next with ⟨rfl, rfl⟩ | ⟨space, rfl⟩ | ⟨rfl, rfl⟩ | ⟨rfl, _, _⟩ | code
  · refine .inl ⟨_, rfl, fun text => ?_, fun text => ?_, fun other => rfl⟩
    · split <;> rfl
    · split <;> rfl
  · refine .inl ⟨_, rfl, fun text => rfl, fun text => rfl, fun other => ?_⟩
    have feed : (c == '\n') = false := by
      simp only [isSpace, Bool.or_eq_true, beq_iff_eq] at space
      rcases space with ((((((rfl | rfl) | rfl) | rfl) | rfl) | rfl) | rfl) | rfl <;> rfl
    simp [codeCut, feed, space]
  · exact .inr (.inl ⟨rfl, rfl⟩)
  · obtain ⟨length, joins, rfl⟩ := Option.map_eq_some_iff.mp next
    exact .inr (.inr (.inl ⟨rfl, length, joins, rfl⟩))
  · exact .inr (.inr (.inr code))

/-- A line break is a line feed, or a carriage return and a line feed. -/
theorem eq_of_joinLength {rest behind : List Char} {length : Nat} (joins : joinLength (rest ++ behind) = some length)
    (whole : length = rest.length) : rest = ['\n'] ∨ rest = ['\r', '\n'] := by
  unfold joinLength at joins
  split at joins
  · rename_i more same
    cases joins
    obtain ⟨c, rfl⟩ := List.length_eq_one_iff.mp whole.symm
    exact .inl (by rw [(List.cons.inj same).1])
  · rename_i more same
    cases joins
    obtain ⟨c, d, rfl⟩ := List.length_eq_two.mp whole.symm
    exact .inr (by rw [(List.cons.inj same).1, (List.cons.inj (List.cons.inj same).2).1])
  · cases joins

/-- A stretch with tidy literals that ends with code reads the same when its blanks are squeezed, exactly when it
holds neither comments nor joins. -/
theorem readsAs_squeeze_iff {tail : List Char} {modes final : List Mode} {found : List Piece}
    (cuts : CutsTo tail modes found final) (quoted : IsQuoted modes)
    (ends : ∀ last ∈ found.getLast?, last.isCode = true) (tidy : AreTidy (spelled found)) :
    ReadsAs tail modes final (spelled found) (squeeze (textOf found)) ↔ ∀ piece ∈ found, piece.isTrivia = false := by
  induction cuts with
  | done => exact iff_of_true readsAs_nil (by simp)
  | @piece modes final c rest cut more next whole behind ih =>
    have enclosed := quoted.nextCut next
    have later : ∀ last ∈ more.getLast?, last.isCode = true := by
      intro last final
      refine ends last ?_
      rw [List.getLast?_cons, final]
      rfl
    rw [spelled_cons] at tidy
    have inner := ih enclosed later tidy.of_append
    rw [List.forall_mem_cons, textOf_cons, spelled_cons]
    -- Comments and joins are no code, so they do not stand at the end.
    have follows : (Piece.mk cut.part (c :: rest)).isCode = false → more ≠ [] := by
      rintro other rfl
      exact Bool.false_ne_true (other.symm.trans (ends _ rfl))
    by_cases inside : inLiteral modes = true
    · have same := behind.nextCut_squeeze enclosed later tidy.of_append quoted next whole (.inl inside)
      rcases part_of_inLiteral inside next with content | ⟨symbol, token, written⟩
      · have other : ∀ text, (Piece.mk cut.part text).isCode = false := fun text => by simp [Piece.isCode, content]
        have open_literal : inLiteral cut.modes = true := by rw [nextCut_modes next (other [])]; exact inside
        have items : (Piece.mk cut.part (c :: rest)).items = (c :: rest).map .char := by simp [Piece.items, content]
        have stays := squeeze_content behind enclosed open_literal (follows (other _)) (items ▸ tidy)
        rw [stays, readsAs_piece_iff same whole, inner]
        simp [Piece.isTrivia, content]
      · have firm := firm_nextCut quoted next whole token written
        rw [squeeze_append_firm firm, readsAs_piece_iff same whole, inner]
        simp [Piece.isTrivia, token, written]
    · have outside : inLiteral modes = false := by simpa using inside
      have each := nextCut_of_outside outside
      rcases codeCut_apart ((each _ _).symm.trans next) with ⟨part, rfl, silent, passed, gap⟩ | ⟨rfl, comment⟩ |
        ⟨rfl, length, joins, rfl⟩ | code
      · obtain rfl := List.eq_nil_of_length_eq_zero whole.symm
        rw [silent, passed, and_iff_right rfl]
        exact (readsAs_gap_iff (fun text => (each c text).trans (gap text)) (each ' ') (silent _) _).trans inner
      · have other : (Piece.mk cut.part ('#' :: rest)).isCode = false := by simp [Piece.isCode, comment, Symbol.isTrivia]
        have silent : (Piece.mk cut.part ('#' :: rest)).items = [] := by simp [Piece.items, comment, Symbol.isTrivia]
        have trivia : (Piece.mk cut.part ('#' :: rest)).isTrivia = true := by simp [Piece.isTrivia, comment, Symbol.isTrivia]
        rw [List.cons_append, squeeze_cons (by decide), silent, trivia]
        refine iff_of_false (not_readsAs_comment outside (fun feed => ?_) (spelled_ne_nil (follows other) later)) (by simp)
        exact absurd (eq_space_of_mem_squeeze feed (by decide)) (by decide)
      · rw [List.cons_append, squeeze_cons (by decide)]
        refine iff_of_false (not_readsAs_join outside ?_) (by simp [Piece.isTrivia, Symbol.isTrivia])
        obtain ⟨d, rest, rfl, blank⟩ : ∃ d later, rest = d :: later ∧ isBlank d = true := by
          rcases eq_of_joinLength joins whole with rfl | rfl <;> exact ⟨_, _, rfl, by decide⟩
        have last := behind.firm_getLast? enclosed later
        have some_char : textOf more ≠ [] := by
          cases behind with
          | done => exact absurd rfl (follows rfl)
          | piece => simp
        have starts := @head?_squeeze d (rest ++ textOf more) (by
          rwa [← List.cons_append, List.getLast?_append_of_ne_nil _ some_char])
        rw [List.cons_append, starts, if_pos blank]
        rfl
      · have same := behind.nextCut_squeeze enclosed later tidy.of_append quoted next whole (.inr (code _))
        obtain ⟨symbol, token⟩ : ∃ symbol, cut.part = .token symbol := exists_symbol_of_isCode (code [])
        have written := code []
        rw [Piece.isCode, token] at written
        have firm := firm_nextCut quoted next whole token (by simpa using written)
        have plain : (Piece.mk cut.part (c :: rest)).isTrivia = false := by simpa [Piece.isTrivia, token] using written
        rw [squeeze_append_firm firm, readsAs_piece_iff same whole, inner, plain, and_iff_right rfl]

/-- A character that is spelled stands in the text. -/
theorem mem_textOf_of_char {found : List Piece} {c : Char} (member : .char c ∈ spelled found) : c ∈ textOf found := by
  obtain ⟨piece, among, inside⟩ := List.mem_flatMap.mp member
  refine List.mem_flatMap.mpr ⟨piece, among, ?_⟩
  unfold Piece.items at inside
  split at inside
  · split at inside <;> simp at inside
  · obtain ⟨d, within, same⟩ := List.mem_map.mp inside
    cases same
    exact within
  · cases inside

/-- Only literals have content. -/
theorem inLiteral_of_content {modes : List Mode} {c : Char} {rest : List Char} {cut : Cut}
    (next : nextCut modes c rest = some cut) (content : cut.part = .content) : inLiteral modes = true := by
  by_contra outside
  rw [nextCut_of_outside (by simpa using outside)] at next
  rcases codeCut_apart next with ⟨part, rfl, silent, _, _⟩ | ⟨_, comment⟩ | ⟨_, _, _, rfl⟩ | code
  · obtain rfl : part = .content := content
    cases silent [c]
  · cases content.symm.trans comment
  · cases content
  · have impossible := code []
    rw [Piece.isCode, content] at impossible
    cases impossible

/-- What a text without other blanks than single spaces is cut into spells tidy items. -/
theorem CutsTo.areTidy {tail : List Char} {modes final : List Mode} {found : List Piece}
    (cuts : CutsTo tail modes found final) (spaces : ∀ c ∈ textOf found, isBlank c = true → c = ' ')
    (apart : (textOf found).IsChain fun c d => isBlank c = false ∨ isBlank d = false) : AreTidy (spelled found) := by
  refine ⟨fun c member => spaces c (mem_textOf_of_char member), ?_⟩
  clear spaces
  have spaced : ∀ {c d : Char}, isBlank c = false ∨ isBlank d = false →
      ¬((Item.char c = .char ' ') ∧ Item.char d = .char ' ') := by
    rintro c d (firm | firm) ⟨same, same'⟩
    · cases same
      exact absurd firm (by decide)
    · cases same'
      exact absurd firm (by decide)
  induction cuts with
  | done => exact .nil
  | @piece modes final c rest cut more next whole behind ih =>
    rw [textOf_cons] at apart
    obtain ⟨own, later, junction⟩ := List.isChain_append.mp apart
    rw [spelled_cons]
    refine List.isChain_append.mpr ⟨?_, ih later, fun item last item' head => ?_⟩
    · unfold Piece.items
      split
      · split
        · exact .nil
        · exact .singleton _
      · exact (List.isChain_map _).mpr (own.imp fun _ _ => spaced)
      · exact .nil
    · rintro ⟨rfl, rfl⟩
      cases part : cut.part with
      | content =>
        rw [Piece.items, part] at last
        have space : ' ' ∈ (c :: rest).getLast? := by
          rw [List.getLast?_map] at last
          obtain ⟨d, same, char⟩ := Option.map_eq_some_iff.mp last
          cases char
          exact same
        -- The literal is still open, so the next item starts the text behind.
        have inside : inLiteral cut.modes = true := by
          have plain : (Piece.mk cut.part []).isCode = false := by simp [Piece.isCode, part]
          rw [nextCut_modes next plain]
          exact inLiteral_of_content next part
        have follows : ' ' ∈ (textOf more).head? := by
          cases behind with
          | done => cases head
          | @piece _ _ d further cut' others next' whole' behind' =>
            rcases part_of_inLiteral inside next' with content | ⟨symbol, token, written⟩
            · simp only [spelled_cons, Piece.items, content, List.map_cons, List.cons_append, List.head?_cons,
                Option.mem_some_iff, Item.char.injEq] at head
              simp [head]
            · simp [spelled_cons, Piece.items, token, written] at head
        exact absurd (junction ' ' space ' ' follows) (by decide)
      | token symbol =>
        cases written : symbol.isTrivia <;> simp [Piece.items, part, written] at last
      | _ => simp [Piece.items, part] at last

/-- A stretch that reads the same on one line: it holds neither comments nor joins, and in its literals each blank is
a single space. -/
structure FitsLine (found : List Piece) : Prop where
  /-- There are no comments and no joins. -/
  plain : ∀ piece ∈ found, piece.isTrivia = false
  /-- The literals are tidy. -/
  tidy : AreTidy (spelled found)

/-- A stretch starts and ends with code. -/
structure StartsAndEnds (found : List Piece) : Prop where
  /-- The first piece is code. -/
  first : ∃ first, found.head? = some first ∧ first.isCode = true
  /-- The last piece is code. -/
  last : ∃ last, found.getLast? = some last ∧ last.isCode = true

/-- A stretch starts and ends with code, or is nothing but a join. -/
def StandsApart (found : List Piece) : Prop :=
  StartsAndEnds found ∨ ∃ join : Piece, found = [join] ∧ join.part = .token .lineJoin

/-- A stretch on one line reads as before, with the same text behind it, exactly when it fits on one line. -/
theorem readsAs_collapse_iff {tail : List Char} {modes final : List Mode} {found : List Piece}
    (cuts : CutsTo tail modes found final) (quoted : IsQuoted modes) (apart : StandsApart found) :
    ReadsAs tail modes final (spelled found) (collapse (textOf found)) ↔ FitsLine found := by
  rcases apart with ⟨⟨first, starts, code⟩, last, stops, code'⟩ | ⟨join, rfl, part⟩
  · have ends : ∀ last ∈ found.getLast?, last.isCode = true := by
      intro other same
      cases stops.symm.trans same
      exact code'
    have firm : ∀ c ∈ (textOf found).head?, isBlank c = false := by
      cases cuts with
      | done => simp
      | @piece _ _ c rest cut more next whole behind =>
        obtain rfl := Option.some.inj starts
        obtain ⟨symbol, token⟩ := exists_symbol_of_isCode code
        rw [Piece.isCode, token] at code
        intro d head
        cases head
        exact firm_nextCut quoted next whole token (by simpa using code) _ List.mem_cons_self
    rw [collapse_eq_squeeze firm]
    constructor
    · intro reads
      have tidy : AreTidy (spelled found) := by
        obtain ⟨others, same, again, read⟩ := reads
        rw [← read]
        refine again.areTidy ?_ ?_
        · rw [same]
          exact fun c => eq_space_of_mem_squeeze
        · rw [same]
          exact isChain_squeeze _
      exact ⟨(readsAs_squeeze_iff cuts quoted ends tidy).mp reads, tidy⟩
    · exact fun fits => (readsAs_squeeze_iff cuts quoted ends fits.tidy).mpr fits.plain
  · refine iff_of_false ?_ fun fits => ?_
    · cases cuts with
      | @piece _ _ c rest cut more next whole behind =>
        have join : cut.part = .token .lineJoin := part
        have outside : inLiteral modes = false := by
          rw [Bool.eq_false_iff]
          intro inside
          rcases part_of_inLiteral inside next with content | ⟨symbol, token, written⟩
          · cases join.symm.trans content
          · cases join.symm.trans token
            cases written
        rw [nextCut_of_outside outside] at next
        rcases codeCut_apart next with ⟨kind, rfl, _, passed, _⟩ | ⟨_, comment⟩ | ⟨rfl, length, joins, rfl⟩ | code
        · obtain rfl : kind = .token .lineJoin := join
          cases passed []
        · cases join.symm.trans comment
        · have text : ∀ rest, rest = ['\n'] ∨ rest = ['\r', '\n'] → collapse ('\\' :: rest) = ['\\'] := by
            rintro rest (rfl | rfl) <;> decide
          rw [textOf_cons, textOf_nil, List.append_nil, text rest (eq_of_joinLength joins whole)]
          exact not_readsAs_join outside rfl
        · have impossible := code []
          rw [Piece.isCode, join] at impossible
          cases impossible
    · have impossible := fits.plain join List.mem_cons_self
      rw [Piece.isTrivia, part] at impossible
      cases impossible

end SourceOutline.Python
