import SourceOutline.Proofs.Text.Shift
import SourceOutline.Python.Lexer

/-! The pieces of a source one after the other, and what they spell. -/

namespace SourceOutline.Python

open Text

/-- A text is cut into pieces, given what encloses its start. -/
inductive Cuts : List Mode → List Char → List Piece → Prop where
  /-- At the end nothing is open. -/
  | done : Cuts [] [] []
  /-- A piece is cut off, and then the rest. -/
  | piece {modes : List Mode} {c : Char} {rest : List Char} {cut : Cut} {more : List Piece}
    (next : nextCut modes c rest = some cut)
    (behind : Cuts cut.modes (rest.drop cut.further) more) :
    Cuts modes (c :: rest) (⟨cut.part, c :: rest.take cut.further⟩ :: more)

/-- Characters cut off already are passed. -/
theorem cutBehind_eq (modes : List Mode) (passed : Nat) (cs : List Char) :
    cutBehind modes passed cs = cutBehind modes 0 (cs.drop passed) := by
  induction cs generalizing passed with
  | nil => cases passed <;> simp [cutBehind]
  | cons c rest ih =>
    cases passed with
    | zero => rfl
    | succ n => rw [cutBehind, ih, List.drop_succ_cons]

/-- The pieces of a text are those that it is cut into. -/
theorem cutBehind_eq_some_iff (modes : List Mode) (cs : List Char) (found : List Piece) :
    cutBehind modes 0 cs = some found ↔ Cuts modes cs found := by
  match cs with
  | [] =>
    rw [cutBehind]
    cases modes with
    | nil =>
      constructor
      · intro same
        cases same
        exact .done
      · intro cuts
        cases cuts
        rfl
    | cons mode outer => exact iff_of_false (by simp) (fun cuts => by cases cuts)
  | c :: rest =>
    rw [cutBehind]
    constructor
    · intro same
      split at same
      · cases same
      · rename_i cut next
        obtain ⟨more, behind, rfl⟩ := Option.map_eq_some_iff.mp same
        rw [cutBehind_eq] at behind
        exact .piece next ((cutBehind_eq_some_iff _ _ more).mp behind)
    · intro cuts
      cases cuts with
      | @piece _ _ _ cut more next behind =>
        have inner := (cutBehind_eq_some_iff _ _ more).mpr behind
        rw [next]
        simp only [cutBehind_eq cut.modes cut.further rest, inner, Option.map_some]
termination_by cs.length
decreasing_by
  all_goals
    simp only [List.length_drop, List.length_cons]
    omega

/-- What a source spells: tokens, and the characters of string literals. -/
inductive Item where
  /-- A token and its text. -/
  | token (symbol : Symbol) (text : List Char)
  /-- A character inside a string literal. -/
  | char (c : Char)
  deriving DecidableEq

/-- The character of an item that is one. -/
def Item.char? : Item → Option Char
  | token .. => none
  | char c => some c

/-- The item is a token. -/
def Item.isToken (item : Item) : Bool := item.char?.isNone

/-- What a piece spells. -/
def Piece.items (piece : Piece) : List Item :=
  -- Comments, joins and blanks spell nothing.
  match piece.part with
  | .token symbol => if symbol.isTrivia then [] else [.token symbol piece.text]
  | .content => piece.text.map .char
  | _ => []

/-- What some pieces spell. -/
def spelled (found : List Piece) : List Item := found.flatMap Piece.items

/-- The pieces spell one after the other. -/
@[simp] theorem spelled_cons (piece : Piece) (found : List Piece) :
    spelled (piece :: found) = piece.items ++ spelled found := List.flatMap_cons

/-- The place that has been reached lies in the text of a string literal. -/
def inLiteral : List Mode → Bool
  | .text _ :: _ | .format _ :: _ => true
  | _ => false

/-- String literals that are open are enclosed by quotes. -/
def IsQuoted (modes : List Mode) : Prop := ∀ style, .text style ∈ modes → isQuote style.quote = true

/-- The quotes of a literal that starts are quotes. -/
theorem isQuote_of_stringStart {cs : List Char} {style : StringStyle} {length : Nat}
    (found : stringStart cs = some (style, length)) : isQuote style.quote = true := by
  simp only [stringStart] at found
  split at found
  · cases found
  · split at found
    · rename_i quoted
      cases found
      exact quoted
    · cases found

/-- No literal is opened by a mark of a replacement field. -/
theorem fieldCut_modes {modes : List Mode} {c : Char} {rest : List Char} {cut : Cut}
    (next : fieldCut modes c rest = some cut) :
    ∀ style, .text style ∈ cut.modes → .text style ∈ modes := by
  intro style member
  unfold fieldCut at next
  split at next
  · split at next
    · cases next
      simpa using member
    · split at next
      · cases next
        exact member
      · cases next
  · cases next

/-- No literal is opened by a closing bracket. -/
theorem closeCut_modes {modes : List Mode} {c : Char} {cut : Cut}
    (next : closeCut modes c = some cut) : ∀ style, .text style ∈ cut.modes → .text style ∈ modes := by
  intro style member
  unfold closeCut at next
  split at next
  · split at next <;> cases next
    exact List.mem_cons_of_mem _ member
  · split at next <;> cases next
    exact List.mem_cons_of_mem _ member
  · cases next

/-- No literal is opened by an operator or a bracket. -/
theorem operatorCut_modes {modes : List Mode} {c : Char} {rest : List Char} {cut : Cut}
    (next : operatorCut modes c rest = some cut) :
    ∀ style, .text style ∈ cut.modes → .text style ∈ modes := by
  unfold operatorCut at next
  split at next
  · rename_i marked
    cases next
    exact fieldCut_modes marked
  · split at next
    · cases next
      intro style member
      simpa using member
    · split at next
      · exact closeCut_modes next
      · obtain ⟨_, _, rfl⟩ := Option.map_eq_some_iff.mp next
        exact fun _ member => member

/-- A literal that a token opens is enclosed by quotes. -/
theorem IsQuoted.tokenCut {modes : List Mode} {c : Char} {rest : List Char} {cut : Cut}
    (quoted : IsQuoted modes) (next : tokenCut modes c rest = some cut) : IsQuoted cut.modes := by
  unfold Python.tokenCut at next
  split at next
  · rename_i opened length start
    cases next
    intro style member
    rcases List.mem_cons.mp member with same | outer
    · cases same
      exact isQuote_of_stringStart start
    · exact quoted style outer
  · split at next
    · cases next
      exact quoted
    · simp only at next
      split at next
      · exact fun style member => quoted style (operatorCut_modes next style member)
      · cases next
        exact quoted

/-- Open literals stay enclosed by quotes behind every piece of code. -/
theorem IsQuoted.codeCut {modes : List Mode} {c : Char} {rest : List Char} {cut : Cut}
    (quoted : IsQuoted modes) (next : codeCut modes c rest = some cut) : IsQuoted cut.modes := by
  unfold Python.codeCut at next
  split at next
  · cases next
    exact quoted
  · split at next
    · cases next
      exact quoted
    · split at next
      · cases next
        exact quoted
      · split at next
        · obtain ⟨_, _, rfl⟩ := Option.map_eq_some_iff.mp next
          exact quoted
        · exact quoted.tokenCut next

/-- Most characters are taken along by a backslash only when they are quotes, backslashes or line
feeds. -/
theorem escapeLength_cons (style : StringStyle) {c : Char} {rest : List Char}
    (unbroken : ¬(c = '\r' ∧ rest.head? = some '\n'))
    (unnamed : ¬(c = 'N' ∧ rest.head? = some '\x7b')) :
    escapeLength style (c :: rest) =
      if c = '\'' ∨ c = '"' ∨ c = '\\' ∨ c = '\n' then 1 else 0 := by
  unfold escapeLength
  split
  · rename_i same
    cases same
    exact absurd ⟨rfl, rfl⟩ unbroken
  · rename_i same
    cases same
    exact absurd ⟨rfl, rfl⟩ unnamed
  · rename_i same
    cases same
    simp [or_assoc]
  · rename_i same
    cases same

/-- A piece of a literal is content, or a token that opens no further literal; behind its first
character it repeats that character, unless it is escaped. -/
theorem textCut_cases {style : StringStyle} {modes : List Mode} {c : Char} {rest : List Char}
    {cut : Cut} (next : textCut style modes c rest = some cut) :
    (c = '\\' ∧ cut = ⟨.content, escapeLength style rest, modes⟩) ∨
      (∃ tail, rest = List.replicate cut.further c ++ tail) ∧
        (cut.part = .content ∧ cut.modes = modes ∨
          ∃ symbol, cut.part = .token symbol ∧ symbol.isTrivia = false ∧
            ∀ style, .text style ∈ cut.modes → .text style ∈ modes) := by
  -- A doubled brace is the brace and one more.
  have doubled : (rest.head? == some c) = true → ∃ tail, rest = List.replicate 1 c ++ tail :=
    fun first => List.head?_eq_some_iff.mp (beq_iff_eq.mp first)
  unfold textCut at next
  split at next
  · rename_i escape
    cases next
    exact .inl ⟨by simpa using escape, rfl⟩
  right
  split at next
  · split at next
    · cases next
      exact ⟨⟨rest, rfl⟩, .inr ⟨_, rfl, rfl, fun _ member => List.mem_of_mem_drop member⟩⟩
    · split at next
      · rename_i closing
        cases next
        refine ⟨⟨rest.drop 2, ?_⟩, .inr ⟨_, rfl, rfl, fun _ member => List.mem_of_mem_drop member⟩⟩
        have quotes : rest.take 2 = List.replicate 2 c := by simpa using closing
        rw [← quotes, List.take_append_drop]
      · cases next
        exact ⟨⟨rest, rfl⟩, .inl ⟨rfl, rfl⟩⟩
  · split at next
    · split at next
      · rename_i again
        cases next
        exact ⟨doubled again, .inl ⟨rfl, rfl⟩⟩
      · cases next
        refine ⟨⟨rest, rfl⟩, .inr ⟨_, rfl, rfl, fun _ member => ?_⟩⟩
        simpa using member
    · split at next
      · split at next
        · rename_i again
          cases next
          exact ⟨doubled again, .inl ⟨rfl, rfl⟩⟩
        · cases next
      · split at next
        · cases next
        · cases next
          exact ⟨⟨rest, rfl⟩, .inl ⟨rfl, rfl⟩⟩

/-- Open literals stay enclosed by quotes behind every piece of a literal. -/
theorem IsQuoted.textCut {style : StringStyle} {modes : List Mode} {c : Char} {rest : List Char}
    {cut : Cut} (quoted : IsQuoted modes) (next : textCut style modes c rest = some cut) :
    IsQuoted cut.modes := by
  rcases textCut_cases next with ⟨_, rfl⟩ | ⟨_, ⟨_, same⟩ | ⟨_, _, _, inside⟩⟩
  · exact quoted
  · rw [same]
    exact quoted
  · exact fun style member => quoted style (inside style member)

/-- A piece of a format is a single character. -/
theorem formatCut_further {triple : Bool} {modes : List Mode} {c : Char} {cut : Cut}
    (next : formatCut triple modes c = some cut) : cut.further = 0 := by
  unfold formatCut at next
  split at next
  · cases next
    rfl
  · split at next
    · cases next
      rfl
    · split at next
      · cases next
      · cases next
        rfl

/-- Open literals stay enclosed by quotes behind every piece of a format. -/
theorem IsQuoted.formatCut {triple : Bool} {modes : List Mode} {c : Char} {cut : Cut}
    (quoted : IsQuoted modes) (next : formatCut triple modes c = some cut) : IsQuoted cut.modes := by
  unfold Python.formatCut at next
  split at next
  · cases next
    intro style member
    exact quoted style (by simpa using member)
  · split at next
    · cases next
      exact fun style member => quoted style (List.mem_of_mem_drop member)
    · split at next
      · cases next
      · cases next
        exact quoted

/-- Open literals stay enclosed by quotes behind every piece. -/
theorem IsQuoted.nextCut {modes : List Mode} {c : Char} {rest : List Char} {cut : Cut}
    (quoted : IsQuoted modes) (next : nextCut modes c rest = some cut) : IsQuoted cut.modes := by
  unfold Python.nextCut at next
  split at next
  · exact quoted.textCut next
  · exact quoted.formatCut next
  · exact quoted.codeCut next

/-- A piece of a literal is content or a token that counts. -/
theorem part_of_inLiteral {modes : List Mode} {c : Char} {rest : List Char} {cut : Cut}
    (inside : inLiteral modes = true) (next : nextCut modes c rest = some cut) :
    cut.part = .content ∨ ∃ symbol, cut.part = .token symbol ∧ symbol.isTrivia = false := by
  match modes with
  | .text style :: outer =>
    rcases textCut_cases next with ⟨_, rfl⟩ | ⟨_, ⟨content, _⟩ | ⟨symbol, token, solid, _⟩⟩
    · exact .inl rfl
    · exact .inl content
    · exact .inr ⟨symbol, token, solid⟩
  | .format triple :: outer =>
    simp only [nextCut, formatCut] at next
    split at next
    · cases next
      exact .inr ⟨_, rfl, rfl⟩
    · split at next
      · cases next
        exact .inr ⟨_, rfl, rfl⟩
      · split at next
        · cases next
        · cases next
          exact .inl rfl
  | [] | .bracket _ :: _ | .field _ :: _ => cases inside

/-- The first character that the rest of a literal spells is the first one of the text. -/
theorem Cuts.head?_spelled {modes : List Mode} {cs : List Char} {found : List Piece} {d : Char}
    (cuts : Cuts modes cs found) (inside : inLiteral modes = true)
    (first : (spelled found).head? = some (.char d)) : cs.head? = some d := by
  cases cuts with
  | done => cases inside
  | @piece _ c rest cut more next behind =>
    rcases part_of_inLiteral inside next with content | ⟨symbol, token, solid⟩
    · simp [spelled, Piece.items, content] at first
      rw [List.head?_cons, first]
    · simp [spelled, Piece.items, token, solid] at first

/-- Outside string literals a loose character is a piece that spells nothing. -/
theorem codeCut_of_loose {c : Char} (loose : IsLoose c) (modes : List Mode) :
    ∃ part, (⟨part, [c]⟩ : Piece).items = [] ∧
      ∀ rest, codeCut modes c rest = some ⟨part, 0, modes⟩ := by
  rcases loose with rfl | rfl | rfl | rfl
  · refine ⟨if modes.isEmpty then .lineFeed else .silent, ?_, fun rest => rfl⟩
    split <;> rfl
  · exact ⟨.blank, rfl, fun rest => rfl⟩
  · exact ⟨.blank, rfl, fun rest => rfl⟩
  · exact ⟨.blank, rfl, fun rest => rfl⟩

/-- In the text of a string literal most characters stand for themselves, except a line feed where the
literal may not run over lines. -/
theorem textCut_of_plain {style : StringStyle} {c : Char} (unescaped : c ≠ '\\')
    (unquoted : c ≠ style.quote) (unopened : c ≠ '\x7b') (unclosed : c ≠ '\x7d') (modes : List Mode)
    (rest : List Char) :
    textCut style modes c rest =
      if c == '\n' && !style.triple then none else some ⟨.content, 0, modes⟩ := by
  simp [textCut, unescaped, unquoted, unopened, unclosed]

/-- A loose character has no meaning of its own in the text of a string literal. -/
theorem plain_of_loose {style : StringStyle} {c : Char} (loose : IsLoose c)
    (quoted : isQuote style.quote = true) :
    c ≠ '\\' ∧ c ≠ style.quote ∧ c ≠ '\x7b' ∧ c ≠ '\x7d' := by
  have other : c ≠ style.quote := by
    rintro rfl
    rcases loose with same | same | same | same <;> rw [same] at quoted <;> cases quoted
  rcases loose with rfl | rfl | rfl | rfl <;> exact ⟨by decide, other, by decide, by decide⟩

/-- The piece of a loose character: itself, whatever follows. -/
theorem nextCut_of_loose {modes : List Mode} {c : Char} {rest : List Char} {cut : Cut}
    (quoted : IsQuoted modes) (loose : IsLoose c) (next : nextCut modes c rest = some cut) :
    (∃ part, cut = ⟨part, 0, modes⟩ ∧
      (⟨part, [c]⟩ : Piece).items = if inLiteral modes then [.char c] else []) ∧
      ∀ other, nextCut modes c other = some cut := by
  obtain ⟨part, silent, code⟩ := codeCut_of_loose loose modes
  match modes with
  | .text style :: outer =>
    have plain := plain_of_loose loose (quoted style List.mem_cons_self)
    have cuts := textCut_of_plain plain.1 plain.2.1 plain.2.2.1 plain.2.2.2 (.text style :: outer)
    have same : ∀ other, nextCut (.text style :: outer) c other = some cut := fun other =>
      ((cuts other).trans (cuts rest).symm).trans next
    refine ⟨?_, same⟩
    have here := (cuts rest).symm.trans next
    split at here
    · cases here
    · cases here
      exact ⟨.content, rfl, rfl⟩
  | .format triple :: outer =>
    refine ⟨?_, fun _ => next⟩
    have plain : c ≠ '\x7b' ∧ c ≠ '\x7d' := by
      rcases loose with rfl | rfl | rfl | rfl <;> decide
    simp only [nextCut, formatCut, beq_iff_eq, plain, if_false] at next
    split at next
    · cases next
    · cases next
      exact ⟨.content, rfl, rfl⟩
  | [] | .bracket _ :: _ | .field _ :: _ =>
    have here := (code rest).symm.trans next
    cases here
    exact ⟨⟨part, rfl, silent⟩, code⟩

/-- A loose character is cut off from any text alike. -/
theorem Cuts.of_loose {modes : List Mode} {c : Char} {rest : List Char} {found : List Piece}
    (quoted : IsQuoted modes) (loose : IsLoose c) (cuts : Cuts modes (c :: rest) found) :
    ∃ part more, found = ⟨part, [c]⟩ :: more ∧ Cuts modes rest more ∧
      (⟨part, [c]⟩ : Piece).items = (if inLiteral modes then [.char c] else []) ∧
      ∀ other others, Cuts modes other others → Cuts modes (c :: other) (⟨part, [c]⟩ :: others) := by
  cases cuts with
  | @piece _ _ _ cut more next behind =>
    obtain ⟨⟨part, rfl, items⟩, same⟩ := nextCut_of_loose quoted loose next
    exact ⟨part, more, rfl, behind, items, fun other others inner => .piece (same other) inner⟩

/-- A piece without loose characters spells no such characters. -/
theorem Piece.items_firm {piece : Piece} (firm : ∀ c ∈ piece.text, ¬IsLoose c) :
    ∀ item ∈ piece.items, ∀ c, item.char? = some c → ¬IsLoose c := by
  intro item member c same
  unfold Piece.items at member
  split at member
  · split at member
    · cases member
    · rw [List.mem_singleton.mp member] at same
      cases same
  · obtain ⟨d, inside, rfl⟩ := List.mem_map.mp member
    cases same
    exact firm c inside
  · cases member

end SourceOutline.Python
