import SourceOutline.Proofs.Python.Cutting
import SourceOutline.Proofs.Python.Dedent
import SourceOutline.Proofs.Python.Pieces

/-! Shifting a definition to the first column keeps its tokens, and shifts its string literals. -/

namespace SourceOutline.Python

open Text

/-- The characters of literals are shifted like those of a text. -/
theorem shifted_item_cons (width room : Nat) (c : Char) (items : List Item) :
    shifted Item.char? width room (.char c :: items) =
      if c = '\n' then .char c :: shifted Item.char? width width items
      else if c = '\r' ∧ items.head? = some (.char '\n') then shifted Item.char? width 0 items
      else if room ≠ 0 ∧ (c = ' ' ∨ c = '\t') then shifted Item.char? width (room - 1) items
      else .char c :: shifted Item.char? width 0 items := by
  have first : items.head?.bind Item.char? = some '\n' ↔ items.head? = some (.char '\n') := by
    cases items with
    | nil => simp
    | cons item more => cases item <;> simp [Item.char?]
  simp [shifted, Item.char?, first]

/-- Any other character of a literal stays. -/
theorem shifted_char {c : Char} (firm : ¬IsLoose c) (width room : Nat) (items : List Item) :
    shifted Item.char? width room (.char c :: items) =
      .char c :: shifted Item.char? width 0 items := by
  refine shifted_cons_firm (fun d same => ?_) room items
  cases same
  exact firm

/-- A piece of a literal that is not escaped is cut off from the shifted text as well. -/
theorem textCut_shifted {style : StringStyle} {modes : List Mode} {c : Char} (firm : ¬IsLoose c)
    (unescaped : c ≠ '\\') (width : Nat) (rest : List Char) :
    textCut style modes c (shifted some width 0 rest) = textCut style modes c rest := by
  have quotes := take_two_shifted firm width rest
  have brace : ((shifted some width 0 rest).head? == some c) = (rest.head? == some c) := by
    rw [Bool.eq_iff_iff]
    simpa using head?_shifted firm width rest
  simp only [textCut, beq_iff_eq, unescaped, if_false, quotes, brace]

/-- A piece that is cut off from a text has its like at the same place of the shifted text, and leaves
a shifted text behind it. -/
def StaysCut (width room : Nat) (modes : List Mode) (c : Char) (rest : List Char) (cut : Cut) : Prop :=
  ∃ further room',
    nextCut modes c (shifted some width 0 rest) = some ⟨cut.part, further, cut.modes⟩ ∧
      (shifted some width 0 rest).drop further =
        shifted some width room' (rest.drop cut.further) ∧
      ∀ items, shifted Item.char? width (if inLiteral modes then room else 0)
          ((⟨cut.part, c :: rest.take cut.further⟩ : Piece).items ++ items) =
        (⟨cut.part, c :: (shifted some width 0 rest).take further⟩ : Piece).items ++
          shifted Item.char? width (if inLiteral cut.modes then room' else 0) items

/-- A piece without loose characters stays as it is. -/
theorem staysCut_of_firm {modes : List Mode} {c : Char} {rest : List Char} {cut : Cut} {width : Nat}
    (same : nextCut modes c (shifted some width 0 rest) = some cut) (firm : ¬IsLoose c)
    (whole : ∀ d ∈ rest.take cut.further, ¬IsLoose d) (within : cut.further ≤ rest.length)
    (room : Nat) :
    StaysCut width room modes c rest cut := by
  have split : shifted some width 0 rest =
      rest.take cut.further ++ shifted some width 0 (rest.drop cut.further) := by
    rw [← shifted_firm_append whole, List.take_append_drop]
  have count : (rest.take cut.further).length = cut.further := List.length_take_of_le within
  have taken : (shifted some width 0 rest).take cut.further = rest.take cut.further := by
    rw [split, List.take_append_of_le_length (by omega), List.take_of_length_le (by omega)]
  have left : (shifted some width 0 rest).drop cut.further =
      shifted some width 0 (rest.drop cut.further) := by
    rw [split, List.drop_append_of_le_length (by omega), List.drop_of_length_le (by omega),
      List.nil_append]
  refine ⟨cut.further, 0, same, left, fun items => ?_⟩
  have plain := @Piece.items_firm ⟨cut.part, c :: rest.take cut.further⟩ fun d member => by
    rcases List.mem_cons.mp member with rfl | inside
    · exact firm
    · exact whole d inside
  rw [taken, ite_self]
  cases spelt : (⟨cut.part, c :: rest.take cut.further⟩ : Piece).items with
  | nil =>
    -- Only outside literals may a piece spell nothing.
    have outside : inLiteral modes = false := by
      cases inside : inLiteral modes with
      | false => rfl
      | true =>
        rcases part_of_inLiteral inside same with content | ⟨symbol, token, solid⟩
        · simp [Piece.items, content] at spelt
        · simp [Piece.items, token, solid] at spelt
    simp [outside]
  | cons item more =>
    rw [spelt] at plain
    rw [List.cons_append, shifted_cons_firm (plain item List.mem_cons_self),
      shifted_append_firm fun other member => plain other (List.mem_cons_of_mem item member),
      List.cons_append]

/-- A piece of a literal that is not escaped stays. -/
theorem staysCut_text {style : StringStyle} {outer : List Mode} {c : Char} {rest : List Char}
    {cut : Cut} (next : nextCut (.text style :: outer) c rest = some cut) (firm : ¬IsLoose c)
    (unescaped : c ≠ '\\') (width room : Nat) :
    StaysCut width room (.text style :: outer) c rest cut := by
  have same : nextCut (.text style :: outer) c (shifted some width 0 rest) = some cut :=
    (textCut_shifted firm unescaped width rest).trans next
  rcases textCut_cases next with ⟨escape, _⟩ | ⟨⟨tail, split⟩, _⟩
  · exact absurd escape unescaped
  have taken : rest.take cut.further = List.replicate cut.further c := by
    rw [split, List.take_append_of_le_length (by simp), List.take_of_length_le (by simp)]
  refine staysCut_of_firm same firm (fun d member => ?_) ?_ room
  · rw [taken] at member
    exact (List.eq_of_mem_replicate member) ▸ firm
  · rw [split]
    simp

/-- A piece of a format stays. -/
theorem staysCut_format {triple : Bool} {outer : List Mode} {c : Char} {rest : List Char} {cut : Cut}
    (next : nextCut (.format triple :: outer) c rest = some cut) (firm : ¬IsLoose c)
    (width room : Nat) : StaysCut width room (.format triple :: outer) c rest cut := by
  have single : cut.further = 0 := formatCut_further next
  refine staysCut_of_firm next firm (fun d member => ?_) ?_ room
  · rw [single] at member
    cases member
  · rw [single]
    exact Nat.zero_le _

/-- No loose character belongs to a token. -/
theorem mem_separators_of_loose {c : Char} (loose : IsLoose c) : c ∈ separators := by
  rcases loose with rfl | rfl | rfl | rfl <;> decide

/-- What is parted from a text is parted from it when it is shifted. -/
theorem IsParted.shifted {tail : List Char} (parted : IsParted tail) (width : Nat) :
    IsParted (Text.shifted some width 0 tail) := by
  cases tail with
  | nil => exact IsParted.nil
  | cons c rest =>
    have separator := parted c rfl
    rw [shifted_cons]
    split
    · exact .cons separator _
    · split
      · rename_i broken
        obtain ⟨more, rfl⟩ := List.head?_eq_some_iff.mp broken.2
        rw [shifted_feed]
        exact .cons (by decide) _
      · simpa using IsParted.cons separator _

/-- A token outside literals stays. -/
theorem staysCut_token {modes : List Mode} {c : Char} {rest : List Char} {cut : Cut}
    (reads : ∀ other, nextCut modes c other = tokenCut modes c other)
    (next : nextCut modes c rest = some cut) (firm : ¬IsLoose c) (width room : Nat) :
    StaysCut width room modes c rest cut := by
  obtain ⟨word, tail, rfl, whole, parted⟩ := exists_parted rest
  have loose : ∀ d ∈ word, ¬IsLoose d := fun d member bad =>
    whole d member (mem_separators_of_loose bad)
  have split := shifted_firm_append loose width tail
  rw [reads, tokenCut_parted parted] at next
  have within := tokenCut_further_le next
  have same : nextCut modes c (shifted some width 0 (word ++ tail)) = some cut := by
    rw [split, reads, tokenCut_parted (parted.shifted width), next]
  refine staysCut_of_firm same firm (fun d member => ?_) ?_ room
  · rw [List.take_append_of_le_length within] at member
    exact loose d (List.mem_of_mem_take member)
  · rw [List.length_append]
    omega

/-- Dropping as many characters as are taken leaves what is dropped. -/
theorem drop_length_takeWhile (property : Char → Bool) (cs : List Char) :
    cs.drop (cs.takeWhile property).length = cs.dropWhile property := by
  have split := congrArg (List.drop (cs.takeWhile property).length)
    (List.takeWhile_append_dropWhile (p := property) (l := cs))
  rw [List.drop_left] at split
  exact split.symm

/-- A comment ends in the shifted text where its line does. -/
theorem staysCut_comment {modes : List Mode} {rest : List Char}
    (reads : ∀ other, nextCut modes '#' other =
      some ⟨.token .comment, (other.takeWhile (· != '\n')).length, modes⟩)
    (outside : inLiteral modes = false) (width room : Nat) {cut : Cut}
    (next : nextCut modes '#' rest = some cut) : StaysCut width room modes '#' rest cut := by
  cases (reads rest).symm.trans next
  refine ⟨_, 0, reads _, ?_, fun items => ?_⟩
  · rw [drop_length_takeWhile, drop_length_takeWhile, dropWhile_shifted]
  · simp [Piece.items, Symbol.isTrivia, outside]

/-- A join of two lines stays, whatever line break it has. -/
theorem staysCut_join {modes : List Mode} {rest : List Char}
    (reads : ∀ other, nextCut modes '\\' other =
      (joinLength other).map fun length => ⟨.token .lineJoin, length, modes⟩)
    (outside : inLiteral modes = false) (width room : Nat) {cut : Cut}
    (next : nextCut modes '\\' rest = some cut) : StaysCut width room modes '\\' rest cut := by
  obtain ⟨length, joins, rfl⟩ := Option.map_eq_some_iff.mp ((reads rest).symm.trans next)
  have spelt : ∀ items, shifted Item.char? width (if inLiteral modes then room else 0) items =
      shifted Item.char? width (if inLiteral modes then width else 0) items := by simp [outside]
  unfold joinLength at joins
  split at joins
  · rename_i later
    cases joins
    refine ⟨1, width, ?_, by simp, fun items => ?_⟩
    · simp [reads, joinLength]
    · simpa [Piece.items, Symbol.isTrivia] using spelt items
  · rename_i later
    cases joins
    refine ⟨1, width, ?_, by simp [shifted_cons], fun items => ?_⟩
    · simp [reads, joinLength, shifted_cons]
    · simpa [Piece.items, Symbol.isTrivia] using spelt items
  · cases joins

/-- A piece outside literals stays. -/
theorem staysCut_code {modes : List Mode} {c : Char} {rest : List Char} {cut : Cut}
    (reads : ∀ other, nextCut modes c other = codeCut modes c other)
    (next : nextCut modes c rest = some cut) (firm : ¬IsLoose c) (outside : inLiteral modes = false)
    (width room : Nat) : StaysCut width room modes c rest cut := by
  have noFeed : c ≠ '\n' := fun same => firm (.inl same)
  by_cases space : isSpace c = true
  · have blank : ∀ other, nextCut modes c other = some ⟨.blank, 0, modes⟩ := fun other => by
      simp [reads, codeCut, noFeed, space]
    cases (blank rest).symm.trans next
    exact staysCut_of_firm (blank _) firm (fun d member => absurd member List.not_mem_nil) (Nat.zero_le _) room
  · by_cases comment : c = '#'
    · subst comment
      exact staysCut_comment (fun other => (reads other).trans rfl) outside width room next
    · by_cases join : c = '\\'
      · subst join
        exact staysCut_join (fun other => (reads other).trans rfl) outside width room next
      · refine staysCut_token (fun other => ?_) next firm width room
        simp [reads, codeCut, noFeed, space, comment, join]

/-- A character given by name is taken along as a whole. -/
theorem escapeLength_named {style : StringStyle} (named : (style.format && !style.raw) = true)
    {name : List Char} (whole : '\x7d' ∉ name) (rest : List Char) :
    escapeLength style ('N' :: '\x7b' :: (name ++ '\x7d' :: rest)) = name.length + 3 := by
  have taken : (name ++ '\x7d' :: rest).takeWhile (· != '\x7d') = name := by
    rw [List.takeWhile_append_of_pos fun c member => ?_]
    · simp
    · simpa using fun same : c = '\x7d' => whole (same ▸ member)
  simp only [escapeLength, named, if_true, taken]
  omega

/-- A name that is taken along ends at a brace, since no more is taken than there is. -/
theorem exists_name {style : StringStyle} (named : (style.format && !style.raw) = true)
    {text : List Char}
    (within : escapeLength style ('N' :: '\x7b' :: text) ≤ ('N' :: '\x7b' :: text).length) :
    ∃ name rest, text = name ++ '\x7d' :: rest ∧ '\x7d' ∉ name := by
  have split := List.takeWhile_append_dropWhile (p := (· != '\x7d')) (l := text)
  have count := congrArg List.length split
  simp only [escapeLength, named, if_true, List.length_cons, List.length_append] at within count
  cases behind : text.dropWhile (· != '\x7d') with
  | nil =>
    rw [behind, List.length_nil] at count
    omega
  | cons c rest =>
    have stopped := List.head?_dropWhile_not (· != '\x7d') text
    rw [behind] at stopped
    have brace : c = '\x7d' := by simpa using stopped
    rw [behind, brace] at split
    refine ⟨_, rest, split.symm, fun member => ?_⟩
    simpa using List.all_eq_true.mp List.all_takeWhile _ member

/-- What a backslash takes along of a shifted text: what it takes of the text itself, shifted; and no
line break is parted. -/
def TakesAlong (style : StringStyle) (width : Nat) (rest : List Char) : Prop :=
  (rest.take (escapeLength style rest)).getLast? ≠ some '\r' ∧
    escapeLength style (shifted some width 0 rest) =
      (shifted some width 0 (rest.take (escapeLength style rest))).length

/-- A character given by name is taken along of a shifted text. -/
theorem takesAlong_named {style : StringStyle} {text : List Char} (width : Nat)
    (within : escapeLength style ('N' :: '\x7b' :: text) ≤ ('N' :: '\x7b' :: text).length) :
    TakesAlong style width ('N' :: '\x7b' :: text) := by
  have start : ∀ cs, shifted some width 0 ('N' :: '\x7b' :: cs) =
      'N' :: '\x7b' :: shifted some width 0 cs := fun cs => by
    rw [shifted_firm (by decide), shifted_firm (by decide)]
  have brace : ∀ name cs, shifted some width 0 (name ++ '\x7d' :: cs) =
      shifted some width 0 name ++ '\x7d' :: shifted some width 0 cs := fun name cs => by
    rw [shifted_append 0 (by simp), shifted_firm (by decide)]
  cases named : style.format && !style.raw with
  | false =>
    rw [TakesAlong, start]
    simp [escapeLength, named, shifted]
  | true =>
    obtain ⟨name, rest, rfl, whole⟩ := exists_name named within
    have kept : '\x7d' ∉ shifted some width 0 name := fun member =>
      whole ((shifted_sublist some width 0 name).subset member)
    have taken : ('N' :: '\x7b' :: (name ++ '\x7d' :: rest)).take (name.length + 3) =
        'N' :: '\x7b' :: (name ++ ['\x7d']) := by
      have split : 'N' :: '\x7b' :: (name ++ '\x7d' :: rest) =
          ('N' :: '\x7b' :: (name ++ ['\x7d'])) ++ rest := by simp
      rw [split, List.take_left' (by simp)]
    have last : ('N' :: '\x7b' :: (name ++ ['\x7d'])).getLast? = some '\x7d' :=
      List.getLast?_concat (l := 'N' :: '\x7b' :: name)
    rw [TakesAlong, start, brace, escapeLength_named named kept, escapeLength_named named whole, taken,
      start, brace, last]
    simp [shifted]

/-- Any other character is taken along of a shifted text, unless a second carriage return stands behind
one. -/
theorem takesAlong_single {style : StringStyle} {c : Char} {later : List Char} (width : Nat)
    (unbroken : ¬(c = '\r' ∧ later.head? = some '\n'))
    (unnamed : ¬(c = 'N' ∧ later.head? = some '\x7b'))
    (single : ∀ more, c :: later ≠ '\r' :: '\r' :: '\n' :: more) :
    TakesAlong style width (c :: later) := by
  have unit := escapeLength_cons style unbroken unnamed
  by_cases feed : c = '\n'
  · subst feed
    have again : escapeLength style ('\n' :: shifted some width width later) = 1 :=
      escapeLength_cons style (by simp) (by simp)
    rw [TakesAlong, shifted_feed, unit, again]
    simp [shifted]
  · have head : ∀ cs, ¬(c = '\r' ∧ cs.head? = some '\n') →
        shifted some width 0 (c :: cs) = c :: shifted some width 0 cs := fun cs unbroken => by
      simp [shifted_cons, feed, unbroken]
    have again : escapeLength style (c :: shifted some width 0 later) =
        if c = '\'' ∨ c = '"' ∨ c = '\\' ∨ c = '\n' then 1 else 0 := by
      refine escapeLength_cons style (fun both => ?_) (fun both => ?_)
      · rcases head?_shifted_feed both.2 with first | ⟨more, rfl⟩
        · exact unbroken ⟨both.1, first⟩
        · exact single more (by rw [both.1])
      · exact unnamed ⟨both.1, (head?_shifted (by decide) width later).mp both.2⟩
    rw [TakesAlong, head later unbroken, unit, again]
    split
    · rename_i special
      have other : c ≠ '\r' := by
        rintro rfl
        simp at special
      rw [List.take_succ_cons, List.take_zero, head [] (by simp)]
      simpa [shifted] using other
    · simp [shifted]

/-- What a backslash takes along of a text is taken of the shifted text, unless two carriage returns
stand before a line feed. -/
theorem takesAlong_of_single {style : StringStyle} {rest : List Char} (width : Nat)
    (within : escapeLength style rest ≤ rest.length)
    (single : ∀ more, rest ≠ '\r' :: '\r' :: '\n' :: more) : TakesAlong style width rest := by
  cases rest with
  | nil => simp [TakesAlong, escapeLength, shifted]
  | cons c later =>
    by_cases broken : c = '\r' ∧ later.head? = some '\n'
    · obtain ⟨rfl, first⟩ := broken
      obtain ⟨more, rfl⟩ := List.head?_eq_some_iff.mp first
      simp [TakesAlong, escapeLength, shifted_cons, shifted]
    · by_cases opened : c = 'N' ∧ later.head? = some '\x7b'
      · obtain ⟨rfl, first⟩ := opened
        obtain ⟨text, rfl⟩ := List.head?_eq_some_iff.mp first
        exact takesAlong_named width within
      · exact takesAlong_single width broken opened single

/-- An escaped piece of a literal stays, with the shifted characters that the backslash takes along. -/
theorem staysCut_escape {style : StringStyle} {outer : List Mode} {rest : List Char} {cut : Cut}
    {width : Nat} (next : nextCut (.text style :: outer) '\\' rest = some cut)
    (along : TakesAlong style width rest) (room : Nat) :
    StaysCut width room (.text style :: outer) '\\' rest cut := by
  have reads : ∀ other, nextCut (.text style :: outer) '\\' other =
      some ⟨.content, escapeLength style other, .text style :: outer⟩ := fun _ => rfl
  cases (reads rest).symm.trans next
  have apart := along.1
  have split : shifted some width 0 rest =
      shifted some width 0 (rest.take (escapeLength style rest)) ++
        shifted some width (roomBehind some width 0 (rest.take (escapeLength style rest)))
          (rest.drop (escapeLength style rest)) := by
    rw [← shifted_append 0 (by simp [apart]), List.take_append_drop]
  refine ⟨_, roomBehind some width 0 (rest.take (escapeLength style rest)), reads _, ?_,
    fun items => ?_⟩
  · rw [along.2, split, List.drop_left]
  · rw [along.2, split, List.take_left]
    show shifted Item.char? width room
        (.char '\\' :: (rest.take (escapeLength style rest)).map .char ++ items) =
      .char '\\' :: (shifted some width 0 (rest.take (escapeLength style rest))).map .char ++
        shifted Item.char? width (roomBehind some width 0 (rest.take (escapeLength style rest))) items
    have whole : ¬(((rest.take (escapeLength style rest)).map Item.char).getLast?.bind Item.char? =
        some '\r' ∧ items.head?.bind Item.char? = some '\n') := by
      rw [List.getLast?_map]
      simpa [Option.bind_map, Item.char?, Function.comp_def] using fun same => absurd same apart
    rw [List.cons_append, shifted_char (by decide), shifted_append 0 whole, shifted_map,
      roomBehind_map, List.cons_append]
    rfl

/-- What a text is cut into when it is shifted, given what encloses its start. -/
def StaysSpelled (width : Nat) (modes : List Mode) (cs : List Char) (found : List Piece) : Prop :=
  ∀ room, ∃ others, Cuts modes (shifted some width room cs) others ∧
    spelled others = shifted Item.char? width (if inLiteral modes then room else 0) (spelled found)

/-- Where carriage returns stand behind a backslash, the piece that the shifted text is cut into is
longer, but spells the same. -/
theorem staysSpelled_returns {style : StringStyle} {outer : List Mode} {rest : List Char}
    {more : List Piece} {width : Nat} (quoted : IsQuoted (.text style :: outer))
    (cuts : Cuts (.text style :: outer) ('\r' :: '\r' :: '\n' :: rest) more)
    (later : ∀ found, Cuts (.text style :: outer) rest found →
      StaysSpelled width (.text style :: outer) rest found) :
    StaysSpelled width (.text style :: outer) ('\\' :: '\r' :: '\r' :: '\n' :: rest)
      (⟨.content, ['\\']⟩ :: more) := by
  obtain ⟨first, _, rfl, cuts, spelt, _⟩ := cuts.of_loose quoted (.inr (.inl rfl))
  obtain ⟨second, _, rfl, cuts, spelt', _⟩ := cuts.of_loose quoted (.inr (.inl rfl))
  obtain ⟨third, found, rfl, cuts, spelt'', _⟩ := cuts.of_loose quoted (.inl rfl)
  obtain ⟨others, inner, same⟩ := later found cuts width
  intro room
  refine ⟨⟨.content, ['\\', '\r', '\n']⟩ :: others, ?_, ?_⟩
  · have text : shifted some width room ('\\' :: '\r' :: '\r' :: '\n' :: rest) =
        '\\' :: '\r' :: '\n' :: shifted some width width rest := by
      simp [shifted_cons]
    have next : nextCut (.text style :: outer) '\\' ('\r' :: '\n' :: shifted some width width rest) =
        some ⟨.content, 2, .text style :: outer⟩ := rfl
    rw [text]
    exact .piece next inner
  · simp only [inLiteral, if_true] at same spelt spelt' spelt''
    simp only [spelled_cons, spelt, spelt', spelt'', same, inLiteral, if_true]
    simp [Piece.items, shifted_item_cons]

/-- A loose character goes or stays, in the text and in what it spells. -/
theorem staysSpelled_loose {modes : List Mode} {c : Char} {rest : List Char} {found : List Piece}
    {width : Nat} (loose : IsLoose c) (quoted : IsQuoted modes) (cuts : Cuts modes (c :: rest) found)
    (later : ∀ more, Cuts modes rest more → StaysSpelled width modes rest more) :
    StaysSpelled width modes (c :: rest) found := by
  intro room
  obtain ⟨part, more, rfl, behind, items, again⟩ := cuts.of_loose quoted loose
  have inner := later more behind
  have broken : inLiteral modes = true →
      ((spelled more).head? = some (.char '\n') ↔ rest.head? = some '\n') := by
    intro inside
    constructor
    · exact behind.head?_spelled inside
    · intro first
      obtain ⟨next, rfl⟩ := List.head?_eq_some_iff.mp first
      obtain ⟨_, _, rfl, _, spelt, _⟩ := behind.of_loose quoted (.inl rfl)
      simp [spelt, inside]
  rw [shifted_cons, spelled_cons, items]
  cases inside : inLiteral modes with
  | false =>
    -- Outside literals the character spells nothing.
    simp only [inside, Bool.false_eq_true, if_false, List.nil_append] at inner items ⊢
    have stays : ∀ room', ∃ others, Cuts modes (c :: shifted some width room' rest) others ∧
        spelled others = shifted Item.char? width 0 (spelled more) := fun room' => by
      obtain ⟨others, cuts, same⟩ := inner room'
      refine ⟨_, again _ others cuts, ?_⟩
      simp [items, same, inside]
    split
    · exact stays width
    · split
      · simpa [inside] using inner 0
      · split
        · simpa [inside] using inner (room - 1)
        · exact stays 0
  | true =>
    simp only [inside, if_true, List.singleton_append] at inner items ⊢
    have stays : ∀ room', ∃ others, Cuts modes (c :: shifted some width room' rest) others ∧
        spelled others = .char c :: shifted Item.char? width room' (spelled more) := fun room' => by
      obtain ⟨others, cuts, same⟩ := inner room'
      refine ⟨_, again _ others cuts, ?_⟩
      simp [items, same, inside]
    rw [shifted_item_cons]
    simp only [broken inside]
    split
    · exact stays width
    · split
      · simpa [inside] using inner 0
      · split
        · simpa [inside] using inner (room - 1)
        · exact stays 0

/-- A piece that stays is spelled as before. -/
theorem staysSpelled_of_staysCut {modes : List Mode} {c : Char} {rest : List Char} {cut : Cut}
    {more : List Piece} {width : Nat} (firm : ¬IsLoose c)
    (stays : ∀ room, StaysCut width room modes c rest cut)
    (later : StaysSpelled width cut.modes (rest.drop cut.further) more) :
    StaysSpelled width modes (c :: rest) (⟨cut.part, c :: rest.take cut.further⟩ :: more) := by
  intro room
  obtain ⟨further, room', next, left, items⟩ := stays room
  obtain ⟨others, inner, same⟩ := later room'
  refine ⟨⟨cut.part, c :: (shifted some width 0 rest).take further⟩ :: others, ?_, ?_⟩
  · rw [shifted_firm firm]
    exact .piece next (left ▸ inner)
  · rw [spelled_cons, spelled_cons, same, items]

/-- Piece by piece a text and the shifted text spell the same, but for the shift of literals. -/
theorem Cuts.staysSpelled {modes : List Mode} {cs : List Char} {found : List Piece}
    (cuts : Cuts modes cs found) (quoted : IsQuoted modes) (width : Nat) :
    StaysSpelled width modes cs found := by
  cases cuts with
  | done =>
    intro room
    exact ⟨[], .done, rfl⟩
  | @piece _ c rest cut more next behind =>
    have shorter : (rest.drop cut.further).length < (c :: rest).length := by
      simp only [List.length_drop, List.length_cons]
      omega
    have later := behind.staysSpelled (quoted.nextCut next) width
    by_cases loose : IsLoose c
    · refine staysSpelled_loose loose quoted (.piece next behind) fun more cuts => ?_
      exact cuts.staysSpelled quoted width
    · match modes with
      | .text style :: outer =>
        by_cases escape : c = '\\'
        · subst escape
          cases (show some ⟨.content, escapeLength style rest, _⟩ = some cut from next)
          by_cases returns : ∃ more, rest = '\r' :: '\r' :: '\n' :: more
          · obtain ⟨text, rfl⟩ := returns
            exact staysSpelled_returns quoted behind fun found cuts => cuts.staysSpelled quoted width
          · -- Something is left behind what the backslash takes along, since the literal is open.
            have within : escapeLength style rest ≤ rest.length := by
              refine Nat.le_of_not_lt fun beyond => ?_
              rw [List.drop_of_length_le (Nat.le_of_lt beyond)] at behind
              cases behind
            have along := takesAlong_of_single width within fun text same => returns ⟨text, same⟩
            exact staysSpelled_of_staysCut loose (staysCut_escape next along) later
        · exact staysSpelled_of_staysCut loose (staysCut_text next loose escape width) later
      | .format triple :: outer =>
        exact staysSpelled_of_staysCut loose (staysCut_format next loose width) later
      | [] | .bracket _ :: _ | .field _ :: _ =>
        exact staysSpelled_of_staysCut loose (staysCut_code (fun _ => rfl) next loose rfl width) later
termination_by cs.length

/-- A definition that is shifted to the first column keeps its tokens; and it keeps its string literals
exactly when it stood there, or no line that starts in a literal starts with a blank and none that ends
in one ends with a carriage return. -/
theorem spelled_dedented {source : List Char} {node : Node} {found : List Piece}
    (cut : pieces (node.text source) = some found)
    (ends : (node.text source).getLast? ≠ some '\n') :
    ∃ others, pieces (dedented source node) = some others ∧
      (spelled others).filter Item.isToken = (spelled found).filter Item.isToken ∧
      (spelled others = spelled found ↔
        node.start.column = 0 ∨ (spelled found).IsChain (IsFlush Item.char?)) := by
  by_cases flush : node.start.column = 0
  · refine ⟨found, ?_, rfl, iff_of_true rfl (.inl flush)⟩
    simpa [dedented, flush] using cut
  · have quoted : IsQuoted [] := fun style member => absurd member List.not_mem_nil
    have cuts := (cutBehind_eq_some_iff [] _ found).mp cut
    obtain ⟨others, shiftedCuts, same⟩ := cuts.staysSpelled quoted node.start.column 0
    have plain : spelled others = shifted Item.char? node.start.column 0 (spelled found) := same
    refine ⟨others, ?_, ?_, ?_⟩
    · rw [dedented_eq_shifted flush ends]
      exact (cutBehind_eq_some_iff [] _ others).mpr shiftedCuts
    · rw [plain, filter_shifted fun item token => ?_]
      simpa [Item.isToken] using token
    · rw [plain, shifted_eq_self_iff flush]
      simp [flush]

end SourceOutline.Python
