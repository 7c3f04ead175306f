import SourceOutline.Proofs.Text.Words

/-! Collapsed texts character by character: what becomes of blanks, and of lexemes with blanks between them. -/

namespace SourceOutline.Text

/-- A text in which each run of blanks is a single space, except for blanks at the end, which are left out. -/
def squeeze : List Char → List Char
  | [] => []
  | c :: rest =>
    -- Of several blanks the last one stays, unless nothing stands behind it.
    if isBlank c then
      if rest.head?.all isBlank then squeeze rest else ' ' :: squeeze rest
    else c :: squeeze rest

/-- A character that is not blank stays. -/
theorem squeeze_cons {c : Char} (firm : isBlank c = false) (rest : List Char) :
    squeeze (c :: rest) = c :: squeeze rest := by
  rw [squeeze, firm]
  rfl

/-- Characters that are not blank stay. -/
theorem squeeze_append_firm {front : List Char} (firm : ∀ c ∈ front, isBlank c = false) (rest : List Char) :
    squeeze (front ++ rest) = front ++ squeeze rest := by
  induction front with
  | nil => rfl
  | cons c front ih =>
    obtain ⟨here, behind⟩ := List.forall_mem_cons.mp firm
    rw [List.cons_append, squeeze_cons here, ih behind, List.cons_append]

/-- A blank in front of another one, or at the end, is left out. -/
theorem squeeze_blank {c : Char} (blank : isBlank c = true) {rest : List Char}
    (again : rest.head?.all isBlank = true) : squeeze (c :: rest) = squeeze rest := by
  rw [squeeze, if_pos blank, if_pos again]

/-- A blank in front of another character becomes a space. -/
theorem squeeze_space {c d : Char} (blank : isBlank c = true) (firm : isBlank d = false) (rest : List Char) :
    squeeze (c :: d :: rest) = ' ' :: squeeze (d :: rest) := by
  rw [squeeze, if_pos blank, if_neg (by simp [firm])]

/-- The only blanks left are spaces. -/
theorem eq_space_of_mem_squeeze {cs : List Char} {c : Char} (member : c ∈ squeeze cs) (blank : isBlank c = true) :
    c = ' ' := by
  induction cs with
  | nil => exact absurd member List.not_mem_nil
  | cons d rest ih =>
    rw [squeeze] at member
    split at member
    · split at member
      · exact ih member
      · rcases List.mem_cons.mp member with here | behind
        · exact here
        · exact ih behind
    · rename_i firm
      rcases List.mem_cons.mp member with rfl | behind
      · exact absurd blank firm
      · exact ih behind

/-- Of two neighbours at most one is a blank. -/
theorem isChain_squeeze (cs : List Char) :
    (squeeze cs).IsChain fun c d => isBlank c = false ∨ isBlank d = false := by
  induction cs with
  | nil => exact .nil
  | cons c rest ih =>
    rw [squeeze]
    split
    · split
      · exact ih
      · rename_i other
        cases rest with
        | nil => exact absurd rfl other
        | cons d later =>
          have firm : isBlank d = false := by simpa using other
          rw [squeeze_cons firm] at ih ⊢
          exact .cons_cons (.inr firm) ih
    · rename_i firm
      exact .cons ih fun _ _ => .inl (by simpa using firm)

/-- The first character stays or is a space, unless there are nothing but blanks. -/
theorem head?_squeeze {c : Char} {rest : List Char} (firm : ∀ d ∈ (c :: rest).getLast?, isBlank d = false) :
    (squeeze (c :: rest)).head? = some (if isBlank c then ' ' else c) := by
  induction rest generalizing c with
  | nil => simp [squeeze, firm c rfl]
  | cons d later ih =>
    have inner := ih (c := d) (by simpa [List.getLast?_cons] using firm)
    by_cases blank : isBlank c = true
    · by_cases again : isBlank d = true
      · rw [squeeze_blank blank (by simp [again]), inner, if_pos again, if_pos blank]
      · rw [squeeze_space blank (by simpa using again), if_pos blank]
        rfl
    · rw [squeeze_cons (by simpa using blank), if_neg blank]
      rfl

/-- A text whose blanks are single spaces stays in front of another one. -/
theorem squeeze_append_of_apart {front : List Char} (spaces : ∀ c ∈ front, isBlank c = true → c = ' ') {d : Char}
    (apart : (front ++ [d]).IsChain fun c d => isBlank c = false ∨ isBlank d = false) (rest : List Char) :
    squeeze (front ++ d :: rest) = front ++ squeeze (d :: rest) := by
  induction front with
  | nil => rfl
  | cons c front ih =>
    obtain ⟨here, behind⟩ := List.forall_mem_cons.mp spaces
    rw [List.cons_append, List.cons_append, ← ih behind apart.tail]
    by_cases blank : isBlank c = true
    · obtain ⟨e, later, next⟩ := List.exists_cons_of_ne_nil (l := front ++ d :: rest) (by simp)
      have firm : isBlank e = false := by
        cases front with
        | nil =>
          cases next
          simpa [blank] using apart
        | cons f front =>
          cases next
          simpa [blank] using List.IsChain.rel apart
      rw [next, squeeze_space blank firm, here blank]
    · rw [squeeze_cons (by simpa using blank)]

/-- A text is squeezed apart from one behind it when it does not end with a blank. -/
theorem squeeze_append {front : List Char} (firm : ∀ c ∈ front.getLast?, isBlank c = false) (rest : List Char) :
    squeeze (front ++ rest) = squeeze front ++ squeeze rest := by
  induction front with
  | nil => rfl
  | cons c front ih =>
    cases front with
    | nil => rw [List.singleton_append, squeeze_cons (firm c rfl), squeeze_cons (firm c rfl), squeeze, List.singleton_append]
    | cons d later =>
      have inner := ih (by simpa [List.getLast?_cons] using firm)
      by_cases blank : isBlank c = true
      · by_cases again : isBlank d = true
        · rw [List.cons_append, squeeze_blank blank (by simp [again]), inner, squeeze_blank blank (by simp [again])]
        · have other : isBlank d = false := by simpa using again
          rw [List.cons_append, List.cons_append, squeeze_space blank other, squeeze_space blank other,
            ← List.cons_append, inner, List.cons_append]
      · have other : isBlank c = false := by simpa using blank
        rw [List.cons_append, squeeze_cons other, squeeze_cons other, inner, List.cons_append]

/-- Blanks in front of another character become a single space. -/
theorem squeeze_gap {gap : List Char} (blank : ∀ c ∈ gap, isBlank c = true) (some_blank : gap ≠ []) {d : Char}
    (firm : isBlank d = false) (rest : List Char) : squeeze (gap ++ d :: rest) = ' ' :: squeeze (d :: rest) := by
  induction gap with
  | nil => exact absurd rfl some_blank
  | cons c gap ih =>
    obtain ⟨here, behind⟩ := List.forall_mem_cons.mp blank
    cases gap with
    | nil => exact squeeze_space here firm rest
    | cons e later =>
      rw [List.cons_append, squeeze_blank here (by simp [behind e List.mem_cons_self]), ih behind (List.cons_ne_nil e later)]

/-- Words with single spaces between them. -/
theorem intercalate_space (word : List Char) (later : List (List Char)) :
    [' '].intercalate (word :: later) = word ++ later.flatMap (' ' :: ·) := by
  induction later generalizing word with
  | nil => simp [List.intercalate]
  | cons next later ih =>
    have joined : [' '].intercalate (word :: next :: later) = word ++ ' ' :: [' '].intercalate (next :: later) := by
      simp [List.intercalate]
    rw [joined, ih, List.flatMap_cons, List.cons_append]

/-- What a text is squeezed to is the word it starts with and the words behind it, each behind a space. -/
theorem squeeze_eq (cs : List Char) :
    let pieces := cs.foldr
      (fun c (pieces : List Char × List (List Char)) =>
        if isBlank c then ([], keepWord pieces.1 pieces.2) else (c :: pieces.1, pieces.2))
      ([], [])
    pieces.1.isEmpty = cs.head?.all isBlank ∧ squeeze cs = pieces.1 ++ pieces.2.flatMap (' ' :: ·) := by
  induction cs with
  | nil => exact ⟨rfl, rfl⟩
  | cons c rest ih =>
    obtain ⟨first, squeezed⟩ := ih
    rw [List.foldr_cons, squeeze]
    generalize rest.foldr _ ([], []) = pieces at first squeezed
    obtain ⟨word, later⟩ := pieces
    by_cases blank : isBlank c = true
    · cases word with
      | nil => simp_all [keepWord]
      | cons d word => simp_all [keepWord]
    · simp [blank, squeezed]

/-- A text collapses to what it is squeezed to behind the blanks at its start. -/
theorem collapse_eq (cs : List Char) : collapse cs = squeeze (trimStart cs) := by
  induction cs with
  | nil => rfl
  | cons c rest ih =>
    obtain ⟨first, squeezed⟩ := squeeze_eq (c :: rest)
    by_cases blank : isBlank c = true
    · have same : words (c :: rest) = words rest := by
        rw [words, List.foldr_cons, if_pos blank]
        rfl
      rw [collapse, same, ← collapse, ih, trimStart, trimStart, List.dropWhile_cons_of_pos blank]
    · rw [trimStart, List.dropWhile_cons_of_neg blank, squeezed, collapse, words, keepWord, first]
      rw [List.head?_cons, Option.all_some, if_neg blank]
      exact intercalate_space _ _

/-- A text that does not start with a blank collapses to what it is squeezed to. -/
theorem collapse_eq_squeeze {cs : List Char} (firm : ∀ c ∈ cs.head?, isBlank c = false) :
    collapse cs = squeeze cs := by
  rw [collapse_eq]
  cases cs with
  | nil => rfl
  | cons c rest => rw [trimStart, List.dropWhile_cons_of_neg (by simp [firm c rfl])]

/-- Blanks at the end are left out. -/
theorem squeeze_append_blank {blanks : List Char} (blank : ∀ c ∈ blanks, isBlank c = true) (front : List Char) :
    squeeze (front ++ blanks) = squeeze front := by
  induction front with
  | nil =>
    induction blanks with
    | nil => rfl
    | cons c rest ih =>
      obtain ⟨here, behind⟩ := List.forall_mem_cons.mp blank
      have last : rest.head?.all isBlank = true := by
        cases rest with
        | nil => rfl
        | cons d _ => exact behind d List.mem_cons_self
      rw [List.nil_append, squeeze_blank here last]
      exact ih behind
  | cons c front ih =>
    have same : ((front ++ blanks).head?.all isBlank) = front.head?.all isBlank := by
      cases front with
      | nil => cases blanks <;> simp_all
      | cons d _ => rfl
    rw [List.cons_append, squeeze, squeeze, ih, same]

/-- Blanks around a text that does not start with one do not change what it collapses to. -/
theorem collapse_between {before behind : List Char} (blank : ∀ c ∈ before, isBlank c = true)
    (blank' : ∀ c ∈ behind, isBlank c = true) {c : Char} (firm : isBlank c = false) (rest : List Char) :
    collapse (before ++ (c :: rest ++ behind)) = collapse (c :: rest) := by
  have starts : trimStart (before ++ (c :: rest ++ behind)) = c :: rest ++ behind := by
    rw [trimStart, List.dropWhile_append_of_pos blank, List.cons_append, List.dropWhile_cons_of_neg (by simp [firm])]
  rw [collapse_eq, starts, squeeze_append_blank blank', collapse_eq_squeeze (by simp [firm])]

/-- Squeezing makes no text longer. -/
theorem length_squeeze_le (cs : List Char) : (squeeze cs).length ≤ cs.length := by
  induction cs with
  | nil => exact Nat.le_refl _
  | cons c rest ih =>
    rw [squeeze]
    split
    · split
      · exact Nat.le_succ_of_le ih
      · exact Nat.succ_le_succ ih
    · exact Nat.succ_le_succ ih

/-- A collapsed text is not longer than it was. -/
theorem length_collapse_le (cs : List Char) : (collapse cs).length ≤ cs.length := by
  rw [collapse_eq]
  exact (length_squeeze_le _).trans (List.dropWhile_suffix isBlank).length_le

/-- A text on one line: its blanks are spaces. -/
def IsOneLine (cs : List Char) : Prop := ∀ c ∈ cs, isBlank c = true → c = ' '

/-- A collapsed text stands on one line. -/
theorem isOneLine_collapse (cs : List Char) : IsOneLine (collapse cs) := by
  rw [collapse_eq]
  exact fun _ => eq_space_of_mem_squeeze

/-- A text stays as it is when it is collapsed if it is tidy and stands on one line, and only then. -/
theorem collapse_eq_self_iff {cs : List Char} : collapse cs = cs ↔ IsTidy cs ∧ IsOneLine cs := by
  constructor
  · intro same
    rw [← same]
    exact ⟨isTidy_collapse cs, isOneLine_collapse cs⟩
  · rintro ⟨⟨front, back, apart⟩, spaces⟩
    rw [collapse_eq_squeeze front]
    clear front
    induction cs with
    | nil => rfl
    | cons c rest ih =>
      have further : squeeze rest = rest := by
        cases rest with
        | nil => rfl
        | cons d rest => exact ih (fun e member => spaces e (.tail _ member)) back apart.tail
      by_cases blank : isBlank c = true
      · cases rest with
        | nil => exact absurd (back c rfl) (by simp [blank])
        | cons d rest =>
          have firm : isBlank d = false := apart.rel.resolve_left (by simp [blank])
          obtain rfl := spaces c List.mem_cons_self blank
          rw [squeeze_space blank firm, further]
      · rw [squeeze_cons (by simpa using blank), further]

/-- A lexeme is a text that neither starts nor ends with a blank. -/
structure IsLexeme (text : List Char) : Prop where
  /-- There is a character. -/
  nonempty : text ≠ []
  /-- The first one is not blank. -/
  front : ∀ c ∈ text.head?, isBlank c = false
  /-- The last one is not blank. -/
  back : ∀ c ∈ text.getLast?, isBlank c = false

/-- Lexemes one after the other, each but the first with the gap before it. -/
def layOut (first : List Char) (later : List (List Char × List Char)) : List Char :=
  first ++ later.flatMap fun part => part.1 ++ part.2

/-- Lexemes, each but the first behind a gap of blanks. -/
structure AreLexemes (first : List Char) (later : List (List Char × List Char)) : Prop where
  /-- The first one is a lexeme. -/
  starts : IsLexeme first
  /-- The others are lexemes behind blanks. -/
  each : ∀ part ∈ later, (∀ c ∈ part.1, isBlank c = true) ∧ IsLexeme part.2

/-- A gap on one line: a space, unless there is no gap. -/
def gapOnLine (gap : List Char) : List Char :=
  if gap.isEmpty then [] else [' ']

/-- Lexemes with gaps between them are collapsed one by one, and each gap with a blank in it becomes a space. -/
theorem collapse_layOut {first : List Char} {later : List (List Char × List Char)} (lexemes : AreLexemes first later) :
    collapse (layOut first later) =
      layOut (collapse first) (later.map fun part => (gapOnLine part.1, collapse part.2)) := by
  obtain ⟨starts, each⟩ := lexemes
  have front : ∀ c ∈ (layOut first later).head?, isBlank c = false := by
    rw [layOut, List.head?_append_of_ne_nil _ starts.nonempty]
    exact starts.front
  rw [collapse_eq_squeeze front, layOut, layOut, squeeze_append starts.back, collapse_eq_squeeze starts.front]
  congr 1
  clear front
  induction later with
  | nil => rfl
  | cons part later ih =>
    obtain ⟨⟨blank, lexeme⟩, others⟩ := List.forall_mem_cons.mp each
    have inner := ih others
    obtain ⟨gap, text⟩ := part
    obtain ⟨c, rest, rfl⟩ := List.exists_cons_of_ne_nil lexeme.nonempty
    have firm := lexeme.front c rfl
    have tail : ∀ more, squeeze (c :: rest ++ more) = collapse (c :: rest) ++ squeeze more := fun more => by
      rw [squeeze_append lexeme.back, collapse_eq_squeeze lexeme.front]
    rw [List.flatMap_cons, List.map_cons, List.flatMap_cons, List.append_assoc, ← inner]
    cases gap with
    | nil => exact tail _
    | cons b gap =>
      rw [List.cons_append (a := c), squeeze_gap blank (List.cons_ne_nil b gap) firm]
      rw [← List.cons_append (a := c), tail]
      rfl

/-- Two texts that are not longer than others follow each other like those only when they are the same. -/
theorem append_eq_append_iff_of_length_le {front front' behind behind' : List Char}
    (shorter : front'.length ≤ front.length) (shorter' : behind'.length ≤ behind.length) :
    front' ++ behind' = front ++ behind ↔ front' = front ∧ behind' = behind := by
  constructor
  · intro same
    have lengths := congrArg List.length same
    rw [List.length_append, List.length_append] at lengths
    exact List.append_inj same (by omega)
  · rintro ⟨rfl, rfl⟩
    rfl

/-- Lexemes that are collapsed are laid out as before exactly when none of them changes. -/
theorem layOut_collapse_eq_iff (first : List Char) (later : List (List Char × List Char)) :
    layOut (collapse first) (later.map fun part => (gapOnLine part.1, collapse part.2)) =
        layOut first (later.map fun part => (gapOnLine part.1, part.2)) ↔
      ∀ lexeme ∈ first :: later.map Prod.snd, collapse lexeme = lexeme := by
  -- The lexemes behind the first one do not get longer either.
  have behind : ∀ later : List (List Char × List Char),
      ((later.map fun part => (gapOnLine part.1, collapse part.2)).flatMap fun part => part.1 ++ part.2).length ≤
          ((later.map fun part => (gapOnLine part.1, part.2)).flatMap fun part => part.1 ++ part.2).length ∧
        (((later.map fun part => (gapOnLine part.1, collapse part.2)).flatMap fun part => part.1 ++ part.2) =
            ((later.map fun part => (gapOnLine part.1, part.2)).flatMap fun part => part.1 ++ part.2) ↔
          ∀ lexeme ∈ later.map Prod.snd, collapse lexeme = lexeme) := by
    intro later
    induction later with
    | nil => simp
    | cons part rest ih =>
      obtain ⟨shorter, same⟩ := ih
      have here := length_collapse_le part.2
      simp only [List.map_cons, List.flatMap_cons, List.append_assoc, List.append_cancel_left_eq, List.length_append,
        List.forall_mem_cons]
      refine ⟨by omega, ?_⟩
      rw [append_eq_append_iff_of_length_le here shorter, same]
  obtain ⟨shorter, same⟩ := behind later
  rw [layOut, layOut, append_eq_append_iff_of_length_le (length_collapse_le first) shorter, same, List.forall_mem_cons]

/-- What a stretch of a source becomes on one line: each of its lexemes is collapsed, with a space where a gap was,
however the stretch is divided into lexemes, and they are all kept exactly when each is tidy and on one line. -/
structure Squeezes (covered text : List Char) : Prop where
  /-- The text holds the words of the stretch with single spaces between them. -/
  collapsed : text = collapse covered
  /-- No two blanks are next to each other, and none stands at an end. -/
  tidy : IsTidy text
  /-- The text stands on one line. -/
  oneLine : IsOneLine text
  /-- Each lexeme is collapsed, and a gap becomes a space. -/
  lexemes : ∀ before first later behind, (∀ c ∈ before, isBlank c = true) → (∀ c ∈ behind, isBlank c = true) →
    AreLexemes first later → covered = before ++ (layOut first later ++ behind) →
      text = layOut (collapse first) (later.map fun part => (gapOnLine part.1, collapse part.2)) ∧
      (text = layOut first (later.map fun part => (gapOnLine part.1, part.2)) ↔
        ∀ lexeme ∈ first :: later.map Prod.snd, IsTidy lexeme ∧ IsOneLine lexeme)

/-- A stretch of a source becomes its collapsed text. -/
theorem squeezes_collapse (covered : List Char) : Squeezes covered (collapse covered) := by
  refine ⟨rfl, isTidy_collapse covered, isOneLine_collapse covered, ?_⟩
  rintro before first later behind blank blank' lexemes rfl
  have whole : collapse (before ++ (layOut first later ++ behind)) = collapse (layOut first later) := by
    obtain ⟨⟨some_char, front, _⟩, _⟩ := lexemes
    obtain ⟨c, rest, rfl⟩ := List.exists_cons_of_ne_nil some_char
    exact collapse_between blank blank' (front c rfl) _
  rw [whole, collapse_layOut lexemes, layOut_collapse_eq_iff]
  simp only [collapse_eq_self_iff, true_and]

end SourceOutline.Text
