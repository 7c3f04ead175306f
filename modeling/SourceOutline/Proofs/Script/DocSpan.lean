import SourceOutline.Proofs.Script.DocSearch
import SourceOutline.Proofs.Script.Positions

/-! What documents a declaration is one stretch of the source, told by where it opens and closes. -/

namespace SourceOutline.Script

open Text

/-- A stretch of a source upon which the search upward from a line comes, within a window. -/
structure IsFound (source : List Char) (window line : Nat) (before span after : List Char) : Prop where
  /-- The source consists of it and of what stands around it. -/
  whole : source = before ++ span ++ after
  /-- It opens documentation. -/
  opens : opensDoc span = true
  /-- It closes at its end. -/
  closes : ['*', '/'] <:+ span
  /-- No delimiter opens further left on its first line. -/
  first : ∀ front ∈ (sourceLines before).getLast?, ¬ ['/', '*'] <:+: front
  /-- No delimiter opens on its other lines. -/
  later : ∀ other ∈ (sourceLines span).tail, ¬ ['/', '*'] <:+: other
  /-- Only blanks stand behind it on its last line. -/
  last : ∀ rest ∈ (sourceLines after).head?, ∀ c ∈ rest, isBlank c = true
  /-- Its last line is none to be skipped. -/
  firm : ∀ closing ∈ (sourceLines (before ++ span)).getLast?, isSkipped closing = false
  /-- It ends above the given line. -/
  above : (sourceLines (before ++ span)).length < line
  /-- Only lines to be skipped stand between. -/
  between : ∀ other ∈ ((sourceLines source).take (line - 1)).drop (sourceLines (before ++ span)).length,
    isSkipped other = true
  /-- It opens within the window. -/
  within : min (line - 1) (sourceLines source).length < (sourceLines before).length + window

/-- The search for the end passes lines to be skipped and stops at a line that closes a comment. -/
theorem blockAbove_eq_some_iff {lines : List (List Char)} {text : List Char} :
    blockAbove lines = some text ↔ ∃ skipped closing above,
      lines = skipped ++ closing :: above ∧ (∀ line ∈ skipped, isSkipped line = true) ∧
        isSkipped closing = false ∧ ['*', '/'] <:+ trim closing ∧
          findBlock [] (closing :: above) = some text := by
  constructor
  · intro found
    induction lines with
    | nil => simp [blockAbove] at found
    | cons line rest ih =>
      simp only [blockAbove] at found
      split at found
      · rename_i skip
        obtain ⟨skipped, closing, above, rfl, all, firm, closes, inner⟩ := ih found
        exact ⟨line :: skipped, closing, above, rfl, by simpa using ⟨skip, all⟩, firm, closes, inner⟩
      · rename_i firm
        split at found
        · rename_i closes
          exact ⟨[], line, rest, rfl, by simp, by simpa using firm,
            List.isSuffixOf_iff_suffix.mp closes, found⟩
        · cases found
  · rintro ⟨skipped, closing, above, rfl, all, firm, closes, found⟩
    rw [blockAbove_append_of_skipped all, blockAbove_of_closing firm closes, found]

/-- The search for the opening passes lines without a delimiter and reads from the first one on. -/
theorem findBlock_eq_some_iff {below lines : List (List Char)} {text : List Char} :
    findBlock below lines = some text ↔ ∃ later line above opening,
      lines = later.reverse ++ line :: above ∧ (∀ other ∈ later, fromFirst ['/', '*'] other = none) ∧
        fromFirst ['/', '*'] line = some opening ∧ opensDoc opening = true ∧
          text = blockText opening (later ++ below) := by
  induction lines generalizing below with
  | nil => simp [findBlock]
  | cons line above ih =>
    cases here : fromFirst ['/', '*'] line with
    | some opening =>
      -- The delimiter of this line decides; no later line can be passed first.
      constructor
      · intro found
        simp only [findBlock, here] at found
        split at found
        · rename_i documents
          exact ⟨[], line, above, opening, rfl, by simp, here, documents,
            (Option.some.inj found).symm⟩
        · cases found
      · rintro ⟨later, other, further, _, shape, passed, located, documents, rfl⟩
        rcases List.eq_nil_or_concat later with rfl | ⟨middle, lowest, rfl⟩
        · obtain ⟨rfl, rfl⟩ := List.cons.inj shape
          cases here.symm.trans located
          have documents : (['/', '*', '*'].isPrefixOf opening &&
            !(['/', '*', '*', '/'].isPrefixOf opening)) = true := documents
          simp [findBlock, here, documents]
        · have same : line = lowest := by
            rw [List.concat_eq_append, List.reverse_append] at shape
            exact (List.cons.inj shape).1
          have nothing := passed lowest (by simp)
          rw [← same, here] at nothing
          cases nothing
    | none =>
      rw [findBlock, here]
      simp only [ih]
      constructor
      · rintro ⟨later, other, further, opening, rfl, passed, located, documents, rfl⟩
        refine ⟨later ++ [line], other, further, opening, by simp, ?_, located, documents, by simp⟩
        intro next member
        rcases List.mem_append.mp member with inner | outer
        · exact passed next inner
        · rw [List.mem_singleton.mp outer, here]
      · rintro ⟨later, other, further, opening, shape, passed, located, documents, rfl⟩
        rcases List.eq_nil_or_concat later with rfl | ⟨middle, lowest, rfl⟩
        · rw [(List.cons.inj shape).1, located] at here
          cases here
        · rw [List.concat_eq_append] at shape passed ⊢
          rw [List.reverse_append] at shape
          obtain ⟨rfl, rfl⟩ := List.cons.inj shape
          exact ⟨middle, other, further, opening, rfl,
            fun next member => passed next (List.mem_append_left _ member), located, documents,
            by simp⟩

/-- Nothing is found exactly in a text that the pattern is no stretch of. -/
theorem fromFirst_eq_none_iff {pattern cs : List Char} :
    fromFirst pattern cs = none ↔ ¬ pattern <:+: cs := by
  constructor
  · rintro nothing ⟨before, after, rfl⟩
    obtain ⟨rest, found, _⟩ := exists_fromFirst_append pattern before after
    rw [nothing] at found
    cases found
  · intro lacks
    cases found : fromFirst pattern cs with
    | none => rfl
    | some rest =>
      obtain ⟨front, rfl, opens⟩ := eq_append_of_fromFirst found
      exact absurd (opens.isInfix.trans (List.suffix_append front rest).isInfix) lacks

/-- An opening delimiter is found where none stands before it. -/
theorem fromFirst_opening_iff {line opening : List Char} :
    fromFirst ['/', '*'] line = some opening ↔
      ∃ front, line = front ++ opening ∧ ['/', '*'] <+: opening ∧ ¬ ['/', '*'] <:+: front := by
  constructor
  · intro found
    obtain ⟨front, rfl, opens⟩ := eq_append_of_fromFirst found
    refine ⟨front, rfl, opens, ?_⟩
    rintro ⟨before, after, rfl⟩
    -- One that stands in the front would have been found with more text behind it.
    obtain ⟨rest, again, long⟩ := exists_fromFirst_append ['/', '*'] before (after ++ opening)
    rw [← List.append_assoc, found] at again
    cases again
    simp only [List.length_append, List.length_cons] at long
    omega
  · rintro ⟨front, rfl, opens, lacks⟩
    induction front with
    | nil => exact fromFirst_of_prefix opens
    | cons c rest ih =>
      have inner := ih fun inside => lacks (inside.trans (List.suffix_cons c rest).isInfix)
      have early : ['/', '*'].isPrefixOf (c :: (rest ++ opening)) = false := by
        -- The delimiter cannot begin in the front and end in what is opened.
        obtain ⟨text, rfl⟩ := opens
        rw [Bool.eq_false_iff]
        intro starts
        cases rest with
        | nil => simp at starts
        | cons next more =>
          exact lacks ⟨[], more, by simpa using starts⟩
      simp [fromFirst, early, inner]

/-- Two texts share the line in which the first one ends, unless a return is parted from its feed. -/
theorem sourceLines_append {front cs last first : List Char} {lines later : List (List Char)}
    (apart : front.getLast? = some '\r' → cs.head? ≠ some '\n')
    (before : sourceLines front = lines ++ [last]) (behind : sourceLines cs = first :: later) :
    sourceLines (front ++ cs) = lines ++ (last ++ first) :: later := by
  rw [sourceLines, unifyTerminators_append apart]
  exact splitLines_append_of_eq before behind

/-- Lines join as the text before a place in one of them and the text behind it. -/
theorem intercalate_append (above below : List (List Char)) (front back : List Char) :
    ['\n'].intercalate (above ++ (front ++ back) :: below) =
      ['\n'].intercalate (above ++ [front]) ++ ['\n'].intercalate (back :: below) := by
  induction above with
  | nil =>
    cases below with
    | nil => simp [List.intercalate]
    | cons next more => simp [List.intercalate]
  | cons line rest ih =>
    rw [List.cons_append, List.cons_append, intercalate_cons _ (by simp),
      intercalate_cons _ (by simp), ih, List.append_assoc, List.cons_append]

/-- No character of a line ends a line. -/
theorem isTerminator_eq_false {source line : List Char} (member : line ∈ sourceLines source) {c : Char}
    (inside : c ∈ line) : isTerminator c = false := by
  rw [Bool.eq_false_iff]
  intro ends
  obtain ⟨above, below, lines⟩ := List.append_of_mem member
  have joined := intercalate_append above below [] line
  rw [List.nil_append, ← lines, sourceLines, intercalate_splitLines] at joined
  have text : c ∈ ['\n'].intercalate (line :: below) := by
    cases below with
    | nil => simpa [List.intercalate] using inside
    | cons next more => simp [inside]
  have feed := eq_newline_of_mem_unifyTerminators (joined ▸ List.mem_append_right _ text) ends
  exact not_mem_of_mem_splitLines member (feed ▸ inside)

/-- A source is parted wherever one of its lines is, in front of a character. -/
theorem exists_sourceLines_append {source front back : List Char} {c : Char}
    {above below : List (List Char)} (lines : sourceLines source = above ++ (front ++ c :: back) :: below) :
    ∃ before after, source = before ++ c :: after ∧
      sourceLines before = above ++ [front] ∧ sourceLines (c :: after) = (c :: back) :: below := by
  have whole : ∀ line ∈ above ++ (front ++ c :: back) :: below, '\n' ∉ line := fun line member =>
    not_mem_of_mem_splitLines (by rwa [← lines, sourceLines] at member)
  have member : front ++ c :: back ∈ sourceLines source := by simp [lines]
  have plain : isTerminator c = false := isTerminator_eq_false member (by simp)
  have other : c ≠ '\n' := fun same => by simp [same, isTerminator] at plain
  -- Joined again, the lines part where the character stands.
  have joined : unifyTerminators source =
      ['\n'].intercalate (above ++ [front]) ++ ['\n'].intercalate ((c :: back) :: below) := by
    rw [← intercalate_splitLines (unifyTerminators source), ← sourceLines, lines, intercalate_append]
  obtain ⟨rest, starts⟩ : ∃ rest, ['\n'].intercalate ((c :: back) :: below) = c :: rest := by
    cases below with
    | nil => exact ⟨back, by simp [List.intercalate]⟩
    | cons next more => exact ⟨_, by rw [intercalate_cons _ (by simp), List.cons_append]⟩
  rw [starts] at joined
  obtain ⟨before, after, rfl, behind⟩ := eq_append_of_unifyTerminators other joined
  have kept : unifyTerminators (c :: after) = c :: rest := by
    rw [unifyTerminators_cons_of_plain plain, behind]
  have ahead : unifyTerminators before = ['\n'].intercalate (above ++ [front]) := by
    rw [unifyTerminators_append (by simp [other]), kept] at joined
    exact List.append_cancel_right joined
  refine ⟨before, after, rfl, ?_, ?_⟩
  · rw [sourceLines, ahead, splitLines_intercalate (by simp)]
    intro line member
    rcases List.mem_append.mp member with inner | outer
    · exact whole line (by simp [inner])
    · rw [List.mem_singleton.mp outer]
      have within := whole (front ++ c :: back) (by simp)
      exact fun feed => within (List.mem_append_left _ feed)
  · rw [sourceLines, kept, ← starts, splitLines_intercalate (by simp)]
    intro line member
    rcases List.mem_cons.mp member with rfl | lower
    · have within := whole (front ++ c :: back) (by simp)
      exact fun feed => within (List.mem_append_right _ feed)
    · exact whole line (by simp [lower])

/-- A character that ends no line is put in front of the first line. -/
theorem sourceLines_cons {c : Char} (plain : isTerminator c = false) (cs : List Char) :
    sourceLines (c :: cs) = consLine c (sourceLines cs) := by
  have other : c ≠ '\n' := fun same => by simp [same, isTerminator] at plain
  rw [sourceLines, unifyTerminators_cons_of_plain plain, splitLines_cons other, sourceLines]

/-- A character that ends a line leaves nothing on the first line. -/
theorem exists_sourceLines_eq_nil_cons {c : Char} (ends : isTerminator c = true) (cs : List Char) :
    ∃ later, sourceLines (c :: cs) = [] :: later := by
  rw [sourceLines, unifyTerminators_cons]
  split
  · -- The line feed behind a silent return ends the line for both.
    rename_i silent
    obtain ⟨rest, rfl⟩ := List.head?_eq_some_iff.mp silent.2
    rw [unifyTerminators_cons, if_neg (by simp)]
    exact ⟨_, splitLines_newline _⟩
  · exact ⟨_, splitLines_newline _⟩

/-- A pattern within one line begins a text exactly when it begins the first line. -/
theorem prefix_sourceLines_iff {pattern : List Char} (whole : ∀ c ∈ pattern, isTerminator c = false)
    {text first : List Char} {later : List (List Char)} (lines : sourceLines text = first :: later) :
    pattern <+: first ↔ pattern <+: text := by
  induction pattern generalizing text first later with
  | nil => simp
  | cons d rest ih =>
    cases text with
    | nil =>
      obtain ⟨rfl, _⟩ := List.cons.inj (show [] :: [] = first :: later from lines)
      rfl
    | cons c cs =>
      cases ends : isTerminator c with
      | true =>
        obtain ⟨more, shape⟩ := exists_sourceLines_eq_nil_cons ends cs
        obtain ⟨rfl, _⟩ := List.cons.inj (shape.symm.trans lines)
        have apart : d ≠ c := by
          rintro rfl
          exact absurd (whole d List.mem_cons_self) (by simp [ends])
        simp [apart]
      | false =>
        rw [sourceLines_cons ends] at lines
        obtain ⟨start, more, inner⟩ := List.exists_cons_of_ne_nil (splitLines_ne_nil (unifyTerminators cs))
        rw [sourceLines, inner] at lines
        obtain ⟨rfl, rfl⟩ := List.cons.inj lines
        have deeper := ih (fun other member => whole other (List.mem_cons_of_mem d member))
          (show sourceLines cs = start :: more from inner)
        simp [deeper]

/-- A text opens documentation exactly when its first line does. -/
theorem opensDoc_sourceLines {text first : List Char} {later : List (List Char)}
    (lines : sourceLines text = first :: later) : opensDoc first = opensDoc text := by
  have same : ∀ delimiter : List Char, (∀ c ∈ delimiter, isTerminator c = false) →
      delimiter.isPrefixOf first = delimiter.isPrefixOf text := by
    intro delimiter whole
    rw [Bool.eq_iff_iff, List.isPrefixOf_iff_prefix, List.isPrefixOf_iff_prefix]
    exact prefix_sourceLines_iff whole lines
  rw [opensDoc, opensDoc, same _ (forall_mem_of_all (by decide)), same _ (forall_mem_of_all (by decide))]

/-- A text that ends in a closing delimiter has it at the end of its last line. -/
theorem exists_sourceLines_of_closes {text : List Char} (closes : ['*', '/'] <:+ text) :
    ∃ lines cut, sourceLines text = lines ++ [cut] ∧ ['*', '/'] <:+ cut := by
  obtain ⟨front, rfl⟩ := closes
  obtain ⟨lines, last, before⟩ := exists_splitLines_eq (unifyTerminators front)
  refine ⟨lines, last ++ ['*', '/'], ?_, List.suffix_append _ _⟩
  exact sourceLines_append (by simp) before (by decide)

/-- The last of some lines is the one that grows. -/
theorem endingIn_append (tail : List Char) (lines : List (List Char)) (last : List Char) :
    endingIn tail (lines ++ [last]) = lines ++ [last ++ tail] := by
  induction lines with
  | nil => rfl
  | cons line rest ih =>
    cases rest with
    | nil => rfl
    | cons next more => exact congrArg (line :: ·) ih

/-- There are as many lines as before. -/
theorem length_endingIn (tail : List Char) (lines : List (List Char)) :
    (endingIn tail lines).length = lines.length := by
  rcases List.eq_nil_or_concat lines with rfl | ⟨rest, last, rfl⟩
  · rfl
  · simp [endingIn_append]

/-- A line closes a comment exactly when only blanks stand behind a closing delimiter. -/
theorem closes_trim_iff {line : List Char} :
    ['*', '/'] <:+ trim line ↔
      ∃ cut tail, line = cut ++ tail ∧ ['*', '/'] <:+ cut ∧ ∀ c ∈ tail, isBlank c = true := by
  constructor
  · intro closes
    have parts : trim line ++ ((trimStart line).reverse.takeWhile isBlank).reverse = trimStart line := by
      rw [trim, trimEnd, ← List.reverse_append, List.takeWhile_append_dropWhile, List.reverse_reverse]
    refine ⟨line.takeWhile isBlank ++ trim line, ((trimStart line).reverse.takeWhile isBlank).reverse, ?_,
      closes.trans (List.suffix_append _ _), ?_⟩
    · rw [List.append_assoc, parts, trimStart, List.takeWhile_append_dropWhile]
    · intro c member
      exact List.mem_takeWhile_imp (List.mem_reverse.mp member)
  · rintro ⟨cut, tail, rfl, closes, blank⟩
    rw [trim_append_blank blank]
    exact suffix_trim closes (forall_mem_of_all (by decide))

/-- The last of some lines is the first one met on the way up. -/
theorem getLast?_eq_head? (line : List Char) (later above : List (List Char)) :
    (line :: later).getLast? = (later.reverse ++ line :: above).head? := by
  rw [List.getLast?_eq_head?_reverse, List.reverse_cons]
  cases later.reverse <;> rfl

/-- The search upward through lines finds what is read from an opening in one of them, when the last
line from there on closes a comment and only lines to be skipped follow. -/
theorem blockAbove_reverse_eq_some_iff {lines : List (List Char)} {text : List Char} :
    blockAbove lines.reverse = some text ↔ ∃ above front opening later skipped,
      lines = above ++ (front ++ opening) :: later ++ skipped ∧
        (∀ line ∈ skipped, isSkipped line = true) ∧
        (∀ closing ∈ ((front ++ opening) :: later).getLast?,
          isSkipped closing = false ∧ ['*', '/'] <:+ trim closing) ∧
        ¬ ['/', '*'] <:+: front ∧ (∀ other ∈ later, ¬ ['/', '*'] <:+: other) ∧
        readFrom (opening :: later) = some text := by
  simp only [blockAbove_eq_some_iff, findBlock_eq_some_iff, fromFirst_opening_iff,
    fromFirst_eq_none_iff]
  constructor
  · rintro ⟨skipped, closing, further, shape, skips, firm, closes, later, line, above, opening, inner,
      passed, ⟨front, rfl, _, lacks⟩, documents, rfl⟩
    refine ⟨above.reverse, front, opening, later, skipped.reverse, ?_, by simpa using skips, ?_, lacks,
      passed, by simp [readFrom, documents]⟩
    · rw [inner] at shape
      simpa using congrArg List.reverse shape
    · intro other member
      rw [getLast?_eq_head? _ _ above, ← inner, List.head?_cons, Option.mem_some] at member
      exact member ▸ ⟨firm, closes⟩
  · rintro ⟨above, front, opening, later, skipped, rfl, skips, ends, lacks, passed, read⟩
    obtain ⟨documents, rfl⟩ : opensDoc opening = true ∧ blockText opening later = text := by
      simpa [readFrom] using read
    obtain ⟨closing, last⟩ : ∃ closing, ((front ++ opening) :: later).getLast? = some closing :=
      ⟨_, List.getLast?_eq_some_getLast (by simp)⟩
    obtain ⟨firm, closes⟩ := ends closing last
    have opens : ['/', '*'] <+: opening := by
      simp only [opensDoc, Bool.and_eq_true] at documents
      exact List.IsPrefix.trans ⟨['*'], rfl⟩ (List.isPrefixOf_iff_prefix.mp documents.1)
    rw [getLast?_eq_head? _ _ above.reverse] at last
    obtain ⟨further, same⟩ := List.head?_eq_some_iff.mp last
    exact ⟨skipped.reverse, closing, further, by simp [← same], by simpa using skips, firm, closes,
      later, _, _, opening, same.symm, passed, ⟨front, rfl, opens, lacks⟩, documents, by simp⟩

/-- The lines of a source around a stretch of it that opens and closes a comment, where blanks follow
on its last line: the stretch grows by what stands on its first line and by the blanks on its last. -/
theorem sourceLines_span {before span after front tail first : List Char}
    {above later behind : List (List Char)} (closes : ['*', '/'] <:+ span) (opens : opensDoc span = true)
    (ahead : sourceLines before = above ++ [front]) (lines : sourceLines span = first :: later)
    (past : sourceLines after = tail :: behind) :
    sourceLines (before ++ span) = above ++ (front ++ first) :: later ∧
      sourceLines (before ++ span ++ after) =
        above ++ endingIn tail ((front ++ first) :: later) ++ behind := by
  have joined : sourceLines (before ++ span) = above ++ (front ++ first) :: later := by
    refine sourceLines_append (fun _ feed => ?_) ahead lines
    obtain ⟨rest, rfl⟩ := List.head?_eq_some_iff.mp feed
    simp [opensDoc] at opens
  refine ⟨joined, ?_⟩
  obtain ⟨rest, last, whole⟩ : ∃ rest last, (front ++ first) :: later = rest ++ [last] :=
    ⟨_, _, (List.dropLast_concat_getLast (List.cons_ne_nil _ _)).symm⟩
  have apart : (before ++ span).getLast? = some '\r' → after.head? ≠ some '\n' := by
    obtain ⟨inner, rfl⟩ := closes
    simp
  rw [whole, ← List.append_assoc] at joined
  rw [sourceLines_append apart joined past, whole, endingIn_append]
  simp

/-- Only the first line knows what stands in front of it. -/
theorem exists_endingIn_cons (tail first : List Char) (later : List (List Char)) :
    ∃ opening, endingIn tail (first :: later) = opening :: endingIn tail later ∧
      ∀ front, endingIn tail ((front ++ first) :: later) = (front ++ opening) :: endingIn tail later := by
  cases later with
  | nil => exact ⟨first ++ tail, rfl, fun front => by simp [endingIn]⟩
  | cons next more => exact ⟨first, rfl, fun front => rfl⟩

/-- Padding behind the last line opens nothing. -/
theorem opening_endingIn_iff {tail : List Char} (padding : IsPadding tail) (lines : List (List Char)) :
    (∀ line ∈ endingIn tail lines, ¬ ['/', '*'] <:+: line) ↔ ∀ line ∈ lines, ¬ ['/', '*'] <:+: line := by
  have kept : ∀ line, fromFirst ['/', '*'] (line ++ tail) = none ↔ fromFirst ['/', '*'] line = none := by
    intro line
    rw [fromFirst_append (padding.not_mem (by simp)) (by simp), Option.map_eq_none_iff]
  rcases List.eq_nil_or_concat lines with rfl | ⟨rest, last, rfl⟩
  · simp [endingIn]
  · simp only [← fromFirst_eq_none_iff, List.concat_eq_append, endingIn_append, List.forall_mem_append,
      List.forall_mem_singleton, kept]

/-- A line that closes the comment it opens does so whatever stands in front. -/
theorem closes_trim_of_append {front opening : List Char} (documents : opensDoc opening = true)
    (closes : ['*', '/'] <:+ trim (front ++ opening)) : ['*', '/'] <:+ trim opening := by
  obtain ⟨cut, tail, same, ends, blank⟩ := closes_trim_iff.mp closes
  simp only [opensDoc, Bool.and_eq_true] at documents
  have opens := List.isPrefixOf_iff_prefix.mp documents.1
  have foreign : ∀ c ∈ tail, c ∉ ['/', '*', '*'] := by
    intro c member inside
    have loud : isBlank c = false := forall_mem_of_all (by decide) c inside
    simp [blank c member] at loud
  rcases List.append_eq_append_iff.mp same with ⟨inner, rfl, rfl⟩ | ⟨rest, rfl, rfl⟩
  · have long := (prefix_of_prefix_append foreign opens).length_le
    have within : ['*', '/'] <:+ inner :=
      List.suffix_of_suffix_length_le ends (List.suffix_append front inner)
        (Nat.le_trans (by decide) long)
    exact closes_trim_iff.mpr ⟨inner, tail, rfl, within, blank⟩
  · -- What opens the comment would be blank.
    obtain ⟨text, rfl⟩ := opens
    exact absurd (by simp) (foreign '/' (by simp))

/-- The first character of the first line is the first one of the text. -/
theorem exists_cons_of_sourceLines {cs back : List Char} {c : Char} {below : List (List Char)}
    (lines : sourceLines cs = (c :: back) :: below) :
    ∃ after, cs = c :: after ∧ sourceLines after = back :: below := by
  cases cs with
  | nil => simp [sourceLines] at lines
  | cons d rest =>
    cases ends : isTerminator d with
    | true =>
      obtain ⟨later, shape⟩ := exists_sourceLines_eq_nil_cons ends rest
      rw [shape] at lines
      cases lines
    | false =>
      rw [sourceLines_cons ends] at lines
      cases inner : sourceLines rest with
      | nil => exact absurd inner (splitLines_ne_nil _)
      | cons first later =>
        rw [inner] at lines
        cases lines
        exact ⟨rest, rfl, inner⟩

/-- A window that reaches far enough shows the lines right above a line, and maybe others. -/
theorem linesAbove_eq_reverse {lines above near : List (List Char)} {window line : Nat}
    (taken : lines.take (line - 1) = above ++ near) (within : near.length ≤ window) :
    ∃ further, linesAbove lines window line = (further ++ near).reverse := by
  refine ⟨(above.reverse.take (window - near.length)).reverse, ?_⟩
  simp [linesAbove, taken, List.take_append, List.take_of_length_le, within]

namespace IsFound

variable {source before span after : List Char} {window line : Nat}

/-- What is found is what the lines above tell. -/
theorem docAbove_eq (found : IsFound source window line before span after) :
    docAbove (sourceLines source) window line = some (DocComment.ofBlock (unifyTerminators span)) := by
  obtain ⟨above, front, ahead⟩ : ∃ above front, sourceLines before = above ++ [front] :=
    exists_splitLines_eq _
  obtain ⟨first, later, lines⟩ : ∃ first later, sourceLines span = first :: later :=
    List.exists_cons_of_ne_nil (splitLines_ne_nil _)
  obtain ⟨tail, behind, past⟩ : ∃ tail behind, sourceLines after = tail :: behind :=
    List.exists_cons_of_ne_nil (splitLines_ne_nil _)
  obtain ⟨joined, whole⟩ := sourceLines_span found.closes found.opens ahead lines past
  obtain ⟨opening, grown, fronted⟩ := exists_endingIn_cons tail first later
  have padding : IsPadding tail := fun c member =>
    ⟨found.last tail (by rw [past]; rfl) c member,
      isTerminator_eq_false (by rw [past]; exact List.mem_cons_self) member⟩
  -- The lines above the given one are those before, those of the stretch, and some to be skipped.
  have count : (sourceLines (before ++ span)).length = above.length + (later.length + 1) := by
    rw [joined, List.length_append, List.length_cons]
  have size : (endingIn tail later).length = later.length := length_endingIn tail later
  obtain ⟨skipped, taken, rest⟩ : ∃ skipped,
      (sourceLines source).take (line - 1) =
        above ++ ((front ++ opening) :: endingIn tail later) ++ skipped ∧
      ((sourceLines source).take (line - 1)).drop (sourceLines (before ++ span)).length = skipped := by
    have reach := found.above
    have shape : (sourceLines source).take (line - 1) =
        above ++ ((front ++ opening) :: endingIn tail later) ++
          behind.take (line - 1 - (above.length + (later.length + 1))) := by
      rw [found.whole, whole, fronted, List.take_append, List.take_of_length_le]
      · simp [size]
      · simp [size]
        omega
    refine ⟨_, shape, ?_⟩
    rw [shape, List.drop_left']
    simp [count, size]
  have skips : ∀ other ∈ skipped, isSkipped other = true := rest ▸ found.between
  have near : (((front ++ opening) :: endingIn tail later) ++ skipped).length ≤ window := by
    have within := found.within
    rw [← List.length_take, taken, ahead] at within
    simp at within ⊢
    omega
  obtain ⟨further, seen⟩ := linesAbove_eq_reverse (taken.trans (List.append_assoc _ _ _)) near
  rw [← List.append_assoc] at seen
  -- The stretch is read as it stands, without the blanks behind it.
  have read : readFrom (opening :: endingIn tail later) = some (unifyTerminators span) := by
    have ends : ∀ last, (first :: later).getLast? = some last → ['*', '/'] <:+ last := by
      intro last isLast
      obtain ⟨others, cut, shape, closes⟩ := exists_sourceLines_of_closes found.closes
      rw [← lines, shape, List.getLast?_concat] at isLast
      exact Option.some.inj isLast ▸ closes
    rw [← grown, readFrom_endingIn padding ends, opensDoc_sourceLines lines, if_pos found.opens, ← lines,
      sourceLines, intercalate_splitLines]
  rw [docAbove, seen, blockAbove_reverse_eq_some_iff.mpr ?_, Option.map_some]
  refine ⟨_, front, opening, endingIn tail later, skipped, rfl, skips, ?_, ?_, ?_, read⟩
  · intro closing isLast
    rw [← fronted, getLast?_endingIn, Option.mem_def, Option.map_eq_some_iff] at isLast
    obtain ⟨last, isLast, rfl⟩ := isLast
    have ending : (sourceLines (before ++ span)).getLast? = some last := by
      rw [joined, List.getLast?_append_of_ne_nil _ (by simp), isLast]
    refine ⟨(isSkipped_append padding last).trans (found.firm last ending), ?_⟩
    obtain ⟨others, cut, shape, closes⟩ :=
      exists_sourceLines_of_closes (found.closes.trans (List.suffix_append before span))
    rw [shape, List.getLast?_concat] at ending
    obtain rfl := Option.some.inj ending
    exact closes_trim_iff.mpr ⟨_, tail, rfl, closes, padding.blank⟩
  · exact found.first front (by rw [ahead, List.getLast?_concat]; rfl)
  · rw [opening_endingIn_iff padding]
    have others := found.later
    rwa [lines] at others

end IsFound

/-- Lines from an opening delimiter to a closing one are those of a stretch of the source. -/
theorem exists_span {source front opening : List Char} {above more behind : List (List Char)}
    (lines : sourceLines source = above ++ (front ++ opening) :: more ++ behind)
    (documents : opensDoc opening = true)
    (closes : ∀ closing ∈ ((front ++ opening) :: more).getLast?, ['*', '/'] <:+ trim closing) :
    ∃ before span after first later tail, source = before ++ span ++ after ∧ opensDoc span = true ∧
      ['*', '/'] <:+ span ∧ sourceLines before = above ++ [front] ∧ sourceLines span = first :: later ∧
      sourceLines after = tail :: behind ∧ IsPadding tail ∧
      endingIn tail (first :: later) = opening :: more := by
  -- The last line is cut behind the closing delimiter.
  obtain ⟨others, last, whole⟩ : ∃ others last, opening :: more = others ++ [last] :=
    ⟨_, _, (List.dropLast_concat_getLast (List.cons_ne_nil _ _)).symm⟩
  have ends : ['*', '/'] <:+ trim last := by
    cases more with
    | nil =>
      obtain rfl : opening = last := by
        cases others <;> simp_all
      exact closes_trim_of_append documents (closes _ rfl)
    | cons next later =>
      refine closes last ?_
      rw [List.getLast?_cons_cons, ← List.getLast?_cons_cons (a := opening), whole, List.getLast?_concat]
      rfl
  obtain ⟨cut, tail, rfl, ⟨text, rfl⟩, blank⟩ := closes_trim_iff.mp ends
  -- The opening delimiter parts the source, and the closing one parts the rest.
  obtain ⟨rest, rfl⟩ : ∃ rest, opening = '/' :: rest := by
    simp only [opensDoc, Bool.and_eq_true] at documents
    obtain ⟨rest, rfl⟩ := List.isPrefixOf_iff_prefix.mp documents.1
    exact ⟨_, rfl⟩
  rw [List.append_assoc, List.cons_append] at lines
  obtain ⟨before, further, rfl, ahead, inner⟩ := exists_sourceLines_append lines
  rw [← List.cons_append, whole, List.append_assoc, List.append_assoc] at inner
  have inner : sourceLines ('/' :: further) = others ++ (text ++ '*' :: ('/' :: tail)) :: behind := inner
  obtain ⟨start, ending, same, begun, stopped⟩ := exists_sourceLines_append inner
  obtain ⟨_, shape, stopped⟩ := exists_cons_of_sourceLines stopped
  obtain rfl := (List.cons.inj shape).2
  obtain ⟨after, rfl, past⟩ := exists_cons_of_sourceLines stopped
  have lines : sourceLines (start ++ ['*', '/']) = others ++ [text ++ ['*', '/']] :=
    sourceLines_append (by simp) begun (by decide)
  obtain ⟨first, later, split⟩ : ∃ first later, others ++ [text ++ ['*', '/']] = first :: later :=
    List.exists_cons_of_ne_nil (by simp)
  have padding : IsPadding tail := fun c member =>
    ⟨blank c member, isTerminator_eq_false (by rw [past]; exact List.mem_cons_self) member⟩
  have grown : endingIn tail (first :: later) = ('/' :: rest) :: more := by
    rw [← split, endingIn_append, whole]
  have opens : opensDoc (start ++ ['*', '/']) = true := by
    rw [← opensDoc_sourceLines (lines.trans split)]
    cases later with
    | nil =>
      have same : first ++ tail = '/' :: rest := (List.cons.inj grown).1
      rwa [← same, opensDoc_append padding] at documents
    | cons next lower => exact (List.cons.inj grown).1 ▸ documents
  exact ⟨before, start ++ ['*', '/'], after, first, later, tail, by simp [same], opens,
    List.suffix_append _ _, ahead, lines.trans split, past, padding, grown⟩

/-- What is found above a line is a stretch of the source. -/
theorem exists_isFound {source : List Char} {window line : Nat} {doc : DocComment}
    (found : docAbove (sourceLines source) window line = some doc) :
    ∃ before span after, IsFound source window line before span after ∧
      DocComment.ofBlock (unifyTerminators span) = doc := by
  obtain ⟨text, search, rfl⟩ := Option.map_eq_some_iff.mp found
  -- The lines in sight are the last ones above the line.
  obtain ⟨hidden, visible, taken, seen, reach⟩ : ∃ hidden visible,
      (sourceLines source).take (line - 1) = hidden ++ visible ∧
      linesAbove (sourceLines source) window line = visible.reverse ∧
      min (line - 1) (sourceLines source).length ≤ hidden.length + window := by
    refine ⟨_, _, (List.take_append_drop
      (((sourceLines source).take (line - 1)).length - window) _).symm, ?_, ?_⟩
    · rw [linesAbove, List.take_reverse]
    · rw [List.length_take, List.length_take]
      omega
  rw [seen] at search
  obtain ⟨above, front, opening, more, skipped, rfl, skips, ends, lacks, passed, read⟩ :=
    blockAbove_reverse_eq_some_iff.mp search
  have documents : opensDoc opening = true := by
    simp only [readFrom] at read
    split at read
    · assumption
    · cases read
  have split : sourceLines source = (hidden ++ above) ++ (front ++ opening) :: more ++
      (skipped ++ (sourceLines source).drop (line - 1)) := by
    have parts := List.take_append_drop (line - 1) (sourceLines source)
    rw [taken] at parts
    simpa using parts.symm
  obtain ⟨before, span, after, first, later, tail, whole, opens, closes, ahead, lines, past, padding,
    grown⟩ := exists_span split documents fun closing isLast => (ends closing isLast).2
  obtain ⟨joined, -⟩ := sourceLines_span closes opens ahead lines past
  obtain ⟨start, grown', fronted⟩ := exists_endingIn_cons tail first later
  obtain ⟨rfl, rfl⟩ := List.cons.inj (grown'.symm.trans grown)
  have count : (sourceLines (before ++ span)).length = hidden.length + above.length + (later.length + 1) := by
    rw [joined, List.length_append, List.length_append, List.length_cons]
  have size : (endingIn tail later).length = later.length := length_endingIn tail later
  have total := congrArg List.length taken
  simp only [List.length_take, List.length_append, List.length_cons, size] at total
  refine ⟨before, span, after, ⟨whole, opens, closes, ?first, ?later, ?last, ?firm, ?above,
    ?between, ?within⟩, ?_⟩
  case first =>
    intro other isLast
    rw [ahead, List.getLast?_concat, Option.mem_some] at isLast
    exact isLast ▸ lacks
  case later =>
    rw [lines]
    exact (opening_endingIn_iff padding later).mp passed
  case last =>
    intro rest isFirst
    rw [past, List.head?_cons, Option.mem_some] at isFirst
    exact isFirst ▸ padding.blank
  case firm =>
    intro closing isLast
    rw [joined, List.getLast?_append_of_ne_nil _ (by simp)] at isLast
    have ending : closing ++ tail ∈ ((front ++ start) :: endingIn tail later).getLast? := by
      rw [← fronted, getLast?_endingIn, Option.mem_def.mp isLast]
      rfl
    exact (isSkipped_append padding closing).symm.trans (ends _ ending).1
  case above => omega
  case between =>
    rw [taken, count]
    intro other member
    refine skips other ?_
    rw [← List.append_assoc, ← List.append_assoc, List.drop_left' (by simp [size]; omega)] at member
    exact member
  case within =>
    rw [ahead, List.length_append, List.length_append, List.length_singleton]
    omega
  · -- The blanks behind the stretch are cut off when it is read.
    have closed : ∀ last, (first :: later).getLast? = some last → ['*', '/'] <:+ last := by
      intro last isLast
      obtain ⟨others, cut, shape, ending⟩ := exists_sourceLines_of_closes closes
      rw [← lines, shape, List.getLast?_concat] at isLast
      exact Option.some.inj isLast ▸ ending
    rw [← grown, readFrom_endingIn padding closed, opensDoc_sourceLines lines, if_pos opens, ← lines,
      sourceLines, intercalate_splitLines] at read
    rw [Option.some.inj read]

/-- What opens documentation and ends in a closing delimiter is a comment block, or one with a text
behind it that ends in a closing delimiter, too. -/
theorem isDocBlock_or {span : List Char} (opens : opensDoc span = true) (closes : ['*', '/'] <:+ span) :
    IsDocBlock span ∨ ∃ comment swallowed, span = comment ++ swallowed ∧ IsDocBlock comment ∧
      ['*', '/'] <:+ swallowed := by
  simp only [opensDoc, Bool.and_eq_true, Bool.not_eq_true', ← Bool.not_eq_true,
    List.isPrefixOf_iff_prefix] at opens
  obtain ⟨asterisks, proper⟩ := opens
  -- The block ends at the first closing delimiter.
  obtain ⟨front, same⟩ := closes
  obtain ⟨rest, found, _⟩ := exists_fromFirst_append ['*', '/'] front []
  rw [List.append_nil, same] at found
  obtain ⟨inner, rfl, swallowed, rfl⟩ := eq_append_of_fromFirst found
  rw [← List.append_assoc] at same found asterisks proper ⊢
  have isBlock : IsDocBlock (inner ++ ['*', '/']) := by
    refine ⟨?_, List.suffix_append _ _, ?_, ?_⟩
    · have starts : inner ++ ['*', '/'] <+: inner ++ ['*', '/'] ++ swallowed := List.prefix_append _ _
      refine List.prefix_of_prefix_length_le asterisks starts ?_
      rcases inner with _ | ⟨first, _ | ⟨second, more⟩⟩
      · simp at asterisks
      · simp at asterisks
      · simp
    · intro before after shape
      obtain ⟨later, again, long⟩ := exists_fromFirst_append ['*', '/'] before (after ++ swallowed)
      rw [← List.append_assoc, ← shape, found] at again
      cases again
      simpa using long
    · intro empty
      exact proper (empty ▸ List.prefix_append _ _)
  rcases List.eq_nil_or_concat swallowed with rfl | ⟨others, last, rfl⟩
  · exact .inl (by simpa using isBlock)
  · refine .inr ⟨_, _, rfl, isBlock, ?_⟩
    rw [List.concat_eq_append] at same ⊢
    have ends : ['*', '/'] <:+ inner ++ ['*', '/'] ++ (others ++ [last]) := ⟨front, same⟩
    refine List.suffix_of_suffix_length_le ends (List.suffix_append _ _) ?_
    cases others with
    | nil =>
      -- A single character more would leave a slash where the asterisk is.
      have apart := congrArg (fun text => text.reverse.drop 1 |>.head?) same
      simp at apart
    | cons _ _ => simp

/-- What documents a line is read from one stretch of the source, from the last opening delimiter in
sight to the closing one right above the line: a comment block, or one with all that stands between
it and the end of a line that closes another comment. -/
theorem docAbove_eq_some_iff {source : List Char} {window line : Nat} {doc : DocComment} :
    docAbove (sourceLines source) window line = some doc ↔ ∃ before span after,
      IsFound source window line before span after ∧
        (IsDocBlock span ∨ ∃ comment swallowed, span = comment ++ swallowed ∧ IsDocBlock comment ∧
          ['*', '/'] <:+ swallowed) ∧
        DocComment.ofBlock (unifyTerminators span) = doc := by
  constructor
  · intro documented
    obtain ⟨before, span, after, found, same⟩ := exists_isFound documented
    exact ⟨before, span, after, found, isDocBlock_or found.opens found.closes, same⟩
  · rintro ⟨before, span, after, found, -, rfl⟩
    exact found.docAbove_eq

/-- Code between two comments on one line is taken for documentation. -/
example : docAbove (sourceLines "/** A */ let x = 1; /** B */\nf".toList) 10 2 =
    some (DocComment.ofBlock "/** A */ let x = 1; /** B */".toList) := by decide

end SourceOutline.Script
