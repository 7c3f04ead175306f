import Mathlib.Data.List.Basic
import SourceOutline.Proofs.Text.Lines
import SourceOutline.Proofs.Text.Search
import SourceOutline.Script.DocSearch

/-! The comment block above a declaration is read as a whole exactly when no line of it misleads. -/

namespace SourceOutline.Script

open Text

/-- A comment block of documentation: delimited, more than its delimiters, and closed only once. -/
structure IsDocBlock (block : List Char) : Prop where
  /-- It opens with two asterisks. -/
  opens : ['/', '*', '*'] <+: block
  /-- It closes at its end. -/
  closes : ['*', '/'] <:+ block
  /-- It closes nowhere else. -/
  once : ∀ before after, block = before ++ ['*', '/'] ++ after → after = []
  /-- The second asterisk does not close it. -/
  proper : block ≠ ['/', '*', '*', '/']

/-- A block closes only at its end when that is the first closing delimiter. -/
theorem isDocBlock_iff {block : List Char} :
    IsDocBlock block ↔ ['/', '*', '*'] <+: block ∧
      fromFirst ['*', '/'] block = some ['*', '/'] ∧ block ≠ ['/', '*', '*', '/'] := by
  constructor
  · intro isBlock
    refine ⟨isBlock.opens, ?_, isBlock.proper⟩
    -- The block closes somewhere, and whatever comes first has nothing behind it.
    obtain ⟨front, same⟩ := isBlock.closes
    obtain ⟨rest, found, _⟩ := exists_fromFirst_append ['*', '/'] front []
    rw [List.append_nil, same] at found
    obtain ⟨before, shape, after, rfl⟩ := eq_append_of_fromFirst found
    have nothing := isBlock.once before after (by rw [shape, List.append_assoc])
    rw [found, nothing]
    rfl
  · rintro ⟨opens, found, proper⟩
    obtain ⟨front, same, _⟩ := eq_append_of_fromFirst found
    refine ⟨opens, ⟨front, same.symm⟩, ?_, proper⟩
    intro before after shape
    obtain ⟨rest, again, short⟩ := exists_fromFirst_append ['*', '/'] before after
    rw [← shape, found] at again
    cases again
    simpa using short

instance (block : List Char) : Decidable (IsDocBlock block) := decidable_of_iff _ isDocBlock_iff.symm

/-- Blanks within a line. -/
def IsPadding (cs : List Char) : Prop :=
  -- Some terminators are blanks too.
  ∀ c ∈ cs, isBlank c = true ∧ isTerminator c = false

instance (cs : List Char) : Decidable (IsPadding cs) :=
  decidable_of_iff ((cs.all fun c => isBlank c && !isTerminator c) = true) (by simp [IsPadding])

/-- The lines from the last opening delimiter on, where the first delimiter of a line counts. -/
def lastOpening : List (List Char) → Option (List (List Char))
  | [] => none
  | line :: below =>
    -- A line further down wins.
    match lastOpening below with
    | some found => some found
    | none => (fromFirst ['/', '*'] line).map fun opening => opening :: below

/-- A text opens documentation and not an empty comment. -/
def opensDoc (opening : List Char) : Bool :=
  -- The empty comment starts with the same three characters.
  ['/', '*', '*'].isPrefixOf opening && !(['/', '*', '*', '/'].isPrefixOf opening)

/-- What a search that meets an opening line first makes of it and of the lines below. -/
def readFrom : List (List Char) → Option (List Char)
  | [] => none
  | opening :: below => if opensDoc opening then some (blockText opening below) else none

/-- A comment block whose lines do not mislead a search from its end: the last line does not look
like one to be skipped, and an opening delimiter behind the first line changes nothing. -/
structure IsReadWhole (block : List Char) : Prop where
  /-- A last line that is not the first one opens no decorator and no line comment. -/
  ended : ∀ line ∈ ((sourceLines block).drop 1).getLast?, isSkipped line = false
  /-- The part from the last opening delimiter on documents the same as the whole. -/
  unbroken : ∀ lines ∈ lastOpening ((sourceLines block).drop 1),
    lines.head?.any opensDoc = true ∧
      DocComment.ofBlock (['\n'].intercalate lines) = DocComment.ofBlock (unifyTerminators block)

/-- Padding holds no character of a delimiter and no line feed. -/
theorem IsPadding.foreign {cs : List Char} (padding : IsPadding cs) {c : Char} (member : c ∈ cs) :
    c ≠ '/' ∧ c ≠ '*' ∧ c ≠ '\n' := by
  refine ⟨?_, ?_, ?_⟩ <;> rintro rfl
  · exact absurd (padding _ member).1 (by decide)
  · exact absurd (padding _ member).1 (by decide)
  · exact absurd (padding _ member).2 (by decide)

/-- Padding consists of blanks. -/
theorem IsPadding.blank {cs : List Char} (padding : IsPadding cs) : ∀ c ∈ cs, isBlank c = true :=
  fun c member => (padding c member).1

/-- Padding holds no line feed. -/
theorem IsPadding.newline_not_mem {cs : List Char} (padding : IsPadding cs) : '\n' ∉ cs :=
  fun member => (padding.foreign member).2.2 rfl

/-- Padding has no character in common with a delimiter. -/
theorem IsPadding.not_mem {cs : List Char} (padding : IsPadding cs) {delimiter : List Char}
    (delimits : ∀ c ∈ delimiter, c = '/' ∨ c = '*') : ∀ c ∈ cs, c ∉ delimiter := by
  intro c member inside
  rcases delimits c inside with same | same
  · exact (padding.foreign member).1 same
  · exact (padding.foreign member).2.1 same

/-- Padding behind a line does not decide whether the line is skipped. -/
theorem isSkipped_append {tail : List Char} (padding : IsPadding tail) (line : List Char) :
    isSkipped (line ++ tail) = isSkipped line := by
  simp [isSkipped, trim_append_blank padding.blank]

/-- Padding behind an opening line does not decide what it opens. -/
theorem opensDoc_append {tail : List Char} (padding : IsPadding tail) (opening : List Char) :
    opensDoc (opening ++ tail) = opensDoc opening := by
  have same : ∀ delimiter : List Char, (∀ c ∈ delimiter, c = '/' ∨ c = '*') →
      delimiter.isPrefixOf (opening ++ tail) = delimiter.isPrefixOf opening := by
    intro delimiter delimits
    rw [Bool.eq_iff_iff, List.isPrefixOf_iff_prefix, List.isPrefixOf_iff_prefix]
    exact ⟨prefix_of_prefix_append (padding.not_mem delimits),
      fun opens => opens.trans (List.prefix_append opening tail)⟩
  rw [opensDoc, opensDoc, same _ (by simp), same _ (by simp)]

/-- A line without a closing delimiter does not end in one, however it is trimmed. -/
theorem isSuffixOf_trim_eq_false {line : List Char} (unclosed : ¬ ['*', '/'] <:+: line) :
    ['*', '/'].isSuffixOf (trim line) = false := by
  cases ends : ['*', '/'].isSuffixOf (trim line) with
  | false => rfl
  | true =>
    have closing := List.isSuffixOf_iff_suffix.mp ends
    exact absurd (closing.isInfix.trans (trim_isInfix line)) unclosed

/-- A line that opens a comment is not skipped, whatever padding stands before it. -/
theorem isSkipped_of_opening {lead line : List Char} (padding : IsPadding lead)
    (opens : ['/', '*'] <+: line) : isSkipped (lead ++ line) = false := by
  -- Only the second character tells the delimiter from that of a line comment.
  obtain ⟨rest, same⟩ := prefix_trim opens (forall_mem_of_all (by decide))
  simp [isSkipped, trim_blank_append padding.blank, ← same, List.isPrefixOf]

/-- Lines to be skipped are passed on the way up. -/
theorem blockAbove_append_of_skipped {lines : List (List Char)}
    (skipped : ∀ line ∈ lines, isSkipped line = true) (above : List (List Char)) :
    blockAbove (lines ++ above) = blockAbove above := by
  induction lines with
  | nil => rfl
  | cons line rest ih =>
    have inner := ih fun other member => skipped other (List.mem_cons_of_mem line member)
    simp [blockAbove, skipped line List.mem_cons_self, inner]

/-- Nothing is found when a line that does not close a comment is reached before one that does. -/
theorem blockAbove_eq_none {lines : List (List Char)} {stop : List Char}
    (unclosed : ∀ line ∈ lines ++ [stop], ['*', '/'].isSuffixOf (trim line) = false)
    (firm : isSkipped stop = false) (above : List (List Char)) :
    blockAbove (lines ++ stop :: above) = none := by
  induction lines with
  | nil => simp [blockAbove, firm, unclosed stop (by simp)]
  | cons line rest ih =>
    have inner := ih fun other member => unclosed other (List.mem_cons_of_mem line member)
    have here := unclosed line (by simp)
    simp only [List.cons_append, blockAbove, here, inner]
    split <;> rfl

/-- The search for the opening line is decided by the last opening, if the lines have one. -/
theorem findBlock_reverse_append (below lines above : List (List Char)) :
    findBlock below (lines.reverse ++ above) =
      match lastOpening lines with
      | some found => readFrom (found ++ below)
      | none => findBlock (lines ++ below) above := by
  -- The lines are met from the last to the first, so the first one stands right below the rest.
  induction lines generalizing above with
  | nil => rfl
  | cons line rest ih =>
    rw [List.reverse_cons, List.append_assoc, List.singleton_append, ih]
    cases deeper : lastOpening rest with
    | some found => simp [lastOpening, deeper]
    | none =>
      cases here : fromFirst ['/', '*'] line with
      | none => simp [lastOpening, deeper, findBlock, here]
      | some opening => simp [lastOpening, deeper, findBlock, here, readFrom, opensDoc]

/-- The last opening starts at a delimiter in one of the lines and takes in all lines below. -/
theorem exists_of_lastOpening {lines found : List (List Char)}
    (opened : lastOpening lines = some found) :
    ∃ opening below line, found = opening :: below ∧ line :: below <:+ lines ∧
      opening <:+ line ∧ ['/', '*'] <+: opening := by
  induction lines with
  | nil => simp [lastOpening] at opened
  | cons first rest ih =>
    simp only [lastOpening] at opened
    split at opened
    · rename_i deeper same
      cases opened
      obtain ⟨opening, below, line, shape, inside, ending, opens⟩ := ih same
      exact ⟨opening, below, line, shape, inside.trans (List.suffix_cons first rest), ending, opens⟩
    · obtain ⟨opening, located, rfl⟩ := Option.map_eq_some_iff.mp opened
      obtain ⟨front, same, opens⟩ := eq_append_of_fromFirst located
      exact ⟨opening, rest, first, rfl, List.suffix_refl _, ⟨front, same.symm⟩, opens⟩

/-- Padding behind the last line is behind the last line of what is opened, too. -/
theorem lastOpening_endingIn {tail : List Char} (padding : IsPadding tail)
    (lines : List (List Char)) :
    lastOpening (endingIn tail lines) = (lastOpening lines).map (endingIn tail) := by
  have foreign : ∀ c ∈ tail, c ∉ ['/', '*'] := padding.not_mem (by simp)
  fun_induction endingIn tail lines with
  | case1 => rfl
  | case2 line =>
    simp only [lastOpening, fromFirst_append foreign (by simp), Option.map_map]
    rfl
  | case3 line next later ih =>
    rw [lastOpening, ih, lastOpening.eq_2 line (next :: later)]
    cases deeper : lastOpening (next :: later) with
    | some found => rfl
    | none => cases fromFirst ['/', '*'] line <;> rfl

/-- Padding behind the closing delimiter is cut off. -/
theorem readFrom_endingIn {tail opening : List Char} {below : List (List Char)}
    (padding : IsPadding tail)
    (closes : ∀ line, (opening :: below).getLast? = some line → ['*', '/'] <:+ line) :
    readFrom (endingIn tail (opening :: below)) =
      if opensDoc opening then some (['\n'].intercalate (opening :: below)) else none := by
  obtain ⟨last, isLast⟩ : ∃ last, (opening :: below).getLast? = some last :=
    ⟨_, List.getLast?_eq_some_getLast (by simp)⟩
  have foreign : ∀ c ∈ tail, c ∉ ['*', '/'] := padding.not_mem (by simp)
  have cut := throughLast_append foreign (by simp) (closes last isLast)
  have restored : (opening :: below).dropLast ++ [last] = opening :: below :=
    List.dropLast_append_getLast? last isLast
  -- The lines are those of the text with padding, whose last one is cut behind the delimiter.
  have text : ∀ first later, endingIn tail (opening :: below) = first :: later →
      blockText first later = ['\n'].intercalate (opening :: below) := by
    intro first later same
    have ended : (first :: later).getLast? = some (last ++ tail) := by
      rw [← same, getLast?_endingIn, isLast]
      rfl
    simp only [blockText, ended, Option.getD_some, cut]
    rw [← same, dropLast_endingIn, restored]
  cases below with
  | nil => simp [endingIn, readFrom, opensDoc_append padding, text _ _ rfl]
  | cons next later => simp only [endingIn, readFrom, text _ _ rfl]

namespace IsDocBlock

variable {block : List Char}

/-- The block stays one when its lines end in line feeds. -/
theorem unifyTerminators (isBlock : IsDocBlock block) : IsDocBlock (unifyTerminators block) := by
  obtain ⟨rest, rfl⟩ := isBlock.opens
  have opened : Text.unifyTerminators (['/', '*', '*'] ++ rest) =
      ['/', '*', '*'] ++ Text.unifyTerminators rest :=
    unifyTerminators_append_of_plain (forall_mem_of_all (by decide)) rest
  refine ⟨⟨_, opened.symm⟩, ?_, ?_, ?_⟩
  · -- Nothing in the closing delimiter is changed or dropped.
    obtain ⟨front, same⟩ := isBlock.closes
    rw [← same, unifyTerminators_append (by simp)]
    exact List.suffix_append _ _
  · intro before after same
    rw [List.append_assoc, List.cons_append] at same
    obtain ⟨front, behind, whole, unified⟩ := eq_append_of_unifyTerminators (by decide) same
    obtain ⟨last, rfl, ended⟩ := eq_cons_of_unifyTerminators (by decide) unified
    have nothing := isBlock.once front last (by simpa using whole)
    simpa [nothing] using ended.symm
  · intro same
    rw [opened] at same
    have slash : Text.unifyTerminators rest = '/' :: [] := by simpa using same
    obtain ⟨last, rfl, ended⟩ := eq_cons_of_unifyTerminators (by decide) slash
    have nothing := isBlock.once ['/', '*'] last rfl
    exact isBlock.proper (by simp [nothing])

/-- A block is more than an empty comment. -/
theorem opensDoc (isBlock : IsDocBlock block) : opensDoc block = true := by
  have opened := List.isPrefixOf_iff_prefix.mpr isBlock.opens
  have unclosed : ['/', '*', '*', '/'].isPrefixOf block = false := by
    cases early : ['/', '*', '*', '/'].isPrefixOf block with
    | false => rfl
    | true =>
      obtain ⟨rest, same⟩ := List.isPrefixOf_iff_prefix.mp early
      have nothing := isBlock.once ['/', '*'] rest (by simp [← same])
      exact absurd (by simp [← same, nothing]) isBlock.proper
  simp [Script.opensDoc, opened, unclosed]

/-- The lines of a block: the first one opens documentation, and only the last one closes it. -/
theorem lines (isBlock : IsDocBlock block) {first : List Char} {later : List (List Char)}
    (split : sourceLines block = first :: later) :
    ['\n'].intercalate (first :: later) = Text.unifyTerminators block ∧
      Script.opensDoc first = true ∧ ['/', '*'] <+: first ∧
      (∀ line, (first :: later).getLast? = some line → ['*', '/'] <:+ line) ∧
      ∀ line ∈ (first :: later).dropLast, ¬ ['*', '/'] <:+: line := by
  have unified := isBlock.unifyTerminators
  have joined : ['\n'].intercalate (first :: later) = Text.unifyTerminators block := by
    rw [← split, sourceLines, intercalate_splitLines]
  -- No character of a delimiter breaks a line, so both delimiters lie within lines.
  have opened : ['/', '*', '*'] <+: first := by
    obtain ⟨rest, same⟩ := unified.opens
    obtain ⟨start, more, pieces⟩ := List.exists_cons_of_ne_nil (splitLines_ne_nil rest)
    have whole : '\n' ∉ ['/', '*', '*'] := by decide
    have shape := splitLines_append_of_not_mem whole pieces
    rw [same, ← sourceLines, split] at shape
    exact ⟨start, (List.cons.inj shape).1.symm⟩
  have closed : ∀ line, (first :: later).getLast? = some line → ['*', '/'] <:+ line := by
    intro line isLast
    obtain ⟨rest, same⟩ := unified.closes
    have whole : '\n' ∉ ['*', '/'] := by decide
    have shape := splitLines_append whole rest
    rw [same, ← sourceLines, split] at shape
    rw [shape, getLast?_endingIn] at isLast
    obtain ⟨front, _, same⟩ := Option.map_eq_some_iff.mp isLast
    exact ⟨front, same⟩
  have once : ∀ line ∈ (first :: later).dropLast, ¬ ['*', '/'] <:+: line := by
    rintro line member ⟨before, after, rfl⟩
    obtain ⟨front, rest, same⟩ := exists_newline_of_mem_dropLast member
    have nothing := unified.once (front ++ before) (after ++ '\n' :: rest) (by
      rw [← joined, same]
      simp)
    simp at nothing
  have documents : Script.opensDoc first = true := by
    -- What the first line opens is what the whole text opens.
    have whole := unified.opensDoc
    have starts : first <+: Text.unifyTerminators block := by
      rw [← joined]
      cases later <;> simp [List.intercalate]
    have unclosed : ['/', '*', '*', '/'].isPrefixOf first = false := by
      cases early : ['/', '*', '*', '/'].isPrefixOf first with
      | false => rfl
      | true =>
        have sooner := (List.isPrefixOf_iff_prefix.mp early).trans starts
        simp [Script.opensDoc, List.isPrefixOf_iff_prefix.mpr sooner] at whole
    simp [Script.opensDoc, List.isPrefixOf_iff_prefix.mpr opened, unclosed]
  exact ⟨joined, documents, List.IsPrefix.trans ⟨['*'], rfl⟩ opened, closed, once⟩

/-- The lines of a block with padding around it. -/
theorem lines_padded (isBlock : IsDocBlock block) {lead trail first : List Char}
    {later : List (List Char)} (before : IsPadding lead) (behind : IsPadding trail)
    (split : endingIn trail (sourceLines block) = first :: later) :
    sourceLines (lead ++ block ++ trail) = (lead ++ first) :: later := by
  -- Padding ends no line, and the block does not end in a return.
  have apart : block.getLast? = some '\r' → trail.head? ≠ some '\n' := by
    obtain ⟨front, rfl⟩ := isBlock.closes
    simp
  have unified : Text.unifyTerminators (lead ++ block ++ trail) =
      lead ++ (Text.unifyTerminators block ++ trail) := by
    have ended := unifyTerminators_append_of_plain (fun c member => (behind c member).2) []
    rw [List.append_assoc, unifyTerminators_append_of_plain fun c member => (before c member).2,
      unifyTerminators_append apart]
    simpa using ended
  rw [sourceLines, unified]
  exact splitLines_append_of_not_mem before.newline_not_mem
    ((splitLines_append behind.newline_not_mem _).trans split)

end IsDocBlock

/-- The lines above a line within a window start with those directly above it, from the nearest on. -/
theorem linesAbove_append {above near below : List (List Char)} {window : Nat}
    (within : near.length ≤ window) :
    ∃ further, linesAbove (above ++ near ++ below) window (above.length + near.length + 1) =
      near.reverse ++ further := by
  refine ⟨above.reverse.take (window - near.length), ?_⟩
  simp [linesAbove, List.take_append, List.take_of_length_le, within]

/-- A line that closes a comment is where the search for its opening starts. -/
theorem blockAbove_of_closing {line : List Char} (firm : isSkipped line = false)
    (closes : ['*', '/'] <:+ trim line) (above : List (List Char)) :
    blockAbove (line :: above) = findBlock [] (line :: above) := by
  simp [blockAbove, firm, List.isSuffixOf_iff_suffix.mpr closes]

/-- The search that starts right below a block with padding around it finds what its last line and
its last opening tell. -/
theorem blockAbove_padded {block lead trail first opening : List Char}
    {later rest : List (List Char)} (isBlock : IsDocBlock block) (before : IsPadding lead)
    (behind : IsPadding trail) (split : sourceLines block = opening :: later)
    (padded : endingIn trail (sourceLines block) = first :: rest) (above : List (List Char)) :
    blockAbove (rest.reverse ++ (lead ++ first) :: above) =
      if later.getLast?.any isSkipped then none
      else match lastOpening later with
        | some lines =>
          if lines.head?.any opensDoc then some (['\n'].intercalate lines) else none
        | none => some (unifyTerminators block) := by
  obtain ⟨joined, documents, opens, closed, once⟩ := isBlock.lines split
  have lacks : '/' ∉ lead := fun member => (before.foreign member).1 rfl
  have whole : readFrom (first :: rest) = some (unifyTerminators block) := by
    rw [← padded, split, readFrom_endingIn behind closed, joined, if_pos documents]
  rw [split] at padded
  have begins : ['/', '*'] <+: first := by
    cases later with
    | nil => exact (List.cons.inj padded).1 ▸ opens.trans (List.prefix_append opening trail)
    | cons next more => exact (List.cons.inj padded).1 ▸ opens
  -- The first line is found to open the block once the search gets there.
  have located : findBlock rest ((lead ++ first) :: above) = some (unifyTerminators block) := by
    have found : fromFirst ['/', '*'] (lead ++ first) = some first := by
      rw [fromFirst_append_of_not_mem lacks, fromFirst_of_prefix begins]
    simpa [findBlock, found, readFrom, opensDoc] using whole
  have firm : isSkipped (lead ++ first) = false := isSkipped_of_opening before begins
  cases later with
  | nil =>
    -- The block is a single line, which closes it.
    obtain ⟨rfl, rfl⟩ := List.cons.inj padded
    have closes : ['*', '/'] <:+ trim (lead ++ (opening ++ trail)) := by
      rw [trim_blank_append before.blank, trim_append_blank behind.blank]
      exact suffix_trim (closed opening rfl) (forall_mem_of_all (by decide))
    simpa [lastOpening] using (blockAbove_of_closing firm closes above).trans located
  | cons next more =>
    obtain ⟨rfl, rfl⟩ := List.cons.inj padded
    obtain ⟨last, isLast⟩ : ∃ last, (next :: more).getLast? = some last :=
      ⟨_, List.getLast?_eq_some_getLast (by simp)⟩
    have reversed : (endingIn trail (next :: more)).reverse =
        (last ++ trail) :: (next :: more).dropLast.reverse := by
      have ended : last ++ trail ∈ (endingIn trail (next :: more)).getLast? := by
        rw [getLast?_endingIn, isLast]
        rfl
      rw [← List.dropLast_append_getLast? _ ended, dropLast_endingIn, List.reverse_concat]
    rw [isLast, Option.any_some]
    cases skip : isSkipped last with
    | true =>
      -- Without its last line the block does not close, and its first line is not skipped.
      have unclosed : ∀ line ∈ (next :: more).dropLast.reverse ++ [lead ++ opening],
          ['*', '/'].isSuffixOf (trim line) = false := by
        intro line member
        rcases List.mem_append.mp member with inner | outer
        · refine isSuffixOf_trim_eq_false (once line ?_)
          exact List.mem_cons_of_mem _ (List.mem_reverse.mp inner)
        · rw [List.mem_singleton.mp outer, trim_blank_append before.blank]
          exact isSuffixOf_trim_eq_false (once opening List.mem_cons_self)
      rw [if_pos rfl, reversed, List.cons_append, blockAbove, if_pos]
      · exact blockAbove_eq_none unclosed firm above
      · rw [isSkipped_append behind, skip]
    | false =>
      have closes : ['*', '/'] <:+ trim (last ++ trail) := by
        rw [trim_append_blank behind.blank]
        exact suffix_trim (closed last isLast) (forall_mem_of_all (by decide))
      have search := blockAbove_of_closing ((isSkipped_append behind last).trans skip) closes
        ((next :: more).dropLast.reverse ++ (lead ++ opening) :: above)
      rw [if_neg (by simp), reversed, List.cons_append, search, ← List.cons_append, ← reversed,
        findBlock_reverse_append, lastOpening_endingIn behind]
      cases opened : lastOpening (next :: more) with
      | none => simpa using located
      | some found =>
        obtain ⟨inner, below, line, rfl, inside, ending, begins⟩ := exists_of_lastOpening opened
        -- The last line from the opening on still closes the block.
        have ended : (line :: below).getLast? = some last := by
          obtain ⟨front, same⟩ := inside
          rw [← isLast, ← same, List.getLast?_append_of_ne_nil _ (by simp)]
        have closing : ∀ other, (inner :: below).getLast? = some other → ['*', '/'] <:+ other := by
          intro other isOther
          cases below with
          | nil =>
            cases isOther
            have whole : ['*', '/'] <:+ line := by
              rw [List.getLast?_singleton] at ended
              exact Option.some.inj ended ▸ closed last isLast
            exact List.suffix_of_suffix_length_le whole ending begins.length_le
          | cons lower lowest =>
            rw [List.getLast?_cons_cons] at ended isOther
            exact closed other (by rw [← isOther, ended, List.getLast?_cons_cons, isLast])
        simp only [Option.map_some, List.append_nil, List.head?_cons, Option.any_some]
        exact readFrom_endingIn behind closing

/-- A comment block that stands on its own lines, with nothing but lines to be skipped between it and
a line within the window, is what documents that line exactly when it is read as a whole. -/
theorem docAbove_eq_some_ofBlock_iff {source lead block trail node : List Char}
    {above between below : List (List Char)} {window : Nat} (isBlock : IsDocBlock block)
    (before : IsPadding lead) (behind : IsPadding trail)
    (placed : sourceLines source =
      above ++ sourceLines (lead ++ block ++ trail) ++ between ++ node :: below)
    (skipped : ∀ line ∈ between, isSkipped line = true)
    (within : (sourceLines (lead ++ block ++ trail)).length + between.length ≤ window) :
    docAbove (sourceLines source) window
        (above.length + (sourceLines (lead ++ block ++ trail)).length + between.length + 1) =
      some (DocComment.ofBlock (unifyTerminators block)) ↔ IsReadWhole block := by
  obtain ⟨opening, later, split⟩ := List.exists_cons_of_ne_nil (splitLines_ne_nil (unifyTerminators block))
  obtain ⟨first, rest, padded⟩ : ∃ first rest, endingIn trail (sourceLines block) = first :: rest := by
    rw [sourceLines, split]
    cases later <;> exact ⟨_, _, rfl⟩
  have framed := isBlock.lines_padded before behind padded
  -- The lines above the given one are those between, those of the block, and others.
  rw [framed] at within placed ⊢
  have near : (((lead ++ first) :: rest) ++ between).length ≤ window := by
    rwa [List.length_append]
  obtain ⟨further, lines⟩ : ∃ further, linesAbove (sourceLines source) window
      (above.length + ((lead ++ first) :: rest).length + between.length + 1) =
        between.reverse ++ (rest.reverse ++ (lead ++ first) :: further) := by
    obtain ⟨further, same⟩ := linesAbove_append near
    refine ⟨further, ?_⟩
    rw [placed, List.append_assoc above, Nat.add_assoc above.length, ← List.length_append, same]
    simp
  rw [docAbove, lines, blockAbove_append_of_skipped (by simpa using skipped),
    blockAbove_padded isBlock before behind split padded]
  -- The last line and the last opening are what the reading of the whole hangs on.
  have behindFirst : (sourceLines block).drop 1 = later := by
    rw [sourceLines, split, List.drop_one, List.tail_cons]
  constructor
  · intro found
    have ended : later.getLast?.any isSkipped = false := by
      cases skip : later.getLast?.any isSkipped with
      | false => rfl
      | true => simp [skip] at found
    rw [if_neg (by simp [ended])] at found
    refine ⟨fun line isLast => ?_, fun lines opened => ?_⟩
    · rw [behindFirst, Option.mem_def] at isLast
      simpa [isLast] using ended
    · rw [behindFirst, Option.mem_def] at opened
      simp only [opened] at found
      split at found
      · rename_i documents
        exact ⟨documents, Option.some.inj found⟩
      · cases found
  · rintro ⟨ended, unbroken⟩
    rw [behindFirst] at ended unbroken
    have firm : later.getLast?.any isSkipped = false := by
      cases isLast : later.getLast? with
      | none => rfl
      | some line => exact ended line isLast
    rw [if_neg (by simp [firm])]
    cases opened : lastOpening later with
    | none => rfl
    | some lines =>
      obtain ⟨documents, same⟩ := unbroken lines opened
      simp only [documents, if_true, Option.map_some, same]

/-- A tidy block above a decorated declaration documents it. -/
theorem docAbove_tidy :
    IsDocBlock "/**\n * a\n */".toList ∧
      sourceLines "  /**\n * a\n */ \n@b\nf".toList =
        [] ++ sourceLines ("  ".toList ++ "/**\n * a\n */".toList ++ " ".toList) ++
          ["@b".toList] ++ "f".toList :: [] ∧
      docAbove (sourceLines "  /**\n * a\n */ \n@b\nf".toList) 4 5 =
        some (DocComment.ofBlock (unifyTerminators "/**\n * a\n */".toList)) := by
  have isBlock : IsDocBlock "/**\n * a\n */".toList := by decide
  have placed : sourceLines "  /**\n * a\n */ \n@b\nf".toList =
      [] ++ sourceLines ("  ".toList ++ "/**\n * a\n */".toList ++ " ".toList) ++
        ["@b".toList] ++ "f".toList :: [] := by decide
  refine ⟨isBlock, placed, ?_⟩
  refine (docAbove_eq_some_ofBlock_iff isBlock ?_ ?_ placed ?_ ?_).mpr ⟨?_, ?_⟩
  · decide
  · decide
  · decide
  · decide
  · -- The last line is the closing delimiter behind a blank.
    intro line isLast
    have last : ((sourceLines "/**\n * a\n */".toList).drop 1).getLast? = some " */".toList := by
      decide
    rw [Option.mem_def, last] at isLast
    cases isLast
    decide
  · -- No line behind the first one opens a comment.
    intro lines opened
    have closed : lastOpening ((sourceLines "/**\n * a\n */".toList).drop 1) = none := by decide
    rw [closed] at opened
    cases opened

/-- A path pattern in the text hides the block. -/
example : docAbove (sourceLines "/**\n * a/*.b\n */\nf".toList) 10 4 = none := by decide

end SourceOutline.Script
