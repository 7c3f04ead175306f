import SourceOutline.Proofs.Python.Rows
import SourceOutline.Proofs.Python.Shift
import SourceOutline.Proofs.Text.Returns

/-! A source with carriage returns at its line ends is cut into the same pieces. -/

namespace SourceOutline.Python

open Text

/-- How the copy of a text with carriage returns stands to the text. -/
inductive Phase where
  /-- What has been cut off of the copy is the copy of what has been cut off of the text. -/
  | level
  /-- The carriage return of the line feed that comes next has been cut off together with a comment. -/
  | ahead
  /-- A comment without a line feed behind it has been cut off, and nothing follows. -/
  | finished
  deriving DecidableEq

/-- A line feed may be such a part of a text. -/
def Part.breaks : Part → Bool
  | .lineFeed | .silent | .content => true
  | .token _ | .blank => false

/-- What a carriage return is in front of a line feed that is such a part. -/
def Part.ofReturn : Part → Part
  | .content => .content
  | _ => .blank

/-- A piece of a text, and the pieces that it has in the copy of the text with carriage returns. -/
inductive Copies : Phase → Piece → List Piece → Phase → Prop where
  /-- A piece that is neither a line feed nor a comment has its copy. -/
  | whole {piece : Piece} (inside : piece.part ≠ .lineFeed) (silent : piece.part ≠ .token .comment)
    (single : piece.part = .blank → '\n' ∉ piece.text) :
    Copies .level piece [⟨piece.part, withReturns piece.text⟩] .level
  /-- A line feed has a carriage return in front of it. -/
  | feed {part : Part} (breaks : part.breaks = true) :
    Copies .level ⟨part, ['\n']⟩ [⟨part.ofReturn, ['\r']⟩, ⟨part, ['\n']⟩] .level
  /-- A comment takes the carriage return of its line in. -/
  | comment {word : List Char} (single : '\n' ∉ word) :
    Copies .level ⟨.token .comment, '#' :: word⟩ [⟨.token .comment, '#' :: (word ++ ['\r'])⟩] .ahead
  /-- Behind the comment the line feed stands alone. -/
  | late {part : Part} (breaks : part.breaks = true) :
    Copies .ahead ⟨part, ['\n']⟩ [⟨part, ['\n']⟩] .level
  /-- A comment that nothing follows stays. -/
  | last {word : List Char} (single : '\n' ∉ word) :
    Copies .level ⟨.token .comment, '#' :: word⟩ [⟨.token .comment, '#' :: word⟩] .finished

/-- Pieces of a text, and those of its copy with carriage returns. -/
inductive Returned : Phase → List Piece → List Piece → Phase → Prop where
  /-- There are no more pieces. -/
  | done {phase : Phase} : Returned phase [] [] phase
  /-- A piece and those behind it have copies. -/
  | piece {start phase final : Phase} {piece : Piece} {chunk found others : List Piece}
    (copies : Copies start piece chunk phase) (behind : Returned phase found others final) :
    Returned start (piece :: found) (chunk ++ others) final

/-- What a backslash takes along of a text, it takes along of its copy. -/
theorem escapeLength_withReturns {style : StringStyle} {rest : List Char} (plain : '\r' ∉ rest)
    (within : escapeLength style rest ≤ rest.length) :
    escapeLength style (withReturns rest) =
      (withReturns (rest.take (escapeLength style rest))).length := by
  cases rest with
  | nil => rfl
  | cons c later =>
    obtain ⟨noReturn, _⟩ := not_or.mp (mt List.mem_cons.mpr plain)
    by_cases feed : c = '\n'
    · subst feed
      rfl
    by_cases opened : c = 'N' ∧ later.head? = some '\x7b'
    · obtain ⟨rfl, first⟩ := opened
      obtain ⟨text, rfl⟩ := List.head?_eq_some_iff.mp first
      cases named : style.format && !style.raw with
      | false => simp [escapeLength, named, withReturns_cons]
      | true =>
        obtain ⟨name, behind, rfl, whole⟩ := exists_name named within
        have kept : '\x7d' ∉ withReturns name := fun member =>
          whole (mem_of_mem_withReturns (by decide) member)
        have split : 'N' :: '\x7b' :: (name ++ '\x7d' :: behind) =
            ('N' :: '\x7b' :: (name ++ ['\x7d'])) ++ behind := by simp
        have copy : withReturns ('N' :: '\x7b' :: (name ++ '\x7d' :: behind)) =
            'N' :: '\x7b' :: (withReturns name ++ '\x7d' :: withReturns behind) := by
          simp [withReturns_cons]
        rw [copy, escapeLength_named named kept, escapeLength_named named whole, split,
          List.take_left' (by simp)]
        simp [withReturns_cons]
    · have first := head?_shifted (c := '\x7b') (by decide) 0 (withReturns later)
      rw [shifted_withReturns] at first
      rw [withReturns_cons feed, escapeLength_cons style (fun both => noReturn both.1.symm) opened,
        escapeLength_cons style (fun both => noReturn both.1.symm) (by rwa [← first])]
      split
      · simp [withReturns_cons feed]
      · rfl

/-- The next piece of the copy of a text is the copy of the next piece of the text. -/
def CopiesCut (modes : List Mode) (c : Char) (rest : List Char) (cut : Cut) : Prop :=
  nextCut modes c (withReturns rest) =
    some ⟨cut.part, (withReturns (rest.take cut.further)).length, cut.modes⟩

/-- A piece that does not depend on what follows is the same. -/
theorem copiesCut_of_single {modes : List Mode} {c : Char} {rest : List Char} {cut : Cut}
    (same : nextCut modes c (withReturns rest) = some cut) (single : cut.further = 0) :
    CopiesCut modes c rest cut := by
  rw [CopiesCut, same, single]
  obtain ⟨part, further, modes⟩ := cut
  cases single
  rfl

/-- A piece of a literal is the same. -/
theorem copiesCut_text {style : StringStyle} {outer : List Mode} {c : Char} {rest : List Char} {cut : Cut}
    (next : nextCut (.text style :: outer) c rest = some cut) (firm : ¬IsLoose c) (plain : '\r' ∉ rest)
    (within : cut.further ≤ rest.length) : CopiesCut (.text style :: outer) c rest cut := by
  by_cases escape : c = '\\'
  · subst escape
    cases (show some ⟨.content, escapeLength style rest, _⟩ = some cut from next)
    exact congrArg (fun further => some (Cut.mk .content further (.text style :: outer)))
      (escapeLength_withReturns plain within)
  · have same := @textCut_shifted style (.text style :: outer) c firm escape 0 (withReturns rest)
    rw [shifted_withReturns] at same
    rcases textCut_cases next with ⟨escaped, _⟩ | ⟨⟨tail, split⟩, _⟩
    · exact absurd escaped escape
    have taken : rest.take cut.further = List.replicate cut.further c := by
      rw [split, List.take_append_of_le_length (by simp), List.take_of_length_le (by simp)]
    have single : '\n' ∉ List.replicate cut.further c := fun member =>
      firm (.inl (List.eq_of_mem_replicate member).symm)
    rw [CopiesCut, taken, withReturns_of_not_mem single, List.length_replicate]
    exact same.symm.trans next

/-- The copy of a parted text is parted. -/
theorem IsParted.withReturns {tail : List Char} (parted : IsParted tail) :
    IsParted (Text.withReturns tail) := by
  cases tail with
  | nil => exact IsParted.nil
  | cons c rest =>
    by_cases feed : c = '\n'
    · subst feed
      exact .cons (by decide) _
    · rw [withReturns_cons feed]
      exact .cons (parted c rfl) _

/-- A token outside literals is the same. -/
theorem copiesCut_token {modes : List Mode} {c : Char} {rest : List Char} {cut : Cut}
    (reads : ∀ other, nextCut modes c other = tokenCut modes c other)
    (next : nextCut modes c rest = some cut) : CopiesCut modes c rest cut := by
  obtain ⟨word, tail, rfl, whole, parted⟩ := exists_parted rest
  rw [reads, tokenCut_parted parted] at next
  have within := tokenCut_further_le next
  have single : '\n' ∉ word := fun member => whole _ member (by decide)
  have taken : '\n' ∉ word.take cut.further := fun member => single (List.mem_of_mem_take member)
  rw [CopiesCut, withReturns_append, withReturns_of_not_mem single, reads,
    tokenCut_parted parted.withReturns, next, List.take_append_of_le_length within,
    withReturns_of_not_mem taken, List.length_take_of_le within]

/-- A piece outside literals that is no comment is the same. -/
theorem copiesCut_code {modes : List Mode} {c : Char} {rest : List Char} {cut : Cut}
    (reads : ∀ other, nextCut modes c other = codeCut modes c other)
    (next : nextCut modes c rest = some cut) (firm : ¬IsLoose c) (silent : c ≠ '#')
    (plain : '\r' ∉ rest) : CopiesCut modes c rest cut := by
  have noFeed : c ≠ '\n' := fun same => firm (.inl same)
  by_cases space : isSpace c = true
  · have blank : ∀ other, nextCut modes c other = some ⟨.blank, 0, modes⟩ := fun other => by
      simp [reads, codeCut, noFeed, space]
    cases (blank rest).symm.trans next
    exact copiesCut_of_single (blank _) rfl
  · by_cases join : c = '\\'
    · subst join
      have joined : ∀ other, nextCut modes '\\' other =
          (joinLength other).map fun length => ⟨.token .lineJoin, length, modes⟩ := reads
      obtain ⟨length, joins, rfl⟩ := Option.map_eq_some_iff.mp ((joined rest).symm.trans next)
      unfold joinLength at joins
      split at joins
      · cases joins
        exact joined _
      · exact absurd List.mem_cons_self plain
      · cases joins
    · refine copiesCut_token (fun other => ?_) next
      simp [reads, codeCut, noFeed, space, silent, join]

/-- Any piece that is no comment has its copy as a piece. -/
theorem nextCut_withReturns {modes : List Mode} (quoted : IsQuoted modes) {c : Char} {rest : List Char}
    {cut : Cut} (next : nextCut modes c rest = some cut) (silent : inLiteral modes = true ∨ c ≠ '#')
    (plain : '\r' ∉ rest)
    (within : cut.further ≤ rest.length) : CopiesCut modes c rest cut := by
  by_cases loose : IsLoose c
  · obtain ⟨⟨part, rfl, _⟩, same⟩ := nextCut_of_loose quoted loose next
    exact copiesCut_of_single (same _) rfl
  · match modes with
    | .text style :: outer => exact copiesCut_text next loose plain within
    | .format triple :: outer => exact copiesCut_of_single next (formatCut_further next)
    | [] | .bracket _ :: _ | .field _ :: _ =>
      exact copiesCut_code (fun _ => rfl) next loose (silent.resolve_left (by simp [inLiteral])) plain

/-- A piece that starts with neither a line feed nor a comment is neither of them. -/
theorem nextCut_whole {modes : List Mode} {c : Char} {rest : List Char} {cut : Cut}
    (next : nextCut modes c rest = some cut) (noFeed : c ≠ '\n')
    (silent : inLiteral modes = true ∨ c ≠ '#') :
    cut.part ≠ .lineFeed ∧ cut.part ≠ .token .comment ∧ (cut.part = .blank → cut.further = 0) := by
  refine ⟨fun ends => noFeed (nextCut_of_lineFeed next ends).1, ?_⟩
  cases inside : inLiteral modes with
  | true =>
    rcases part_of_inLiteral inside next with content | ⟨symbol, token, solid⟩
    · simp [content]
    · rw [token]
      refine ⟨?_, by simp⟩
      rintro ⟨⟩
      cases solid
  | false =>
    have noHash := silent.resolve_left (by simp [inside])
    have code : codeCut modes c rest = some cut := by
      rcases modes with _ | ⟨_ | _ | _ | _, outer⟩ <;> first | exact next | cases inside
    rcases codeCut_cases code with ⟨newline, _⟩ | ⟨_, rfl⟩ | ⟨hash, _⟩ | ⟨_, join, _⟩ | isCode
    · exact absurd newline noFeed
    · simp
    · exact absurd hash noHash
    · simp [join]
    · have solid := isCode []
      refine ⟨?_, fun blank => ?_⟩
      · intro comment
        rw [comment] at solid
        cases solid
      · rw [blank] at solid
        cases solid

/-- A carriage return is a piece wherever a line feed is one. -/
theorem nextCut_return {modes : List Mode} (quoted : IsQuoted modes) {rest : List Char} {cut : Cut}
    (next : nextCut modes '\n' rest = some cut) :
    ∃ part, part.breaks = true ∧ cut = ⟨part, 0, modes⟩ ∧
      (∀ other, nextCut modes '\n' other = some ⟨part, 0, modes⟩) ∧
      ∀ other, nextCut modes '\r' other = some ⟨part.ofReturn, 0, modes⟩ := by
  obtain ⟨⟨part, rfl, _⟩, same⟩ := nextCut_of_loose quoted (.inl rfl) next
  match modes with
  | .text style :: outer =>
    have isQuote := quoted style List.mem_cons_self
    have feed := plain_of_loose (.inl rfl) isQuote
    have carriage := plain_of_loose (.inr (.inl rfl)) isQuote
    have cuts := (textCut_of_plain feed.1 feed.2.1 feed.2.2.1 feed.2.2.2 (.text style :: outer) rest).symm.trans
      next
    split at cuts
    · cases cuts
    · cases cuts
      refine ⟨.content, rfl, rfl, same, fun other => ?_⟩
      exact textCut_of_plain carriage.1 carriage.2.1 carriage.2.2.1 carriage.2.2.2 _ other
  | .format triple :: outer =>
    simp only [nextCut, formatCut] at next
    split at next
    · cases next
    · split at next
      · cases next
      · split at next
        · cases next
        · cases next
          exact ⟨.content, rfl, rfl, same, fun other => rfl⟩
  | [] => cases next; exact ⟨.lineFeed, rfl, rfl, same, fun other => rfl⟩
  | .bracket _ :: _ | .field _ :: _ => cases next; exact ⟨.silent, rfl, rfl, same, fun other => rfl⟩

/-- Outside literals a comment takes the rest of its line. -/
theorem cuts_comment {modes : List Mode} (outside : inLiteral modes = false) {word tail : List Char}
    (single : '\n' ∉ word) (ends : ∀ c, tail.head? = some c → c = '\n') (found : List Piece) :
    Cuts modes ('#' :: (word ++ tail)) found ↔
      ∃ more, found = ⟨.token .comment, '#' :: word⟩ :: more ∧ Cuts modes tail more := by
  have taken : (word ++ tail).takeWhile (· != '\n') = word := by
    rw [List.takeWhile_append_of_pos fun c member => by
      simpa using fun same : c = '\n' => single (same ▸ member)]
    cases tail with
    | nil => simp
    | cons c rest => simp [ends c rfl]
  have next : nextCut modes '#' (word ++ tail) = some ⟨.token .comment, word.length, modes⟩ := by
    have code : nextCut modes '#' (word ++ tail) = codeCut modes '#' (word ++ tail) := by
      rcases modes with _ | ⟨_ | _ | _ | _, outer⟩ <;> first | rfl | cases outside
    rw [code]
    simp [codeCut, taken, isSpace]
  constructor
  · intro cuts
    cases cuts with
    | piece found behind =>
      cases next.symm.trans found
      rw [List.take_left]
      rw [List.drop_left] at behind
      exact ⟨_, rfl, behind⟩
  · rintro ⟨more, rfl, behind⟩
    have cuts : Cuts modes _ (_ :: more) := .piece next (by rwa [List.drop_left])
    rwa [List.take_left] at cuts

/-- A text is what stands on its first line, and nothing or a line feed behind it. -/
theorem exists_line (rest : List Char) :
    ∃ word tail, rest = word ++ tail ∧ '\n' ∉ word ∧ ∀ c, tail.head? = some c → c = '\n' := by
  refine ⟨rest.takeWhile (· != '\n'), rest.dropWhile (· != '\n'),
    List.takeWhile_append_dropWhile.symm, fun member => ?_, fun c first => ?_⟩
  · simpa using List.all_eq_true.mp List.all_takeWhile _ member
  · have stopped := List.head?_dropWhile_not (· != '\n') rest
    rw [first] at stopped
    simpa using stopped

/-- A text that is cut into pieces is cut into pieces when it gets carriage returns. -/
theorem Cuts.returned {modes : List Mode} {cs : List Char} {found : List Piece}
    (cuts : Cuts modes cs found) (quoted : IsQuoted modes) (plain : '\r' ∉ cs) :
    ∃ others final, final ≠ .ahead ∧ Cuts modes (withReturns cs) others ∧
      Returned .level found others final := by
  cases cuts with
  | done => exact ⟨[], .level, by decide, .done, .done⟩
  | @piece _ c rest cut more next behind =>
    have shorter : (rest.drop cut.further).length < (c :: rest).length := by
      simp only [List.length_drop, List.length_cons]
      omega
    have later : '\r' ∉ rest := fun member => plain (List.mem_cons_of_mem c member)
    have within := further_le_of_cuts next behind
    by_cases newline : c = '\n'
    · -- The carriage return becomes a piece of its own.
      subst newline
      obtain ⟨part, breaks, rfl, again, carriage⟩ := nextCut_return quoted next
      obtain ⟨others, final, settled, inner, returned⟩ := behind.returned quoted later
      refine ⟨_, final, settled, ?_, .piece (.feed breaks) returned⟩
      rw [withReturns_feed]
      exact .piece (carriage _) (.piece (again _) inner)
    by_cases comment : inLiteral modes = false ∧ c = '#'
    · obtain ⟨outside, rfl⟩ := comment
      obtain ⟨word, tail, rfl, single, ends⟩ := exists_line rest
      obtain ⟨found, same, behind⟩ := (cuts_comment outside single ends _).mp (.piece next behind)
      rw [same, withReturns_cons (by decide), withReturns_append, withReturns_of_not_mem single]
      cases tail with
      | nil =>
        -- Nothing follows the comment.
        cases behind
        refine ⟨_, .finished, by decide, ?_, .piece (.last single) .done⟩
        exact (cuts_comment outside single (by simp) _).mpr ⟨[], rfl, .done⟩
      | cons d text =>
        obtain rfl := ends d rfl
        cases behind with
        | @piece _ _ _ cut more next behind =>
          obtain ⟨part, breaks, rfl, again, _⟩ := nextCut_return quoted next
          have fewer : text.length < ('#' :: (word ++ '\n' :: text)).length := by
            simp only [List.length_cons, List.length_append]
            omega
          obtain ⟨others, final, settled, inner, returned⟩ := behind.returned quoted fun member =>
            later (List.mem_append_right word (List.mem_cons_of_mem _ member))
          refine ⟨_, final, settled, ?_, .piece (.comment single) (.piece (.late breaks) returned)⟩
          -- The comment of the copy takes the carriage return in.
          have longer : '\n' ∉ word ++ ['\r'] := by simpa using single
          have copied := (@cuts_comment modes outside _ ('\n' :: withReturns text) longer (by simp) _).mpr
            ⟨_, rfl, .piece (again _) inner⟩
          simpa using copied
    · have silent : inLiteral modes = true ∨ c ≠ '#' := by
        rw [not_and_or, Bool.not_eq_false] at comment
        exact comment
      obtain ⟨inside, noComment, blank⟩ := nextCut_whole next newline silent
      obtain ⟨others, final, settled, inner, returned⟩ := behind.returned (quoted.nextCut next)
        fun member => later (List.mem_of_mem_drop member)
      have copied := nextCut_withReturns quoted next silent later within
      have split := congrArg withReturns (List.take_append_drop cut.further rest)
      rw [withReturns_append] at split
      have text : withReturns (c :: rest.take cut.further) =
          c :: (withReturns rest).take (withReturns (rest.take cut.further)).length := by
        rw [withReturns_cons newline, ← split, List.take_left]
      refine ⟨_, final, settled, ?_, .piece (.whole inside noComment fun isBlank => ?_) returned⟩
      · rw [withReturns_cons newline]
        show Cuts modes _ (⟨cut.part, withReturns (c :: rest.take cut.further)⟩ :: others)
        rw [text]
        refine .piece copied ?_
        show Cuts cut.modes ((withReturns rest).drop _) others
        rw [← split, List.drop_left]
        exact inner
      · simpa [blank isBlank] using Ne.symm newline
termination_by cs.length

end SourceOutline.Python
