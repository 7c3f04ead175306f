import SourceOutline.Proofs.Python.Returns

/-! A text without carriage returns is shifted piece by piece. -/

namespace SourceOutline.Text

variable {width : Nat}

/-- A line feed makes room for a whole line, a blank takes room, and any other character leaves none. -/
theorem roomBehind_cons (width room : Nat) (c : Char) (rest : List Char) :
    roomBehind some width room (c :: rest) =
      roomBehind some width (if c = '\n' then width else if room ≠ 0 ∧ (c = ' ' ∨ c = '\t') then room - 1 else 0)
        rest := by
  simp only [roomBehind, Option.some.injEq]
  split
  · rfl
  · -- A carriage return leaves no room, whether a line feed follows or not.
    by_cases isReturn : c = '\r'
    · subst isReturn
      simp
    · simp only [isReturn, false_and, if_false]
      split <;> rfl

/-- The room behind two texts is the room behind the second one, given the room that the first one leaves. -/
theorem roomBehind_append (room : Nat) (front back : List Char) :
    roomBehind some width room (front ++ back) =
      roomBehind some width (roomBehind some width room front) back := by
  induction front generalizing room with
  | nil => rfl
  | cons c rest ih => rw [List.cons_append, roomBehind_cons, roomBehind_cons, ih]

/-- Without carriage returns two texts are shifted one after the other. -/
theorem shifted_append_plain {front : List Char} (plain : '\r' ∉ front) (room : Nat) (back : List Char) :
    shifted some width room (front ++ back) =
      shifted some width room front ++ shifted some width (roomBehind some width room front) back := by
  refine shifted_append room fun both => plain ?_
  obtain ⟨c, last, same⟩ := Option.bind_eq_some_iff.mp both.1
  cases same
  exact List.mem_of_getLast? last

/-- A firm character leaves no room. -/
theorem roomBehind_firm {c : Char} (firm : ¬IsLoose c) (room : Nat) (rest : List Char) :
    roomBehind some width room (c :: rest) = roomBehind some width 0 rest := by
  have noFeed : c ≠ '\n' := fun same => firm (.inl same)
  have noReturn : c ≠ '\r' := fun same => firm (.inr (.inl same))
  have noSpace : c ≠ ' ' := fun same => firm (.inr (.inr (.inl same)))
  have noTab : c ≠ '\t' := fun same => firm (.inr (.inr (.inr same)))
  simp [roomBehind, noFeed, noReturn, noSpace, noTab]

/-- What is left of a line stays, and leaves no room. -/
theorem shifted_within {line : List Char} (single : '\n' ∉ line) (plain : '\r' ∉ line) :
    shifted some width 0 line = line ∧ roomBehind some width 0 line = 0 := by
  induction line with
  | nil => exact ⟨rfl, rfl⟩
  | cons c rest ih =>
    obtain ⟨noFeed, below⟩ := not_or.mp (mt List.mem_cons.mpr single)
    obtain ⟨noReturn, behind⟩ := not_or.mp (mt List.mem_cons.mpr plain)
    obtain ⟨text, room⟩ := ih below behind
    simp [shifted, roomBehind, Ne.symm noFeed, Ne.symm noReturn, text, room]

end SourceOutline.Text

namespace SourceOutline.Python

open Text

variable {width : Nat}

/-- The next piece of a shifted text is the shifted next piece of the text. -/
def ShedsCut (width : Nat) (modes : List Mode) (c : Char) (rest : List Char) (cut : Cut) : Prop :=
  nextCut modes c (shifted some width 0 rest) =
    some ⟨cut.part, (shifted some width 0 (rest.take cut.further)).length, cut.modes⟩

/-- A piece without loose characters is the same. -/
theorem shedsCut_of_firm {modes : List Mode} {c : Char} {rest : List Char} {cut : Cut}
    (same : nextCut modes c (shifted some width 0 rest) = some cut)
    (whole : ∀ d ∈ rest.take cut.further, ¬IsLoose d) (within : cut.further ≤ rest.length) :
    ShedsCut width modes c rest cut := by
  have text := shifted_firm_append whole width []
  rw [List.append_nil] at text
  rw [ShedsCut, same, text, shifted, List.append_nil, List.length_take_of_le within]

/-- A piece of a literal is shifted with what a backslash takes along. -/
theorem shedsCut_text {style : StringStyle} {outer : List Mode} {c : Char} {rest : List Char} {cut : Cut}
    (next : nextCut (.text style :: outer) c rest = some cut) (firm : ¬IsLoose c) (plain : '\r' ∉ rest)
    (within : cut.further ≤ rest.length) : ShedsCut width (.text style :: outer) c rest cut := by
  by_cases escape : c = '\\'
  · subst escape
    cases (show some ⟨.content, escapeLength style rest, _⟩ = some cut from next)
    have along := takesAlong_of_single width within fun more same => plain (same ▸ List.mem_cons_self)
    exact congrArg (fun further => some (Cut.mk .content further (.text style :: outer))) along.2
  · have same := (@textCut_shifted style (.text style :: outer) c firm escape width rest).trans next
    rcases textCut_cases next with ⟨escaped, _⟩ | ⟨⟨tail, split⟩, _⟩
    · exact absurd escaped escape
    have taken : rest.take cut.further = List.replicate cut.further c := by
      rw [split, List.take_append_of_le_length (by simp), List.take_of_length_le (by simp)]
    refine shedsCut_of_firm same (fun d member => ?_) within
    rw [taken] at member
    exact List.eq_of_mem_replicate member ▸ firm

/-- A token outside literals is the same. -/
theorem shedsCut_token {modes : List Mode} {c : Char} {rest : List Char} {cut : Cut}
    (reads : ∀ other, nextCut modes c other = tokenCut modes c other)
    (next : nextCut modes c rest = some cut) : ShedsCut width modes c rest cut := by
  obtain ⟨word, tail, rfl, whole, parted⟩ := exists_parted rest
  have loose : ∀ d ∈ word, ¬IsLoose d := fun d member bad => whole d member (mem_separators_of_loose bad)
  rw [reads, tokenCut_parted parted] at next
  have within := tokenCut_further_le next
  refine shedsCut_of_firm ?_ (fun d member => ?_) ?_
  · rw [shifted_firm_append loose, reads, tokenCut_parted (parted.shifted width), next]
  · rw [List.take_append_of_le_length within] at member
    exact loose d (List.mem_of_mem_take member)
  · rw [List.length_append]
    omega

/-- A comment takes the rest of its line in the shifted text as well. -/
theorem shedsCut_comment {modes : List Mode} {rest : List Char} {cut : Cut}
    (reads : ∀ other, nextCut modes '#' other =
      some ⟨.token .comment, (other.takeWhile (· != '\n')).length, modes⟩)
    (next : nextCut modes '#' rest = some cut) (plain : '\r' ∉ rest) : ShedsCut width modes '#' rest cut := by
  cases (reads rest).symm.trans next
  obtain ⟨word, tail, rfl, single, ends⟩ := exists_line rest
  have word_plain : '\r' ∉ word := fun member => plain (List.mem_append_left tail member)
  obtain ⟨text, room⟩ := @shifted_within width word single word_plain
  have line : ∀ behind : List Char, (∀ c, behind.head? = some c → c = '\n') →
      (word ++ behind).takeWhile (· != '\n') = word := fun behind ends => by
    rw [List.takeWhile_append_of_pos fun c member => by
      simpa using fun same : c = '\n' => single (same ▸ member)]
    cases behind with
    | nil => simp
    | cons c rest => simp [ends c rfl]
  have ends' : ∀ c, (shifted some width 0 tail).head? = some c → c = '\n' := fun c first => by
    cases tail with
    | nil => cases first
    | cons d more =>
      obtain rfl := ends d rfl
      rw [shifted_feed] at first
      cases first
      rfl
  rw [ShedsCut, reads, shifted_append_plain word_plain, text, room, line _ ends', line _ ends,
    List.take_left' rfl, text]

/-- A piece outside literals is shifted. -/
theorem shedsCut_code {modes : List Mode} {c : Char} {rest : List Char} {cut : Cut}
    (reads : ∀ other, nextCut modes c other = codeCut modes c other)
    (next : nextCut modes c rest = some cut) (firm : ¬IsLoose c) (plain : '\r' ∉ rest) :
    ShedsCut width modes c rest cut := by
  have noFeed : c ≠ '\n' := fun same => firm (.inl same)
  by_cases space : isSpace c = true
  · have blank : ∀ other, nextCut modes c other = some ⟨.blank, 0, modes⟩ := fun other => by
      simp [reads, codeCut, noFeed, space]
    cases (blank rest).symm.trans next
    exact shedsCut_of_firm (blank _) (fun d member => absurd member List.not_mem_nil) (Nat.zero_le _)
  · by_cases comment : c = '#'
    · subst comment
      exact shedsCut_comment (fun other => (reads other).trans rfl) next plain
    · by_cases join : c = '\\'
      · subst join
        have joined : ∀ other, nextCut modes '\\' other =
            (joinLength other).map fun length => ⟨.token .lineJoin, length, modes⟩ := reads
        obtain ⟨length, joins, rfl⟩ := Option.map_eq_some_iff.mp ((joined rest).symm.trans next)
        unfold joinLength at joins
        split at joins
        · cases joins
          rw [ShedsCut, joined, shifted_feed]
          rfl
        · exact absurd List.mem_cons_self plain
        · cases joins
      · refine shedsCut_token (fun other => ?_) next
        simp [reads, codeCut, noFeed, space, comment, join]

/-- Any piece that starts with a firm character is shifted. -/
theorem nextCut_shifted {modes : List Mode} {c : Char} {rest : List Char} {cut : Cut}
    (next : nextCut modes c rest = some cut) (firm : ¬IsLoose c) (plain : '\r' ∉ rest)
    (within : cut.further ≤ rest.length) : ShedsCut width modes c rest cut := by
  match modes with
  | .text style :: outer => exact shedsCut_text next firm plain within
  | .format triple :: outer =>
    have single : cut.further = 0 := formatCut_further next
    refine shedsCut_of_firm next (fun d member => ?_) within
    rw [single] at member
    cases member
  | [] | .bracket _ :: _ | .field _ :: _ => exact shedsCut_code (fun _ => rfl) next firm plain

/-- What is left of a piece when its text is shifted. -/
def Piece.shed (width room : Nat) (piece : Piece) : List Piece :=
  -- A piece goes with its text.
  if shifted some width room piece.text = [] then [] else [⟨piece.part, shifted some width room piece.text⟩]

/-- What is left of pieces when their texts are shifted one after the other. -/
def shed (width : Nat) : Nat → List Piece → List Piece
  | _, [] => []
  | room, piece :: rest =>
    -- Each piece leaves room to the next one.
    piece.shed width room ++ shed width (roomBehind some width room piece.text) rest

/-- The first piece loses what there is room for, and leaves room to the others. -/
theorem shed_cons (width room : Nat) (piece : Piece) (rest : List Piece) :
    shed width room (piece :: rest) =
      piece.shed width room ++ shed width (roomBehind some width room piece.text) rest := rfl

/-- A text that is cut into pieces is cut into what is left of them when it is shifted. -/
theorem Cuts.shed {modes : List Mode} {cs : List Char} {found : List Piece} (cuts : Cuts modes cs found)
    (quoted : IsQuoted modes) (plain : '\r' ∉ cs) (room : Nat) :
    Cuts modes (shifted some width room cs) (Python.shed width room found) := by
  cases cuts with
  | done => exact .done
  | @piece _ c rest cut more next behind =>
    have shorter : (rest.drop cut.further).length < (c :: rest).length := by
      simp only [List.length_drop, List.length_cons]
      omega
    obtain ⟨noReturn, later⟩ := not_or.mp (mt List.mem_cons.mpr plain)
    have within := further_le_of_cuts next behind
    by_cases loose : IsLoose c
    · obtain ⟨⟨part, rfl, _⟩, same⟩ := nextCut_of_loose quoted loose next
      have inner := fun room => Cuts.shed behind quoted later room
      rw [Python.shed, List.take_zero, Piece.shed, shifted_cons]
      simp only [roomBehind, shifted, List.head?_nil, Option.bind_none, reduceCtorEq, and_false, if_false,
        Option.some.injEq]
      split
      · rename_i feed
        exact .piece (same _) (inner width)
      · split
        · rename_i broken
          exact absurd broken.1.symm noReturn
        · split
          · exact inner (room - 1)
          · exact .piece (same _) (inner 0)
    · have cut_plain : '\r' ∉ rest.take cut.further := fun member => later (List.mem_of_mem_take member)
      have inner := Cuts.shed behind (quoted.nextCut next) (fun member => later (List.mem_of_mem_drop member))
        (roomBehind some width 0 (rest.take cut.further))
      have split := @shifted_append_plain width _ cut_plain 0 (rest.drop cut.further)
      rw [List.take_append_drop] at split
      rw [Python.shed, Piece.shed, roomBehind_firm loose]
      simp only [shifted_firm loose, List.cons_ne_nil, if_false, List.singleton_append]
      have copy : c :: shifted some width 0 (rest.take cut.further) =
          c :: (shifted some width 0 rest).take (shifted some width 0 (rest.take cut.further)).length := by
        rw [split, List.take_left]
      rw [copy]
      refine .piece (nextCut_shifted next loose later within) ?_
      show Cuts cut.modes ((shifted some width 0 rest).drop _) _
      rw [split, List.drop_left]
      exact inner
termination_by cs.length

end SourceOutline.Python
