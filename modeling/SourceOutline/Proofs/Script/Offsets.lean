import SourceOutline.Proofs.Script.DocSearch
import SourceOutline.Proofs.Script.DocWindow
import SourceOutline.Proofs.Script.Positions
import SourceOutline.Proofs.Text.Bytes

/-! A source read line by line and at byte offsets, where every access outside of it would be a trespass:
no access is one, and what is read is what the lines say. -/

namespace SourceOutline.Script

open Text

open String (utf8Len)

/-- The lines of a text from an offset on, when the line under way starts at another offset. -/
def linesFrom (text : List Char) : Nat → Nat → List Char → Except Trespass (List (List Char))
  | start, _, [] => return [← stretchOf start (utf8Len text) text]
  | start, offset, '\r' :: '\n' :: rest => do
    let line ← stretchOf start offset text
    return line :: (← linesFrom text (offset + 2) (offset + 2) rest)
  | start, offset, c :: rest =>
    -- The line ends in front of its terminator, and the next one starts behind it.
    if isTerminator c then do
      let line ← stretchOf start offset text
      return line :: (← linesFrom text (offset + c.utf8Size) (offset + c.utf8Size) rest)
    else linesFrom text start (offset + c.utf8Size) rest

/-- The line at an index. -/
def lineAt (lines : List (List Char)) (index : Nat) : Except Trespass (List Char) :=
  match lines[index]? with
  | some line => .ok line
  | none => .error .noLine

/-- The lines from an index up to another one. -/
def linesBetween (lines : List (List Char)) (start stop : Nat) : Except Trespass (List (List Char)) :=
  if stop < start then .error .backwards
  else if lines.length < stop then .error .noLine
  else .ok ((lines.drop start).take (stop - start))

/-- The offset of the first character that starts at a column or behind it, or else of the end, where
the characters given start at an offset and behind some units. -/
def offsetFrom (column units offset : Nat) : List Char → Nat
  | [] => offset
  | c :: rest =>
    if column ≤ units then offset else offsetFrom column (units + charUnits c) (offset + c.utf8Size) rest

/-- The byte offset of a column of a line. -/
def columnOffset (line : List Char) (column : Nat) : Nat := offsetFrom column 0 0 line

/-- The text that a stretch covers, when its lines exist and are in order. -/
def sliceAt (lines : List (List Char)) (span : Span) : Except Trespass (Option (List Char)) :=
  -- Lines count from one, so there is none before the first one.
  if span.start.line = 0 || span.stop.line = 0 then return none
  else
    let first := span.start.line - 1
    let last := span.stop.line - 1
    if last < first || lines.length ≤ last then return none
    else do
      let startLine ← lineAt lines first
      let start := columnOffset startLine span.start.column
      if first = last then
        return some (← stretchOf start (max (columnOffset startLine span.stop.column) start) startLine)
      else
        let endLine ← lineAt lines last
        let (_, opening) ← partAt start startLine
        let between ← linesBetween lines (first + 1) last
        let (closing, _) ← partAt (columnOffset endLine span.stop.column) endLine
        return some (['\n'].intercalate (opening :: between ++ [closing]))

/-- A line up to the end of the last closing delimiter on it. -/
def closeLine (line : List Char) : Except Trespass (List Char) :=
  match lastOffset ['*', '/'] 0 line with
  | some offset => do
    let (front, _) ← partAt (offset + 2) line
    return front
  | none => return line

/-- Some lines of a comment block from an index on: the one in which it opens starts at an offset, and
the one in which it closes ends with the delimiter. -/
def blockLines (lines : List (List Char)) (opening offset closing : Nat) :
    Nat → Nat → Except Trespass (List (List Char))
  | _, 0 => return []
  | index, more + 1 => do
    let line ← lineAt lines index
    let (_, line) ← partAt (if index = opening then offset else 0) line
    let line ← if index = closing then closeLine line else pure line
    return line :: (← blockLines lines opening offset closing (index + 1) more)

/-- The comment block from an offset of a line through the closing delimiter of another one. -/
def blockAt (lines : List (List Char)) (opening offset closing : Nat) : Except Trespass (List Char) :=
  return ['\n'].intercalate (← blockLines lines opening offset closing opening (closing + 1 - opening))

/-- What the block that closes on a line says, when it opens below an index and not below the floor. -/
def openingBelow (lines : List (List Char)) (floor closing : Nat) : Nat → Except Trespass (Option DocComment)
  | 0 => return none
  | index + 1 =>
    if index + 1 ≤ floor then return none
    else do
      let line ← lineAt lines index
      match firstOffset ['/', '*'] 0 line with
      | none => openingBelow lines floor closing index
      | some offset =>
        let (_, opening) ← partAt offset line
        if opensDoc opening then
          return some (DocComment.ofBlock (← blockAt lines index offset closing))
        else return none

/-- What the block says that closes on the nearest line below an index that is not skipped. -/
def closingBelow (lines : List (List Char)) (floor : Nat) : Nat → Except Trespass (Option DocComment)
  | 0 => if floor = 0 then return none else .error .belowZero
  | index + 1 =>
    if index + 1 = floor then return none
    else do
      let line ← lineAt lines index
      if isSkipped line then closingBelow lines floor index
      else if ['*', '/'].isSuffixOf (trim line) then openingBelow lines floor index (index + 1)
      else return none

/-- What the comment block above a line says, searched upward through the lines of a window. -/
def docBefore (lines : List (List Char)) (window line : Nat) : Except Trespass (Option DocComment) :=
  let above := min (line - 1) lines.length
  closingBelow lines (above - window) above

section

variable {text : List Char}

/-- A terminator that is no return before a line feed ends the line in front of it. -/
theorem sourceLines_terminator {c : Char} {rest : List Char} (ends : isTerminator c = true)
    (loud : ¬(c = '\r' ∧ rest.head? = some '\n')) : sourceLines (c :: rest) = [] :: sourceLines rest := by
  rw [sourceLines, unifyTerminators_cons, if_neg loud, if_pos ends, splitLines_newline, sourceLines]

/-- A carriage return and the line feed behind it end a line together. -/
theorem sourceLines_pair (rest : List Char) : sourceLines ('\r' :: '\n' :: rest) = [] :: sourceLines rest := by
  rw [sourceLines, unifyTerminators_cons, if_pos ⟨rfl, rfl⟩, ← sourceLines]
  exact sourceLines_terminator rfl (by simp)

/-- A text that ends no line stands in front of the first line of what follows. -/
theorem sourceLines_plain_append {front cs first : List Char} {later : List (List Char)}
    (plain : ∀ c ∈ front, isTerminator c = false) (lines : sourceLines cs = first :: later) :
    sourceLines (front ++ cs) = (front ++ first) :: later := by
  have whole : '\n' ∉ front := fun feed => absurd (plain _ feed) (by decide)
  rw [sourceLines, unifyTerminators_append_of_plain plain]
  exact splitLines_append_of_not_mem whole lines

/-- A text that ends no line is a single line. -/
theorem sourceLines_plain {current : List Char} (plain : ∀ c ∈ current, isTerminator c = false) :
    sourceLines current = [current] := by
  have alone := sourceLines_plain_append plain (show sourceLines [] = [[]] from rfl)
  rwa [List.append_nil] at alone

/-- Lines are cut at boundaries of the text: the line under way from where it starts, and those behind
the place that is reached. -/
theorem linesFrom_eq {before current rest : List Char} {start offset : Nat} (starts : start = utf8Len before)
    (reaches : offset = utf8Len (before ++ current)) (whole : text = before ++ current ++ rest)
    (plain : ∀ c ∈ current, isTerminator c = false) :
    linesFrom text start offset rest = .ok (sourceLines (current ++ rest)) := by
  -- The line under way grows until a terminator ends it, and the next one starts empty behind it.
  fun_induction linesFrom text start offset rest generalizing before current with
  | case1 start offset =>
    have cut : stretchOf start offset text = .ok current :=
      stretchOf_eq_ok_iff.mpr ⟨before, _, whole, starts, reaches⟩
    have all : utf8Len text = offset := by rw [whole, reaches, List.append_nil]
    rw [all, cut, List.append_nil, sourceLines_plain plain]
    rfl
  | case2 start offset rest ih =>
    have cut : stretchOf start offset text = .ok current :=
      stretchOf_eq_ok_iff.mpr ⟨before, _, whole, starts, reaches⟩
    have behind : offset + 2 = utf8Len (before ++ current ++ ['\r', '\n']) := by
      rw [String.utf8Len_append, reaches]
      rfl
    have later : linesFrom text (offset + 2) (offset + 2) rest = .ok (sourceLines ([] ++ rest)) :=
      ih behind (by rw [List.append_nil]; exact behind) (by simp [whole]) (by simp)
    have split : sourceLines (current ++ '\r' :: '\n' :: rest) = current :: sourceLines rest := by
      simpa using sourceLines_plain_append plain (sourceLines_pair rest)
    rw [cut, split]
    simp only [later, bind, Except.bind, pure, Except.pure, List.nil_append]
  | case3 start offset c rest lone ends ih =>
    have cut : stretchOf start offset text = .ok current :=
      stretchOf_eq_ok_iff.mpr ⟨before, _, whole, starts, reaches⟩
    have loud : ¬(c = '\r' ∧ rest.head? = some '\n') := by
      rintro ⟨isReturn, feed⟩
      obtain ⟨more, same⟩ := List.head?_eq_some_iff.mp feed
      exact lone more isReturn same
    have behind : offset + c.utf8Size = utf8Len (before ++ current ++ [c]) := by
      rw [String.utf8Len_append, reaches]
      simp
    have later : linesFrom text (offset + c.utf8Size) (offset + c.utf8Size) rest =
        .ok (sourceLines ([] ++ rest)) :=
      ih behind (by rw [List.append_nil]; exact behind) (by simp [whole]) (by simp)
    have split : sourceLines (current ++ c :: rest) = current :: sourceLines rest := by
      simpa using sourceLines_plain_append plain (sourceLines_terminator ends loud)
    rw [cut, split]
    simp only [later, bind, Except.bind, pure, Except.pure, List.nil_append]
  | case4 start offset c rest lone goesOn ih =>
    have longer : ∀ d ∈ current ++ [c], isTerminator d = false := by
      intro d member
      rcases List.mem_append.mp member with inside | last
      · exact plain d inside
      · rw [List.mem_singleton.mp last]
        simpa using goesOn
    have later := ih starts (by rw [← List.append_assoc, String.utf8Len_append, ← reaches]; simp)
      (by simp [whole]) longer
    rwa [List.append_assoc] at later

/-- A text is cut into its lines. -/
theorem linesFrom_zero (text : List Char) : linesFrom text 0 0 text = .ok (sourceLines text) :=
  @linesFrom_eq text [] [] text 0 0 rfl rfl rfl (by simp)

end

section

variable (line : List Char)

/-- A column parts a line. -/
theorem takeColumns_append_dropColumns (columns : Nat) :
    takeColumns columns line ++ dropColumns columns line = line := by
  induction line generalizing columns with
  | nil => cases columns <;> rfl
  | cons c rest ih =>
    cases columns with
    | zero => rfl
    | succ less => rw [takeColumns, dropColumns, List.cons_append, ih]

/-- Fewer columns of a line are those of a part of it. -/
theorem takeColumns_takeColumns {fewer columns : Nat} (within : fewer ≤ columns) :
    takeColumns fewer (takeColumns columns line) = takeColumns fewer line := by
  induction line generalizing fewer columns with
  | nil => cases columns <;> rfl
  | cons c rest ih =>
    cases fewer with
    | zero => rw [takeColumns, takeColumns]
    | succ less =>
      obtain ⟨more, rfl⟩ : ∃ more, columns = more + 1 := Nat.exists_eq_add_one.mpr (by omega)
      rw [takeColumns, takeColumns, takeColumns, ih (by omega)]

/-- The offset of a column counts the bytes of the characters that start before it. -/
theorem offsetFrom_eq (column units offset : Nat) :
    offsetFrom column units offset line = offset + utf8Len (takeColumns (column - units) line) := by
  induction line generalizing units offset with
  | nil => cases column - units <;> rfl
  | cons c rest ih =>
    rw [offsetFrom]
    split
    · rename_i reached
      rw [Nat.sub_eq_zero_of_le reached, takeColumns, String.utf8Len_nil, Nat.add_zero]
    · rename_i beyond
      obtain ⟨less, left⟩ : ∃ less, column - units = less + 1 := Nat.exists_eq_add_one.mpr (by omega)
      have further : column - (units + charUnits c) = less + 1 - charUnits c := by omega
      rw [ih, further, left, takeColumns, String.utf8Len_cons]
      omega

/-- The offset of a column is where the line is parted at that column. -/
theorem columnOffset_eq (column : Nat) : columnOffset line column = utf8Len (takeColumns column line) := by
  rw [columnOffset, offsetFrom_eq, Nat.zero_add, Nat.sub_zero]

/-- A line can be parted at the offset of every column. -/
theorem partAt_columnOffset (column : Nat) :
    partAt (columnOffset line column) line = .ok (takeColumns column line, dropColumns column line) :=
  partAt_eq_ok_iff.mpr ⟨(takeColumns_append_dropColumns line column).symm, columnOffset_eq line column⟩

/-- What stands before a column stands before the later ones. -/
theorem takeColumns_eq_append {column later : Nat} (within : column ≤ later) :
    takeColumns later line = takeColumns column line ++ dropColumns column (takeColumns later line) := by
  conv_lhs => rw [← takeColumns_append_dropColumns (takeColumns later line) column]
  rw [takeColumns_takeColumns line within]

/-- Later columns have no smaller offsets. -/
theorem columnOffset_mono : Monotone (columnOffset line) := by
  intro column later within
  rw [columnOffset_eq, columnOffset_eq, takeColumns_eq_append line within, String.utf8Len_append]
  exact Nat.le_add_right _ _

/-- The text between two columns of a line is read at their offsets, also when the end is before the start. -/
theorem stretchOf_columnOffset (start stop : Nat) :
    stretchOf (columnOffset line start) (max (columnOffset line stop) (columnOffset line start)) line =
      .ok (sliceLine start stop line) := by
  have wider : columnOffset line (max stop start) = max (columnOffset line stop) (columnOffset line start) :=
    (columnOffset_mono line).map_max
  have shape := takeColumns_eq_append line (Nat.le_max_right stop start)
  refine stretchOf_eq_ok_iff.mpr ⟨takeColumns start line, dropColumns (max stop start) line, ?_,
    columnOffset_eq line start, ?_⟩
  · rw [sliceLine, ← shape, takeColumns_append_dropColumns]
  · rw [← wider, columnOffset_eq, sliceLine, ← shape]

end

section

variable {lines : List (List Char)}

/-- A line within a source can be read. -/
theorem lineAt_of_lt {index : Nat} (within : index < lines.length) : lineAt lines index = .ok lines[index] := by
  rw [lineAt, List.getElem?_eq_getElem within]

/-- The lines from one index through a later one are the first of them, those between and the last. -/
theorem exists_linesBetween {first last : Nat} (ordered : first < last) (within : last < lines.length)
    (early : first < lines.length) :
    ∃ between, linesBetween lines (first + 1) last = .ok between ∧
      (lines.drop first).take (last - first + 1) = lines[first] :: (between ++ [lines[last]]) := by
  refine ⟨_, by rw [linesBetween, if_neg (by omega), if_neg (by omega)], ?_⟩
  have count : last - first = last - (first + 1) + 1 := by omega
  have reached : (lines.drop (first + 1))[last - (first + 1)]? = some lines[last] := by
    rw [List.getElem?_drop, Nat.add_sub_cancel' ordered, List.getElem?_eq_getElem within]
  rw [List.drop_eq_getElem_cons early, List.take_succ_cons, count, List.take_add_one, reached]
  rfl

/-- Every stretch is read without trespass, whatever its positions are. -/
theorem sliceAt_eq (lines : List (List Char)) (span : Span) : sliceAt lines span = .ok (slice lines span) := by
  obtain ⟨⟨startLine, start⟩, ⟨stopLine, stop⟩⟩ := span
  unfold sliceAt slice
  simp only [Bool.or_eq_true, decide_eq_true_eq]
  by_cases early : startLine = 0 ∨ stopLine = 0
  · have outside : (startLine = 0 ∨ stopLine < startLine) ∨ lines.length < stopLine := by omega
    rw [if_pos early, if_pos outside]
    rfl
  · obtain ⟨first, rfl⟩ : ∃ first, startLine = first + 1 := Nat.exists_eq_add_one.mpr (by omega)
    obtain ⟨last, rfl⟩ : ∃ last, stopLine = last + 1 := Nat.exists_eq_add_one.mpr (by omega)
    rw [if_neg early]
    simp only [Nat.add_sub_cancel, Nat.add_sub_add_right]
    by_cases beyond : last < first ∨ lines.length ≤ last
    · have outside : (first + 1 = 0 ∨ last + 1 < first + 1) ∨ lines.length < last + 1 := by omega
      rw [if_pos beyond, if_pos outside]
      rfl
    · have within : last < lines.length := by omega
      have inside : ¬((first + 1 = 0 ∨ last + 1 < first + 1) ∨ lines.length < last + 1) := by omega
      have early : first < lines.length := by omega
      rw [if_neg beyond, if_neg inside, lineAt_of_lt early]
      by_cases same : first = last
      · subst same
        have covered : (lines.drop first).take (first - first + 1) = [lines[first]] := by
          rw [Nat.sub_self, List.drop_eq_getElem_cons within]
          rfl
        rw [covered, sliceLines]
        simp only [bind, Except.bind, pure, Except.pure, if_pos, stretchOf_columnOffset]
      · obtain ⟨between, read, covered⟩ := exists_linesBetween (show first < last by omega) within early
        have some_line : between ++ [lines[last]] ≠ [] := by simp
        obtain ⟨second, others, more⟩ := List.exists_cons_of_ne_nil some_line
        rw [covered, more, sliceLines, ← more]
        · simp only [bind, Except.bind, pure, Except.pure, if_neg same, lineAt_of_lt within, partAt_columnOffset,
            read, List.getLast?_concat, Option.getD_some, List.dropLast_concat]
        · simp

/-- The lines of an index and behind it, up to another one. -/
theorem drop_take_eq_cons {index stop : Nat} (before : index < stop) (within : index < lines.length) :
    (lines.take stop).drop index = lines[index] :: (lines.take stop).drop (index + 1) := by
  have inside : index < (lines.take stop).length := by
    rw [List.length_take]
    omega
  rw [List.drop_eq_getElem_cons inside, List.getElem_take]

/-- The lines from a floor up to an index, the nearest first. -/
theorem reverse_drop_take {floor index : Nat} (above : floor ≤ index) (within : index < lines.length) :
    ((lines.take (index + 1)).drop floor).reverse = lines[index] :: ((lines.take index).drop floor).reverse := by
  have count : floor ≤ (lines.take index).length := by
    rw [List.length_take]
    omega
  rw [List.take_add_one, List.getElem?_eq_getElem within, List.drop_append_of_le_length count,
    List.reverse_append]
  rfl

/-- Lines whose last one ends with the last closing delimiter on it, if there is one. -/
def cutLast : List (List Char) → List (List Char)
  | [] => []
  | [last] => [(throughLast ['*', '/'] last).getD last]
  | line :: later => line :: cutLast later

/-- The text of a block consists of its lines up to the closing delimiter. -/
theorem blockText_eq_cutLast (opening : List Char) (below : List (List Char)) :
    blockText opening below = ['\n'].intercalate (cutLast (opening :: below)) := by
  have same : ∀ lines : List (List Char), lines ≠ [] → cutLast lines = lines.dropLast ++
      [(throughLast ['*', '/'] (lines.getLast?.getD [])).getD (lines.getLast?.getD [])] := by
    intro lines some_line
    fun_induction cutLast lines with
    | case1 => exact absurd rfl some_line
    | case2 last => rfl
    | case3 line later more ih =>
      obtain ⟨next, others, rfl⟩ := List.exists_cons_of_ne_nil more
      rw [ih (by simp), List.dropLast_cons_cons, List.getLast?_cons_cons, List.cons_append]
  rw [blockText, same _ (by simp)]

/-- A line is cut behind the last closing delimiter on it without trespass. -/
theorem closeLine_eq (line : List Char) : closeLine line = .ok ((throughLast ['*', '/'] line).getD line) := by
  unfold closeLine
  rcases lastOffset_cases (show ['*', '/'] ≠ [] by simp) 0 line with
    ⟨absent, unplaced⟩ | ⟨front, behind, whole, found, placed⟩
  · rw [absent, unplaced]
    rfl
  · have cut : partAt (0 + utf8Len front + 2) line = .ok (front ++ ['*', '/'], behind) := by
      refine partAt_eq_ok_iff.mpr ⟨whole, ?_⟩
      rw [String.utf8Len_append, Nat.zero_add]
      rfl
    rw [found, placed]
    simp only [cut, bind, Except.bind, pure, Except.pure, Option.getD_some]

/-- The lines of a block from one of them on are what is read of it and the lines behind. -/
theorem blockLines_succ {opening offset closing index more : Nat} {front text : List Char}
    (before : index ≤ closing) (within : closing < lines.length)
    (read : partAt (if index = opening then offset else 0) lines[index] = .ok (front, text))
    (later : blockLines lines opening offset closing (index + 1) more =
      .ok (cutLast ((lines.take (closing + 1)).drop (index + 1)))) :
    blockLines lines opening offset closing index (more + 1) =
      .ok (cutLast (text :: (lines.take (closing + 1)).drop (index + 1))) := by
  rw [blockLines, lineAt_of_lt (Nat.lt_of_le_of_lt before within)]
  simp only [bind, Except.bind, read, later]
  by_cases last : index = closing
  · have nothing : (lines.take (closing + 1)).drop (index + 1) = [] := by
      rw [last, List.drop_take_self]
    rw [if_pos last, closeLine_eq, nothing]
    rfl
  · rw [if_neg last, drop_take_eq_cons (by omega) (by omega)]
    rfl

/-- The lines of a block behind its first one are read up to the closing delimiter. -/
theorem blockLines_eq {opening offset closing index more : Nat} (behind : opening < index)
    (count : index + more = closing + 1) (within : closing < lines.length) :
    blockLines lines opening offset closing index more =
      .ok (cutLast ((lines.take (closing + 1)).drop index)) := by
  induction more generalizing index with
  | zero =>
    have nothing : (lines.take (closing + 1)).drop index = [] := by
      rw [List.drop_eq_nil_iff, List.length_take]
      omega
    rw [nothing]
    rfl
  | succ more ih =>
    have whole : partAt (if index = opening then offset else 0) lines[index] = .ok ([], lines[index]) := by
      rw [if_neg (by omega), partAt]
    have later := ih (Nat.lt_succ_of_lt behind) (by omega)
    rw [blockLines_succ (show index ≤ closing by omega) within whole later,
      ← drop_take_eq_cons (show index < closing + 1 by omega)]

/-- The block from an opening delimiter on is read without trespass. -/
theorem blockAt_eq {opening closing : Nat} {front text : List Char} (before : opening ≤ closing)
    (within : closing < lines.length) (opens : lines[opening] = front ++ text) :
    blockAt lines opening (utf8Len front) closing =
      .ok (blockText text ((lines.take (closing + 1)).drop (opening + 1))) := by
  have read : partAt (if opening = opening then utf8Len front else 0) lines[opening] = .ok (front, text) := by
    rw [if_pos rfl, opens, partAt_utf8Len]
  have count : opening + 1 + (closing - opening) = closing + 1 := by omega
  have whole := blockLines_succ before within read (blockLines_eq (Nat.lt_succ_self opening) count within)
  have all : closing + 1 - opening = closing - opening + 1 := by omega
  rw [blockAt, all, whole, blockText_eq_cutLast]
  rfl

/-- The opening of a block is searched upward without trespass. -/
theorem openingBelow_eq {floor closing index : Nat} (above : floor ≤ index) (before : index ≤ closing + 1)
    (within : closing < lines.length) :
    openingBelow lines floor closing index =
      .ok ((findBlock ((lines.take (closing + 1)).drop index) ((lines.take index).drop floor).reverse).map
        DocComment.ofBlock) := by
  induction index with
  | zero => simp [openingBelow, findBlock, pure, Except.pure]
  | succ index ih =>
    rw [openingBelow]
    by_cases reached : index + 1 ≤ floor
    · have nothing : ((lines.take (index + 1)).drop floor).reverse = [] := by
        simp only [List.reverse_eq_nil_iff, List.drop_eq_nil_iff, List.length_take]
        omega
      rw [if_pos reached, nothing]
      rfl
    · have early : index < lines.length := by omega
      rw [if_neg reached, lineAt_of_lt early, reverse_drop_take (by omega) early, findBlock]
      have further := ih (by omega) (by omega)
      rw [drop_take_eq_cons before early] at further
      rcases firstOffset_cases ['/', '*'] 0 lines[index] with
        ⟨absent, unplaced⟩ | ⟨front, opening, whole, found, placed⟩
      · simp only [bind, Except.bind, absent, unplaced]
        exact further
      · rw [Nat.zero_add] at placed
        have parted : partAt (utf8Len front) lines[index] = .ok (front, opening) :=
          partAt_eq_ok_iff.mpr ⟨whole, rfl⟩
        simp only [bind, Except.bind, found, placed, parted, blockAt_eq (Nat.le_of_succ_le_succ before) within whole]
        rw [← opensDoc]
        split <;> rfl

/-- The end of a block is searched upward without trespass. -/
theorem closingBelow_eq {floor index : Nat} (above : floor ≤ index) (within : index ≤ lines.length) :
    closingBelow lines floor index =
      .ok ((blockAbove ((lines.take index).drop floor).reverse).map DocComment.ofBlock) := by
  induction index with
  | zero =>
    rw [closingBelow, if_pos (Nat.le_zero.mp above)]
    simp [blockAbove, pure, Except.pure]
  | succ index ih =>
    rw [closingBelow]
    by_cases reached : index + 1 = floor
    · have nothing : ((lines.take (index + 1)).drop floor).reverse = [] := by
        simp only [List.reverse_eq_nil_iff, List.drop_eq_nil_iff, List.length_take]
        omega
      rw [if_pos reached, nothing]
      rfl
    · have early : index < lines.length := within
      have higher : floor ≤ index := by omega
      rw [if_neg reached, lineAt_of_lt early, reverse_drop_take higher early, blockAbove]
      simp only [bind, Except.bind]
      by_cases skipped : isSkipped lines[index] = true
      · rw [if_pos skipped, if_pos skipped]
        exact ih higher (Nat.le_of_lt early)
      · rw [if_neg skipped, if_neg skipped]
        split
        · -- The line on which a block closes may be the one on which it opens.
          rw [openingBelow_eq above (Nat.le_refl _) early, List.drop_take_self, reverse_drop_take higher early]
        · rfl

/-- What documents a line is searched without trespass, in every window. -/
theorem docBefore_eq (lines : List (List Char)) (window line : Nat) :
    docBefore lines window line = .ok (docAbove lines window line) := by
  rw [docBefore, closingBelow_eq (Nat.sub_le _ _) (Nat.min_le_right _ _), docAbove, linesAbove_eq_linesBefore,
    linesBefore]

end

end SourceOutline.Script
