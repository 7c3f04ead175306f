import SourceOutline.Proofs.DocComment.Cleaning
import SourceOutline.Proofs.Text.Returns
import SourceOutline.Python.Literal

/-! What the content of a literal says when its lines end with line feeds, and when carriage returns stand
before these. -/

namespace SourceOutline.Python

open DocComment Text

/-- What the content of a string literal says, piece by piece. -/
inductive Sign where
  /-- A character, given as itself or by an escape. -/
  | char (c : Char)
  /-- A line break. -/
  | feed
  /-- A backslash before a line break, which joins two lines. -/
  | join
  deriving DecidableEq

namespace Sign

/-- The text that a sign stands for. -/
def text : Sign → List Char
  | char c => [c]
  | feed => ['\n']
  | join => []

/-- The text that a sign stands for behind a carriage return in each line break, which a backslash does
not take along. -/
def returned : Sign → List Char
  | char c => [c]
  | feed => ['\r', '\n']
  | join => ['\\', '\r', '\n']

/-- What a character without a backslash says. -/
def ofChar (c : Char) : Sign := if c = '\n' then feed else char c

/-- A character stands for itself. -/
@[simp] theorem text_ofChar (c : Char) : (ofChar c).text = [c] := by
  unfold ofChar
  split
  · rename_i same
    rw [same]
    rfl
  · rfl

/-- A line feed gets a carriage return, any other character stands for itself. -/
@[simp] theorem returned_ofChar (c : Char) : (ofChar c).returned = withReturns [c] := by
  unfold ofChar
  split
  · rename_i same
    rw [same]
    rfl
  · rename_i other
    rw [withReturns_cons other]
    rfl

/-- Characters that escapes stand for are themselves. -/
@[simp] theorem flatMap_text_char (cs : List Char) : (cs.map char).flatMap text = cs := by
  induction cs with
  | nil => rfl
  | cons c rest ih => rw [List.map_cons, List.flatMap_cons, ih]; rfl

/-- Carriage returns do not change what escapes stand for. -/
@[simp] theorem flatMap_returned_char (cs : List Char) : (cs.map char).flatMap returned = cs := by
  induction cs with
  | nil => rfl
  | cons c rest ih => rw [List.map_cons, List.flatMap_cons, ih]; rfl

end Sign

/-- What the content of a literal says in which backslashes escape. -/
def escapedSigns : List Char → List Sign
  | [] => []
  | c :: rest =>
    -- Only a line feed leaves nothing behind a backslash.
    if c = '\\' then
      if rest.head? = some '\n' then .join :: escapedSigns (rest.drop 1)
      else (escape rest).1.map .char ++ escapedSigns (rest.drop (escape rest).2)
    else .ofChar c :: escapedSigns rest
termination_by content => content.length
decreasing_by
  all_goals
    simp only [List.length_drop, List.length_cons]
    omega

/-- The signs of a content with escapes stand for its text. -/
theorem flatMap_text_escapedSigns (content : List Char) :
    (escapedSigns content).flatMap Sign.text = unescape content := by
  fun_induction escapedSigns content with
  | case1 => rw [unescape]; rfl
  | case2 rest feed ih =>
    obtain ⟨later, rfl⟩ := List.head?_eq_some_iff.mp feed
    rw [unescape, List.flatMap_cons, ih]
    rfl
  | case3 rest other ih =>
    rw [unescape, List.flatMap_append, ih, Sign.flatMap_text_char]
    rfl
  | case4 c rest other ih =>
    rw [unescape, List.flatMap_cons, ih, Sign.text_ofChar, if_neg (by simpa using other)]
    rfl

section

variable {cs : List Char}

/-- What stands before the first line break is the same. -/
theorem drop_withReturns {count : Nat} (single : '\n' ∉ cs.take count) :
    (withReturns cs).drop count = withReturns (cs.drop count) ∧ (withReturns cs).take count = cs.take count := by
  have whole : withReturns cs = cs.take count ++ withReturns (cs.drop count) := by
    rw [← withReturns_of_not_mem single, ← withReturns_append, List.take_append_drop]
  rw [whole]
  by_cases within : count ≤ cs.length
  · have length : (cs.take count).length = count := List.length_take_of_le within
    exact ⟨List.drop_left' length, List.take_left' length⟩
  · have beyond : cs.length ≤ count := Nat.le_of_not_le within
    rw [List.take_of_length_le beyond, List.drop_of_length_le beyond, withReturns_nil, List.append_nil]
    exact ⟨List.drop_of_length_le beyond, List.take_of_length_le beyond⟩

/-- A carriage return stands where the first line break was. -/
theorem mem_take_withReturns {count : Nat} (broken : '\n' ∈ cs.take count) :
    '\r' ∈ (withReturns cs).take count := by
  induction cs generalizing count with
  | nil => simp at broken
  | cons c rest ih =>
    cases count with
    | zero => cases broken
    | succ less =>
      by_cases feed : c = '\n'
      · subst feed
        exact List.mem_cons_self
      · rw [withReturns_cons feed, List.take_succ_cons]
        refine List.mem_cons_of_mem c (ih ?_)
        rw [List.take_succ_cons] at broken
        exact (List.mem_cons.mp broken).resolve_left (Ne.symm feed)

end

/-- A character that is no digit spoils a number. -/
theorem hexNumber_eq_none {digits : List Char} {c : Char} (member : c ∈ digits) (other : hexDigit? c = none) :
    hexNumber digits = none := by
  have from_any : ∀ start, digits.foldlM (fun value c => (hexDigit? c).map (value * 16 + ·)) start = none := by
    induction digits with
    | nil => cases member
    | cons d rest ih =>
      intro start
      rw [List.foldlM_cons]
      rcases List.mem_cons.mp member with rfl | later
      · rw [other]
        rfl
      · cases hexDigit? d with
        | none => rfl
        | some digit => exact ih later _
  exact from_any 0

/-- A character that is no digit spoils a code point. -/
theorem hexChar_eq_none {cs : List Char} {width : Nat} {c : Char} (member : c ∈ cs.take width)
    (other : hexDigit? c = none) (unsigned : c ≠ '+') : hexChar width cs = none := by
  have inside : c ∈ if (cs.take width).head? == some '+' then (cs.take width).drop 1 else cs.take width := by
    split
    · rename_i sign
      obtain ⟨rest, same⟩ := List.head?_eq_some_iff.mp (beq_iff_eq.mp sign)
      rw [same] at member ⊢
      exact (List.mem_cons.mp member).resolve_left unsigned
    · exact member
  simp only [hexChar, hexNumber_eq_none inside other, Option.bind_none, ite_self]

/-- A code point is the same with carriage returns in what follows it. -/
theorem hexChar_withReturns (cs : List Char) (width : Nat) :
    hexChar width (withReturns cs) = hexChar width cs := by
  by_cases broken : '\n' ∈ cs.take width
  · rw [hexChar_eq_none broken (by decide) (by decide),
      hexChar_eq_none (mem_take_withReturns broken) (by decide) (by decide)]
  · rw [hexChar, hexChar, (drop_withReturns broken).2]

/-- Digits are the same with carriage returns behind them. -/
theorem octalRun_withReturns (cs : List Char) : octalRun (withReturns cs) = octalRun cs := by
  by_cases broken : '\n' ∈ cs.take 2
  · match cs, broken with
    | [c], broken =>
      obtain rfl := List.mem_singleton.mp broken
      rfl
    | c :: d :: rest, broken =>
      by_cases feed : c = '\n'
      · subst feed
        rfl
      · obtain rfl : '\n' = d := by simpa [Ne.symm feed] using broken
        rw [withReturns_cons feed]
        simp [octalRun, List.takeWhile_cons]
  · rw [octalRun, octalRun, (drop_withReturns broken).2]

/-- What an escape stands for does not reach over a line break. -/
theorem escape_withReturns {rest : List Char} (other : rest.head? ≠ some '\n') :
    escape (withReturns rest) = escape rest ∧ '\n' ∉ rest.take (escape rest).2 := by
  cases rest with
  | nil => exact ⟨rfl, by simp⟩
  | cons c later =>
    have feed : c ≠ '\n' := by simpa using other
    have further : ∀ count, '\n' ∉ later.take count → '\n' ∉ (c :: later).take (count + 1) :=
      fun count single member => (List.mem_cons.mp member).elim (Ne.symm feed) single
    have first := further 0 (by simp)
    rw [withReturns_cons feed]
    simp only [escape, beq_iff_eq, feed, if_false, hexChar_withReturns, octalRun_withReturns]
    refine ⟨trivial, ?_⟩
    cases letterEscape c with
    | some meant => exact first
    | none =>
      simp only
      cases escapeWidth c with
      | some width =>
        simp only
        cases found : hexChar width later with
        | none => exact first
        | some meant =>
          simp only [Nat.add_comm 1]
          refine further width fun broken => ?_
          rw [hexChar_eq_none broken (by decide) (by decide)] at found
          cases found
      | none =>
        simp only
        split
        · refine further (octalRun later).length fun broken => ?_
          have digits : octalRun later <+: later := (List.takeWhile_prefix _).trans (List.take_prefix 2 later)
          rw [← List.prefix_iff_eq_take.mp digits] at broken
          have digit := List.all_eq_true.mp List.all_takeWhile _ broken
          revert digit
          decide
        · exact first

/-- The signs of a content with escapes stand for the text of the content with carriage returns. -/
theorem flatMap_returned_escapedSigns (content : List Char) :
    (escapedSigns content).flatMap Sign.returned = unescape (withReturns content) := by
  fun_induction escapedSigns content with
  | case1 => rw [withReturns_nil, unescape]; rfl
  | case2 rest feed ih =>
    -- The carriage return is no line break, so the backslash stays, and the line feed too.
    obtain ⟨later, rfl⟩ := List.head?_eq_some_iff.mp feed
    rw [withReturns_cons (by decide), withReturns_feed, unescape, List.flatMap_cons, ih]
    show _ = ['\\', '\r'] ++ unescape ('\n' :: withReturns later)
    rw [unescape]
    rfl
  | case3 rest other ih =>
    obtain ⟨same, single⟩ := escape_withReturns other
    rw [withReturns_cons (by decide), unescape, if_pos (by rfl), List.flatMap_append, ih,
      Sign.flatMap_returned_char]
    simp only [same, (drop_withReturns single).1]
  | case4 c rest other ih =>
    rw [List.flatMap_cons, ih, Sign.returned_ofChar]
    by_cases feed : c = '\n'
    · subst feed
      rw [withReturns_feed, withReturns_feed, unescape, unescape]
      rfl
    · rw [withReturns_cons feed, withReturns_cons feed, unescape, if_neg (by simpa using other)]
      rfl

/-- The lines that signs make up, and which of them a line break of the source ends. -/
def signLines : List Sign → List (List Char × Bool)
  | [] => [([], false)]
  | .feed :: rest => ([], true) :: signLines rest
  | .join :: rest => signLines rest
  | .char c :: rest =>
    -- A line break given by an escape has no carriage return.
    if c = '\n' then ([], false) :: signLines rest else (signLines rest).modifyHead (Prod.map (c :: ·) id)

/-- A line with the carriage return of the line break that ends it. -/
def endLine (line : List Char × Bool) : List Char := if line.2 then line.1 ++ ['\r'] else line.1

/-- Signs make up a line at least. -/
theorem signLines_ne_nil (signs : List Sign) : signLines signs ≠ [] := by
  fun_induction signLines signs <;> simp_all

/-- The lines of a text are those of its signs. -/
theorem splitLines_flatMap_text (signs : List Sign) :
    splitLines (signs.flatMap Sign.text) = (signLines signs).map Prod.fst := by
  fun_induction signLines signs with
  | case1 => rfl
  | case2 rest ih => rw [List.flatMap_cons, List.map_cons, ← ih]; exact splitLines_newline _
  | case3 rest ih => exact ih
  | case4 rest ih => rw [List.flatMap_cons, List.map_cons, ← ih]; exact splitLines_newline _
  | case5 c rest other ih =>
    obtain ⟨line, later, lines⟩ := List.exists_cons_of_ne_nil (signLines_ne_nil rest)
    rw [List.flatMap_cons]
    show splitLines (c :: rest.flatMap Sign.text) = _
    rw [splitLines_cons other, ih, lines]
    rfl

/-- With carriage returns the lines are the same, apart from the carriage return of the line break that
ends each of them. -/
theorem splitLines_flatMap_returned {signs : List Sign} (whole : .join ∉ signs) :
    splitLines (signs.flatMap Sign.returned) = (signLines signs).map endLine := by
  fun_induction signLines signs with
  | case1 => rfl
  | case2 rest ih =>
    have inner := ih fun member => whole (List.mem_cons_of_mem _ member)
    rw [List.flatMap_cons, List.map_cons, ← inner]
    show splitLines ('\r' :: '\n' :: _) = _
    rw [splitLines_cons (by decide), splitLines_newline]
    rfl
  | case3 rest ih => exact absurd List.mem_cons_self whole
  | case4 rest ih =>
    have inner := ih fun member => whole (List.mem_cons_of_mem _ member)
    rw [List.flatMap_cons, List.map_cons, ← inner]
    exact splitLines_newline _
  | case5 c rest other ih =>
    have inner := ih fun member => whole (List.mem_cons_of_mem _ member)
    obtain ⟨⟨line, ended⟩, later, lines⟩ := List.exists_cons_of_ne_nil (signLines_ne_nil rest)
    rw [List.flatMap_cons]
    show splitLines (c :: rest.flatMap Sign.returned) = _
    rw [splitLines_cons other, inner, lines]
    cases ended <;> rfl

/-- Signs that say the same with carriage returns: no lines are joined, and line breaks of the source end
only blank lines. -/
structure IsQuiet (signs : List Sign) : Prop where
  /-- No lines are joined. -/
  whole : .join ∉ signs
  /-- Line breaks end only blank lines. -/
  blank : ∀ line ∈ signLines signs, line.2 = true → isAllBlank line.1 = true

/-- A carriage return takes a column of its own. -/
theorem expandFrom_append_return (column : Nat) (line : List Char) :
    expandFrom column (line ++ ['\r']) = expandFrom column line ++ ['\r'] := by
  induction line generalizing column with
  | nil => rfl
  | cons c rest ih =>
    rw [List.cons_append, expandFrom, expandFrom]
    split
    · rw [ih, List.append_assoc]
    · rw [ih, List.cons_append]

/-- A carriage return is a blank. -/
theorem isAllBlank_append_return (line : List Char) : isAllBlank (line ++ ['\r']) = isAllBlank line := by
  rw [isAllBlank, isAllBlank, List.all_append]
  exact Bool.and_true _

/-- A carriage return behind something that is no blank is not trimmed in front. -/
theorem trimStart_append_return {line : List Char} (loud : isAllBlank line = false) :
    trimStart (line ++ ['\r']) = trimStart line ++ ['\r'] := by
  have some_char : line.dropWhile isBlank ≠ [] := fun empty => by
    rw [isAllBlank_iff.mpr empty] at loud
    cases loud
  rw [trimStart, List.dropWhile_append, if_neg fun empty => some_char (List.isEmpty_iff.mp empty)]
  rfl

/-- Each join adds a character that is no blank. -/
theorem length_ink_returned (signs : List Sign) :
    (ink (signs.flatMap Sign.returned)).length = (ink (signs.flatMap Sign.text)).length + signs.count .join := by
  induction signs with
  | nil => rfl
  | cons sign rest ih =>
    rw [List.flatMap_cons, List.flatMap_cons, ink_append, ink_append, List.length_append, List.length_append, ih]
    cases sign with
    | char c => simp [Sign.returned, Sign.text, Nat.add_assoc]
    | feed =>
      rw [show ink Sign.feed.returned = [] by decide, show ink Sign.feed.text = [] by decide,
        List.count_cons_of_ne (by decide), Nat.add_assoc]
    | join =>
      rw [show ink Sign.join.returned = ['\\'] by decide, show ink Sign.join.text = [] by decide,
        List.count_cons_self, List.length_singleton, List.length_nil]
      omega

/-- Lines with the same visible parts have no carriage returns behind them. -/
theorem blank_of_visible_eq {lines : List (List Char × Bool)}
    (same : visible ((lines.map endLine).map expandTabs) = visible ((lines.map Prod.fst).map expandTabs)) :
    ∀ line ∈ lines, line.2 = true → isAllBlank line.1 = true := by
  induction lines with
  | nil => simp
  | cons first rest ih =>
    obtain ⟨line, ended⟩ := first
    have step : ∀ (other : List Char) (more : List (List Char)), visible (other :: more) =
        if isAllBlank other then visible more else trimStart other :: visible more := by
      intro other more
      rw [visible, List.map_cons, List.filter_cons]
      cases blank : isAllBlank other with
      | true => simp [isAllBlank_iff.mp blank, visible]
      | false =>
        have loud : trimStart other ≠ [] := fun empty => by
          rw [isAllBlank_iff.mpr empty] at blank
          cases blank
        simp [loud, visible]
    have alike : isAllBlank (expandTabs (endLine (line, ended))) = isAllBlank line := by
      rw [isAllBlank_expandTabs]
      cases ended
      · rfl
      · exact isAllBlank_append_return line
    simp only [List.map_cons, step, alike, isAllBlank_expandTabs] at same
    cases blank : isAllBlank line with
    | true =>
      rw [blank] at same
      exact List.forall_mem_cons.mpr ⟨fun _ => blank, ih same⟩
    | false =>
      rw [blank] at same
      obtain ⟨here, later⟩ := List.cons.inj same
      refine List.forall_mem_cons.mpr ⟨fun isEnded => ?_, ih later⟩
      have loud : isAllBlank (expandTabs line) = false := (isAllBlank_expandTabs line).trans blank
      obtain rfl : ended = true := isEnded
      rw [show expandTabs (endLine (line, true)) = expandTabs line ++ ['\r'] from expandFrom_append_return 0 line,
        trimStart_append_return loud] at here
      simp at here

/-- Signs are cleaned to the same text with carriage returns exactly when they are quiet. -/
theorem cleanText_returned_iff (signs : List Sign) :
    cleanText (signs.flatMap Sign.returned) = cleanText (signs.flatMap Sign.text) ↔ IsQuiet signs := by
  constructor
  · intro same
    have lines := visibleLines_eq same
    have whole : .join ∉ signs := by
      have chars := congrArg List.length (congrArg (List.flatMap ink) lines)
      rw [ink_visibleLines, ink_visibleLines, length_ink_returned] at chars
      exact List.count_eq_zero.mp (by omega)
    refine ⟨whole, blank_of_visible_eq ?_⟩
    rw [visibleLines, visibleLines, splitLines_flatMap_returned whole, splitLines_flatMap_text] at lines
    exact lines
  · intro quiet
    refine cleanText_sameVisible ?_
    rw [splitLines_flatMap_returned quiet.whole, splitLines_flatMap_text, List.forall₂_map_left_iff,
      List.forall₂_map_right_iff, List.forall₂_same]
    rintro ⟨line, ended⟩ member
    cases ended with
    | false => exact .inl rfl
    | true =>
      have blank := quiet.blank _ member rfl
      exact .inr ⟨blank, (isAllBlank_append_return line).trans blank⟩

end SourceOutline.Python
