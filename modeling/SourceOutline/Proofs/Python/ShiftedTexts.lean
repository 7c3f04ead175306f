import SourceOutline.Proofs.Python.ShiftedPlaces
import SourceOutline.Proofs.Python.Standing
import SourceOutline.Proofs.Python.Transcripts

/-! What stands between places of a shifted text. -/

namespace SourceOutline.Python

open Text

section

/-- What has been read of a text from its end: the word under way, and the words behind it. -/
private abbrev readWord (c : Char) (pieces : List Char × List (List Char)) : List Char × List (List Char) :=
  if isBlank c then ([], keepWord pieces.1 pieces.2) else (c :: pieces.1, pieces.2)

/-- A shift takes away blanks alone, and no line feed, so it keeps the words apart. -/
theorem words_shifted (width room : Nat) (cs : List Char) : words (shifted some width room cs) = words cs := by
  have blank_words : ∀ {c : Char} {cs : List Char}, isBlank c = true → words (c :: cs) = words cs := by
    intro c cs blank
    rw [words, List.foldr_cons, if_pos blank]
    rfl
  suffices both : (shifted some width 0 cs).foldr readWord ([], []) = cs.foldr readWord ([], []) ∧
      ∀ room, words (shifted some width room cs) = words cs from both.2 room
  induction cs with
  | nil => exact ⟨rfl, fun _ => rfl⟩
  | cons c rest ih =>
    obtain ⟨read, kept⟩ := ih
    -- Without room for blanks the word under way is the same too.
    have flush : (shifted some width 0 (c :: rest)).foldr readWord ([], []) = (c :: rest).foldr readWord ([], []) := by
      rw [shifted_cons]
      split
      · rename_i feed
        subst feed
        exact congrArg (Prod.mk []) (kept width)
      · split
        · rename_i returns
          obtain ⟨rfl, feed⟩ := returns
          obtain ⟨more, rfl⟩ := List.head?_eq_some_iff.mp feed
          rw [read]
          rfl
        · rw [if_neg fun both => both.1 rfl, List.foldr_cons, List.foldr_cons, read]
    refine ⟨flush, fun room => ?_⟩
    by_cases loses : room ≠ 0 ∧ (c = ' ' ∨ c = '\t')
    · have blank : isBlank c = true := by rcases loses.2 with rfl | rfl <;> decide
      have plain : c ≠ '\n' ∧ c ≠ '\r' := by rcases loses.2 with rfl | rfl <;> decide
      rw [shifted_cons, if_neg plain.1, if_neg fun both => plain.2 both.1, if_pos loses, kept, blank_words blank]
    · have same : shifted some width room (c :: rest) = shifted some width 0 (c :: rest) := by
        simp only [shifted_cons, if_neg loses, ne_eq, not_true_eq_false, false_and, if_false]
      rw [same, words, words, ← flush]

end

/-- The text with fewer blanks at the starts of its lines. -/
def shiftedText (width : Nat) (text : String) : String := String.ofList (shifted some width 0 text.toList)

/-- A text that is shifted collapses to the same text. -/
theorem collapse_shifted (width room : Nat) (cs : List Char) : collapse (shifted some width room cs) = collapse cs := by
  rw [collapse, collapse, words_shifted]

/-- No room is left behind a firm character. -/
theorem roomBehind_concat {c : Char} (firm : ¬IsLoose c) (width room : Nat) (front : List Char) :
    roomBehind some width room (front ++ [c]) = 0 := by
  rw [roomBehind_append, roomBehind_firm firm]
  rfl

section

variable {source front text back : List Char} {width : Nat} {start start' stop stop' : Mark}
  (whole : source = front ++ (text ++ back)) (plain : '\r' ∉ text)
  (starts : Outdented (Mark.pass {} front) width text start start')
  (stops : Outdented (Mark.pass {} front) width text stop stop')

include whole plain starts stops

/-- Between places of the shifted text stands the shifted text. -/
theorem exists_shiftedBetween :
    ∃ seen, seen <+: text ∧ start = Mark.pass {} (front ++ seen) ∧
      textBetween (shifted some width 0 text) start' stop' =
        shifted some width (roomBehind some width 0 seen) (textBetween source start stop) := by
  obtain ⟨seen, within, rfl, rfl⟩ := starts
  obtain ⟨past, further, rfl, rfl⟩ := stops
  refine ⟨seen, within, (Mark.pass_append _ _ _).symm, ?_⟩
  rcases List.prefix_or_prefix_of_prefix within further with ⟨text, rfl⟩ | ⟨beyond, rfl⟩
  · obtain ⟨rest, rfl⟩ := further
    have seen_plain : '\r' ∉ seen := fun member => plain (by simp [member])
    have front_plain : '\r' ∉ seen ++ text := fun member => plain (List.mem_append_left rest member)
    have own : textBetween source ((Mark.pass {} front).pass seen) ((Mark.pass {} front).pass (seen ++ text)) =
        text := by
      have inside : front ++ seen ++ text <+: source := ⟨rest ++ back, by simp [whole]⟩
      refine textBetween_eq inside ?_ ?_ <;> simp [← Mark.pass_append, offset_pass]
    rw [own, shifted_append_plain seen_plain]
    have copied : shifted some width 0 seen ++ shifted some width (roomBehind some width 0 seen) text <+:
        shifted some width 0 (seen ++ text ++ rest) := by
      rw [← shifted_append_plain seen_plain, shifted_append_plain front_plain]
      exact List.prefix_append _ _
    refine textBetween_eq copied ?_ ?_ <;> simp [offset_pass]
  · have past_plain : '\r' ∉ past := fun member => plain (within.subset (List.mem_append_left beyond member))
    rw [shifted_append_plain past_plain, textBetween_eq_nil, textBetween_eq_nil]
    · rfl
    · simp [offset_pass]
    · simp [offset_pass]

/-- Between places that correspond there is the same text on one line. -/
theorem collapse_between : collapse (textBetween (shifted some width 0 text) start' stop') =
    collapse (textBetween source start stop) := by
  obtain ⟨seen, _, _, between⟩ := exists_shiftedBetween whole plain starts stops
  rw [between, collapse_shifted]

variable {given : List Token} (stands : ∀ token ∈ given, token.Stands source)

include stands

/-- Behind the start or the stop of a token the text is shifted like one of its own. -/
theorem shifted_beside (beside : Beside given start) :
    textBetween (shifted some width 0 text) start' stop' = shifted some width 0 (textBetween source start stop) := by
  obtain ⟨seen, within, place, between⟩ := exists_shiftedBetween whole plain starts stops
  rw [between]
  obtain ⟨token, member, written, at_end⟩ := beside
  obtain ⟨before, word, inside, begins, ends, firm⟩ := stands token member
  obtain ⟨some_char, firm⟩ := firm written
  have firm : ∀ c ∈ word, ¬IsLoose c := fun c member loose => firm c member (mem_separators_of_loose loose)
  have past : front ++ seen <+: source := by
    rw [whole]
    exact (List.prefix_append_right_inj front).mpr (within.trans (List.prefix_append text back))
  rcases at_end with at_start | at_stop
  · -- The text is empty or starts as the token does.
    obtain rfl :=
      eq_of_pass past ((List.prefix_append before word).trans inside) (place.symm.trans (at_start.trans begins))
    obtain ⟨behind, rest⟩ := inside
    obtain ⟨c, more, rfl⟩ := List.exists_cons_of_ne_nil some_char
    have offset : start.offset = (front ++ seen).length := by simp [place, offset_pass]
    rw [textBetween, offset, ← rest, List.append_assoc, List.drop_left]
    cases stop.offset - (front ++ seen).length with
    | zero => rfl
    | succ count =>
      have solid := firm c List.mem_cons_self
      rw [List.cons_append, List.take_succ_cons, shifted_firm solid, shifted_firm solid]
  · -- The last character before the text is the last one of the token.
    have same := eq_of_pass past inside (place.symm.trans (at_stop.trans ends))
    rcases List.eq_nil_or_concat seen with rfl | ⟨others, c, rfl⟩
    · rfl
    · have last : c ∈ word := by
        obtain ⟨others, d, rfl⟩ := (List.eq_nil_or_concat word).resolve_left some_char
        rw [List.concat_eq_append, List.concat_eq_append, ← List.append_assoc, ← List.append_assoc] at same
        obtain rfl : c = d := by simpa using List.append_inj_right' same rfl
        simp
      rw [List.concat_eq_append, roomBehind_concat (firm c last)]

/-- A token is the same in the shifted text. -/
theorem shifted_encloses (encloses : Encloses given start stop) :
    textBetween (shifted some width 0 text) start' stop' = textBetween source start stop := by
  obtain ⟨token, member, written, begins, ends⟩ := encloses
  rw [shifted_beside whole plain starts stops stands ⟨token, member, written, .inl begins.symm⟩]
  obtain ⟨before, word, inside, place, place', firm⟩ := stands token member
  obtain ⟨_, firm⟩ := firm written
  have own : textBetween source start stop = word := by
    refine textBetween_eq inside ?_ ?_
    · simp [← begins, place, offset_pass]
    · simp [← ends, place', offset_pass]
  have kept := shifted_firm_append (fun c member loose => firm c member (mem_separators_of_loose loose)) width []
  rw [List.append_nil] at kept
  rw [own, kept]
  simp [shifted]

end

/-- A node that is spelled with given tokens and the node in its place in a copy. -/
structure SpelledAlike (same : Mark → Mark → Prop) (given : List Token) (node node' : Node) : Prop where
  /-- The nodes correspond. -/
  alike : Node.Alike same node node'
  /-- The first one is spelled with the tokens. -/
  spelled : node.Spelled given

/-- The children of such nodes are such nodes. -/
theorem SpelledAlike.children {same : Mark → Mark → Prop} {given : List Token} {node node' : Node}
    (both : SpelledAlike same given node node') :
    List.Forall₂ (SpelledAlike same given) node.children node'.children := by
  have alike := both.alike.children
  have spelled := both.spelled.children
  generalize node.children = parts, node'.children = parts' at alike spelled
  induction alike with
  | nil => exact .nil
  | cons first rest ih =>
    obtain ⟨here, later⟩ := allSpelled_cons.mp spelled
    exact .cons ⟨first, here⟩ (ih later)

/-- The shifted text has the names and the types of the source, and patterns that are shifted. -/
theorem transcribes_shifted {source front text back : List Char} {width : Nat} {given : List Token}
    (whole : source = front ++ (text ++ back)) (plain : '\r' ∉ text) (stands : ∀ token ∈ given, token.Stands source) :
    Transcribes source (shifted some width 0 text) (shiftedText width)
      (SpelledAlike (Outdented (Mark.pass {} front) width text) given) where
  kind both := both.alike.kind
  role both := both.alike.role
  children := SpelledAlike.children
  collapsed both := congrArg String.ofList (collapse_between whole plain both.alike.start both.alike.stop)
  identifier {node node'} both isName := by
    have encloses := both.spelled.formed.token (by rw [isName]; rfl)
    have kept : node'.text (shifted some width 0 text) = node.text source :=
      shifted_encloses whole plain both.alike.start both.alike.stop stands encloses
    have changed : node'.text (shifted some width 0 text) = shifted some width 0 (node.text source) := by
      obtain ⟨token, member, written, starts, _⟩ := encloses
      exact shifted_beside whole plain both.alike.start both.alike.stop stands
        ⟨token, member, written, .inl starts.symm⟩
    refine ⟨congrArg String.ofList kept, ?_⟩
    rw [shiftedText, String.toList_ofList, ← changed, kept]
  named both := both.spelled.formed.named
  pattern both kind := by
    have formed := both.spelled.formed
    refine ⟨formed.untyped kind, fun name name' found names _ => ?_⟩
    have starts := (formed.target kind name found).1
    have changed := shifted_beside whole plain names.alike.start names.alike.stop stands starts
    rw [shiftedText, String.toList_ofList]
    exact congrArg String.ofList changed

end SourceOutline.Python
