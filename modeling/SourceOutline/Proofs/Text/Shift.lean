import Mathlib.Data.List.Chain
import SourceOutline.Text.Lines

/-! Shifting a text to the left: each line loses blanks at its start, and line breaks become line feeds. -/

namespace SourceOutline.Text

/-- A character that a shift may take away: a blank or a part of a line break. -/
def IsLoose (c : Char) : Prop := c = '\n' ∨ c = '\r' ∨ c = ' ' ∨ c = '\t'

instance (c : Char) : Decidable (IsLoose c) := inferInstanceAs (Decidable (_ ∨ _))

section

variable {α : Type} (charOf : α → Option Char) (width : Nat)

/-- Characters shifted to the left: each line loses blanks up to a width, the first one up to `room`,
and line breaks become line feeds. -/
def shifted : Nat → List α → List α
  | _, [] => []
  | room, a :: rest =>
    if charOf a = some '\n' then a :: shifted width rest
    else if charOf a = some '\r' ∧ rest.head?.bind charOf = some '\n' then shifted 0 rest
    else if room ≠ 0 ∧ (charOf a = some ' ' ∨ charOf a = some '\t') then shifted (room - 1) rest
    else a :: shifted 0 rest

/-- How many blanks the line may still lose behind some characters of it. -/
def roomBehind : Nat → List α → Nat
  | room, [] => room
  | room, a :: rest =>
    if charOf a = some '\n' then roomBehind width rest
    else if charOf a = some '\r' ∧ rest.head?.bind charOf = some '\n' then roomBehind 0 rest
    else if room ≠ 0 ∧ (charOf a = some ' ' ∨ charOf a = some '\t') then roomBehind (room - 1) rest
    else roomBehind 0 rest

/-- Nothing stands between two characters that a shift would take away: no blank at the start of a
line, and no carriage return before a line feed. -/
def IsFlush (a b : α) : Prop :=
  ¬(charOf a = some '\n' ∧ (charOf b = some ' ' ∨ charOf b = some '\t')) ∧
    ¬(charOf a = some '\r' ∧ charOf b = some '\n')

variable {charOf width}

/-- Two texts are shifted one after the other, unless they part a line break. -/
theorem shifted_append {front back : List α} (room : Nat)
    (apart : ¬(front.getLast?.bind charOf = some '\r' ∧ back.head?.bind charOf = some '\n')) :
    shifted charOf width room (front ++ back) =
      shifted charOf width room front ++
        shifted charOf width (roomBehind charOf width room front) back := by
  induction front generalizing room with
  | nil => simp [shifted, roomBehind]
  | cons a rest ih =>
    -- The first character sees the same character behind it, or it is the last one of the front.
    have inner : ¬(rest.getLast?.bind charOf = some '\r' ∧ back.head?.bind charOf = some '\n') := by
      rintro ⟨last, first⟩
      refine apart ⟨?_, first⟩
      cases rest with
      | nil => cases last
      | cons b more => rwa [List.getLast?_cons_cons]
    have breaks : (charOf a = some '\r' ∧ (rest ++ back).head?.bind charOf = some '\n') ↔
        (charOf a = some '\r' ∧ rest.head?.bind charOf = some '\n') := by
      cases rest with
      | nil => exact iff_of_false apart fun both => by cases both.2
      | cons b more => rfl
    simp only [List.cons_append, shifted, roomBehind, breaks]
    split
    · rw [ih width inner, List.cons_append]
    · split
      · exact ih 0 inner
      · split
        · exact ih (room - 1) inner
        · rw [ih 0 inner, List.cons_append]

/-- Any other item stays, and leaves no room behind it. -/
theorem shifted_cons_firm {a : α} (firm : ∀ c, charOf a = some c → ¬IsLoose c) (room : Nat)
    (rest : List α) :
    shifted charOf width room (a :: rest) = a :: shifted charOf width 0 rest := by
  have apart : ∀ c, IsLoose c → charOf a ≠ some c := fun c loose same => firm c same loose
  have noFeed := apart '\n' (.inl rfl)
  have noReturn := apart '\r' (.inr (.inl rfl))
  have noSpace := apart ' ' (.inr (.inr (.inl rfl)))
  have noTab := apart '\t' (.inr (.inr (.inr rfl)))
  simp [shifted, noFeed, noReturn, noSpace, noTab]

/-- Items that are not loose stay. -/
theorem shifted_append_firm {front : List α} (firm : ∀ a ∈ front, ∀ c, charOf a = some c → ¬IsLoose c)
    (rest : List α) :
    shifted charOf width 0 (front ++ rest) = front ++ shifted charOf width 0 rest := by
  induction front with
  | nil => rfl
  | cons a later ih =>
    rw [List.cons_append, shifted_cons_firm (firm a List.mem_cons_self),
      ih fun b member => firm b (List.mem_cons_of_mem a member), List.cons_append]

/-- Nothing is added by a shift. -/
theorem shifted_sublist (charOf : α → Option Char) (width room : Nat) (list : List α) :
    (shifted charOf width room list).Sublist list := by
  induction list generalizing room with
  | nil => exact .slnil
  | cons a rest ih =>
    simp only [shifted]
    split
    · exact (ih width).cons_cons a
    · split
      · exact (ih 0).cons a
      · split
        · exact (ih (room - 1)).cons a
        · exact (ih 0).cons_cons a

/-- Items that are no characters stay. -/
theorem filter_shifted {property : α → Bool} (apart : ∀ a, property a = true → charOf a = none)
    (room : Nat) (list : List α) :
    (shifted charOf width room list).filter property = list.filter property := by
  have refused : ∀ {a c}, charOf a = some c → property a = false := fun {a c} isChar => by
    cases kept : property a with
    | false => rfl
    | true => cases isChar.symm.trans (apart a kept)
  induction list generalizing room with
  | nil => rfl
  | cons a rest ih =>
    simp only [shifted]
    split
    · rw [List.filter_cons, List.filter_cons, ih]
    · split
      · rename_i broken
        rw [List.filter_cons_of_neg (by simp [refused broken.1]), ih]
      · split
        · rename_i blank
          have gone : property a = false := blank.2.elim refused refused
          rw [List.filter_cons_of_neg (by simp [gone]), ih]
        · rw [List.filter_cons, List.filter_cons, ih]

/-- What is made of characters one by one is shifted like them. -/
theorem shifted_map {β : Type} (f : β → α) (room : Nat) (list : List β) :
    shifted charOf width room (list.map f) =
      (shifted (fun b => charOf (f b)) width room list).map f := by
  induction list generalizing room with
  | nil => rfl
  | cons b rest ih =>
    have first : (rest.map f).head?.bind charOf = rest.head?.bind fun b => charOf (f b) := by
      cases rest <;> rfl
    simp only [List.map_cons, shifted, first, ih]
    split
    · rfl
    · split
      · rfl
      · split <;> rfl

/-- What is made of characters one by one leaves the same room behind it. -/
theorem roomBehind_map {β : Type} (f : β → α) (room : Nat) (list : List β) :
    roomBehind charOf width room (list.map f) =
      roomBehind (fun b => charOf (f b)) width room list := by
  induction list generalizing room with
  | nil => rfl
  | cons b rest ih =>
    have first : (rest.map f).head?.bind charOf = rest.head?.bind fun b => charOf (f b) := by
      cases rest <;> rfl
    simp only [List.map_cons, roomBehind, first, ih]

/-- A shift changes nothing exactly when there is nothing to take away. -/
theorem shifted_eq_self_iff (positive : width ≠ 0) (room : Nat) (list : List α) :
    shifted charOf width room list = list ↔
      (room ≠ 0 → ∀ a, list.head? = some a → ¬(charOf a = some ' ' ∨ charOf a = some '\t')) ∧
        list.IsChain (IsFlush charOf) := by
  induction list generalizing room with
  | nil => simp [shifted]
  | cons a rest ih =>
    have shorter : ∀ room', shifted charOf width room' rest ≠ a :: rest := fun room' same => by
      have short := (shifted_sublist charOf width room' rest).length_le
      rw [congrArg List.length same, List.length_cons] at short
      omega
    simp only [shifted, List.isChain_cons, List.head?_cons, Option.some.injEq, forall_eq',
      Option.mem_def]
    split
    · -- Behind a line feed the next character must be no blank.
      rename_i feed
      simp [List.cons.injEq, ih, positive, IsFlush, feed]
    · rename_i noFeed
      split
      · -- A carriage return before a line feed goes.
        rename_i broken
        obtain ⟨isReturn, feed⟩ := broken
        obtain ⟨b, first, isFeed⟩ := Option.bind_eq_some_iff.mp feed
        refine iff_of_false (shorter 0) ?_
        rintro ⟨_, flush, _⟩
        exact (flush b first).2 ⟨isReturn, isFeed⟩
      · rename_i unbroken
        split
        · -- A blank at the start of a line goes.
          rename_i blank
          refine iff_of_false (shorter (room - 1)) ?_
          rintro ⟨free, _⟩
          exact free blank.1 blank.2
        · -- Any other character stays.
          rename_i kept
          have flush : ∀ b, rest.head? = some b → IsFlush charOf a b := by
            intro b first
            refine ⟨fun both => noFeed both.1, fun both => unbroken ⟨both.1, ?_⟩⟩
            rw [first]
            exact both.2
          have free : room ≠ 0 → ¬(charOf a = some ' ' ∨ charOf a = some '\t') := fun some_room blank =>
            kept ⟨some_room, blank⟩
          refine Iff.trans ?_ ⟨fun chain => ⟨free, flush, chain⟩, fun all => all.2.2⟩
          simp [ih]

end

/-- A text is shifted from its first character on. -/
theorem shifted_cons (width room : Nat) (c : Char) (rest : List Char) :
    shifted some width room (c :: rest) =
      if c = '\n' then c :: shifted some width width rest
      else if c = '\r' ∧ rest.head? = some '\n' then shifted some width 0 rest
      else if room ≠ 0 ∧ (c = ' ' ∨ c = '\t') then shifted some width (room - 1) rest
      else c :: shifted some width 0 rest := by
  simp [shifted]

/-- The line feed at the front of a text is followed by a whole line. -/
@[simp] theorem shifted_feed (width room : Nat) (rest : List Char) :
    shifted some width room ('\n' :: rest) = '\n' :: shifted some width width rest := by
  simp [shifted_cons]

/-- Any other character stays, and leaves no room behind it. -/
theorem shifted_firm {c : Char} (firm : ¬IsLoose c) (width room : Nat) (rest : List Char) :
    shifted some width room (c :: rest) = c :: shifted some width 0 rest :=
  shifted_cons_firm (fun _ same => Option.some.inj same ▸ firm) room rest

/-- Characters that are not loose stay. -/
theorem shifted_firm_append {front : List Char} (firm : ∀ c ∈ front, ¬IsLoose c) (width : Nat)
    (rest : List Char) : shifted some width 0 (front ++ rest) = front ++ shifted some width 0 rest :=
  shifted_append_firm (fun c member _ same => Option.some.inj same ▸ firm c member) rest

/-- A firm character stands first in a text or in the shifted text alike. -/
theorem head?_shifted {c : Char} (firm : ¬IsLoose c) (width : Nat) (rest : List Char) :
    (shifted some width 0 rest).head? = some c ↔ rest.head? = some c := by
  cases rest with
  | nil => rfl
  | cons d later =>
    rw [shifted_cons]
    split
    · rfl
    · split
      · rename_i broken
        obtain ⟨rfl, first⟩ := broken
        obtain ⟨more, rfl⟩ := List.head?_eq_some_iff.mp first
        refine iff_of_false ?_ ?_
        · rintro same
          cases same
          exact firm (.inl rfl)
        · rintro same
          cases same
          exact firm (.inr (.inl rfl))
      · simp

/-- A firm character stands twice at the start of a text or of the shifted text alike. -/
theorem take_two_shifted {c : Char} (firm : ¬IsLoose c) (width : Nat) (rest : List Char) :
    ((shifted some width 0 rest).take 2 == [c, c]) = (rest.take 2 == [c, c]) := by
  have twice : ∀ text : List Char, (text.take 2 == [c, c]) = true ↔
      ∃ later, text = c :: later ∧ later.head? = some c := by
    intro text
    match text with
    | [] => simp
    | [d] => simp
    | d :: e :: more => simp
  rw [Bool.eq_iff_iff, twice, twice]
  constructor
  · rintro ⟨later, same, second⟩
    obtain ⟨more, rfl⟩ := List.head?_eq_some_iff.mp
      ((head?_shifted firm width rest).mp (by rw [same]; rfl))
    rw [shifted_firm firm] at same
    refine ⟨more, rfl, (head?_shifted firm width more).mp ?_⟩
    rw [(List.cons.inj same).2, second]
  · rintro ⟨later, rfl, second⟩
    exact ⟨shifted some width 0 later, shifted_firm firm width 0 later,
      (head?_shifted firm width later).mpr second⟩

/-- A line feed stands first in a shifted text when a line break stood there. -/
theorem head?_shifted_feed {width : Nat} {rest : List Char}
    (first : (shifted some width 0 rest).head? = some '\n') :
    rest.head? = some '\n' ∨ ∃ later, rest = '\r' :: '\n' :: later := by
  cases rest with
  | nil => cases first
  | cons c later =>
    rw [shifted_cons] at first
    split at first
    · rename_i feed
      exact .inl (by rw [feed]; rfl)
    · rename_i noFeed
      split at first
      · rename_i broken
        obtain ⟨more, rfl⟩ := List.head?_eq_some_iff.mp broken.2
        exact .inr ⟨more, by rw [broken.1]⟩
      · simp only [ne_eq, not_true, false_and, if_false, List.head?_cons, Option.some.injEq] at first
        exact absurd first noFeed

/-- The rest of a line is passed in the shifted text as well. -/
theorem dropWhile_shifted (width room : Nat) (rest : List Char) :
    (shifted some width room rest).dropWhile (· != '\n') =
      shifted some width 0 (rest.dropWhile (· != '\n')) := by
  induction rest generalizing room with
  | nil => rfl
  | cons c later ih =>
    rw [shifted_cons]
    by_cases feed : c = '\n'
    · simp [feed]
    · have passed : ∀ cs : List Char, (c :: cs).dropWhile (· != '\n') = cs.dropWhile (· != '\n') :=
        fun cs => by simp [feed]
      rw [if_neg feed, passed]
      split
      · exact ih 0
      · split
        · exact ih (room - 1)
        · rw [passed]
          exact ih 0

end SourceOutline.Text
