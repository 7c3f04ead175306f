import Mathlib.Data.List.Forall2
import SourceOutline.Proofs.Json.Fields

/-! Values that differ in one part decode alike, up to what is made of that part. -/

namespace SourceOutline

/-- Two results are related values, or the same failure. -/
def Agree {ε α β : Type} (related : α → β → Prop) : Except ε α → Except ε β → Prop
  | .ok left, .ok right => related left right
  | .error left, .error right => left = right
  | _, _ => False

namespace Agree

variable {ε α β γ δ : Type} {related : α → β → Prop} {goal : γ → δ → Prop}

/-- Results that agree up to equality are equal. -/
theorem eq_of_eq {left right : Except ε α} (same : Agree (· = ·) left right) : left = right := by
  -- A value and a failure never agree.
  cases left <;> cases right <;> simp_all [Agree]

/-- Results that agree up to a function are each other's image. -/
theorem eq_map {change : α → β} {left : Except ε α} {right : Except ε β}
    (same : Agree (fun left right => right = change left) left right) : right = left.map change := by
  cases left <;> cases right <;> simp_all [Agree, Except.map]

/-- Every result agrees with itself. -/
theorem refl (result : Except ε α) : Agree (· = ·) result result := by
  cases result <;> rfl

/-- A result agrees with itself up to a function that keeps its value. -/
theorem of_fixed {result : Except ε α} {change : α → α}
    (fixed : ∀ value, result = .ok value → change value = value) :
    Agree (fun left right => right = change left) result result := by
  cases result with
  | error failure => rfl
  | ok value => exact (fixed value rfl).symm

/-- Steps that agree keep results in agreement. -/
theorem bind {left : Except ε α} {right : Except ε β} {next : α → Except ε γ}
    {other : β → Except ε δ} (same : Agree related left right)
    (steps : ∀ a b, left = .ok a → related a b → Agree goal (next a) (other b)) :
    Agree goal (left >>= next) (right >>= other) := by
  -- After a failure on both sides no step is taken.
  cases left with
  | error first =>
    cases right with
    | error second => exact same
    | ok value => exact same.elim
  | ok value =>
    cases right with
    | error second => exact same.elim
    | ok other => exact steps value other rfl same

/-- Functions that agree keep results in agreement. -/
theorem map {left : Except ε α} {right : Except ε β} {next : α → γ} {other : β → δ}
    (same : Agree related left right) (steps : ∀ a b, related a b → goal (next a) (other b)) :
    Agree goal (left.map next) (right.map other) := by
  cases left <;> cases right <;> first | exact steps _ _ same | exact same

/-- A failure told in other words is told alike on both sides. -/
theorem mapError {ζ : Type} {left : Except ε α} {right : Except ε β}
    (same : Agree related left right) (reword : ε → ζ) :
    Agree related (left.mapError reword) (right.mapError reword) := by
  cases left <;> cases right <;> first | exact same | exact congrArg reword same

end Agree

/-- How the values under each name differ. -/
abbrev Change : Type := String → Json → Json → Prop

namespace Change

/-- Only the values under one name differ. -/
def only (name : String) (changed : Json → Json → Prop) : Change := fun other left right =>
  if other = name then changed left right else left = right

variable {name other : String} {changed : Json → Json → Prop} {left right : Json}

/-- The values under the name differ as said. -/
theorem only_self : only name changed name left right ↔ changed left right := by
  simp [only]

/-- The values under other names are equal. -/
theorem only_of_ne (different : other ≠ name) : only name changed other left right ↔ left = right := by
  simp [only, different]

end Change

/-- Fields of the same names, whose values differ as said of their names. -/
def FieldsAgree (change : Change) (lefts rights : List (String × Json)) : Prop :=
  List.Forall₂ (fun left right => left.1 = right.1 ∧ change left.1 left.2 right.2) lefts rights

/-- As many items, which differ as said of the names of their places. -/
def ItemsAgree (change : Change) (names : List String) (start : Nat) (lefts rights : List Json) :
    Prop :=
  lefts.length = rights.length ∧
    ∀ (place : Nat) (name : String) (left right : Json), names[place]? = some name →
      lefts[start + place]? = some left → rights[start + place]? = some right →
      change name left right

/-- Values that differ in their named or numbered parts only. -/
inductive PartsAgree (change : Change) (names : List String) : Json → Json → Prop where
  /-- Two objects. -/
  | object {lefts rights : List (String × Json)} (same : FieldsAgree change lefts rights) :
    PartsAgree change names (.object lefts) (.object rights)
  /-- Two sequences. -/
  | array {lefts rights : List Json} (same : ItemsAgree change names 0 lefts rights) :
    PartsAgree change names (.array lefts) (.array rights)
  /-- A value without parts. -/
  | scalar {value : Json} (noFields : value.fields? = none) (noItems : value.items? = none) :
    PartsAgree change names value value

/-- A value agrees with itself when no part differs. -/
theorem PartsAgree.refl (names : List String) (value : Json) :
    PartsAgree (fun _ => (· = ·)) names value value := by
  cases value with
  | object fields => exact .object (List.forall₂_same.mpr fun field _ => ⟨rfl, rfl⟩)
  | array items =>
    refine .array ⟨rfl, fun place name left right _ first second => ?_⟩
    exact Option.some.inj (first.symm.trans second)
  | _ => exact .scalar rfl rfl

namespace Decoder

variable {whole other : Json} {α β : Type}

/-- Two decoders yield related results at values that differ as said. -/
def Agree (values : Json → Json → Prop) (related : α → β → Prop) (first : Decoder whole α)
    (second : Decoder other β) : Prop :=
  ∀ (left right : Json) (small : sizeOf left < sizeOf whole) (small' : sizeOf right < sizeOf other),
    values left right → SourceOutline.Agree related (first left small) (second right small')

/-- Decoders that agree on more values agree on fewer. -/
theorem Agree.mono {values fewer : Json → Json → Prop} {related : α → β → Prop}
    {first : Decoder whole α} {second : Decoder other β} (same : Agree values related first second)
    (among : ∀ left right, fewer left right → values left right) :
    Agree fewer related first second :=
  fun left right small small' differ => same left right small small' (among left right differ)

/-- A decoder that does not look at what holds its value agrees with itself. -/
theorem agree_of_eq {first : Decoder whole α} {second : Decoder other α}
    (same : ∀ value small small', first value small = second value small') :
    Agree (· = ·) (· = ·) first second := by
  intro left right small small' eq
  subst eq
  exact same left small small' ▸ .refl _

/-- A text is read alike inside any value. -/
theorem string_agree :
    Agree (· = ·) (· = ·) (string : Decoder whole String) (string : Decoder other String) :=
  agree_of_eq fun value _ _ => by cases value <;> rfl

/-- A count is read alike inside any value. -/
theorem count_agree :
    Agree (· = ·) (· = ·) (count : Decoder whole Nat) (count : Decoder other Nat) :=
  agree_of_eq fun value _ _ => by
    cases value with
    | int n => cases n <;> rfl
    | _ => rfl

/-- Values that may be null differ as the others do, when null stays null. -/
theorem Agree.nullable {values : Json → Json → Prop} {related : α → β → Prop}
    {first : Decoder whole α} {second : Decoder other β} (same : Agree values related first second)
    (null : ∀ left right, values left right → (left = .null ↔ right = .null)) :
    Agree values (Option.Rel related) first.nullable second.nullable := by
  intro left right small small' differ
  by_cases isNull : left = .null
  · have isNull' := (null left right differ).mp isNull
    subst isNull isNull'
    exact .none
  · have notNull' : right ≠ .null := fun eq => isNull ((null left right differ).mpr eq)
    have open_ : first.nullable left small = (first left small).map some := by
      cases left <;> first | rfl | exact absurd rfl isNull
    have open_' : second.nullable right small' = (second right small').map some := by
      cases right <;> first | rfl | exact absurd rfl notNull'
    rw [open_, open_']
    exact (same left right small small' differ).map fun _ _ pair => .some pair

/-- Equal values that may be null decode alike when the others do. -/
theorem Agree.nullableSame {first : Decoder whole α} {second : Decoder other α}
    (same : Agree (· = ·) (· = ·) first second) :
    Agree (· = ·) (· = ·) first.nullable second.nullable := by
  refine agree_of_eq fun value small small' => ?_
  cases value with
  | null => rfl
  | _ => exact congrArg (Except.map some) (same _ _ small small' rfl).eq_of_eq

/-- Lists of equal values decode alike when their items do. -/
theorem Agree.list {first : Decoder whole α} {second : Decoder other α}
    (same : Agree (· = ·) (· = ·) first second) : Agree (· = ·) (· = ·) first.list second.list := by
  refine agree_of_eq fun value small small' => ?_
  have items : ∀ (list : List Json) (inside : ∀ item ∈ list, sizeOf item < sizeOf whole)
      (inside' : ∀ item ∈ list, sizeOf item < sizeOf other),
      eachOf first list inside = eachOf second list inside' := by
    intro list
    induction list with
    | nil => intro _ _; rfl
    | cons item rest ih =>
      intro inside inside'
      simp only [eachOf]
      rw [(same item item _ _ rfl).eq_of_eq, ih]
  cases value with
  | array list => exact items list _ _
  | _ => rfl

end Decoder

namespace Shape

variable {whole other : Json} {α β γ δ : Type}

/-- Two records of the same fields are related when their fields differ as said. -/
structure Agree (change : Change) (related : α → β → Prop) (first : Shape whole α)
    (second : Shape other β) : Prop where
  /-- The fields have the same names. -/
  names : first.names = second.names
  /-- What objects hold is related. -/
  fields : ∀ lefts rights small small', FieldsAgree change lefts rights →
    SourceOutline.Agree related (first.ofFields lefts small) (second.ofFields rights small')
  /-- What sequences hold is related. -/
  items : ∀ start expected lefts rights small small', ItemsAgree change first.names start lefts rights →
    SourceOutline.Agree related (first.ofItems start expected lefts small)
      (second.ofItems start expected rights small')

variable {change : Change} {related : α → β → Prop} {goal : γ → δ → Prop}

/-- Related values are related records without fields. -/
theorem Agree.pure {left : α} {right : β} (same : related left right) :
    Agree change related (Pure.pure left : Shape whole α) (Pure.pure right : Shape other β) :=
  ⟨rfl, fun _ _ _ _ _ => same, fun _ _ _ _ _ _ _ => same⟩

/-- Parts are put together from related parts. -/
theorem Agree.seq {first : Shape whole (α → γ)} {second : Shape other (β → δ)}
    {part : Shape whole α} {part' : Shape other β}
    (same : Agree change (fun f g => ∀ a b, related a b → goal (f a) (g b)) first second)
    (parts : Agree change related part part') :
    Agree change goal (first <*> part) (second <*> part') where
  names := congrArg₂ (· ++ ·) same.names parts.names
  fields lefts rights small small' differ := by
    -- The fault that is told depends on the faults of both sides only.
    have front := same.fields lefts rights small small' differ
    have back := parts.fields lefts rights small small' differ
    show SourceOutline.Agree goal (both (first.ofFields lefts small) (part.ofFields lefts small))
      (both (second.ofFields rights small') (part'.ofFields rights small'))
    cases leftFront : first.ofFields lefts small <;>
      cases rightFront : second.ofFields rights small' <;>
      cases leftBack : part.ofFields lefts small <;>
      cases rightBack : part'.ofFields rights small' <;>
      rw [leftFront, rightFront] at front <;> rw [leftBack, rightBack] at back <;>
      first
        | exact front.elim
        | exact back.elim
        | exact front _ _ back
        | simp_all [both, SourceOutline.Agree]
  items start expected lefts rights small small' differ := by
    -- The part behind starts where the names in front end.
    obtain ⟨sameLength, each⟩ := differ
    have front := same.items start expected lefts rights small small'
      ⟨sameLength, fun place name left right named => each place name left right
        ((List.getElem?_append_left (List.getElem?_eq_some_iff.mp named).1).trans named)⟩
    have back := parts.items (start + first.names.length) expected lefts rights small small'
      ⟨sameLength, fun place name left right named atLeft atRight => by
        refine each (first.names.length + place) name left right ?_
          (by rw [← Nat.add_assoc]; exact atLeft) (by rw [← Nat.add_assoc]; exact atRight)
        show (first.names ++ part.names)[first.names.length + place]? = some name
        rw [List.getElem?_append_right (Nat.le_add_right ..), Nat.add_sub_cancel_left]
        exact named⟩
    show SourceOutline.Agree goal
      (first.ofItems start expected lefts small >>= fun f =>
        part.ofItems (start + first.names.length) expected lefts small >>= fun a => .ok (f a))
      (second.ofItems start expected rights small' >>= fun g =>
        part'.ofItems (start + second.names.length) expected rights small' >>= fun b => .ok (g b))
    rw [← same.names]
    refine front.bind fun f g _ steps => back.bind fun a b _ pair => ?_
    exact steps a b pair

/-- A record is made of one part. -/
theorem Agree.map {f : α → γ} {g : β → δ} {part : Shape whole α} {part' : Shape other β}
    (same : ∀ a b, related a b → goal (f a) (g b)) (parts : Agree change related part part') :
    Agree change goal (f <$> part) (g <$> part') :=
  -- The function is a record without fields.
  (Agree.pure same).seq parts

/-- Equal parts make equal records. -/
theorem Agree.mapSame {f : α → γ} {part : Shape whole α} {part' : Shape other α}
    (parts : Agree change (· = ·) part part') :
    Agree change (· = ·) (f <$> part) (f <$> part') :=
  parts.map fun _ _ same => congrArg f same

/-- Equal records stay equal with one more equal part. -/
theorem Agree.seqSame {first : Shape whole (α → γ)} {second : Shape other (α → γ)}
    {part : Shape whole α} {part' : Shape other α} (same : Agree change (· = ·) first second)
    (parts : Agree change (· = ·) part part') :
    Agree change (· = ·) (first <*> part) (second <*> part') := by
  refine Agree.seq ?_ parts
  refine ⟨same.names, ?_, ?_⟩
  · intro lefts rights small small' differ
    rw [(same.fields lefts rights small small' differ).eq_of_eq]
    cases second.ofFields rights small' with
    | error fault => rfl
    | ok f => exact fun _ _ equal => congrArg f equal
  · intro start expected lefts rights small small' differ
    rw [(same.items start expected lefts rights small small' differ).eq_of_eq]
    cases second.ofItems start expected rights small' with
    | error error => rfl
    | ok f => exact fun _ _ equal => congrArg f equal

/-- Fields that agree hold values that agree under every name. -/
theorem lookup_agree {lefts rights : List (String × Json)} (differ : FieldsAgree change lefts rights)
    (name : String) :
    Option.Rel (fun left right => change name left.1 right.1) (lookup name lefts)
      (lookup name rights) := by
  induction differ with
  | nil => exact .none
  | @cons left right lefts rights head _ ih =>
    obtain ⟨sameName, changed⟩ := head
    simp only [lookup, ← sameName]
    split
    · rename_i isName
      exact .some (eq_of_beq isName ▸ changed)
    · generalize lookup name lefts = atLeft at ih ⊢
      generalize lookup name rights = atRight at ih ⊢
      cases ih with
      | none => exact .none
      | some pair => exact .some pair

/-- Fields are related when what stands in for them is, and the values under their names are. -/
theorem Agree.field {name : String} {unnamed : Except Fault α} {unnamed' : Except Fault β}
    {unplaced : Nat → String → Except DecodeError α} {unplaced' : Nat → String → Except DecodeError β}
    {decode : Decoder whole α} {decode' : Decoder other β}
    (sameUnnamed : SourceOutline.Agree related unnamed unnamed')
    (sameUnplaced : ∀ place expected,
      SourceOutline.Agree related (unplaced place expected) (unplaced' place expected))
    (same : decode.Agree (change name) related decode') :
    Agree change related (Shape.field name unnamed unplaced decode)
      (Shape.field name unnamed' unplaced' decode') where
  names := rfl
  fields lefts rights small small' differ := by
    have found := lookup_agree differ name
    simp only [Shape.field]
    cases atLeft : lookup name lefts with
    | none =>
      cases atRight : lookup name rights with
      | none => exact sameUnnamed
      | some right => rw [atLeft, atRight] at found; cases found
    | some left =>
      cases atRight : lookup name rights with
      | none => rw [atLeft, atRight] at found; cases found
      | some right =>
        rw [atLeft, atRight] at found
        cases found with
        | some pair => exact (same _ _ _ _ pair).mapError _
  items start expected lefts rights small small' differ := by
    -- An item stands at the place on both sides or on neither.
    obtain ⟨sameLength, each⟩ := differ
    simp only [Shape.field]
    split
    · rename_i beyond
      have beyond' : rights[start]? = none := by
        rw [List.getElem?_eq_none_iff] at beyond ⊢
        omega
      split
      · exact sameUnplaced start expected
      · rename_i inside
        cases inside.symm.trans beyond'
    · rename_i left atLeft
      split
      · rename_i beyond
        have inside := (List.getElem?_eq_some_iff.mp atLeft).1
        rw [List.getElem?_eq_none_iff] at beyond
        omega
      · rename_i right atRight
        exact same _ _ _ _ (each 0 name left right rfl atLeft atRight)

/-- Fields that must be there are related when their values are. -/
theorem Agree.required {name : String} {decode : Decoder whole α} {decode' : Decoder other β}
    (same : decode.Agree (change name) related decode') :
    Agree change related (Shape.required name decode) (Shape.required name decode') :=
  -- Without the field both sides tell the same.
  .field rfl (fun _ _ => rfl) same

/-- Fields that may be null are related when their values are. -/
theorem Agree.optional {name : String} {decode : Decoder whole α} {decode' : Decoder other β}
    (same : decode.Agree (change name) related decode')
    (null : ∀ left right, change name left right → (left = .null ↔ right = .null)) :
    Agree change (Option.Rel related) (Shape.optional name decode) (Shape.optional name decode') :=
  -- Without the field neither side has a value.
  .field .none (fun _ _ => rfl) (same.nullable null)

/-- A field that does not differ holds related values when equal values decode to such. -/
theorem Agree.requiredSame {name : String} {decode : Decoder whole α} {decode' : Decoder other β}
    (unchanged : ∀ left right, change name left right → left = right)
    (same : decode.Agree (· = ·) related decode') :
    Agree change related (Shape.required name decode) (Shape.required name decode') :=
  .required (same.mono unchanged)

/-- A field that may be null holds equal values when it does not differ. -/
theorem Agree.optionalSame {name : String} {decode : Decoder whole α} {decode' : Decoder other α}
    (unchanged : ∀ left right, change name left right → left = right)
    (same : decode.Agree (· = ·) (· = ·) decode') :
    Agree change (· = ·) (Shape.optional name decode) (Shape.optional name decode') :=
  -- Without the field neither side has a value.
  .field rfl (fun _ _ => rfl) (same.nullableSame.mono unchanged)

/-- Fields with default values are related when the defaults and the values are. -/
theorem Agree.defaulted {name : String} {default : α} {default' : β} {decode : Decoder whole α}
    {decode' : Decoder other β} (sameDefault : related default default')
    (same : decode.Agree (change name) related decode') :
    Agree change related (Shape.defaulted name default decode)
      (Shape.defaulted name default' decode') :=
  -- Without the field the defaults stand in.
  .field sameDefault (fun _ _ => sameDefault) same

/-- Values that differ in the parts of a record hold related records. -/
theorem Agree.decode {shape : Shape whole α} {shape' : Shape other β}
    (same : Agree change related shape shape') (title : String) (place : Place) {left right : Json}
    (differ : PartsAgree change shape.names left right) (fits : sizeOf left ≤ sizeOf whole)
    (fits' : sizeOf right ≤ sizeOf other) :
    SourceOutline.Agree related (shape.decode title place left fits)
      (shape'.decode title place right fits') := by
  cases differ with
  | object fields => exact (same.fields _ _ _ _ fields).mapError _
  | array items =>
    -- Both sequences have as many items, so both are too long or neither is.
    have sameLength := items.1
    simp only [Shape.decode, ← same.names, ← sameLength]
    refine (same.items _ _ _ _ _ _ items).bind fun a b _ pair => ?_
    split
    · rfl
    · exact pair
  | scalar noFields noItems =>
    cases left with
    | array items => cases noItems
    | object fields => cases noFields
    | _ => rfl

end Shape

namespace Tagged

/-- Tagged values that differ beside the tag only have one kind and differ in their contents only. -/
theorem takeApart_agree {change : Change} {names : List String} {left right : Json}
    (tags : ∀ a b, change "type" a b → a = b) (differ : PartsAgree change ("type" :: names) left right)
    (title : String) (variants : List String) (place : Place) :
    SourceOutline.Agree
      (fun first second => first.variant = second.variant ∧
        PartsAgree change names first.content second.content)
      (takeApart title variants place left) (takeApart title variants place right) := by
  cases differ with
  | @object lefts rights fields =>
    -- The tag is the value of a field, and the content is all of the fields.
    have found : Option.Rel (fun a b => a.2 = b.2) (lefts.find? fun field => field.1 == "type")
        (rights.find? fun field => field.1 == "type") := by
      clear names
      induction fields with
      | nil => exact .none
      | @cons left right lefts rights head _ ih =>
        obtain ⟨sameName, changed⟩ := head
        simp only [List.find?_cons, ← sameName]
        split
        · rename_i isTag
          exact .some (tags _ _ (eq_of_beq isTag ▸ changed))
        · exact ih
    simp only [takeApart]
    generalize (lefts.find? fun field => field.1 == "type") = atLeft at found ⊢
    generalize (rights.find? fun field => field.1 == "type") = atRight at found ⊢
    cases found with
    | none => rfl
    | @some first second sameTag =>
      simp only [sameTag]
      exact (Agree.refl (variantOf variants place second.2)).bind fun a b _ same =>
        ⟨same, .object fields⟩
  | @array lefts rights items =>
    -- The tag is the first item, and the content is the rest.
    obtain ⟨sameLength, each⟩ := items
    cases lefts with
    | nil =>
      have empty := List.eq_nil_of_length_eq_zero sameLength.symm
      subst empty
      rfl
    | cons tag rest =>
      cases rights with
      | nil => cases sameLength
      | cons tag' rest' =>
        have sameTag : tag = tag' := tags _ _ (each 0 "type" tag tag' rfl rfl rfl)
        subst sameTag
        refine (Agree.refl (variantOf variants place tag)).bind fun a b _ same => ⟨same, .array ?_⟩
        refine ⟨Nat.succ.inj sameLength, fun place name left right named atLeft atRight => ?_⟩
        rw [Nat.zero_add] at atLeft atRight
        exact each (place + 1) name left right named
          (by rw [Nat.zero_add]; exact atLeft) (by rw [Nat.zero_add]; exact atRight)
  | scalar noFields noItems =>
    cases left with
    | array items => cases noItems
    | object fields => cases noFields
    | _ => rfl

end Tagged

namespace Json

/-- A value with one of its parts changed, which is told by its name or by its place. -/
def atPart (name : String) (index : Nat) (value : Json)
    (change : (part : Json) → sizeOf part < sizeOf value → Json) : Json :=
  -- The parts are smaller than the value.
  match value, change with
  | .object fields, change => .object (fields.attach.map fun field =>
      if field.1.1 = name then (field.1.1, change field.1.2 (sizeOf_lt_object field.2))
      else field.1)
  | .array items, change => .array (items.attach.mapIdx fun place item =>
      if place = index then change item.1 (sizeOf_lt_array item.2) else item.1)
  | other, _ => other

/-- A list agrees item by item with its items and the facts that they are in it. -/
theorem forall₂_attach {α : Type} {items : List α} {related : α → {item // item ∈ items} → Prop}
    (each : ∀ item, related item.1 item) : List.Forall₂ related items items.attach := by
  have pairs : List.Forall₂ related (items.attach.map Subtype.val) items.attach :=
    List.forall₂_map_left_iff.mpr (List.forall₂_same.mpr fun item _ => each item)
  rw [List.attach_map_subtype_val] at pairs
  exact pairs

/-- A value and the one with a changed part differ in that part only. -/
theorem atPart_agree {names : List String} {name : String} {index : Nat}
    {changed : Json → Json → Prop} (value : Json)
    (change : (part : Json) → sizeOf part < sizeOf value → Json)
    (changes : ∀ part small, changed part (change part small)) (apart : names.Nodup)
    (named : names[index]? = some name) :
    PartsAgree (Change.only name changed) names value (value.atPart name index change) := by
  cases value with
  | object fields =>
    refine .object ?_
    rw [FieldsAgree, List.forall₂_map_right_iff]
    refine forall₂_attach fun field => ?_
    split
    · rename_i here
      exact ⟨rfl, here ▸ Change.only_self.mpr (changes _ _)⟩
    · rename_i elsewhere
      exact ⟨rfl, (Change.only_of_ne elsewhere).mpr rfl⟩
  | array items =>
    refine .array ⟨by simp, fun place other left right isNamed atLeft atRight => ?_⟩
    rw [Nat.zero_add] at atLeft atRight
    simp only [List.getElem?_mapIdx, Option.map_eq_some_iff] at atRight
    obtain ⟨item, found, made⟩ := atRight
    have sameItem : item.1 = left := by
      have there := congrArg (Option.map Subtype.val) found
      rw [← List.getElem?_map, List.attach_map_subtype_val, atLeft] at there
      exact (Option.some.inj there).symm
    subst sameItem
    split at made
    · rename_i here
      subst here
      obtain rfl := Option.some.inj (isNamed.symm.trans named)
      exact Change.only_self.mpr (made ▸ changes _ _)
    · rename_i elsewhere
      refine (Change.only_of_ne fun same => elsewhere ?_).mpr made
      subst same
      exact (List.getElem?_inj (List.getElem?_eq_some_iff.mp isNamed).1 apart).mp
        (isNamed.trans named.symm)
  | _ => exact .scalar rfl rfl

end Json

end SourceOutline
