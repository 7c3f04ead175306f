import SourceOutline.Json.Decode

/-! When a record is read from an object or a sequence, told field by field. -/

namespace SourceOutline

/-- A step after another yields a value when the first yields one from which the second goes on. -/
theorem bind_eq_ok {ε α β : Type} {first : Except ε α} {next : α → Except ε β} {value : β} :
    first >>= next = .ok value ↔ ∃ found, first = .ok found ∧ next found = .ok value := by
  cases first with
  | error failure =>
    constructor
    · intro yields
      cases yields
    · rintro ⟨found, yields, _⟩
      cases yields
  | ok found =>
    constructor
    · intro yields
      exact ⟨found, rfl, yields⟩
    · rintro ⟨other, same, yields⟩
      cases same
      exact yields

/-- A failure told in other words leaves the value. -/
theorem mapError_eq_ok {ε ζ α : Type} {result : Except ε α} {reword : ε → ζ} {value : α} :
    result.mapError reword = .ok value ↔ result = .ok value := by
  cases result with
  | error failure => constructor <;> intro same <;> cases same
  | ok found =>
    constructor <;> intro same
    · cases same
      rfl
    · cases same
      rfl

/-- The value of a field is smaller than the object. -/
theorem sizeOf_lt_object {fields : List (String × Json)} {field : String × Json}
    (member : field ∈ fields) : sizeOf field.2 < sizeOf (Json.object fields) := by
  have inside := List.sizeOf_lt_of_mem member
  rcases field with ⟨name, part⟩
  simp only [Json.object.sizeOf_spec, Prod.mk.sizeOf_spec] at inside ⊢
  omega

/-- An item is smaller than the sequence. -/
theorem sizeOf_lt_array {items : List Json} {item : Json} (member : item ∈ items) :
    sizeOf item < sizeOf (Json.array items) := by
  have inside := List.sizeOf_lt_of_mem member
  simp only [Json.array.sizeOf_spec]
  omega

/-- Nothing but an object has values under names. -/
theorem exists_object_of_get? {value told : Json} {name : String}
    (there : value.get? name = some told) : ∃ fields, value = .object fields := by
  cases value with
  | object fields => exact ⟨fields, rfl⟩
  | _ => cases there

namespace Decoder

variable {whole : Json} {α : Type}

/-- A decoder reads from each value what is said of it. -/
def Reads (decode : Decoder whole α) (read : Json → α → Prop) : Prop :=
  ∀ value small found, decode value small = .ok found ↔ read value found

/-- Only a text is read as a text. -/
theorem reads_string :
    Reads (string : Decoder whole String) fun value text => value = .string text := by
  intro value small text
  cases value <;> simp [string]

/-- Only a whole number that is not negative is read as a count. -/
theorem reads_count : Reads (count : Decoder whole Nat) fun value n => value = .int n := by
  intro value small n
  cases value with
  | int number =>
    cases number with
    | ofNat found =>
      simp only [count, natural, Except.ok.injEq, Json.int.injEq]
      exact Int.ofNat_inj.symm
    | negSucc below => simp [count, natural]
  | _ => simp [count, natural]

/-- All items of a sequence are read when any value will do. -/
theorem eachOf_any {items : List Json} (inside : ∀ item ∈ items, sizeOf item < sizeOf whole) :
    eachOf (any : Decoder whole Json) items inside = .ok items := by
  induction items with
  | nil => rfl
  | cons item rest ih =>
    simp [eachOf, any, ih, bind, Except.bind, pure, Except.pure]

/-- Only a sequence is read as a list of any values. -/
theorem reads_list_any :
    Reads (list any : Decoder whole (List Json)) fun value items => value = .array items := by
  intro value small items
  cases value with
  | array others => simp [list, eachOf_any]
  | _ => simp [list]

end Decoder

/-- A field that may be absent holds something, or it is null or left out. -/
inductive TellsOption {α : Type} (reads : Json → α → Prop) : Option Json → Option α → Prop where
  /-- It holds something. -/
  | some {told : Json} {found : α} (read : reads told found) : TellsOption reads (some told) (some found)
  /-- It is null. -/
  | null : TellsOption reads (some .null) none
  /-- It is left out. -/
  | missing : TellsOption reads none none

namespace Shape

variable {whole : Json} {α β : Type} {fields : List (String × Json)} {items : List Json}
  {inFields : ∀ field ∈ fields, sizeOf field.2 < sizeOf whole}
  {inItems : ∀ item ∈ items, sizeOf item < sizeOf whole} {start : Nat} {expected : String}

/-- The first field of a name is the value that the object has under that name. -/
theorem lookup_eq (name : String) (fields : List (String × Json)) :
    (lookup name fields).map Subtype.val = (Json.object fields).get? name := by
  induction fields with
  | nil => rfl
  | cons field rest ih =>
    rw [lookup, Json.get?, List.find?_cons]
    cases named : field.1 == name with
    | true => rfl
    | false =>
      have later : (lookup name rest).map Subtype.val =
          (rest.find? fun field => field.1 == name).map Prod.snd := ih
      simp only [Bool.false_eq_true, if_false, Option.map_map, ← later]
      rfl

/-- Two parts of an object are read when each of them is. -/
theorem both_eq_ok {left : Except Fault (α → β)} {right : Except Fault α} {value : β} :
    both left right = .ok value ↔ ∃ f a, left = .ok f ∧ right = .ok a ∧ f a = value := by
  cases left <;> cases right <;> simp [both]

/-- A part after others is read from an object when they are and it is. -/
theorem ofFields_seq_eq_ok {left : Shape whole (α → β)} {right : Shape whole α} {value : β} :
    (left <*> right).ofFields fields inFields = .ok value ↔
      ∃ f a, left.ofFields fields inFields = .ok f ∧ right.ofFields fields inFields = .ok a ∧
        f a = value := both_eq_ok

/-- The first part of an object is read whatever is made of it. -/
theorem ofFields_map_eq_ok {f : α → β} {shape : Shape whole α} {value : β} :
    (f <$> shape).ofFields fields inFields = .ok value ↔
      ∃ a, shape.ofFields fields inFields = .ok a ∧ f a = value := by
  show both (.ok f) (shape.ofFields fields inFields) = .ok value ↔ _
  simp [both_eq_ok]

/-- A part after others is read from a sequence at the place behind them. -/
theorem ofItems_seq_eq_ok {left : Shape whole (α → β)} {right : Shape whole α} {value : β} :
    (left <*> right).ofItems start expected items inItems = .ok value ↔
      ∃ f a, left.ofItems start expected items inItems = .ok f ∧
        right.ofItems (start + left.names.length) expected items inItems = .ok a ∧ f a = value := by
  show (left.ofItems start expected items inItems >>= fun f =>
    right.ofItems (start + left.names.length) expected items inItems >>= fun a =>
      (.ok (f a) : Except DecodeError β)) = .ok value ↔ _
  simp [bind_eq_ok]

/-- The first part of a sequence is read whatever is made of it. -/
theorem ofItems_map_eq_ok {f : α → β} {shape : Shape whole α} {value : β} :
    (f <$> shape).ofItems start expected items inItems = .ok value ↔
      ∃ a, shape.ofItems start expected items inItems = .ok a ∧ f a = value := by
  show (shape.ofItems (start + 0) expected items inItems >>= fun a =>
    (.ok (f a) : Except DecodeError β)) = .ok value ↔ _
  simp [bind_eq_ok]

/-- A field that must be there is read from an object that has it. -/
theorem ofFields_required_eq_ok {name : String} {decode : Decoder whole α} {read : Json → α → Prop}
    (reads : decode.Reads read) {a : α} :
    (required name decode).ofFields fields inFields = .ok a ↔
      ∃ value, (Json.object fields).get? name = some value ∧ read value a := by
  rw [← lookup_eq]
  simp only [required, field]
  cases lookup name fields with
  | none => simp
  | some found => simp [mapError_eq_ok, reads found.1]

/-- A field with a default value is read from an object, or left out and has that value. -/
theorem ofFields_defaulted_eq_ok {name : String} {default : α} {decode : Decoder whole α}
    {read : Json → α → Prop} (reads : decode.Reads read) {a : α} :
    (defaulted name default decode).ofFields fields inFields = .ok a ↔
      (∃ value, (Json.object fields).get? name = some value ∧ read value a) ∨
        ((Json.object fields).get? name = none ∧ a = default) := by
  rw [← lookup_eq]
  simp only [defaulted, field]
  cases lookup name fields with
  | none => simp [eq_comm]
  | some found => simp [mapError_eq_ok, reads found.1]

/-- A field is read from what an object tells under its name. -/
theorem ofFields_field_of_told {name : String} {told : Json} {decode : Decoder whole α} {a : α}
    {unnamed : Except Fault α} {unplaced : Nat → String → Except DecodeError α}
    (there : (Json.object fields).get? name = some told) (reads : ∀ small, decode told small = .ok a) :
    (field name unnamed unplaced decode).ofFields fields inFields = .ok a := by
  rw [← lookup_eq] at there
  simp only [field]
  cases found : lookup name fields with
  | none => simp [found] at there
  | some entry =>
    obtain rfl : entry.1 = told := by simpa [found] using there
    simp [mapError_eq_ok, reads]

/-- A field that an object does not tell is what stands in for it. -/
theorem ofFields_field_of_untold {name : String} {decode : Decoder whole α} {unnamed : Except Fault α}
    {unplaced : Nat → String → Except DecodeError α}
    (missing : (Json.object fields).get? name = none) :
    (field name unnamed unplaced decode).ofFields fields inFields = unnamed := by
  rw [← lookup_eq] at missing
  simp only [field]
  cases found : lookup name fields with
  | none => rfl
  | some entry => simp [found] at missing

/-- A field that may be absent is read from what an object tells of it. -/
theorem ofFields_optional_of_told {name : String} {decode : Decoder whole α}
    {reads : Json → α → Prop} {found : Option α}
    (sound : ∀ told a, reads told a → told ≠ .null ∧ ∀ small, decode told small = .ok a)
    (told : TellsOption reads ((Json.object fields).get? name) found) :
    (optional name decode).ofFields fields inFields = .ok found := by
  generalize there : (Json.object fields).get? name = entry at told
  cases told with
  | @some value a read =>
    obtain ⟨notNull, decodes⟩ := sound value a read
    refine ofFields_field_of_told there fun small => ?_
    have opened : decode.nullable value small = (decode value small).map Option.some := by
      cases value <;> first | rfl | exact absurd rfl notNull
    rw [opened, decodes]
    rfl
  | null => exact ofFields_field_of_told there fun _ => rfl
  | missing => exact ofFields_field_of_untold there

/-- A field that must be there is read from a sequence that goes so far. -/
theorem ofItems_required_eq_ok {name : String} {decode : Decoder whole α} {read : Json → α → Prop}
    (reads : decode.Reads read) {a : α} :
    (required name decode).ofItems start expected items inItems = .ok a ↔
      ∃ value, items[start]? = some value ∧ read value a := by
  simp only [required, field]
  split
  · rename_i ends
    simp [ends]
  · rename_i value there
    simp [there, reads value]

/-- A field with a default value is read from a sequence, or has that value behind its end. -/
theorem ofItems_defaulted_eq_ok {name : String} {default : α} {decode : Decoder whole α}
    {read : Json → α → Prop} (reads : decode.Reads read) {a : α} :
    (defaulted name default decode).ofItems start expected items inItems = .ok a ↔
      (∃ value, items[start]? = some value ∧ read value a) ∨
        (items[start]? = none ∧ a = default) := by
  simp only [defaulted, field]
  split
  · rename_i ends
    simp [ends, eq_comm]
  · rename_i value there
    simp [there, reads value]

variable {shape : Shape whole α} {title : String} {place : Place} {value : α}

/-- A record is read from an object when its fields are. -/
theorem decode_object_eq_ok {fits : sizeOf (Json.object fields) ≤ sizeOf whole} :
    shape.decode title place (.object fields) fits = .ok value ↔
      shape.ofFields fields (fun _ member => Nat.lt_of_lt_of_le (sizeOf_lt_object member) fits) =
        .ok value := by
  rw [decode, mapError_eq_ok]

/-- A record is read from a sequence when its items are and none is left over. -/
theorem decode_array_eq_ok {fits : sizeOf (Json.array items) ≤ sizeOf whole} :
    shape.decode title place (.array items) fits = .ok value ↔
      items.length ≤ shape.names.length ∧
        shape.ofItems 0 (title ++ " with " ++ elements shape.names.length) items
          (fun _ member => Nat.lt_of_lt_of_le (sizeOf_lt_array member) fits) = .ok value := by
  rw [decode, bind_eq_ok]
  constructor
  · rintro ⟨record, yields, rest⟩
    split at rest
    · cases rest
    · rename_i enough
      cases rest
      exact ⟨Nat.le_of_not_lt enough, yields⟩
  · rintro ⟨enough, yields⟩
    refine ⟨value, yields, ?_⟩
    rw [if_neg (Nat.not_lt_of_le enough)]
    rfl

/-- A record is read from nothing but objects and sequences. -/
theorem not_decode_eq_ok {scalar : Json} {fits : sizeOf scalar ≤ sizeOf whole}
    (noFields : scalar.fields? = none) (noItems : scalar.items? = none) :
    ¬shape.decode title place scalar fits = .ok value := by
  cases scalar with
  | object fields => cases noFields
  | array items => cases noItems
  | _ => simp [decode]

end Shape

/-- An object is taken apart at the text that it tells under the name of the tag. -/
theorem Tagged.takeApart_object {title kind : String} {variants : List String} {place : Place}
    {fields : List (String × Json)} (told : (Json.object fields).get? "type" = some (.string kind)) :
    takeApart title variants place (.object fields) =
      .ok ⟨if variants.contains kind then some kind else none, .object fields, Nat.le_refl _⟩ := by
  simp only [Json.get?, Option.map_eq_some_iff] at told
  obtain ⟨field, found, tag⟩ := told
  simp only [takeApart, found, tag]
  rfl

end SourceOutline
