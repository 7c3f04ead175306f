import SourceOutline.Json.Writer
import SourceOutline.NameMap
import SourceOutline.Text.Quoted

/-! Values decoded into scalars, lists and records, with the reason when one does not fit. -/

namespace SourceOutline

/-- The reason why a value does not fit what is expected of it. -/
inductive DecodeError where
  /-- A value of another kind than expected. -/
  | wrongType (found : Json) (expected : String)
  /-- A value of the right kind that lies out of range. -/
  | wrongValue (found : Json) (expected : String)
  /-- A record lacks a field. -/
  | missingField (name : String)
  /-- A record has a field that it must not have. -/
  | unknownField (name : String) (known : List String)
  /-- A choice is none of those offered. -/
  | unknownVariant (name : String) (known : List String)
  /-- A sequence has too few or too many items. -/
  | wrongLength (length : Nat) (expected : String)

/-- A text between grave accents. -/
def ticked (text : String) : String :=
  -- Names and numbers stand out of a message this way.
  "`" ++ text ++ "`"

/-- A value as a message refers to it. -/
def Json.described : Json → String
  | .null => "null"
  | .bool value => "boolean " ++ ticked (Json.bool value).compact
  | .int value => "integer " ++ ticked (Json.int value).compact
  | .float value => "floating point " ++ ticked (Json.float value).compact
  | .string text => "string " ++ Text.quoted text
  | .array _ => "sequence"
  | .object _ => "map"

/-- Names as a message lists them. -/
def oneOf (names : List String) : String :=
  -- Every such list in use has at least three names.
  "expected one of " ++ String.intercalate ", " (names.map ticked)

/-- The text of a message. -/
def DecodeError.message : DecodeError → String
  | .wrongType found expected => "invalid type: " ++ found.described ++ ", expected " ++ expected
  | .wrongValue found expected => "invalid value: " ++ found.described ++ ", expected " ++ expected
  | .missingField name => "missing field " ++ ticked name
  | .unknownField name known => "unknown field " ++ ticked name ++ ", " ++ oneOf known
  | .unknownVariant name known => "unknown variant " ++ ticked name ++ ", " ++ oneOf known
  | .wrongLength length expected =>
    "invalid length " ++ toString length ++ ", expected " ++ expected

/-- A number of elements in words. -/
def elements (n : Nat) : String :=
  -- One element is not plural.
  if n = 1 then "1 element" else toString n ++ " elements"

/-- A value is not larger than itself. -/
theorem Json.sizeOf_le_self (value : Json) : sizeOf value ≤ sizeOf value := Nat.le_refl _

/-- What lies inside a value is not larger than it. -/
theorem Json.sizeOf_le {value whole : Json} (small : sizeOf value < sizeOf whole) :
    sizeOf value ≤ sizeOf whole := Nat.le_of_lt small

/-- A decoder of the values inside a whole, so that the decoder of the whole may use itself. -/
abbrev Decoder (whole : Json) (α : Type) : Type :=
  (value : Json) → sizeOf value < sizeOf whole → Except DecodeError α

/-- A value stands on its own or inside a value whose kind is told by a tag. -/
inductive Place where
  /-- On its own. -/
  | outer
  /-- Inside a tagged value. -/
  | inner
  deriving DecidableEq

namespace Decoder

variable {whole : Json} {α : Type}

/-- Any value, unchanged. -/
def any : Decoder whole Json := fun value _ => .ok value

/-- A text. -/
def string : Decoder whole String := fun value _ =>
  -- No other value is turned into a text.
  match value with
  | .string text => .ok text
  | other => .error (.wrongType other "a string")

/-- A text that names a place in the file tree. -/
def path : Decoder whole String := fun value _ =>
  -- It differs from other texts only in what a message calls it.
  match value with
  | .string text => .ok text
  | other => .error (.wrongType other "path string")

/-- A truth value. -/
def bool : Decoder whole Bool := fun value _ =>
  -- Numbers do not count as truth values.
  match value with
  | .bool truth => .ok truth
  | other => .error (.wrongType other "a boolean")

/-- A whole number that is not negative, under the name its kind has in messages. -/
def natural (expected : String) : Decoder whole Nat := fun value _ =>
  -- A negative number has the right kind and the wrong value.
  match value with
  | .int (.ofNat n) => .ok n
  | .int n => .error (.wrongValue (.int n) expected)
  | other => .error (.wrongType other expected)

/-- A number that counts lines, columns or records. -/
def count : Decoder whole Nat := natural "usize"

/-- A number of sixty-four bits. -/
def wide : Decoder whole Nat := natural "u64"

/-- A value that is absent when it is null. -/
def nullable (decode : Decoder whole α) : Decoder whole (Option α) := fun value small =>
  -- Every other value must decode.
  match value with
  | .null => .ok none
  | other => (decode other small).map some

/-- Values decoded in order up to the first that does not fit. -/
def eachOf (decode : Decoder whole α) :
    (items : List Json) → (∀ item ∈ items, sizeOf item < sizeOf whole) → Except DecodeError (List α)
  | [], _ => .ok []
  | item :: rest, small => do
    -- An item that does not fit hides all later ones.
    let first ← decode item (small item (List.mem_cons_self ..))
    let later ← eachOf decode rest fun other member => small other (List.mem_cons_of_mem _ member)
    return first :: later

/-- A sequence of values of one kind. -/
def list (decode : Decoder whole α) : Decoder whole (List α) := fun value small =>
  -- The items are smaller than the sequence.
  match value, small with
  | .array items, small => eachOf decode items fun item member => by
      have inside := List.sizeOf_lt_of_mem member
      simp only [Json.array.sizeOf_spec] at small
      omega
  | other, _ => .error (.wrongType other "a sequence")

/-- The values under names, decoded in the order of the fields. -/
def eachField (decode : Decoder whole α) :
    (fields : List (String × Json)) → (∀ field ∈ fields, sizeOf field.2 < sizeOf whole) →
      Except DecodeError (List (String × α))
  | [], _ => .ok []
  | field :: rest, small => do
    -- A value that does not fit hides all later ones.
    let first ← decode field.2 (small field (List.mem_cons_self ..))
    let later ← eachField decode rest fun other member => small other (List.mem_cons_of_mem _ member)
    return (field.1, first) :: later

/-- A map from names to values of one kind. -/
def map (decode : Decoder whole α) : Decoder whole (NameMap α) := fun value small =>
  -- The values are smaller than the map.
  match value, small with
  | .object fields, small =>
    (eachField decode fields fun field member => by
      have inside := List.sizeOf_lt_of_mem member
      rcases field with ⟨name, inner⟩
      simp only [Json.object.sizeOf_spec, Prod.mk.sizeOf_spec] at small inside ⊢
      omega).map NameMap.ofList
  | other, _ => .error (.wrongType other "a map")

end Decoder

/-- What is wrong with the fields of a record. -/
inductive Fault where
  /-- The field of this name is there and does not fit. -/
  | misfit (name : String) (error : DecodeError)
  /-- The field of this name is not there. -/
  | absent (name : String)

namespace Fault

/-- The reason that is reported for a fault. -/
def error : Fault → DecodeError
  | .misfit _ error => error
  | .absent name => .missingField name

/-- The fault that is reported when there are two. -/
def first (left right : Fault) : Fault :=
  -- Fields that do not fit come first, in the order of their names; then absent ones as declared.
  match left, right with
  | .misfit a _, .misfit b _ => if b < a then right else left
  | .misfit _ _, .absent _ => left
  | .absent _, .misfit _ _ => right
  | .absent _, .absent _ => left

end Fault

/-- The fields of a record, read by name from an object or by place from a sequence. -/
structure Shape (whole : Json) (α : Type) where
  /-- The names of the fields as declared. -/
  names : List String
  /-- The record held by the fields of an object. -/
  ofFields : (fields : List (String × Json)) → (∀ field ∈ fields, sizeOf field.2 < sizeOf whole) →
    Except Fault α
  /-- The record held by the items from a place on, given what a sequence too short is told. -/
  ofItems : (start : Nat) → (expected : String) → (items : List Json) →
    (∀ item ∈ items, sizeOf item < sizeOf whole) → Except DecodeError α

namespace Shape

variable {whole : Json} {α β : Type}

/-- A record without fields. -/
def const (value : α) : Shape whole α :=
  -- Nothing is read.
  ⟨[], fun _ _ => .ok value, fun _ _ _ _ => .ok value⟩

/-- Two results, or the fault that is reported first. -/
def both (left : Except Fault (α → β)) (right : Except Fault α) : Except Fault β :=
  -- Both sides are looked at, because the fault of either may come first.
  match left, right with
  | .ok f, .ok value => .ok (f value)
  | .ok _, .error fault => .error fault
  | .error fault, .ok _ => .error fault
  | .error fault, .error other => .error (fault.first other)

/-- A record that goes on with one more part. -/
def extend (left : Shape whole (α → β)) (right : Shape whole α) : Shape whole β where
  names := left.names ++ right.names
  ofFields fields small := both (left.ofFields fields small) (right.ofFields fields small)
  ofItems start expected items small := do
    -- By place the parts are read one after the other.
    let f ← left.ofItems start expected items small
    let value ← right.ofItems (start + left.names.length) expected items small
    return f value

instance : Applicative (Shape whole) where
  pure := const
  seq left right := extend left (right ())

/-- The value of the field of a name, with the fact that it is among the fields. -/
def lookup (name : String) :
    (fields : List (String × Json)) → Option { value : Json // ∃ field ∈ fields, field.2 = value }
  | [] => none
  | field :: rest =>
    -- Names occur at most once, so the first hit is the only one.
    if field.1 == name then some ⟨field.2, field, List.mem_cons_self .., rfl⟩
    else (lookup name rest).map fun found =>
      ⟨found.1, found.2.imp fun _ member => ⟨List.mem_cons_of_mem _ member.1, member.2⟩⟩

/-- A field, with what it is when an object or a sequence ends without it. -/
def field (name : String) (unnamed : Except Fault α) (unplaced : Nat → String → Except DecodeError α)
    (decode : Decoder whole α) : Shape whole α where
  names := [name]
  ofFields fields small :=
    match lookup name fields with
    | none => unnamed
    | some found =>
      (decode found.1 (by
        obtain ⟨other, member, same⟩ := found.2
        exact same ▸ small other member)).mapError (.misfit name)
  ofItems start expected items small :=
    match inside : items[start]? with
    | none => unplaced start expected
    | some item => decode item (small item (List.mem_of_getElem? inside))

/-- A field that must be there. -/
def required (name : String) (decode : Decoder whole α) : Shape whole α :=
  -- A sequence that ends before it is too short.
  field name (.error (.absent name)) (fun place expected => .error (.wrongLength place expected))
    decode

/-- A field that may be null or left out of an object, but not of a sequence. -/
def optional (name : String) (decode : Decoder whole α) : Shape whole (Option α) :=
  -- By place only null says that the value is absent.
  field name (.ok none) (fun place expected => .error (.wrongLength place expected))
    decode.nullable

/-- A field that has a default value when it is left out. -/
def defaulted (name : String) (default : α) (decode : Decoder whole α) : Shape whole α :=
  -- The default is for fields left out and does not stand in for null.
  field name (.ok default) (fun _ _ => .ok default) decode

/-- The first field in the order of names that is none of the given ones. -/
def firstUnknown (known : List String) (fields : List (String × Json)) : Option String :=
  -- The smallest such name is kept while the fields are passed.
  fields.foldl
    (fun found field =>
      if known.contains field.1 then found
      else match found with
        | none => some field.1
        | some name => if field.1 < name then some field.1 else some name)
    none

/-- The same record, which refuses fields of other names. -/
def closed (shape : Shape whole α) : Shape whole α where
  names := shape.names
  ofFields fields small :=
    match firstUnknown shape.names fields with
    | none => shape.ofFields fields small
    | some name =>
      both (.error (.misfit name (.unknownField name shape.names)))
        ((shape.ofFields fields small).map fun value => (value : α))
  ofItems := shape.ofItems

/-- What a sequence with more items than fields is told. -/
def surplus (place : Place) (fields items : Nat) : DecodeError :=
  -- Inside a tagged value the number of items that would do is named.
  match place with
  | .outer => .wrongLength items "fewer elements in array"
  | .inner => .wrongLength items (elements fields ++ " in sequence")

/-- The record held by a value, under the name that the record has in messages. -/
def decode (shape : Shape whole α) (title : String) (place : Place) (value : Json)
    (fits : sizeOf value ≤ sizeOf whole) : Except DecodeError α :=
  -- Fields and items are smaller than the value that holds them.
  match value, fits with
  | .object fields, fits =>
    (shape.ofFields fields fun field member => by
      have inside := List.sizeOf_lt_of_mem member
      rcases field with ⟨name, inner⟩
      simp only [Json.object.sizeOf_spec, Prod.mk.sizeOf_spec] at fits inside ⊢
      omega).mapError Fault.error
  | .array items, fits => do
    let record ← shape.ofItems 0 (title ++ " with " ++ elements shape.names.length) items
      fun item member => by
        have inside := List.sizeOf_lt_of_mem member
        simp only [Json.array.sizeOf_spec] at fits
        omega
    if shape.names.length < items.length then
      throw (surplus place shape.names.length items.length)
    return record
  | other, _ => .error (.wrongType other title)

end Shape

/-- A tagged value taken apart into the kind it claims and what stands beside the tag. -/
structure Tagged (whole : Json) where
  /-- The kind, unless it is none of those that are known. -/
  variant : Option String
  /-- The fields together with the tag, or the items behind it. -/
  content : Json
  /-- The content is not larger than the whole. -/
  fits : sizeOf content ≤ sizeOf whole

namespace Tagged

/-- The kind that a tag claims. -/
def variantOf (variants : List String) (place : Place) (tag : Json) :
    Except DecodeError (Option String) :=
  -- Inside another tagged value a number stands for the kind at that position.
  match tag with
  | .string name => .ok (if variants.contains name then some name else none)
  | .int (.ofNat n) =>
    if place = .inner then .ok variants[n]?
    else .error (.wrongType (.int n) "variant identifier")
  | other => .error (.wrongType other "variant identifier")

/-- A value taken apart at its tag, which is a field of its own or the first item. -/
def takeApart (title : String) (variants : List String) (place : Place) (value : Json) :
    Except DecodeError (Tagged value) :=
  -- The tag is looked at before anything else.
  match value with
  | .object fields =>
    match fields.find? fun field => field.1 == "type" with
    | none => .error (.missingField "type")
    | some field => do
      let variant ← variantOf variants place field.2
      return ⟨variant, .object fields, Nat.le_refl _⟩
  | .array [] => .error (.missingField "type")
  | .array (tag :: rest) => do
    let variant ← variantOf variants place tag
    return ⟨variant, .array rest, by
      simp only [Json.array.sizeOf_spec, List.cons.sizeOf_spec]; omega⟩
  | other => .error (.wrongType other ("internally tagged enum " ++ title))

/-- The value that stands for every unknown kind, which holds no items. -/
def catchAll {whole : Json} {α : Type} (tagged : Tagged whole) (value : α) : Except DecodeError α :=
  -- Fields are not looked at, and items have no place to go.
  match tagged.content with
  | .array (item :: rest) => .error (Shape.surplus .inner 0 (item :: rest).length)
  | _ => .ok value

end Tagged

end SourceOutline
