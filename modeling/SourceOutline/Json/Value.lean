/-! Values of the data format that trees, records and settings are exchanged in. -/

namespace SourceOutline

/-- A value: a scalar, a sequence, or named fields in the order in which they are written. -/
inductive Json where
  /-- The value that stands for an absent one. -/
  | null
  /-- A truth value. -/
  | bool (value : Bool)
  /-- A number written as a whole number, which fits into sixty-four bits with or without sign. -/
  | int (value : Int)
  /-- Any other finite number. -/
  | float (value : Float)
  /-- A text. -/
  | string (text : String)
  /-- A sequence of values. -/
  | array (items : List Json)
  /-- Values under names. -/
  | object (fields : List (String × Json))

namespace Json

instance : Inhabited Json := ⟨.null⟩

/-- The value under a name, when the value is an object that has it. -/
def get? (value : Json) (name : String) : Option Json :=
  -- A name stands at most once in an object that was read.
  match value with
  | .object fields => (fields.find? fun field => field.1 == name).map Prod.snd
  | _ => none

/-- The text of a text value. -/
def text? : Json → Option String
  | .string text => some text
  | _ => none

/-- The number of a whole number that is not negative. -/
def nat? : Json → Option Nat
  | .int (.ofNat n) => some n
  | _ => none

/-- The truth value of a truth value. -/
def bool? : Json → Option Bool
  | .bool value => some value
  | _ => none

/-- The items of a sequence. -/
def items? : Json → Option (List Json)
  | .array items => some items
  | _ => none

/-- The fields of an object. -/
def fields? : Json → Option (List (String × Json))
  | .object fields => some fields
  | _ => none

/-- A whole number as a value. -/
def nat (n : Nat) : Json :=
  -- Counts are never negative.
  .int n

/-- A list of texts as a value. -/
def strings (texts : List String) : Json :=
  -- The order of the list is kept.
  .array (texts.map .string)

/-- A text that may be absent as a value. -/
def stringOrNull (text : Option String) : Json :=
  -- An absent text is written as null.
  (text.map Json.string).getD .null

end Json

end SourceOutline
