import SourceOutline.Json.Value
import SourceOutline.Decimal.Layout

/-! Values written as text, on one line or indented by two blanks per level. -/

namespace SourceOutline.Json

/-- Floats are positional from the fifth place behind the point up to sixteen places before it. -/
def floatLayout : Decimal.Layout := ⟨-5, 15⟩

/-- Two hexadecimal digits of a number below 256. -/
def hexByte (n : Nat) : List Char :=
  -- The high half comes first.
  [Nat.digitChar (n / 16), Nat.digitChar (n % 16)]

/-- A character as it stands inside a written text. -/
def escapedChar (c : Char) : List Char :=
  -- Only the delimiters and the control characters of ASCII are escaped.
  if c == '"' then ['\\', '"']
  else if c == '\\' then ['\\', '\\']
  else if c == '\x08' then ['\\', 'b']
  else if c == '\x0c' then ['\\', 'f']
  else if c == '\n' then ['\\', 'n']
  else if c == '\r' then ['\\', 'r']
  else if c == '\t' then ['\\', 't']
  else if c.toNat < 0x20 then ['\\', 'u', '0', '0'] ++ hexByte c.toNat
  else [c]

/-- A text between quotes with its special characters escaped. -/
def quote (text : String) : String :=
  -- Characters are appended one after the other.
  (text.toList.foldl (fun written c => (escapedChar c).foldl String.push written) "\"").push '"'

/-- A scalar value on its own; sequences and objects have no scalar form. -/
def writeScalar : Json → String
  | .null => "null"
  | .bool value => if value then "true" else "false"
  | .int value => toString value
  | .float value => floatLayout.writeFloat value
  | .string text => quote text
  | .array _ | .object _ => ""

mutual

/-- A value without any blank between its parts. -/
def compact : Json → String
  | .array items => "[" ++ String.intercalate "," (compactItems items) ++ "]"
  | .object fields => "\x7b" ++ String.intercalate "," (compactFields fields) ++ "\x7d"
  | value => writeScalar value

/-- The items of a sequence, each written compactly. -/
def compactItems : List Json → List String
  | [] => []
  | item :: rest => compact item :: compactItems rest

/-- The fields of an object, each written compactly. -/
def compactFields : List (String × Json) → List String
  | [] => []
  | field :: rest => (quote field.1 ++ ":" ++ compact field.2) :: compactFields rest

end

/-- A line break and the blanks of an indentation level. -/
def lineAt (level : Nat) : String :=
  -- Each level takes two blanks.
  String.ofList ('\n' :: List.replicate (2 * level) ' ')

/-- Parts on lines of their own one level deeper, between two brackets. -/
def indented (level : Nat) (opening closing : String) (parts : List String) : String :=
  -- Without parts the brackets stand side by side.
  if parts.isEmpty then opening ++ closing
  else
    let line := lineAt (level + 1)
    opening ++ line ++ String.intercalate ("," ++ line) parts ++ lineAt level ++ closing

mutual

/-- A value that stands at the given level, one part per line. -/
def prettyAt (level : Nat) : Json → String
  | .array items => indented level "[" "]" (prettyItems level items)
  | .object fields => indented level "\x7b" "\x7d" (prettyFields level fields)
  | value => writeScalar value

/-- The items of a sequence that stands at the given level. -/
def prettyItems (level : Nat) : List Json → List String
  | [] => []
  | item :: rest => prettyAt (level + 1) item :: prettyItems level rest

/-- The fields of an object that stands at the given level. -/
def prettyFields (level : Nat) : List (String × Json) → List String
  | [] => []
  | field :: rest => (quote field.1 ++ ": " ++ prettyAt (level + 1) field.2) :: prettyFields level rest

end

/-- A value with one part per line. -/
def pretty (value : Json) : String :=
  -- The outermost brackets are not indented.
  prettyAt 0 value

end SourceOutline.Json
