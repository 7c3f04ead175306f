import SourceOutline.Settings
import SourceOutline.Toml.Reader

/-! Settings read from a text and checked. -/

namespace SourceOutline

mutual

/-- A value of a text as a value of a tree. -/
def Toml.Value.toJson : Toml.Value → Json
  | .string text => .string text
  | .integer value => .int value
  | .boolean value => .bool value
  | .float => .float 0
  | .moment => .object [("moment", .null)]
  | .array items => .array (Toml.itemsToJson items)
  | .table entries => .object (Toml.entriesToJson entries)

/-- The values of a sequence as values of a tree. -/
def Toml.itemsToJson : List Toml.Value → List Json
  | [] => []
  | item :: rest => item.toJson :: Toml.itemsToJson rest

/-- Values under names as values of a tree. -/
def Toml.entriesToJson : List (String × Toml.Value) → List (String × Json)
  | [] => []
  | entry :: rest => (entry.1, entry.2.toJson) :: Toml.entriesToJson rest

end

namespace Settings

/-- What a text that holds no settings is reported as. -/
def unreadable : Failure :=
  -- Where and why reading stopped is not reported.
  .invalidSettings "TOML parse error"

/-- A value under a name as a value of a tree, where engine settings may be a sequence. -/
def field (entry : String × Toml.Value) : String × Json :=
  -- In a text, a sequence may go on behind the six engine settings.
  match entry with
  | ("engine", .array items) => ("engine", .array ((Toml.itemsToJson items).take 6))
  | (name, value) => (name, value.toJson)

/-- Settings written as a text, which need not be usable. -/
def parse (text : List Char) : Except Failure Settings :=
  -- All faults of the text are reported alike.
  match Toml.read text with
  | none => .error unreadable
  | some entries =>
    match decode (.object (entries.map field)) with
    | .ok settings => .ok settings
    | .error _ => .error unreadable

/-- Usable settings written as a text. -/
def read (text : List Char) : Except Failure Settings := do
  -- Only settings that were read are checked.
  let settings ← parse text
  settings.validate
  return settings

end Settings

end SourceOutline
