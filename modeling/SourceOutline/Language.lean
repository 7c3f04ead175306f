import SourceOutline.FilePath
import SourceOutline.Json.Decode
import SourceOutline.Text.Lowercase

/-! The supported languages and the dialects in which files are parsed. -/

namespace SourceOutline

/-- A supported language. -/
inductive Language where
  /-- Python. -/
  | python
  /-- JavaScript. -/
  | javascript
  /-- TypeScript. -/
  | typescript
  deriving DecidableEq, Repr

namespace Language

/-- The name of a language. -/
def name : Language → String
  | .python => "python"
  | .javascript => "javascript"
  | .typescript => "typescript"

/-- The language of files with an extension, whatever its case, or else the extension as reported. -/
def ofExtension (extension : String) : Except String Language :=
  -- The dot is not part of the extension but of its report.
  match Text.lowercase extension with
  | "py" | "pyw" => .ok .python
  | "js" | "jsx" | "mjs" | "cjs" => .ok .javascript
  | "ts" | "tsx" | "mts" | "cts" => .ok .typescript
  | other => .error ("." ++ other)

/-- The language of the file that a path names, or else what is reported. -/
def ofPath (path : String) : Except String Language :=
  -- Without an extension the whole path is reported.
  match FilePath.extension path with
  | some extension => ofExtension extension
  | none => .error path

/-- The language of a name, whatever its case, or else the name as reported. -/
def ofName (name : String) : Except String Language :=
  -- The usual short forms are names too.
  match Text.lowercase name with
  | "python" | "py" => .ok .python
  | "javascript" | "js" => .ok .javascript
  | "typescript" | "ts" => .ok .typescript
  | other => .error other

/-- Sources of the language are parsed by the external engine. -/
def usesEngine : Language → Bool
  | .python => false
  | .javascript | .typescript => true

/-- The names of all languages in the order in which messages list them. -/
def names : List String := ["python", "javascript", "typescript"]

/-- The language of exactly this name. -/
def ofExactName (name : String) : Option Language :=
  -- Neither short forms nor capitals are accepted.
  match name with
  | "python" => some .python
  | "javascript" => some .javascript
  | "typescript" => some .typescript
  | _ => none

/-- The language of exactly this name, or the reason why there is none. -/
def decodeName (name : String) : Except DecodeError Language :=
  -- The message lists the names that would do.
  match ofExactName name with
  | some language => .ok language
  | none => .error (.unknownVariant name names)

/-- A language given by its name, alone or as the only field of an object that holds null. -/
def decode (value : Json) : Except DecodeError Language :=
  -- The name is looked at before the value beside it.
  match value with
  | .string name => decodeName name
  | .object [(name, content)] => do
    let language ← decodeName name
    match content with
    | .null => return language
    | other => throw (.wrongType other "unit")
  | .object fields => .error (.wrongValue (.object fields) "map with a single key")
  | other => .error (.wrongType other "string or map")

/-- A language inside another value. -/
def part {whole : Json} : Decoder whole Language := fun value _ => decode value

/-- A language as a value. -/
def encode (language : Language) : Json :=
  -- Only the name is written.
  .string language.name

end Language

/-- The variety of a language that a source is parsed in. -/
inductive Dialect where
  /-- Python. -/
  | python
  /-- JavaScript, with markup accepted. -/
  | javascript
  /-- TypeScript without markup. -/
  | typescript
  /-- TypeScript with markup. -/
  | tsx
  deriving DecidableEq, Repr

namespace Dialect

/-- The usual dialect of a language. -/
def ofLanguage : Language → Dialect
  | .python => .python
  | .javascript => .javascript
  | .typescript => .typescript

/-- The dialect of a file parsed in a language. -/
def ofPath (path : String) (language : Language) : Dialect :=
  -- Only TypeScript sets a file extension apart, and letters count in either case.
  let markup := match FilePath.extension path with
    | some extension => extension.toList.map Char.toLower == "tsx".toList
    | none => false
  match language with
  | .typescript => if markup then .tsx else .typescript
  | other => ofLanguage other

/-- The language that a dialect belongs to. -/
def language : Dialect → Language
  | .python => .python
  | .javascript => .javascript
  | .typescript | .tsx => .typescript

/-- The name of a dialect. -/
def name : Dialect → String
  | .tsx => "tsx"
  | other => other.language.name

/-- The suffix of a file that holds a source in this dialect for the engine. -/
def scratchSuffix : Dialect → String
  | .typescript => ".ts"
  | .tsx => ".tsx"
  | _ => ".js"

end Dialect

end SourceOutline
