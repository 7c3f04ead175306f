import SourceOutline.Json.Number
import SourceOutline.NameMap

/-! Values read from text. -/

namespace SourceOutline.Json

/-- The pieces that a text is made of, blanks aside. -/
inductive Token where
  /-- The bracket that opens a sequence. -/
  | openArray
  /-- The bracket that closes a sequence. -/
  | closeArray
  /-- The brace that opens an object. -/
  | openObject
  /-- The brace that closes an object. -/
  | closeObject
  /-- The separator of a name and its value. -/
  | colon
  /-- The separator of items and of fields. -/
  | comma
  /-- A text, which is a value or a name. -/
  | text (text : String)
  /-- Any other scalar value. -/
  | scalar (value : Json)

/-- How far a text between quotes has been read. -/
inductive TextState where
  /-- Between two characters. -/
  | plain
  /-- Behind a backslash, with the first half of a pair that must be completed. -/
  | escape (high : Option Nat)
  /-- Inside an escape that lacks `left + 1` of its four digits. -/
  | digits (high : Option Nat) (left : Nat) (value : Nat)
  /-- Behind the first half of a pair. -/
  | between (high : Nat)

/-- The character that a letter behind a backslash stands for. -/
def simpleEscape (c : Char) : Option Char :=
  -- All other letters but `u` are refused.
  match c with
  | '"' => some '"'
  | '\\' => some '\\'
  | '/' => some '/'
  | 'b' => some '\x08'
  | 'f' => some '\x0c'
  | 'n' => some '\n'
  | 'r' => some '\r'
  | 't' => some '\t'
  | _ => none

/-- The value of a hexadecimal digit. -/
def hexValue? (c : Char) : Option Nat :=
  -- Letters count in both cases.
  if c.isDigit then some (c.toNat - '0'.toNat)
  else if 'a' ≤ c && c ≤ 'f' then some (c.toNat - 'a'.toNat + 10)
  else if 'A' ≤ c && c ≤ 'F' then some (c.toNat - 'A'.toNat + 10)
  else none

/-- A completed unit of sixteen bits adds a character or waits for the other half of a pair. -/
def completeUnit (high : Option Nat) (unit : Nat) (done : List Char) :
    Option (TextState × List Char) :=
  -- Halves of a pair only count together and in order.
  let isHigh := 0xD800 ≤ unit && unit ≤ 0xDBFF
  let isLow := 0xDC00 ≤ unit && unit ≤ 0xDFFF
  match high with
  | none =>
    if isLow then none
    else if isHigh then some (.between unit, done)
    else some (.plain, Char.ofNat unit :: done)
  | some first =>
    if isLow then
      some (.plain, Char.ofNat (0x10000 + (first - 0xD800) * 0x400 + (unit - 0xDC00)) :: done)
    else none

/-- The effect of one character inside a text, other than the closing quote. -/
def textStep (state : TextState) (c : Char) (done : List Char) :
    Option (TextState × List Char) :=
  -- Control characters must be escaped.
  match state with
  | .plain =>
    if c == '\\' then some (.escape none, done)
    else if c.toNat < 0x20 then none
    else some (.plain, c :: done)
  | .escape high =>
    if c == 'u' then some (.digits high 3 0, done)
    else if high.isSome then none
    else (simpleEscape c).map fun meant => (.plain, meant :: done)
  | .digits high left value =>
    (hexValue? c).bind fun digit =>
      match left with
      | 0 => completeUnit high (value * 16 + digit) done
      | left + 1 => some (.digits high left (value * 16 + digit), done)
  | .between high => if c == '\\' then some (.escape (some high), done) else none

/-- A text whose opening quote has been read, and what follows its closing quote. -/
def textBody (state : TextState) (done : List Char) : List Char → Option (String × List Char)
  | [] => none
  | c :: rest =>
    -- A quote ends the text unless it belongs to an escape.
    match state, c with
    | .plain, '"' => some (String.ofList done.reverse, rest)
    | state, c => (textStep state c done).bind fun next => textBody next.1 next.2 rest

/-- An exponent and what follows it; a marker without digits is refused. -/
def exponentPart (cs : List Char) : Option (Option (Bool × List Char) × List Char) :=
  -- The marker may have either case and the sign may be left out.
  match cs with
  | [] => some (none, [])
  | c :: rest =>
    if c == 'e' || c == 'E' then
      let negative := rest.head? == some '-'
      let unsigned := if negative || rest.head? == some '+' then rest.drop 1 else rest
      let digits := unsigned.takeWhile Char.isDigit
      if digits.isEmpty then none
      else some (some (negative, digits), unsigned.dropWhile Char.isDigit)
    else some (none, c :: rest)

/-- The digits behind a point and what follows them; a point without digits is refused. -/
def fractionPart (cs : List Char) : Option (Option (List Char) × List Char) :=
  -- Without a point there is no fraction.
  match cs with
  | '.' :: rest =>
    let digits := rest.takeWhile Char.isDigit
    if digits.isEmpty then none else some (some digits, rest.dropWhile Char.isDigit)
  | cs => some (none, cs)

/-- A number and what follows it. -/
def number (cs : List Char) : Option (Json × List Char) := do
  -- Zero is the only number that starts with the digit zero.
  let negative := cs.head? == some '-'
  let unsigned := if negative then cs.drop 1 else cs
  let whole := unsigned.takeWhile Char.isDigit
  if whole.isEmpty || (whole.length > 1 && whole.head? == some '0') then none
  let (fraction, rest) ← fractionPart (unsigned.dropWhile Char.isDigit)
  let (exponent, rest) ← exponentPart rest
  let value ← NumberText.value ⟨negative, whole, fraction, exponent⟩
  some (value, rest)

/-- Blanks between the pieces of a text. -/
def isSpace (c : Char) : Bool :=
  -- Only these four characters may stand between tokens.
  c == ' ' || c == '\t' || c == '\n' || c == '\r'

/-- The token at the start of a text that does not start with a blank, and what follows it. -/
def token (cs : List Char) : Option (Token × List Char) :=
  -- The first character tells which kind of token follows.
  match cs with
  | [] => none
  | c :: rest =>
    if c == '[' then some (.openArray, rest)
    else if c == ']' then some (.closeArray, rest)
    else if c == '\x7b' then some (.openObject, rest)
    else if c == '\x7d' then some (.closeObject, rest)
    else if c == ':' then some (.colon, rest)
    else if c == ',' then some (.comma, rest)
    else if c == '"' then (textBody .plain [] rest).map fun found => (.text found.1, found.2)
    else if c == '-' || c.isDigit then (number cs).map fun found => (.scalar found.1, found.2)
    else
      [("true", Json.bool true), ("false", .bool false), ("null", .null)].findSome? fun word =>
        (word.1.toList.isPrefixOf? cs).map fun rest => (.scalar word.2, rest)

/-- The tokens of a text in order, put behind those already found in reverse. -/
def tokensFrom (found : List Token) : Nat → List Char → Option (List Token)
  | _, [] => some found.reverse
  | 0, _ :: _ => none
  | fuel + 1, c :: rest =>
    -- A blank or a token takes at least one character, so the length of the text is fuel enough.
    if isSpace c then tokensFrom found fuel rest
    else (token (c :: rest)).bind fun next => tokensFrom (next.1 :: found) fuel next.2

/-- The tokens of a text. -/
def tokens (cs : List Char) : Option (List Token) :=
  -- Each step reads at least one character.
  tokensFrom [] cs.length cs

/-- A sequence or an object that has been opened and not yet closed. -/
inductive Frame where
  /-- A sequence with the items read so far, the last one first. -/
  | items (done : List Json)
  /-- An object with the fields read so far, the last one first, and the name of the next one. -/
  | fields (done : List (String × Json)) (name : String)

/-- What may come next. -/
inductive Expecting where
  /-- A value. -/
  | value
  /-- A value, or the end of the sequence just opened. -/
  | firstItem
  /-- A name, or the end of the object just opened. -/
  | firstName
  /-- A name. -/
  | name
  /-- The separator behind a name. -/
  | colon
  /-- A separator, or the end of the innermost bracket. -/
  | more
  /-- Nothing but the end of the text. -/
  | finish

/-- How far a value has been read. -/
structure Progress where
  /-- The brackets that are open, the innermost first. -/
  frames : List Frame
  /-- What may come next. -/
  expecting : Expecting
  /-- The value, once it is complete. -/
  result : Json

/-- How many brackets may be open at once. -/
def deepest : Nat := 127

/-- A complete value goes into the innermost bracket, or is the result. -/
def Progress.complete (frames : List Frame) (value : Json) : Progress :=
  -- A field is complete together with its value.
  match frames with
  | [] => ⟨[], .finish, value⟩
  | .items done :: outer => ⟨.items (value :: done) :: outer, .more, .null⟩
  | .fields done name :: outer => ⟨.fields ((name, value) :: done) name :: outer, .more, .null⟩

/-- A bracket is opened unless too many are open. -/
def Progress.opened (frames : List Frame) (frame : Frame) (expecting : Expecting) :
    Option Progress :=
  -- The new bracket counts among the open ones.
  if frames.length < deepest then some ⟨frame :: frames, expecting, .null⟩ else none

/-- The innermost bracket is closed and its value complete. -/
def Progress.closed (frames : List Frame) : Option Progress :=
  -- Fields are sorted by name, and of two with one name the later one stays.
  match frames with
  | [] => none
  | .items done :: outer => some (.complete outer (.array done.reverse))
  | .fields done _ :: outer => some (.complete outer (.object (NameMap.ofList done.reverse).entries))

/-- The innermost bracket is that of a sequence. -/
def inArray : List Frame → Bool
  | .items _ :: _ => true
  | _ => false

/-- A token that starts a value. -/
def Progress.start (frames : List Frame) (token : Token) : Option Progress :=
  -- Closing brackets and separators start none.
  match token with
  | .text text => some (.complete frames (.string text))
  | .scalar value => some (.complete frames value)
  | .openArray => Progress.opened frames (.items []) .firstItem
  | .openObject => Progress.opened frames (.fields [] "") .firstName
  | _ => none

/-- A name opens the next field of the innermost object. -/
def Progress.named (frames : List Frame) (token : Token) : Option Progress :=
  -- Only a text can be a name.
  match token, frames with
  | .text name, .fields done _ :: outer => some ⟨.fields done name :: outer, .colon, .null⟩
  | _, _ => none

/-- The effect of one token. -/
def Progress.step (progress : Progress) (token : Token) : Option Progress :=
  -- What may come next decides which tokens are accepted.
  match progress.expecting, token with
  | .finish, _ => none
  | .value, token => Progress.start progress.frames token
  | .firstItem, .closeArray => Progress.closed progress.frames
  | .firstItem, token => Progress.start progress.frames token
  | .firstName, .closeObject => Progress.closed progress.frames
  | .firstName, token => Progress.named progress.frames token
  | .name, token => Progress.named progress.frames token
  | .colon, .colon => some ⟨progress.frames, .value, .null⟩
  | .colon, _ => none
  | .more, .comma =>
    some ⟨progress.frames, if inArray progress.frames then .value else .name, .null⟩
  | .more, .closeArray => if inArray progress.frames then Progress.closed progress.frames else none
  | .more, .closeObject => if inArray progress.frames then none else Progress.closed progress.frames
  | .more, _ => none

/-- The value that a text holds and nothing else, fields in ascending order of their names. -/
def read (text : List Char) : Option Json := do
  -- The whole text must be used up by exactly one value.
  let progress ← (← tokens text).foldlM Progress.step ⟨[], .value, .null⟩
  match progress.expecting with
  | .finish => some progress.result
  | _ => none

end SourceOutline.Json
