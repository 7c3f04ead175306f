import SourceOutline.Python.Tree

/-! The texts that string literals stand for. -/

namespace SourceOutline.Python

/-- The value of a hexadecimal digit. -/
def hexDigit? (c : Char) : Option Nat :=
  -- Letters count in both cases.
  if c.isDigit then some (c.toNat - '0'.toNat)
  else if 'a' ≤ c && c ≤ 'f' then some (c.toNat - 'a'.toNat + 10)
  else if 'A' ≤ c && c ≤ 'F' then some (c.toNat - 'A'.toNat + 10)
  else none

/-- The number that digits of base sixteen make up, when all of them are such digits. -/
def hexNumber (digits : List Char) : Option Nat :=
  -- The first digit weighs most.
  digits.foldlM (fun value c => (hexDigit? c).map (value * 16 + ·)) 0

/-- The character of a code point, when it has one. -/
def charOf (code : Nat) : Option Char :=
  -- Halves of pairs and numbers beyond the last code point have none.
  if h : code.isValidChar then some (Char.ofNatAux code h) else none

/-- The character given by exactly `width` digits at the start of a text. -/
def hexChar (width : Nat) (behind : List Char) : Option Char :=
  -- A plus sign is accepted in place of the first digit.
  let digits := behind.take width
  let unsigned := if digits.head? == some '+' then digits.drop 1 else digits
  if digits.length = width then (hexNumber unsigned).bind charOf else none

/-- The digits of base eight at the start of a text, at most two of them. -/
def octalRun (cs : List Char) : List Char :=
  -- Together with the first digit there are at most three.
  (cs.take 2).takeWhile fun c => '0' ≤ c && c ≤ '7'

/-- The number that digits of base eight make up. -/
def octalNumber (digits : List Char) : Nat :=
  -- The first digit weighs most.
  digits.foldl (fun value c => value * 8 + (c.toNat - '0'.toNat)) 0

/-- The character that a letter behind a backslash stands for. -/
def letterEscape (c : Char) : Option Char :=
  -- Quotes and backslashes stand for themselves.
  match c with
  | '\\' => some '\\'
  | '\'' => some '\''
  | '"' => some '"'
  | 'n' => some '\n'
  | 't' => some '\t'
  | 'r' => some '\r'
  | 'a' => some '\x07'
  | 'b' => some '\x08'
  | 'f' => some '\x0c'
  | 'v' => some '\x0b'
  | _ => none

/-- How many digits follow a letter that introduces a code point. -/
def escapeWidth (c : Char) : Option Nat :=
  -- There are three such letters.
  match c with
  | 'x' => some 2
  | 'u' => some 4
  | 'U' => some 8
  | _ => none

/-- What the text behind a backslash stands for, and how many of its characters are used up. -/
def escape (behind : List Char) : List Char × Nat :=
  -- A backslash without a known meaning stands for itself.
  match behind with
  | [] => (['\\'], 0)
  | c :: rest =>
    if c == '\n' then ([], 1)
    else match letterEscape c with
      | some meant => ([meant], 1)
      | none =>
        match escapeWidth c with
        | some width =>
          match hexChar width rest with
          | some meant => ([meant], 1 + width)
          | none => (['\\', c], 1)
        | none =>
          if '0' ≤ c && c ≤ '7' then
            let digits := c :: octalRun rest
            ([Char.ofNat (octalNumber digits)], digits.length)
          else (['\\', c], 1)

/-- The text that the content of a literal stands for. -/
def unescape : List Char → List Char
  | [] => []
  | c :: rest =>
    -- What a backslash uses up is not read again.
    if c == '\\' then
      let escaped := escape rest
      escaped.1 ++ unescape (rest.drop escaped.2)
    else c :: unescape rest
termination_by content => content.length
decreasing_by
  · simp only [List.length_drop, List.length_cons]; omega
  · simp

/-- The letters before the quotes of a literal, in lower case. -/
def stringLetters (opening : List Char) : List Char :=
  -- The quotes are no letters.
  (opening.takeWhile Char.isAlpha).map Char.toLower

/-- The text that a plain literal stands for; literals of bytes and formats have none. -/
def stringValue (source : List Char) (literal : Node) : Option (List Char) := do
  -- The content lies between the quotes.
  if literal.kind != .string || literal.children.any (fun part => part.kind == .interpolation) then
    none
  let opening ← literal.children.find? fun part => part.kind == .stringStart
  let closing ← literal.children.find? fun part => part.kind == .stringEnd
  let letters := stringLetters (opening.text source)
  if letters.contains 'f' || letters.contains 'b' then none
  let content := textBetween source opening.stop closing.start
  return if letters.contains 'r' then content else unescape content

/-- The text that literals side by side stand for together. -/
def joinedValue (source : List Char) : List Node → Option (List Char)
  | [] => some []
  | part :: rest =>
    -- Comments between them do not count; each literal must have a text.
    if part.isComment then joinedValue source rest
    else do
      let first ← stringValue source part
      let later ← joinedValue source rest
      return first ++ later

/-- The text of the string literal that a body starts with. -/
def docstring (source : List Char) (body : Node) : Option (List Char) := do
  -- The literal must be a statement of its own.
  let first ← body.namedChildren.find? fun child => !child.isComment
  match first.kind, first.namedChildren with
  | .expressionStatement, [literal] =>
    match literal.kind with
    | .string => stringValue source literal
    | .concatenatedString => joinedValue source literal.namedChildren
    | _ => none
  | _, _ => none

end SourceOutline.Python
