/-! Numbers as they are written in a source. -/

namespace SourceOutline.Python

/-- The digits of some kind at the start of a text, with single underscores behind digits. -/
def digitRun (isDigit : Char → Bool) (behindDigit : Bool) : List Char → List Char
  | [] => []
  | c :: rest =>
    -- Two underscores in a row end the run.
    if isDigit c then c :: digitRun isDigit true rest
    else if c == '_' && behindDigit then c :: digitRun isDigit false rest
    else []

/-- A digit of base sixteen. -/
def isHexDigit (c : Char) : Bool :=
  -- Letters count in both cases.
  c.isDigit || ('a' ≤ c && c ≤ 'f') || ('A' ≤ c && c ≤ 'F')

/-- A digit of base eight. -/
def isOctalDigit (c : Char) : Bool :=
  -- The digits stand in order.
  '0' ≤ c && c ≤ '7'

/-- The digits allowed behind a letter that follows a leading zero. -/
def baseDigits (letter : Char) : Option (Char → Bool) :=
  -- There are three such letters, in either case.
  match letter.toLower with
  | 'x' => some isHexDigit
  | 'o' => some isOctalDigit
  | 'b' => some fun c => c == '0' || c == '1'
  | _ => none

/-- One of the given letters at the start of a text. -/
def letterOf (letters : List Char) (cs : List Char) : List Char :=
  -- At most one letter is taken.
  match cs with
  | c :: _ => if letters.contains c then [c] else []
  | [] => []

/-- The marks of long and imaginary numbers at the start of a text. -/
def numberSuffix (cs : List Char) : List Char :=
  -- A long mark may be followed by an imaginary one.
  let long := letterOf ['l', 'L'] cs
  long ++ letterOf ['j', 'J'] (cs.drop long.length)

/-- An exponent at the start of a text, empty when there is none. -/
def exponentRun (cs : List Char) : List Char :=
  -- Without digits the letter belongs to what follows.
  let letter := letterOf ['e', 'E'] cs
  let sign := letterOf ['+', '-'] (cs.drop letter.length)
  let digits := digitRun Char.isDigit false (cs.drop (letter.length + sign.length))
  if letter.isEmpty || digits.isEmpty then [] else letter ++ sign ++ digits

/-- A number of another base than ten at the start of a text, empty when there is none. -/
def baseRun (cs : List Char) : List Char :=
  -- The letter needs a digit behind it, maybe after an underscore.
  match cs with
  | '0' :: letter :: rest =>
    match baseDigits letter with
    | some isDigit =>
      let digits := digitRun isDigit true rest
      if digits.isEmpty then [] else '0' :: letter :: digits
    | none => []
  | _ => []

/-- A decimal number at the start of a text, empty when there is none. -/
def decimalRun (cs : List Char) : List Char :=
  -- The point may lead, follow or be missing, but some digit is needed.
  let whole := digitRun Char.isDigit false cs
  let behind := cs.drop whole.length
  let fraction := match behind with
    | '.' :: rest => '.' :: digitRun Char.isDigit false rest
    | _ => []
  let mantissa := whole ++ fraction
  if whole.isEmpty && fraction.length < 2 then []
  else mantissa ++ exponentRun (cs.drop mantissa.length)

/-- The number at the start of a text, empty when there is none. -/
def numberRun (cs : List Char) : List Char :=
  -- The longest reading wins.
  let based := baseRun cs
  let digits := if based.isEmpty then decimalRun cs else based
  if digits.isEmpty then [] else digits ++ numberSuffix (cs.drop digits.length)

end SourceOutline.Python
