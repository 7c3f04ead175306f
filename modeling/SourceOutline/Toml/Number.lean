import SourceOutline.Toml.Value

/-! Numbers and moments as they are written in settings. -/

namespace SourceOutline.Toml

/-- Digits with single underscores between them, without the underscores. -/
def digitsOf (isDigit : Char → Bool) (cs : List Char) : Option (List Char) :=
  -- Every underscore needs a digit on either side.
  match cs with
  | [] => none
  | first :: rest =>
    let paired := (first :: rest).zip rest
    let lonely := paired.any fun pair => pair.1 == '_' && pair.2 == '_'
    if first == '_' || (first :: rest).getLast? == some '_' || lonely then none
    else if (first :: rest).all fun c => isDigit c || c == '_' then
      some ((first :: rest).filter (· != '_'))
    else none

/-- The value of a digit in a base up to sixteen. -/
def digitIn (base : Nat) (c : Char) : Option Nat :=
  -- Letters count in both cases.
  let lower := c.toLower
  let value :=
    if c.isDigit then c.toNat - '0'.toNat
    else if 'a' ≤ lower && lower ≤ 'f' then lower.toNat - 'a'.toNat + 10
    else 16
  if value < base then some value else none

/-- The number that digits make up in a base. -/
def numberIn (base : Nat) (digits : List Char) : Nat :=
  -- The first digit weighs most.
  digits.foldl (fun value c => value * base + (digitIn base c).getD 0) 0

/-- A whole number, when it fits into sixty-four bits with sign. -/
def ranged (value : Int) : Option Value :=
  -- The range is not symmetric.
  if Int64.minValue.toInt ≤ value && value ≤ Int64.maxValue.toInt then some (.integer value)
  else none

/-- A number behind a letter for its base. -/
def based (base : Nat) (cs : List Char) : Option Value :=
  -- Such a number has no sign.
  (digitsOf (fun c => (digitIn base c).isSome) cs).bind fun digits => ranged (numberIn base digits)

/-- Decimal digits of a whole number, which has no needless zero in front. -/
def decimalDigits (cs : List Char) : Option (List Char) :=
  -- Zero itself is a single digit.
  (digitsOf Char.isDigit cs).filter fun digits => digits.length = 1 || digits.head? != some '0'

/-- A sign in front of a text: true for minus, and the text behind it. -/
def signOf (cs : List Char) : Bool × List Char :=
  -- A plus sign changes nothing.
  match cs with
  | '-' :: rest => (true, rest)
  | '+' :: rest => (false, rest)
  | rest => (false, rest)

/-- A whole number with an optional sign. -/
def decimal (cs : List Char) : Option Value :=
  -- The sign counts before the range is looked at.
  let signed := signOf cs
  (decimalDigits signed.2).bind fun digits =>
    let value : Int := numberIn 10 digits
    ranged (if signed.1 then -value else value)

/-- A text up to a character and what follows that character, when it occurs. -/
def splitAtChar (marks : List Char) (cs : List Char) : List Char × Option (List Char) :=
  -- The character itself belongs to neither part.
  match cs.dropWhile fun c => !marks.contains c with
  | [] => (cs, none)
  | _ :: rest => (cs.takeWhile fun c => !marks.contains c, some rest)

/-- The digits behind the letter of an exponent. -/
def isExponent (cs : List Char) : Bool :=
  -- Zeros in front are accepted here.
  (digitsOf Char.isDigit (signOf cs).2).isSome

/-- A number with a fraction or an exponent. -/
def isFloat (cs : List Char) : Bool :=
  -- Infinity and the missing number are written as words.
  let unsigned := (signOf cs).2
  let word := String.ofList unsigned
  if word == "inf" || word == "nan" then true
  else
    let (mantissa, exponent) := splitAtChar ['e', 'E'] unsigned
    let (whole, fraction) := splitAtChar ['.'] mantissa
    (decimalDigits whole).isSome && (fraction.isSome || exponent.isSome) &&
      fraction.all (fun digits => (digitsOf Char.isDigit digits).isSome) && exponent.all isExponent

/-- The number that exactly `width` decimal digits at the start of a text make up, and the rest. -/
def fixedDigits (width : Nat) (cs : List Char) : Option (Nat × List Char) :=
  -- Fewer digits are refused.
  let digits := cs.take width
  if digits.length = width && digits.all Char.isDigit then some (numberIn 10 digits, cs.drop width)
  else none

/-- A character at the start of a text is dropped. -/
def dropChar (marks : List Char) (cs : List Char) : Option (List Char) :=
  -- Anything else is refused.
  match cs with
  | c :: rest => if marks.contains c then some rest else none
  | [] => none

/-- A year that has a day more. -/
def isLeapYear (year : Nat) : Bool :=
  -- Full centuries count only every fourth time.
  year % 4 == 0 && (year % 100 != 0 || year % 400 == 0)

/-- How many days a month has. -/
def daysIn (year month : Nat) : Nat :=
  -- Only one month depends on the year.
  if month == 2 then (if isLeapYear year then 29 else 28)
  else if [4, 6, 9, 11].contains month then 30
  else 31

/-- What follows a date at the start of a text. -/
def dateRest (cs : List Char) : Option (List Char) := do
  -- The day must exist.
  let (year, rest) ← fixedDigits 4 cs
  let (month, rest) ← fixedDigits 2 (← dropChar ['-'] rest)
  let (day, rest) ← fixedDigits 2 (← dropChar ['-'] rest)
  if 1 ≤ month && month ≤ 12 && 1 ≤ day && day ≤ daysIn year month then some rest else none

/-- What follows a time at the start of a text. -/
def timeRest (cs : List Char) : Option (List Char) := do
  -- A second may be a leap second and may have a fraction.
  let (hour, rest) ← fixedDigits 2 cs
  let (minute, rest) ← fixedDigits 2 (← dropChar [':'] rest)
  let (second, rest) ← fixedDigits 2 (← dropChar [':'] rest)
  if hour ≤ 23 && minute ≤ 59 && second ≤ 60 then
    match rest with
    | '.' :: fraction =>
      if (fraction.takeWhile Char.isDigit).isEmpty then none
      else some (fraction.dropWhile Char.isDigit)
    | rest => some rest
  else none

/-- A distance from universal time, or nothing at all. -/
def isOffset (cs : List Char) : Bool :=
  -- A letter stands for no distance.
  match cs with
  | [] | ['Z'] | ['z'] => true
  | sign :: rest =>
    (sign == '+' || sign == '-') && ((do
      let (hour, rest) ← fixedDigits 2 rest
      let (minute, rest) ← fixedDigits 2 (← dropChar [':'] rest)
      if hour ≤ 23 && minute ≤ 59 && rest.isEmpty then some () else none).isSome)

/-- A date, a time or both. -/
def isMoment (cs : List Char) : Bool :=
  -- Only a date with a time may have an offset.
  match dateRest cs with
  | some [] => true
  | some (mark :: rest) =>
    ['T', 't', ' '].contains mark && (timeRest rest).any isOffset
  | none => (timeRest cs).any List.isEmpty

/-- The value of a number or of a moment. -/
def plainValue (cs : List Char) : Option Value :=
  -- The bases other than ten are marked by a letter behind a zero.
  match cs with
  | '0' :: 'x' :: digits => based 16 digits
  | '0' :: 'o' :: digits => based 8 digits
  | '0' :: 'b' :: digits => based 2 digits
  | cs =>
    match decimal cs with
    | some value => some value
    | none => if isFloat cs then some .float else if isMoment cs then some .moment else none

end SourceOutline.Toml
