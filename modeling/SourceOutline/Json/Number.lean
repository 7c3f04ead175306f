import SourceOutline.Json.Value

/-! Numbers as they are written in values, and the numbers they stand for. -/

namespace SourceOutline.Json

/-- The largest whole number that digits are gathered into. -/
def digitLimit : Nat := 0xFFFFFFFFFFFFFFFF

/-- Digits gathered into a whole number, and how many of them no longer fitted. -/
structure Gathered where
  /-- The number that the leading digits make up. -/
  value : Nat
  /-- How many digits were left out, the first that did not fit and all behind it. -/
  omitted : Nat

/-- The value of a decimal digit. -/
def digitValue (c : Char) : Nat :=
  -- The digits stand in order behind zero.
  c.toNat - '0'.toNat

/-- The digits behind a number join it as long as it stays within the limit. -/
def gather (start : Nat) : List Char → Gathered
  | [] => ⟨start, 0⟩
  | c :: rest =>
    -- Once a digit does not fit, none of the later ones counts.
    let next := start * 10 + digitValue c
    if next ≤ digitLimit then gather next rest else ⟨start, rest.length + 1⟩

/-- The parts of a written number. -/
structure NumberText where
  /-- A minus sign stands in front. -/
  negative : Bool
  /-- The digits before the point. -/
  whole : List Char
  /-- The digits behind the point, when there is one. -/
  fraction : Option (List Char)
  /-- The sign of the exponent, true for minus, and its digits, when there is one. -/
  exponent : Option (Bool × List Char)

/-- A power of ten as a double. -/
def tenTo (n : Nat) : Float :=
  -- The conversion from decimal rounds to the nearest double.
  Float.ofScientific 1 false n

/-- The largest power of ten that a double reaches. -/
def largestTen : Nat := 308

/-- A number divided by a power of ten that may lie beyond the largest one. -/
def divideByTen : Nat → Float → Nat → Float
  | 0, x, _ => x
  | steps + 1, x, power =>
    -- Zero stays zero, so a number that has vanished needs no further division.
    if power ≤ largestTen then x / tenTo power
    else if x == 0.0 then x
    else divideByTen steps (x / tenTo largestTen) (power - largestTen)

/-- The double nearest to `significand * 10 ^ exponent` up to the rounding of one step, unless it is
out of range. -/
def scaled (significand : Nat) (exponent : Int) : Option Float :=
  -- Three divisions by the largest power turn any significand into zero.
  let x := significand.toUInt64.toFloat
  if exponent < 0 then some (divideByTen 4 x exponent.natAbs)
  else if exponent.toNat ≤ largestTen then
    let product := x * tenTo exponent.toNat
    if product.isInf then none else some product
  else if x == 0.0 then some x else none

/-- The largest exponent that is taken at its value. -/
def exponentLimit : Nat := 0x7FFFFFFF

/-- The double that a significand, a power of ten and a written exponent stand for. -/
def withExponent (significand : Nat) (power : Int) : Option (Bool × List Char) → Option Float
  | none => scaled significand power
  | some (negative, digits) =>
    -- An exponent beyond the limit yields zero, unless it would raise a positive number.
    let shift := Nat.ofDigitChars 10 digits 0
    if shift ≤ exponentLimit then
      scaled significand (if negative then power - shift else power + shift)
    else if significand ≠ 0 && !negative then none
    else some 0.0

/-- The double that a written number stands for, its sign aside. -/
def NumberText.magnitude (text : NumberText) : Option Float :=
  -- Digits that no longer fit count as a power of ten before the point and not at all behind it.
  let whole := gather 0 text.whole
  match text.fraction with
  | none => withExponent whole.value whole.omitted text.exponent
  | some digits =>
    let all := gather whole.value digits
    let kept := digits.length - all.omitted
    withExponent all.value ((whole.omitted : Int) - kept) text.exponent

/-- The value of a written number. -/
def NumberText.value (text : NumberText) : Option Json :=
  -- A whole number that fits stays whole; zero with a sign does not count as one.
  let whole := gather 0 text.whole
  let plain := text.fraction.isNone && text.exponent.isNone && whole.omitted == 0
  if plain && !text.negative then some (.int whole.value)
  else if plain && whole.value ≠ 0 && whole.value ≤ 0x8000000000000000 then some (.int (-whole.value))
  else text.magnitude.map fun x => .float (if text.negative then -x else x)

end SourceOutline.Json
