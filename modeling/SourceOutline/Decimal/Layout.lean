import SourceOutline.Decimal.Shortest

/-! How a floating point number is laid out once its digits are chosen. -/

namespace SourceOutline.Decimal

/-- The powers of ten between which a number is written positionally. -/
structure Layout where
  /-- The smallest leading power written positionally. -/
  positionalFrom : Int
  /-- The largest leading power written positionally. -/
  positionalTo : Int

/-- Digits around a point, with a zero wherever one side would be empty. -/
def positional (digits : List Char) (exponent : Int) : List Char :=
  -- A nonnegative exponent adds zeros; otherwise the point falls inside or before the digits.
  if 0 ≤ exponent then digits ++ List.replicate exponent.toNat '0' ++ ['.', '0']
  else
    let behind := (-exponent).toNat
    if behind < digits.length then
      digits.take (digits.length - behind) ++ ['.'] ++ digits.drop (digits.length - behind)
    else ['0', '.'] ++ List.replicate (behind - digits.length) '0' ++ digits

/-- One digit before the point, the others behind it, and a signed power of ten. -/
def scientific (digits : List Char) (power : Int) : List Char :=
  -- A single digit stands without a point.
  let head := digits.take 1
  let tail := if digits.length ≤ 1 then [] else '.' :: digits.drop 1
  let sign := if power < 0 then '-' else '+'
  head ++ tail ++ ['e', sign] ++ (Nat.toDigits 10 power.natAbs)

/-- The digits of a decimal in the given layout. -/
def Layout.write (layout : Layout) (d : Scaled) : List Char :=
  -- The leading power decides between the two forms.
  let digits := Nat.toDigits 10 d.digits
  let power := d.exponent + digits.length - 1
  if layout.positionalFrom ≤ power && power ≤ layout.positionalTo then
    positional digits d.exponent
  else scientific digits power

/-- A finite double with the fewest digits that read back, its sign kept also on zero. -/
def Layout.writeFloat (layout : Layout) (x : Float) : String :=
  -- Zero has no leading power and is written as a single zero on each side of the point.
  let bits := x.toBits
  let sign := if bits >>> 63 = 1 then ['-'] else []
  let magnitude := Binary.ofBits bits
  let digits := if magnitude.mantissa = 0 then ['0', '.', '0'] else layout.write magnitude.shortest
  String.ofList (sign ++ digits)

end SourceOutline.Decimal
