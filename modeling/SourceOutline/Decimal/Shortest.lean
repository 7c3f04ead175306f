/-! The decimal with the fewest digits that reads back to a given binary number. -/

namespace SourceOutline.Decimal

/-- A finite number `mantissa * 2 ^ exponent`, with a mark where its lower neighbour is nearer. -/
structure Binary where
  /-- The whole number that is scaled. -/
  mantissa : Nat
  /-- The power of two it is scaled by. -/
  exponent : Int
  /-- The gap below is half the gap above. -/
  narrowBelow : Bool

/-- The number `digits * 10 ^ exponent`. -/
structure Scaled where
  /-- The whole number that is scaled. -/
  digits : Nat
  /-- The power of ten it is scaled by. -/
  exponent : Int

/-- The magnitude held by the bits of a finite double. -/
def Binary.ofBits (bits : UInt64) : Binary :=
  -- The smallest exponent is shared by the subnormal numbers, which have no hidden bit.
  let biased := ((bits >>> 52) &&& 0x7FF).toNat
  let fraction := (bits &&& 0xFFFFFFFFFFFFF).toNat
  if biased = 0 then ⟨fraction, -1074, false⟩
  else ⟨0x10000000000000 + fraction, (biased : Int) - 1075, fraction = 0 && biased > 1⟩

/-- The order of `a * 10 ^ i` and `b * 2 ^ j`. -/
def compareScaled (a : Nat) (i : Int) (b : Nat) (j : Int) : Ordering :=
  -- Both sides are multiplied by the negative powers, which leaves whole numbers.
  compare (a * Nat.pow 10 i.toNat * Nat.pow 2 (-j).toNat)
    (b * Nat.pow 2 j.toNat * Nat.pow 10 (-i).toNat)

/-- The decimal lies among the reals that round to the binary number. -/
def Binary.admits (x : Binary) (d : Scaled) : Bool :=
  -- The ends lie halfway to the neighbours and count exactly when the mantissa is even.
  let lower := if x.narrowBelow then 4 * x.mantissa - 1 else 4 * x.mantissa - 2
  let upper := 4 * x.mantissa + 2
  let even := x.mantissa % 2 = 0
  let fromLower := compareScaled d.digits d.exponent lower (x.exponent - 2)
  let fromUpper := compareScaled d.digits d.exponent upper (x.exponent - 2)
  (fromLower = .gt || (even && fromLower = .eq)) && (fromUpper = .lt || (even && fromUpper = .eq))

/-- The largest multiple of `10 ^ i` that does not exceed the number, in units of `10 ^ i`. -/
def Binary.floorAt (x : Binary) (i : Int) : Nat :=
  -- Negative powers move to the other side of the division.
  x.mantissa * Nat.pow 2 x.exponent.toNat * Nat.pow 10 (-i).toNat /
    (Nat.pow 2 (-x.exponent).toNat * Nat.pow 10 i.toNat)

/-- How many digits stand left of the decimal point; not positive below one tenth. -/
def Binary.scale (x : Binary) : Int :=
  -- Shifted by four hundred places every positive double exceeds one.
  ((Nat.toDigits 10 (x.floorAt (-400))).length : Int) - 400

/-- The nearer of the two neighbours on a grid that reads back, when one does. -/
def Binary.onGrid (x : Binary) (i : Int) : Option Scaled :=
  -- An exact tie between the neighbours goes to the even one.
  let down : Scaled := ⟨x.floorAt i, i⟩
  let up : Scaled := ⟨x.floorAt i + 1, i⟩
  match x.admits down, x.admits up with
  | false, false => none
  | true, false => some down
  | false, true => some up
  | true, true =>
    match compareScaled (2 * down.digits + 1) i (2 * x.mantissa) x.exponent with
    | .gt => some down
    | .lt => some up
    | .eq => if down.digits % 2 = 0 then some down else some up

/-- Trailing zeros of the digits move into the exponent, at most `steps` of them. -/
def Scaled.strip : Nat → Scaled → Scaled
  | 0, d => d
  | steps + 1, d =>
    -- Zero has no last digit to keep.
    if d.digits ≠ 0 && d.digits % 10 = 0 then Scaled.strip steps ⟨d.digits / 10, d.exponent + 1⟩
    else d

/-- The first grid on which the number reads back, from the coarsest on. -/
def Binary.shortest (x : Binary) : Scaled :=
  -- Seventeen digits identify every double, so the grids tried always hold an answer.
  let found := (List.range 17).findSome? fun (n : Nat) => x.onGrid (x.scale - ((n : Int) + 1))
  (found.getD ⟨x.floorAt (x.scale - 17), x.scale - 17⟩).strip 18

end SourceOutline.Decimal
