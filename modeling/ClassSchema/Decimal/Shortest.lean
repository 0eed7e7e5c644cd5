/-
The fewest decimal digits that identify a binary floating-point number.

* `Scaled` — a decimal `digits * 10 ^ exponent`;
* `Binary` — a positive number `mantissa * 2 ^ exponent`, with the gap to the number below it;
* `Binary.readsBack` — does a decimal lie among the reals that round to the number?
* `Binary.shortest` — of the decimals with fewest digits that read back, the nearest.

All comparisons are between natural numbers, by cross-multiplication, so nothing is rounded on the
way.  Seventeen digits always suffice for 64-bit numbers; the search stops there.
-/
namespace ClassSchema.Decimal

/-- The decimal `digits * 10 ^ exponent`. -/
structure Scaled where
  digits : Nat
  exponent : Int
deriving Repr, DecidableEq

/-- A positive binary number `mantissa * 2 ^ exponent`. -/
structure Binary where
  mantissa : Nat
  exponent : Int
  /-- The number below is half as far away as the number above. -/
  narrow : Bool

/-- The number with the given bits, of which the sign is left out.  The bits are those of a finite
number: infinities and NaN are no such numbers. -/
def Binary.ofBits (bits : UInt64) : Binary :=
  let e := ((bits >>> 52) &&& 0x7FF).toNat
  let f := (bits &&& 0xFFFFFFFFFFFFF).toNat
  if e = 0 then ⟨f, -1074, false⟩ else ⟨Nat.pow 2 52 + f, e - 1075, f = 0 ∧ e > 1⟩

/-- Compares `a * 10 ^ i` with `n * 2 ^ j`. -/
def compareScaled (a : Nat) (i : Int) (n : Nat) (j : Int) : Ordering :=
  compare (a * Nat.pow 10 i.toNat * Nat.pow 2 (-j).toNat)
    (n * Nat.pow 2 j.toNat * Nat.pow 10 (-i).toNat)

/-- Does the decimal round to the number, to nearest and ties to even?  The ends of the interval
of such reals belong to it exactly when the mantissa is even. -/
def Binary.readsBack (x : Binary) (d : Scaled) : Bool :=
  let low := if x.narrow then 4 * x.mantissa - 1 else 4 * x.mantissa - 2
  let high := 4 * x.mantissa + 2
  let closed := x.mantissa % 2 = 0
  let atLow := compareScaled d.digits d.exponent low (x.exponent - 2)
  let atHigh := compareScaled d.digits d.exponent high (x.exponent - 2)
  (atLow == .gt || (closed && atLow == .eq)) && (atHigh == .lt || (closed && atHigh == .eq))

/-- The number as a fraction of two naturals. -/
def Binary.fraction (x : Binary) : Nat × Nat :=
  (x.mantissa * Nat.pow 2 x.exponent.toNat, Nat.pow 2 (-x.exponent).toNat)

/-- How many decimal digits a natural number has. -/
def digitCount (n : Nat) : Nat := (Nat.toDigits 10 n).length

/-- The least `k` with the number below `10 ^ k`. -/
def Binary.magnitude (x : Binary) : Int :=
  let (num, den) := x.fraction
  if den ≤ num then digitCount (num / den) else 1 - (digitCount ((den - 1) / num) : Int)

/-- The decimal on the grid `10 ^ exponent` that is nearest to the number among those of its two
neighbours that read back, the even one where both are equally near. -/
def Binary.onGrid (x : Binary) (exponent : Int) : Option Scaled :=
  let (num, den) := x.fraction
  let n := num * Nat.pow 10 (-exponent).toNat
  let d := den * Nat.pow 10 exponent.toNat
  let below : Scaled := ⟨n / d, exponent⟩
  let above : Scaled := ⟨n / d + 1, exponent⟩
  match x.readsBack below, x.readsBack above with
  | false, false => none
  | true, false => some below
  | false, true => some above
  | true, true =>
    match compare (2 * n) ((2 * (n / d) + 1) * d) with
    | .lt => some below
    | .gt => some above
    | .eq => some (if n / d % 2 = 0 then below else above)

/-- Moves trailing zeros of at most `bound` digits into the exponent. -/
def Scaled.stripZeros (bound : Nat) (d : Scaled) : Scaled :=
  match bound with
  | 0 => d
  | bound + 1 =>
    if d.digits ≠ 0 ∧ d.digits % 10 = 0 then
      Scaled.stripZeros bound ⟨d.digits / 10, d.exponent + 1⟩
    else d

/-- The nearest of the decimals with fewest digits that read back to the number. -/
def Binary.shortest (x : Binary) : Scaled :=
  let k := x.magnitude
  match (List.range 17).findSome? fun n => x.onGrid (k - (n + 1 : Nat)) with
  | some d => d.stripZeros 20
  | none =>
    -- the number itself, exactly; no 64-bit number comes here
    (Scaled.mk (x.mantissa * Nat.pow 2 x.exponent.toNat * Nat.pow 5 (-x.exponent).toNat)
      (-((-x.exponent).toNat : Int))).stripZeros 800

end ClassSchema.Decimal
