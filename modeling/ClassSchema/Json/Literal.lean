/-
Number literals of JSON texts.

* `Literal` — the parts of a literal: sign, whole digits, fraction and exponent;
* `Literal.value?` — the number that a literal stands for;
* `Literal.scan?` — the literal at the front of a text.

A literal without fraction and exponent is an integer where it fits 64 bits.  Every other one is a
floating-point number: the leading digits that fit an unsigned 64-bit word are read exactly, and
the result is scaled by a power of ten in floating-point arithmetic.  A literal too large for a
finite number stands for nothing; one too small stands for zero.
-/
import ClassSchema.Json.Basic
import ClassSchema.Decimal.Numeral

namespace ClassSchema.Json

/-- The parts of a number literal. -/
structure Literal where
  negative : Bool
  whole : List Char
  fraction : Option (List Char)
  exponent : Option Int

/-- Reads digits onto a significand as long as it fits an unsigned 64-bit word; the second part
counts the digits read. -/
def absorb (significand count : Nat) : List Char → Nat × Nat
  | [] => (significand, count)
  | c :: s =>
    let next := significand * 10 + (c.toNat - '0'.toNat)
    if next < UInt64.size then absorb next (count + 1) s else (significand, count)

/-- `x * 10 ^ exponent` in floating-point arithmetic, in at most `steps` steps of `10 ^ 308`; by
then a 64-bit significand has vanished.  Nothing if the result is infinite. -/
def scale (steps : Nat) (x : Float) (exponent : Int) : Option Float :=
  match steps with
  | 0 => some 0.0
  | steps + 1 =>
    if exponent.natAbs ≤ 308 then
      let power := Float.ofScientific 1 false exponent.natAbs
      if exponent < 0 then some (x / power)
      else if (x * power).isFinite then some (x * power) else none
    else if x == 0.0 then some x
    else if exponent < 0 then scale steps (x / 1e308) (exponent + 308)
    else none

/-- The floating-point number of a literal. -/
def Literal.float? (l : Literal) : Option Float :=
  let (high, kept) := absorb 0 0 l.whole
  let (significand, places) := absorb high 0 (l.fraction.getD [])
  let exponent := l.exponent.getD 0 + (l.whole.length - kept : Nat) - (places : Nat)
  (scale 4 (Float.ofNat significand) exponent).map fun x => if l.negative then -x else x

/-- The number that a literal stands for. -/
def Literal.value? (l : Literal) : Option Number :=
  let n := Nat.ofDigitChars 10 l.whole 0
  let integral := l.fraction.isNone && l.exponent.isNone
  if integral && !l.negative && n < UInt64.size then some (.int n)
  else if integral && l.negative && 0 < n && n ≤ Nat.pow 2 63 then some (.int (-n))
  else l.float?.map .float

/-- The digits at the front of a text, of which there is at least one, and what follows. -/
def digits? (s : List Char) : Option (List Char × List Char) :=
  let ds := s.takeWhile Char.isDigit
  if ds.isEmpty then none else some (ds, s.dropWhile Char.isDigit)

/-- The exponent at the front of a text, if there is one, and what follows. -/
def scanExponent? : List Char → Option (Option Int × List Char)
  | c :: s =>
    if c = 'e' ∨ c = 'E' then
      let (negative, rest) :=
        match s with
        | '-' :: t => (true, t)
        | '+' :: t => (false, t)
        | t => (false, t)
      (digits? rest).map fun (ds, rest) =>
        let n : Int := Nat.ofDigitChars 10 ds 0
        (some (if negative then -n else n), rest)
    else some (none, c :: s)
  | [] => some (none, [])

/-- The fraction at the front of a text, if there is one, and what follows. -/
def scanFraction? : List Char → Option (Option (List Char) × List Char)
  | '.' :: s => (digits? s).map fun (ds, rest) => (some ds, rest)
  | s => some (none, s)

/-- The literal at the front of a text, and what follows it. -/
def Literal.scan? (s : List Char) : Option (Literal × List Char) := do
  let (negative, unsigned) :=
    match s with
    | '-' :: t => (true, t)
    | t => (false, t)
  let (whole, rest) ← digits? unsigned
  if whole.head? = some '0' ∧ whole.length > 1 then none
  let (fraction, rest) ← scanFraction? rest
  let (exponent, rest) ← scanExponent? rest
  pure (⟨negative, whole, fraction, exponent⟩, rest)

end ClassSchema.Json
