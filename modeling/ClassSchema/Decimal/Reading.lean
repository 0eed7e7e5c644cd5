/-
Decimal texts as floating-point numbers.

* `nearest` — the number nearest to `digits * 10 ^ exponent`;
* `float?` — the number that a text writes.

A text is a sign, if any, and then either a word for infinity or not-a-number, in any case, or
digits with at most one point among or beside them and an exponent, if any.
-/
import ClassSchema.Decimal.Numeral
import ClassSchema.Decimal.Shortest

namespace ClassSchema.Decimal

/-- Positive infinity. -/
def infinity : Float := 1.0 / 0.0

/-- Not a number. -/
def notANumber : Float := 0.0 / 0.0

/-- The floating-point number nearest to `digits * 10 ^ exponent`, ties to even.  Decimals too
large for any power of ten that matters are settled by their magnitude. -/
def nearest (digits : Nat) (exponent : Int) : Float :=
  if digits = 0 then 0.0
  else
    let lead := exponent + digitCount digits
    if lead > 400 then infinity
    else if lead < -400 then 0.0
    else Float.ofScientific digits (exponent < 0) exponent.natAbs

/-- Splits off the longest run of digits at the front. -/
def spanDigits (s : List Char) : List Char × List Char :=
  (s.takeWhile Char.isDigit, s.dropWhile Char.isDigit)

/-- A sign, if any, as `true` for minus, and what follows it. -/
def takeSign : List Char → Bool × List Char
  | '-' :: s => (true, s)
  | '+' :: s => (false, s)
  | s => (false, s)

/-- The exponent that the whole of `s` writes; an empty text writes zero. -/
def exponent? : List Char → Option Int
  | [] => some 0
  | c :: s =>
    if c = 'e' ∨ c = 'E' then
      let (negative, digits) := takeSign s
      (numeral? 10 digits).map fun n => if negative then -(n : Int) else n
    else none

/-- The number that an unsigned text of digits, point and exponent writes. -/
def unsigned? (s : List Char) : Option Float :=
  let (whole, afterWhole) := spanDigits s
  let (fraction, rest) :=
    match afterWhole with
    | '.' :: t => spanDigits t
    | t => ([], t)
  if whole.isEmpty && fraction.isEmpty then none
  else
    match exponent? rest with
    | some e => some (nearest (Nat.ofDigitChars 10 (whole ++ fraction) 0) (e - fraction.length))
    | none => none

/-- The number that a text writes. -/
def float? (s : List Char) : Option Float :=
  let (negative, rest) := takeSign s
  let word := String.ofList (rest.map Char.toLower)
  let magnitude :=
    if word = "inf" ∨ word = "infinity" then some infinity
    else if word = "nan" then some notANumber
    else unsigned? rest
  magnitude.map fun x => if negative then -x else x

end ClassSchema.Decimal
