/-
What scalars stand for.

* `ofPlain?` — a scalar without quotes and without a tag;
* `ofTagged?` — a scalar with one of the tags for nulls, booleans and numbers.

A plain scalar is null, a boolean, an integer or a floating-point number if it is written like one,
and otherwise a text.  Digits with a needless leading zero are a text, as is a decimal that is too
large for a finite number; an integer that fits 128 bits but not 64 is refused.
-/
import ClassSchema.Yaml.Token
import ClassSchema.Yaml.Tree
import ClassSchema.Decimal.Reading

namespace ClassSchema.Yaml

/-- Is this a way to write null? -/
def isNullWord (s : String) : Bool := s = "null" || s = "Null" || s = "NULL" || s = "~"

/-- The boolean that a word writes. -/
def boolean? (s : String) : Option Bool :=
  if s = "true" ∨ s = "True" ∨ s = "TRUE" then some true
  else if s = "false" ∨ s = "False" ∨ s = "FALSE" then some false
  else none

/-- Does the text, apart from a sign, consist of digits after a leading zero? -/
def hasNeedlessZero (s : List Char) : Bool :=
  match (Decimal.takeSign s).2 with
  | '0' :: c :: rest => (c :: rest).all Char.isDigit
  | _ => false

/-- The natural number that an unsigned text writes: hexadecimal digits behind `0x`, octal digits
behind `0o`, binary digits behind `0b`, or decimal digits. -/
def natural? : List Char → Option Nat
  | '0' :: 'x' :: s => Decimal.numeral? 16 s
  | '0' :: 'o' :: s => Decimal.numeral? 8 s
  | '0' :: 'b' :: s => Decimal.numeral? 2 s
  | s => if hasNeedlessZero s then none else Decimal.numeral? 10 s

/-- The integer that a text writes, if it fits 128 bits. -/
def integer? (s : List Char) : Option Int :=
  let (negative, rest) := Decimal.takeSign s
  match natural? rest with
  | some n =>
    if negative then (if n ≤ Nat.pow 2 127 then some (-n) else none)
    else if n < Nat.pow 2 128 then some n
    else none
  | none => none

/-- The tree of an integer, if it fits 64 bits. -/
def ofInteger? (n : Int) : Option Tree :=
  if Int64.minValue.toInt ≤ n ∧ n < UInt64.size then some (.num (.int n)) else none

/-- The floating-point number that a text writes: a word for infinity or NaN, or a decimal that is
finite. -/
def float? (s : List Char) : Option Float :=
  let unsigned := match s with | '+' :: t => t | t => t
  let word := String.ofList unsigned
  let signed := String.ofList s
  if s.head? = some '+' ∧ (unsigned.head? = some '+' ∨ unsigned.head? = some '-') then none
  else if word = ".inf" ∨ word = ".Inf" ∨ word = ".INF" then some Decimal.infinity
  else if signed = "-.inf" ∨ signed = "-.Inf" ∨ signed = "-.INF" then some (-Decimal.infinity)
  else if signed = ".nan" ∨ signed = ".NaN" ∨ signed = ".NAN" then some Decimal.notANumber
  else (Decimal.float? unsigned).filter Float.isFinite

/-- What a plain scalar stands for. -/
def ofPlain? (s : String) : Option Tree :=
  if s.isEmpty || isNullWord s then some .null
  else
    match boolean? s with
    | some b => some (.bool b)
    | none =>
      match integer? s.toList with
      | some n => ofInteger? n
      | none =>
        if hasNeedlessZero s.toList then some (.str s)
        else
          match float? s.toList with
          | some x => some (.num (.float x))
          | none => some (.str s)

/-- What a scalar with a tag that is not local to the text stands for.  Other tags than those for
nulls, booleans and numbers leave a text. -/
def ofTagged? (tag : Tag) (s : String) : Option Tree :=
  if tag = Tag.core "bool" then (boolean? s).map .bool
  else if tag = Tag.core "int" then (integer? s.toList).bind ofInteger?
  else if tag = Tag.core "float" then (float? s.toList).map fun x => .num (.float x)
  else if tag = Tag.core "null" then (if isNullWord s then some .null else none)
  else some (.str s)

end ClassSchema.Yaml
