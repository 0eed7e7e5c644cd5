/-
Floating-point numbers as text.

* `Layout` — the decisions that a format leaves open;
* `Layout.render` — the text of a finite number under a layout.

The digits are the fewest that identify the number.  It is written positionally, with at least one
digit on either side of the point, when its leading digit stands between the layout's two limits,
and otherwise with one digit before the point and an exponent.
-/
import ClassSchema.Decimal.Shortest

namespace ClassSchema.Decimal

/-- How numbers are laid out. -/
structure Layout where
  /-- The least power of ten of a leading digit that is written positionally. -/
  plainFrom : Int
  /-- The greatest power of ten of a leading digit that is written positionally. -/
  plainTo : Int
  /-- Has a positive exponent a sign? -/
  plusSign : Bool

/-- The text of a decimal: its digits `ds`, of which the first is worth `10 ^ lead`. -/
def Layout.place (l : Layout) (ds : List Char) (lead : Int) : List Char :=
  if l.plainFrom ≤ lead ∧ lead ≤ l.plainTo then
    if lead < 0 then
      ['0', '.'] ++ List.replicate (-lead - 1).toNat '0' ++ ds
    else
      let whole := ds.take (lead.toNat + 1)
      let rest := ds.drop (lead.toNat + 1)
      whole ++ List.replicate (lead.toNat + 1 - whole.length) '0' ++ ['.'] ++
        (if rest.isEmpty then ['0'] else rest)
  else
    let mantissa :=
      match ds with
      | [d] => [d]
      | d :: rest => d :: '.' :: rest
      | [] => []
    let sign := if lead < 0 then ['-'] else if l.plusSign then ['+'] else []
    mantissa ++ ['e'] ++ sign ++ Nat.toDigits 10 lead.natAbs

/-- The text of a finite number. -/
def Layout.render (l : Layout) (x : Float) : String :=
  let bits := x.toBits
  let sign := if bits >>> 63 = 0 then [] else ['-']
  if bits <<< 1 = 0 then String.ofList (sign ++ ['0', '.', '0'])
  else
    let d := (Binary.ofBits bits).shortest
    let ds := Nat.toDigits 10 d.digits
    String.ofList (sign ++ l.place ds (d.exponent + ds.length - 1))

end ClassSchema.Decimal
