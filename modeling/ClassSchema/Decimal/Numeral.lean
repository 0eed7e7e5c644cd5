/-
Natural numbers written in a base from 2 to 16.

* `digitValue?` — what one digit is worth;
* `numeral?` — what a non-empty run of digits is worth.

Signs, base markers and limits on the size belong to whoever reads the numeral.
-/
namespace ClassSchema.Decimal

/-- The worth of a digit: decimal digits, then the letters `a` to `f` in either case. -/
def digitValue? (base : Nat) (c : Char) : Option Nat :=
  let n :=
    if '0' ≤ c ∧ c ≤ '9' then c.toNat - '0'.toNat
    else if 'a' ≤ c ∧ c ≤ 'f' then c.toNat - 'a'.toNat + 10
    else if 'A' ≤ c ∧ c ≤ 'F' then c.toNat - 'A'.toNat + 10
    else base
  if n < base then some n else none

/-- The worth of digits that follow digits worth `acc`. -/
def numeralAfter? (base acc : Nat) : List Char → Option Nat
  | [] => some acc
  | c :: s =>
    match digitValue? base c with
    | some d => numeralAfter? base (base * acc + d) s
    | none => none

/-- The worth of a numeral, which has at least one digit. -/
def numeral? (base : Nat) (s : List Char) : Option Nat :=
  if s.isEmpty then none else numeralAfter? base 0 s

end ClassSchema.Decimal
