/-
JSON texts taken apart, before their numbers and texts are looked at.

* `Raw` — a tree as it is written: literals of numbers, and texts that may not be texts;
* `Raw.value?` — the tree that is meant, if there is one.

Not everything that is written well means something: a number may be out of range, escaped
surrogates may stand alone, and brackets may stand too deep.  A reader who passes over a part of a
text does not notice.
-/
import ClassSchema.Json.Literal

namespace ClassSchema.Json

/-- A JSON tree as it is written. -/
inductive Raw where
  | null
  | bool (b : Bool)
  | num (literal : Literal)
  /-- A text between quotes; nothing where escaped surrogates do not pair up. -/
  | str (s : Option String)
  | arr (items : List Raw)
  | obj (members : List (Option String × Raw))

namespace Raw

mutual

/-- The tree that is meant, in which brackets may stand `depth` deep. -/
def value? (depth : Nat) : Raw → Option Json
  | null => some .null
  | bool b => some (.bool b)
  | num literal => literal.value?.map .num
  | str s => s.map .str
  | arr items =>
    match depth with
    | 0 => none
    | depth + 1 => (itemValues? depth items).map .arr
  | obj members =>
    match depth with
    | 0 => none
    | depth + 1 => (memberValues? depth members).map .obj

/-- The trees that items mean. -/
def itemValues? (depth : Nat) : List Raw → Option (List Json)
  | [] => some []
  | r :: rest => do
    let j ← value? depth r
    let js ← itemValues? depth rest
    pure (j :: js)

/-- The members that are meant. -/
def memberValues? (depth : Nat) : List (Option String × Raw) → Option (List (String × Json))
  | [] => some []
  | (key, r) :: rest => do
    let key ← key
    let j ← value? depth r
    let members ← memberValues? depth rest
    pure ((key, j) :: members)

end

end Raw
end ClassSchema.Json
