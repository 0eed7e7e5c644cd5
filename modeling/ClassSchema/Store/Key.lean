/-
Keys of collections.

* `Key` — an index or a name;
* `Key.parse` — the key that a text writes: an index if the text is how an index is printed;
* `Key.text` — the text that prints a key.

Indexes are unsigned 64-bit words.  A name that was not read from a text may be spelled like an
index; it is a name all the same.
-/
import ClassSchema.Decimal.Numeral

namespace ClassSchema

/-- A key of a collection. -/
inductive Key where
  | index (i : UInt64)
  | name (s : String)
deriving DecidableEq

namespace Key

/-- The text that prints a key. -/
def text : Key → String
  | index i => toString i.toNat
  | name s => s

/-- The key that a text writes. -/
def parse (s : String) : Key :=
  match Decimal.numeral? 10 s.toList with
  | some n => if n < UInt64.size ∧ toString n = s then index n.toUInt64 else name s
  | none => name s

end Key
end ClassSchema
