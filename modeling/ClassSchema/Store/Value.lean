/-
Values: what instances hold.

* `Value` — leaves, collections and instances of classes;
* `Value.same` — equality of values;
* `Value.toJson` — a value as a JSON tree;
* `Value.ofJson` — the value of a JSON tree.

A collection is written as an array if its keys are the indexes from zero on, in order, and as an
object otherwise; an instance is written as what it holds.
-/
import ClassSchema.Class
import ClassSchema.Store.Collection
import ClassSchema.Store.Error

namespace ClassSchema

/-- What instances hold. -/
inductive Value where
  | null
  | bool (b : Bool)
  | int (n : Int64)
  | float (x : Float)
  | str (s : String)
  | list (c : Collection Value)
  /-- An instance of a class. -/
  | object (owner : Class) (bag : Collection Value)

namespace Value

instance : Inhabited Value := ⟨null⟩

/-- What sort of value this is. -/
def kind : Value → ValueKind
  | null => .null
  | bool _ => .boolean
  | int _ => .int
  | float _ => .float
  | str _ => .string
  | list _ => .array
  | object _ _ => .instance_

/-- May the value stand where arrays are expected? -/
def fitsArray (v : Value) : Bool := v.kind = .array || v.kind = .null

/-! ### Equality -/

mutual

/-- Are two values equal?  An integer never equals a floating-point number, and NaN equals nothing.
Instances are equal if they hold the same and their classes have one qualified name. -/
def same : Value → Value → Bool
  | null, null => true
  | bool a, bool b => a == b
  | int m, int n => m == n
  | float x, float y => x == y
  | str s, str t => s == t
  | list c, list d => sameCollection c d
  | object c bag, object d bag' => c.qualified == d.qualified && sameCollection bag bag'
  | _, _ => false

/-- Have two collections equal entries, in any order, and the same next index? -/
def sameCollection : Collection Value → Collection Value → Bool
  | ⟨entries, next⟩, d =>
    entries.length == d.entries.length && sameEntries entries d.entries && next == d.next

/-- Is every entry equal to the one that has its key among the others? -/
def sameEntries : List (Key × Value) → List (Key × Value) → Bool
  | [], _ => true
  | (key, v) :: rest, others =>
    match Entries.get? key others with
    | some w => same v w && sameEntries rest others
    | none => false

end

/-! ### JSON trees -/

/-- Entries as an array or an object.  Of two keys that print alike, the first gives the position
and the last the value. -/
def jsonOfEntries (entries : List (Key × Json)) : Json :=
  if isRun 0 (Entries.keys entries) then .arr (entries.map Prod.snd)
  else .obj (Entries.ofList (entries.map fun (key, j) => (key.text, j)))

mutual

/-- The value as a JSON tree; a number that is not finite becomes null. -/
def toJson : Value → Json
  | null => .null
  | bool b => .bool b
  | int n => .int n.toInt
  | float x => if x.isFinite then .num (.float x) else .null
  | str s => .str s
  | list c => collectionToJson c
  | object _ bag => collectionToJson bag

/-- The collection as a JSON tree. -/
def collectionToJson : Collection Value → Json
  | ⟨entries, _⟩ => jsonOfEntries (entriesToJson entries)

/-- The entries, the value of each as a JSON tree. -/
def entriesToJson : List (Key × Value) → List (Key × Json)
  | [] => []
  | (key, v) :: rest => (key, toJson v) :: entriesToJson rest

end

/-- The value of a number; integers that do not fit a signed 64-bit word become floating-point
numbers. -/
def ofNumber : Number → Value
  | .int n =>
    if Int64.minValue.toInt ≤ n ∧ n ≤ Int64.maxValue.toInt then int (Int64.ofInt n)
    else float (Float.ofInt n)
  | .float x => float x

mutual

/-- The value of a JSON tree. -/
def ofJson : Json → Value
  | .null => null
  | .bool b => bool b
  | .num n => ofNumber n
  | .str s => str s
  | .arr items => list (Collection.empty.pushAll (ofItems items))
  | .obj members => list (Collection.empty.insertAll (ofMembers members))

/-- The values of items. -/
def ofItems : List Json → List Value
  | [] => []
  | j :: rest => ofJson j :: ofItems rest

/-- The values of members, under the keys that theirs write. -/
def ofMembers : List (String × Json) → List (Key × Value)
  | [] => []
  | (key, j) :: rest => (Key.parse key, ofJson j) :: ofMembers rest

end

end Value
end ClassSchema
