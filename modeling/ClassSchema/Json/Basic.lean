/-
JSON trees.

* `Number` — integers apart from floating-point numbers, since `1` and `1.0` are told apart;
* `Json` — trees whose objects keep the order of their members;
* `Json.collapse` — a tree in which no object repeats a key.

A number read from text is an integer that fits 64 bits, signed or unsigned, or a finite
floating-point number.
-/
import ClassSchema.Entries

namespace ClassSchema

/-- A number: an integer or a floating-point number. -/
inductive Number where
  | int (n : Int)
  | float (x : Float)

/-- A JSON tree. -/
inductive Json where
  | null
  | bool (b : Bool)
  | num (n : Number)
  | str (s : String)
  | arr (items : List Json)
  | obj (members : List (String × Json))

namespace Json

instance : Inhabited Json := ⟨null⟩

/-- The number of an integer. -/
def int (n : Int) : Json := num (.int n)

/-- The text, or null in its absence. -/
def ofText? : Option String → Json
  | some s => str s
  | none => null

mutual

/-- The tree with every repeated key left once: the first occurrence gives the position, the last
one the value. -/
def collapse : Json → Json
  | arr items => arr (collapseItems items)
  | obj members => obj (Entries.ofList (collapseMembers members))
  | j => j

/-- The items, each collapsed. -/
def collapseItems : List Json → List Json
  | [] => []
  | j :: rest => collapse j :: collapseItems rest

/-- The members, the value of each collapsed. -/
def collapseMembers : List (String × Json) → List (String × Json)
  | [] => []
  | (key, j) :: rest => (key, collapse j) :: collapseMembers rest

end

end Json
end ClassSchema
