/-
Types of slots as JSON trees.

* `SlotType.toJson` — an object of two members: `kind` says which sort of type it is, and `of`
  holds the kind, the type of elements or the declared type;
* `SlotType.ofTree?` — the type that a tree writes, read in its place;
* `SlotType.ofJson?` — the type that a tree writes, read after it has been kept.

The readers are more generous than the writer.  Members may stand in any order and beside others
that say nothing, as long as none of the expected ones is repeated; a pair may stand for an object;
and a word that needs no more detail may be the key of an object whose only value is null.

Where `of` stands before `kind`, what it holds is kept until the kind is known.  Of what has been
kept more is taken: in a pair the sort of type may be a number, counted from zero, and a word may be
the key of an object whose only value is an empty object.
-/
import ClassSchema.Json.Basic
import ClassSchema.SlotType

namespace ClassSchema

namespace Json

/-- A word that needs no more detail, in a tree that has been kept. -/
def word? : Json → Option String
  | str s => some s
  | obj [(key, null)] => some key
  | obj [(key, obj [])] => some key
  | _ => none

/-- A word that needs no more detail, in a tree in its place. -/
def plainWord? : Json → Option String
  | str s => some s
  | obj [(key, null)] => some key
  | _ => none

/-- A text. -/
def text? : Json → Option String
  | str s => some s
  | _ => none

end Json

/-- A declared type as a JSON tree. -/
def ClassRef.toJson (r : ClassRef) : Json :=
  .obj [("name", .str r.name.text), ("qualified", .str r.qualified)]

/-- The declared type that a name and a qualified name write. -/
def ClassRef.ofParts? (name qualified : Json) : Option ClassRef := do
  let x ← (← name.text?) |> Ident.ofText?
  pure ⟨x, ← qualified.text?⟩

/-- The declared type that a tree writes. -/
def ClassRef.ofJson? : Json → Option ClassRef
  | .arr [name, qualified] => ofParts? name qualified
  | .obj members => do
    ofParts? (← Entries.only? "name" members) (← Entries.only? "qualified" members)
  | _ => none

namespace SlotType

/-- The type as a JSON tree. -/
def toJson : SlotType → Json
  | primitive p => .obj [("kind", .str "primitive"), ("of", .str p.spelling)]
  | arrayOf t => .obj [("kind", .str "array_of"), ("of", t.toJson)]
  | reference r => .obj [("kind", .str "reference"), ("of", r.toJson)]

/-- The sorts of types. -/
inductive Shape where
  | primitive
  | arrayOf
  | reference
deriving DecidableEq

/-- The sort of type that a word is for. -/
def Shape.ofWord? (s : String) : Option Shape :=
  if s = "primitive" then some primitive
  else if s = "array_of" then some arrayOf
  else if s = "reference" then some reference
  else none

/-- The sort of type that the first of a pair that has been kept is for: a word or a number. -/
def Shape.ofFirst? : Json → Option Shape
  | .str s => ofWord? s
  | .num (.int n) =>
    if n = 0 then some primitive
    else if n = 1 then some arrayOf
    else if n = 2 then some reference
    else none
  | _ => none

/-- Does `of` stand before `kind`? -/
def contentFirst {α : Type} (members : List (String × α)) : Bool :=
  (Entries.keys members).find? (fun key => key = "kind" || key = "of") = some "of"

/-- How a tree is read. -/
inductive Manner where
  /-- Where it stands, from left to right. -/
  | inPlace
  /-- After all of it has been kept, as its kind was not known when it was come across. -/
  | kept

namespace Manner

/-- A word that needs no more detail. -/
def word? : Manner → Json → Option String
  | inPlace, j => j.plainWord?
  | kept, j => j.word?

/-- The sort of type that the first of a pair is for. -/
def first? : Manner → Json → Option Shape
  | inPlace, j => j.text?.bind Shape.ofWord?
  | kept, j => Shape.ofFirst? j

/-- How the content among members is read. -/
def within : Manner → List (String × Json) → Manner
  | inPlace, members => if contentFirst members then kept else inPlace
  | kept, _ => kept

end Manner

/-- The type of a sort that a tree writes, given the type that it writes as a whole. -/
def ofContent? (how : Manner) (content : Json) (whole : Option SlotType) :
    Shape → Option SlotType
  | .primitive => ((how.word? content).bind Primitive.ofSpelling?).map primitive
  | .arrayOf => whole.map arrayOf
  | .reference => (ClassRef.ofJson? content).map reference

mutual

/-- The type that a tree writes. -/
def read? (how : Manner) : Json → Option SlotType
  | .arr items => readItems? how items
  | .obj members => do
    let shape ← (how.word? (← Entries.only? "kind" members)).bind Shape.ofWord?
    let content ← Entries.only? "of" members
    let how := how.within members
    ofContent? how content (readMembers? how members) shape
  | _ => none

/-- The type that a pair of a sort and what it holds writes. -/
def readItems? (how : Manner) : List Json → Option SlotType
  | [] => none
  | first :: rest => (how.first? first).bind fun shape => readLast? how shape rest

/-- The type that a sort and the only item left write. -/
def readLast? (how : Manner) (shape : Shape) : List Json → Option SlotType
  | [] => none
  | content :: rest =>
    if rest.isEmpty then ofContent? how content (read? how content) shape else none

/-- The type that the member named `of` writes. -/
def readMembers? (how : Manner) : List (String × Json) → Option SlotType
  | [] => none
  | (key, j) :: rest => if key = "of" then read? how j else readMembers? how rest

end

/-- The type that a tree writes, read in its place. -/
def ofTree? (j : Json) : Option SlotType := read? .inPlace j

/-- The type that a tree writes, read after all of it has been kept.  That takes all that is taken
in its place, and numbers for sorts of types and empty objects behind words besides. -/
def ofJson? (j : Json) : Option SlotType := read? .kept j

end SlotType
end ClassSchema
