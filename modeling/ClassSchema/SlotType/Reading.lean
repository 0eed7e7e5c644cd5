/-
Types of slots as JSON texts.

* `SlotType.ofRaw?` — the type that a tree writes as it stands in a text;
* `SlotType.parse?` — the type that a text writes.

A text is read from left to right.  Where `kind` stands before `of`, what `of` holds is read as the
type in the place where it stands; members that say nothing are passed over, and may hold anything
that is written well.  Where `of` comes first, what it holds is kept as a tree until the kind is
known, so all of it has to mean something.
-/
import ClassSchema.Json.Parser
import ClassSchema.SlotType.Codec

namespace ClassSchema

namespace Json.Raw

/-- A text. -/
def text? : Raw → Option String
  | str s => s
  | _ => none

/-- A word that needs no more detail; as the key of an object it stands one bracket deeper. -/
def word? (depth : Nat) : Raw → Option String
  | str s => s
  | obj [(key, null)] => if depth = 0 then none else key
  | _ => none

/-- The members, if all their keys are texts. -/
def keyed? (members : List (Option String × Raw)) : Option (List (String × Raw)) :=
  members.mapM fun (key, r) => key.map fun key => (key, r)

end Json.Raw

open Json (Raw)

/-- The declared type that a name and a qualified name write. -/
def ClassRef.ofTexts? (name qualified : Raw) : Option ClassRef := do
  let x ← (← name.text?) |> Ident.ofText?
  pure ⟨x, ← qualified.text?⟩

/-- The declared type that a tree writes, in which brackets may stand `depth` deep. -/
def ClassRef.ofRaw? (depth : Nat) (r : Raw) : Option ClassRef :=
  if depth = 0 then none
  else
    match r with
    | .arr [name, qualified] => ofTexts? name qualified
    | .obj members => do
      let members ← Raw.keyed? members
      ofTexts? (← Entries.only? "name" members) (← Entries.only? "qualified" members)
    | _ => none

namespace SlotType

/-- The type of a sort that a tree writes, given how the types of elements are read. -/
def ofRawContent? (depth : Nat) (element? : Raw → Option SlotType) (content : Raw) :
    Shape → Option SlotType
  | .primitive => ((content.word? depth).bind Primitive.ofSpelling?).map primitive
  | .arrayOf => (element? content).map arrayOf
  | .reference => (ClassRef.ofRaw? depth content).map reference

/-- The type that a tree writes, in which brackets may stand `depth` deep. -/
def ofRaw? (depth : Nat) (r : Raw) : Option SlotType :=
  match depth, r with
  | depth + 1, .arr [first, content] => do
    let shape ← first.text?.bind Shape.ofWord?
    ofRawContent? depth (ofRaw? depth) content shape
  | depth + 1, .obj members => do
    let members ← Raw.keyed? members
    let shape ← ((← Entries.only? "kind" members).word? depth).bind Shape.ofWord?
    let content ← Entries.only? "of" members
    if contentFirst members then
      let j ← content.value? depth
      ofContent? .kept j (ofJson? j) shape
    else ofRawContent? depth (ofRaw? depth) content shape
  | _, _ => none

/-- The type that a text writes. -/
def parse? (s : String) : Option SlotType := (Raw.ofText? s).bind (ofRaw? Json.maxDepth)

end SlotType
end ClassSchema
