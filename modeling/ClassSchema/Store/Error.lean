/-
Why the store refuses something.

* `ValueKind` — what sort of value there is;
* `StoreError` — all causes;
* `StoreError.message` — what a reader is told.

Classes appear under their qualified names, except where they are linked.
-/
import ClassSchema.SchemaError
import ClassSchema.SlotType

namespace ClassSchema

/-- What sort of value there is. -/
inductive ValueKind where
  | null
  | boolean
  | int
  | float
  | string
  | array
  | instance_
deriving DecidableEq

/-- The word for a sort of value. -/
def ValueKind.word : ValueKind → String
  | null => "null"
  | boolean => "boolean"
  | int => "int"
  | float => "float"
  | string => "string"
  | array => "array"
  | instance_ => "instance"

/-- Why the store refuses something. -/
inductive StoreError where
  /-- The property is neither explicit nor covered by a wildcard. -/
  | unknownProperty (owner property : String)
  /-- The value does not fit the type of the property. -/
  | typeMismatch (owner property : String) (expected : SlotType) (found : ValueKind)
  /-- The property does not hold arrays, so nothing can be added to it. -/
  | notArray (owner property : String) (declared : SlotType)
  | invalidAccessor (owner accessor : String)
  /-- The class has no wildcard. -/
  | notOpen (owner : String)
  /-- No index is left in a property, or in the instance itself if none is named. -/
  | indexExhausted (owner : String) (property : Option String)
  | unknownClass (name : String)
  /-- The parent of a type is not among the types to link. -/
  | missingParent (child parent : Ident)
  | schema (e : SchemaError)

/-- What a reader is told. -/
def StoreError.message : StoreError → String
  | unknownProperty owner property => owner ++ ": unknown property \"" ++ property ++ "\""
  | typeMismatch owner property expected found =>
    owner ++ "." ++ property ++ ": expected " ++ expected.docName ++ ", got " ++ found.word
  | notArray owner property declared =>
    owner ++ "." ++ property ++ ": cannot add to non-array type " ++ declared.docName
  | invalidAccessor owner accessor => owner ++ ": no accessor named \"" ++ accessor ++ "\""
  | notOpen owner => owner ++ " is not open: it declares no wildcard type"
  | indexExhausted owner property =>
    owner ++ ": no sequential index left in " ++ property.getD "instance bag"
  | unknownClass name => "unknown class \"" ++ name ++ "\""
  | missingParent child parent =>
    child.text ++ ": parent \"" ++ parent.text ++ "\" is not registered"
  | schema e => e.message

end ClassSchema
