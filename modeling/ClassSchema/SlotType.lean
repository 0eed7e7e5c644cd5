/-
What a property may hold.

* `Primitive` — the built-in kinds;
* `ClassRef` — a declared type under its schema name and its qualified class name;
* `SlotType` — built-in kinds, typed arrays and declared types;
* `SlotType.codeName` — a type as generated code writes it, where every array is `array`;
* `SlotType.docName` — a type as documents write it, where an array of fields is `Field[]`.

A class name is qualified by a namespace and a separator; an empty namespace says nothing.
-/
import ClassSchema.Ident

namespace ClassSchema

/-- The built-in kinds. -/
inductive Primitive where
  | string
  | int
  | float
  | boolean
  /-- Arrays whose elements may be anything. -/
  | array
deriving DecidableEq

namespace Primitive

/-- The word for a kind. -/
def spelling : Primitive → String
  | string => "string"
  | int => "int"
  | float => "float"
  | boolean => "boolean"
  | array => "array"

/-- The kind that a word is for. -/
def ofSpelling? (s : String) : Option Primitive :=
  if s = "string" then some string
  else if s = "int" then some int
  else if s = "float" then some float
  else if s = "boolean" then some boolean
  else if s = "array" then some array
  else none

end Primitive

/-- A declared type. -/
structure ClassRef where
  /-- The name in the schema. -/
  name : Ident
  /-- The class name behind its namespace. -/
  qualified : String
deriving DecidableEq

/-- Where class names live. -/
structure Namespace where
  path : Option String
  /-- What stands between the path and a class name. -/
  separator : String
deriving DecidableEq

namespace Namespace

/-- The qualified class name of a type. -/
def qualify (ns : Namespace) (x : Ident) : String :=
  match ns.path with
  | some path => if path.isEmpty then x.className else path ++ ns.separator ++ x.className
  | none => x.className

/-- A type under its qualified class name. -/
def refer (ns : Namespace) (x : Ident) : ClassRef := ⟨x, ns.qualify x⟩

end Namespace

/-- What a property may hold. -/
inductive SlotType where
  | primitive (p : Primitive)
  | arrayOf (element : SlotType)
  | reference (r : ClassRef)
deriving DecidableEq

namespace SlotType

/-- Does the type hold arrays? -/
def isArray : SlotType → Bool
  | primitive p => p = .array
  | arrayOf _ => true
  | reference _ => false

/-- The type of the elements, where it is declared. -/
def elementType? : SlotType → Option SlotType
  | arrayOf t => some t
  | _ => none

/-- The type that an element put into the slot has: the declared type of elements, or else the
type itself. -/
def element (t : SlotType) : SlotType := t.elementType?.getD t

/-- The name that accessors are named after. -/
def elementName : SlotType → String
  | primitive p => p.spelling
  | arrayOf _ => Primitive.array.spelling
  | reference r => r.name.text

/-- The type as generated code writes it. -/
def codeName : SlotType → String
  | primitive p => p.spelling
  | arrayOf _ => Primitive.array.spelling
  | reference r => r.qualified

/-- The type as documents write it. -/
def docName : SlotType → String
  | arrayOf t => t.docName ++ "[]"
  | t => t.codeName

/-- What follows the verb in the name of an accessor. -/
def accessorSuffix (t : SlotType) : String := pascalCase t.elementName

end SlotType
end ClassSchema
