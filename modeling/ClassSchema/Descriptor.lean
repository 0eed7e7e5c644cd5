/-
Descriptors: types of a schema once their tokens are resolved.

* `Descriptor` — a type with its parent, its own properties and its own wildcard;
* `Signature` — an accessor with the type of what it takes or gives;
* `Descriptor.signatures` — the accessors that the type itself brings along;
* `Descriptor.toJson` — a descriptor as a JSON tree.

What a type inherits is not repeated in its descriptor.
-/
import ClassSchema.Accessor
import ClassSchema.SlotType.Codec

namespace ClassSchema

/-- A type of a schema. -/
structure Descriptor where
  name : Ident
  /-- The path of the namespace of the class. -/
  namespacePath : Option String
  /-- The class name behind its namespace. -/
  qualified : String
  parent : Option ClassRef
  /-- The properties that the type declares itself. -/
  properties : List (Ident × SlotType)
  /-- What properties that are not declared may hold, if the type says so itself. -/
  wildcard : Option SlotType

/-- An accessor with the type of what it takes or gives. -/
structure Signature where
  accessor : Accessor
  valueType : SlotType

namespace Descriptor

/-- The class name of the type. -/
def className (d : Descriptor) : String := d.name.className

/-- The accessors of a property: one to read it, one to write it, and for a typed array one that
takes an element. -/
def propertySignatures : Ident × SlotType → List Signature
  | (x, t) =>
    [⟨⟨.get, x.text⟩, t⟩, ⟨⟨.set, x.text⟩, t⟩] ++
      t.elementType?.toList.map fun element => ⟨⟨.add, x.text⟩, element⟩

/-- The accessor of a wildcard, named after the elements. -/
def wildcardSignature (t : SlotType) : Signature := ⟨⟨.append, t.element.elementName⟩, t.element⟩

/-- The accessors that the type itself brings along. -/
def signatures (d : Descriptor) : List Signature :=
  d.properties.flatMap propertySignatures ++ d.wildcard.toList.map wildcardSignature

end Descriptor

/-- An accessor and its type as a JSON tree. -/
def Signature.toJson (s : Signature) : Json :=
  .obj [("name", .str s.accessor.name), ("kind", .str s.accessor.verb.word),
    ("target", .str s.accessor.target), ("value_type", s.valueType.toJson)]

/-- A tree, or null in its absence. -/
def Json.ofOption : Option Json → Json
  | some j => j
  | none => .null

/-- A descriptor as a JSON tree. -/
def Descriptor.toJson (d : Descriptor) : Json :=
  .obj [("name", .str d.name.text), ("namespace", .ofText? d.namespacePath),
    ("qualified_name", .str d.qualified),
    ("parent", .ofOption (d.parent.map ClassRef.toJson)),
    ("properties", .obj (d.properties.map fun (x, t) => (x.text, t.toJson))),
    ("wildcard", .ofOption (d.wildcard.map SlotType.toJson)),
    ("accessors", .arr (d.signatures.map Signature.toJson))]

end ClassSchema
