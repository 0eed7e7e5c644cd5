/-
Manifests: what a generator of classes needs to know about a type.

* `SlotType.render` — a type as documents or as generated code write it;
* `Descriptor.manifest` — the manifest of a type as a JSON tree.
-/
import ClassSchema.Descriptor

namespace ClassSchema

/-- The type as documents or as generated code write it. -/
def SlotType.render (docs : Bool) (t : SlotType) : String := if docs then t.docName else t.codeName

/-- What every class names the function that makes its instances. -/
def factoryName : String := "create"

/-- An accessor in a manifest. -/
def Signature.manifest (docs : Bool) (s : Signature) : Json :=
  .obj [("name", .str s.accessor.name), ("kind", .str s.accessor.verb.word),
    ("target", .str s.accessor.target), ("type", .str (s.valueType.render docs)),
    ("keyed", .bool s.accessor.verb.isKeyed)]

/-- The manifest of a type. -/
def Descriptor.manifest (docs : Bool) (d : Descriptor) : Json :=
  .obj [("class", .str d.className), ("qualified_name", .str d.qualified),
    ("namespace", .ofText? d.namespacePath),
    ("parent", .ofText? (d.parent.map ClassRef.qualified)),
    ("factory", .str factoryName), ("open", .bool d.wildcard.isSome),
    ("wildcard", .ofText? (d.wildcard.map (SlotType.render docs))),
    ("properties", .obj (d.properties.map fun (x, t) => (x.text, .str (t.render docs)))),
    ("accessors", .arr (d.signatures.map (Signature.manifest docs)))]

end ClassSchema
