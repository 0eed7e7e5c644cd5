/-
Classes: types together with all that they inherit.

* `Class` — a descriptor with the properties, the wildcard and the accessors in effect;
* `Class.link` — a class from its descriptor and its parent;
* `Class.hasProperty?` — what a property may hold, if there is such a property;
* `Class.accessor?` — the accessor of a name.

What a class declares itself comes after what it inherits, except that a property declared again
keeps its position and takes the new type.  An explicit property goes before the wildcard, whichever
of the two is nearer.
-/
import ClassSchema.Descriptor

namespace ClassSchema

/-- A type together with all that it inherits. -/
structure Class where
  descriptor : Descriptor
  /-- The class itself, its parent, and so on to the root. -/
  lineage : List Ident
  /-- Explicit properties, inherited ones first. -/
  properties : List (String × SlotType)
  /-- What properties that are not explicit may hold. -/
  wildcard : Option SlotType
  /-- The accessors that go by a name. -/
  dispatch : List (String × Accessor)

namespace Class

/-- The properties of a descriptor under their names. -/
def ownProperties (d : Descriptor) : List (String × SlotType) :=
  d.properties.map fun (x, t) => (x.text, t)

/-- The accessors of a descriptor under their names. -/
def ownDispatch (d : Descriptor) : List (String × Accessor) :=
  d.signatures.map fun s => (s.accessor.name, s.accessor)

/-- The class of a type that has no parent. -/
def root (d : Descriptor) : Class where
  descriptor := d
  lineage := [d.name]
  properties := Entries.ofList (ownProperties d)
  wildcard := d.wildcard
  dispatch := Entries.ofList (ownDispatch d)

/-- The class of a type that has a parent. -/
def extend (parent : Class) (d : Descriptor) : Class where
  descriptor := d
  lineage := d.name :: parent.lineage
  properties := Entries.putAll parent.properties (ownProperties d)
  wildcard := d.wildcard <|> parent.wildcard
  dispatch := Entries.putAll parent.dispatch (ownDispatch d)

/-- The class of a type, given the class of its parent if it has one. -/
def under (parent : Option Class) (d : Descriptor) : Class :=
  match parent with
  | none => root d
  | some p => p.extend d

/-- The class of a type with the given types above it, nearest first. -/
def link (d : Descriptor) : List Descriptor → Class
  | [] => root d
  | parent :: above => (link parent above).extend d

/-- The name in the schema. -/
def name (c : Class) : Ident := c.descriptor.name

/-- The class name behind its namespace. -/
def qualified (c : Class) : String := c.descriptor.qualified

/-- What an explicit property may hold. -/
def property? (c : Class) (name : String) : Option SlotType := Entries.get? name c.properties

/-- Has the class properties that it does not declare? -/
def isOpen (c : Class) : Bool := c.wildcard.isSome

/-- What a property may hold, if there is such a property. -/
def hasProperty? (c : Class) (name : String) : Option SlotType := c.property? name <|> c.wildcard

/-- Is the class the one of the given name, or does it inherit from it? -/
def isA (c : Class) (name : String) : Bool := c.lineage.any (·.text = name)

/-- The accessor of a name.  An open class has accessors beyond those that its table lists. -/
def accessor? (c : Class) (name : String) : Option Accessor :=
  match Entries.get? name c.dispatch with
  | some a => some a
  | none => if c.isOpen then Accessor.ofName? name else none

end Class
end ClassSchema
