/-
Instances of classes, and how they are read and written.

* `Instance` — a class with the bag of what the instance holds;
* `Outcome` — what comes out of an operation, and the instance after it;
* `Instance.set`, `Instance.get`, `Instance.add`, `Instance.append` — the primitive operations;
* `Instance.call` — an operation by the name of its accessor;
* `Operation`, `Instance.perform` — all of them as data.

Every write asks the class first whether it may take place.
-/
import ClassSchema.Registry
import ClassSchema.Store.Value

namespace ClassSchema

/-- An instance of a class. -/
structure Instance where
  owner : Class
  bag : Collection Value

/-- What comes out of an operation, and the instance after it. -/
structure Outcome (α : Type) where
  result : Except StoreError α
  after : Instance

namespace Outcome

/-- The outcome with another value in place of the one that comes out. -/
def replacing {α β : Type} (o : Outcome α) (b : β) : Outcome β := ⟨o.result.map fun _ => b, o.after⟩

end Outcome

/-- An instance that holds nothing. -/
def Class.create (c : Class) : Instance := ⟨c, .empty⟩

/-- An instance that holds nothing, of the class of a name. -/
def Registry.create (r : Registry) (name : String) : Except StoreError Instance :=
  (r.lookUp name).map Class.create

namespace Instance

/-- The instance as a value. -/
def toValue (i : Instance) : Value := .object i.owner i.bag

/-- What the instance holds as a JSON tree. -/
def toJson (i : Instance) : Json := Value.collectionToJson i.bag

/-- Have two instances classes of one qualified name, and do they hold the same? -/
def same (i j : Instance) : Bool := i.toValue.same j.toValue

/-- The name of the class in errors. -/
def ownerName (i : Instance) : String := i.owner.qualified

/-- The operation takes place. -/
def done (i : Instance) (bag : Collection Value) : Outcome Unit := ⟨.ok (), { i with bag := bag }⟩

/-- The operation is refused. -/
def refuse {α : Type} (i : Instance) (e : StoreError) : Outcome α := ⟨.error e, i⟩

/-! ### Primitive operations -/

/-- Stores a value under a name.  Where arrays are expected, only collections and null will do. -/
def set (i : Instance) (name : String) (v : Value) : Outcome Unit :=
  match i.owner.hasProperty? name with
  | none => i.refuse (.unknownProperty i.ownerName name)
  | some t =>
    if t.isArray && !v.fitsArray then i.refuse (.typeMismatch i.ownerName name t v.kind)
    else i.done (i.bag.insert (.parse name) v)

/-- The instance with a value stored under a name. -/
def setting (i : Instance) (name : String) (v : Value) : Except StoreError Instance :=
  let o := i.set name v
  o.result.map fun _ => o.after

/-- The value stored under a name, if there is one. -/
def get (i : Instance) (name : String) : Except StoreError (Option Value) :=
  match i.owner.hasProperty? name with
  | none => .error (.unknownProperty i.ownerName name)
  | some _ => .ok (i.bag.get? (.parse name))

/-- The bag with a collection at a key, and that collection.  A fresh one is put where there is
nothing or null; any other value stays, and its sort is given. -/
def openList (bag : Collection Value) (key : Key) :
    Except ValueKind (Collection Value × Collection Value) :=
  match bag.get? key with
  | some (.list c) => .ok (bag, c)
  | none | some .null => .ok (bag.insert key (.list .empty), .empty)
  | some v => .error v.kind

/-- Adds a value to the collection that a property holds, under a key or at the next index. -/
def addToProperty (i : Instance) (property : String) (key : Option String) (v : Value) :
    Outcome Unit :=
  match openList i.bag (.parse property) with
  | .error found =>
    i.refuse (.typeMismatch i.ownerName property (.primitive .array) found)
  | .ok (bag, c) =>
    match key with
    | some k => i.done (bag.replace (.parse property) (.list (c.insert (.parse k) v)))
    | none =>
      match c.push v with
      | some (_, c) => i.done (bag.replace (.parse property) (.list c))
      | none =>
        ⟨.error (.indexExhausted i.ownerName (some property)), { i with bag := bag }⟩

/-- Adds a value to the instance itself, under a key or at the next index.  The class has to be
open, and its wildcard has to be an array. -/
def append (i : Instance) (v : Value) (key : Option String) : Outcome Unit :=
  match i.owner.wildcard with
  | none => i.refuse (.notOpen i.ownerName)
  | some t =>
    if !t.isArray then i.refuse (.notArray i.ownerName t.elementName t)
    else
      match key with
      | some k => i.done (i.bag.insert (.parse k) v)
      | none =>
        match i.bag.push v with
        | some (_, bag) => i.done bag
        | none => i.refuse (.indexExhausted i.ownerName none)

/-- Adds a value to a property that holds arrays.  Without a property the key is one, and is set; a
property that is not explicit adds to the instance itself. -/
def add (i : Instance) (key property : Option String) (v : Value) : Outcome Unit :=
  match property with
  | none =>
    match key with
    | some name => i.set name v
    | none => i.refuse (.unknownProperty i.ownerName "")
  | some property =>
    match i.owner.property? property with
    | some t =>
      if t.isArray then i.addToProperty property key v
      else i.refuse (.notArray i.ownerName property t)
    | none =>
      if i.owner.isOpen then i.append v key
      else i.refuse (.unknownProperty i.ownerName property)

/-! ### Operations by name -/

/-- What a getter gives: the value stored under a name, or null. -/
def read (i : Instance) (name : String) : Outcome (Option Value) :=
  ⟨(i.get name).map fun v => some (v.getD .null), i⟩

/-- Calls an accessor.  Getters give a value, all others none. -/
def call (i : Instance) (accessor : String) (v : Value) (key : Option String) :
    Outcome (Option Value) :=
  match i.owner.accessor? accessor with
  | none => i.refuse (.invalidAccessor i.ownerName accessor)
  | some ⟨.get, p⟩ => i.read p
  | some ⟨.set, p⟩ => (i.set p v).replacing none
  | some ⟨.add, p⟩ => (i.add key (some p) v).replacing none
  | some ⟨.append, _⟩ => (i.append v key).replacing none

end Instance

/-- An operation on an instance. -/
inductive Operation where
  | get (name : String)
  | set (name : String) (v : Value)
  /-- Goes on with the instance that `Instance.setting` gives. -/
  | setting (name : String) (v : Value)
  | add (key property : Option String) (v : Value)
  | append (v : Value) (key : Option String)
  | call (accessor : String) (v : Value) (key : Option String)

namespace Instance

/-- Goes on with another instance, if there is one. -/
def become (i : Instance) : Except StoreError Instance → Outcome (Option Value)
  | .ok j => ⟨.ok none, j⟩
  | .error e => i.refuse e

/-- Performs an operation. -/
def perform (i : Instance) : Operation → Outcome (Option Value)
  | .get name => ⟨i.get name, i⟩
  | .set name v => (i.set name v).replacing none
  | .setting name v => i.become (i.setting name v)
  | .add key property v => (i.add key property v).replacing none
  | .append v key => (i.append v key).replacing none
  | .call accessor v key => i.call accessor v key

/-- The instance after operations, each performed on what the one before it left. -/
def run (i : Instance) (operations : List Operation) : Instance :=
  operations.foldl (fun i o => (i.perform o).after) i

end Instance
end ClassSchema
