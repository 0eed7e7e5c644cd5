/-
Registries: the classes of a schema, linked.

* `Registry` — classes in the order in which their names first occur;
* `Linking` — which descriptors still wait, and which have become classes;
* `Linking.linkClass` — links the class of a name, and before it those above it;
* `Registry.link` — the registry of descriptors, each of which finds its parent among them;
* `Registry.ofSchema` — the registry of a schema.

Of the descriptors with one name the last one counts.  A class that is linked is not linked again.
On the way up nothing is linked yet, and a name that is met twice has led back to itself.
-/
import ClassSchema.Class
import ClassSchema.Compilation
import ClassSchema.Store.Error

namespace ClassSchema

/-- How far linking has come. -/
structure Linking where
  /-- Descriptors that have no class yet, under their names. -/
  pending : List (Ident × Descriptor)
  /-- Classes, under their names. -/
  linked : List (Ident × Class)

namespace Linking

/-- Nothing is linked.  Of the descriptors with one name the last one counts. -/
def start (ds : List Descriptor) : Linking := ⟨Entries.ofList (ds.map fun d => (d.name, d)), []⟩

/-- Is the name that of a descriptor or of a class? -/
def knows (l : Linking) (x : Ident) : Bool :=
  Entries.contains x l.pending || Entries.contains x l.linked

/-- The parent of a descriptor that has no class yet. -/
def parent? (l : Linking) (x : Ident) : Option Ident :=
  (Entries.get? x l.pending).bind fun d => d.parent.map ClassRef.name

/-- Makes a class of the descriptor of a name, given the class of its parent. -/
def finish (l : Linking) (x : Ident) (parent : Option Class) :
    Except StoreError (Class × Linking) :=
  match Entries.get? x l.pending with
  | none => .error (.unknownClass x.text)
  | some d =>
    let c := Class.under parent d
    .ok (c, ⟨Entries.remove x l.pending, Entries.put x c l.linked⟩)

theorem length_unmet_lt {l : Linking} {way : List Ident} {x p : Ident} (hp : l.parent? x = some p)
    (hx : x ∉ way) :
    (Inheritance.unmet Prod.fst l.pending (way ++ [x])).length <
      (Inheritance.unmet Prod.fst l.pending way).length := by
  obtain ⟨d, hd, -⟩ := Option.bind_eq_some_iff.mp hp
  exact Inheritance.length_unmet_lt (Entries.mem_of_get? hd) hx

/-- Links the class of a name, and before it those above it.  The names that have led here, farthest
first, are `way`. -/
def linkClass (l : Linking) (way : List Ident) (x : Ident) : Except StoreError (Class × Linking) :=
  match Entries.get? x l.linked with
  | some c => .ok (c, l)
  | none =>
    if _ : x ∈ way then .error (.schema (.inheritanceCycle (way ++ [x])))
    else
      match _ : l.parent? x with
      | none => l.finish x none
      | some p =>
        if l.knows p then
          match l.linkClass (way ++ [x]) p with
          | .ok (parent, l) => l.finish x (some parent)
          | .error e => .error e
        else .error (.missingParent x p)
termination_by (Inheritance.unmet Prod.fst l.pending way).length
decreasing_by exact length_unmet_lt (by assumption) (by assumption)

/-- Links the classes of names. -/
def linkAll (l : Linking) : List Ident → Except StoreError Linking
  | [] => .ok l
  | x :: rest => do
    let (_, l) ← l.linkClass [] x
    l.linkAll rest

/-- The classes of names, each where its name first occurs. -/
def classes (l : Linking) (names : List Ident) : List Class :=
  names.eraseDups.filterMap fun x => Entries.get? x l.linked

end Linking

/-- The classes of a schema. -/
structure Registry where
  classes : List Class

namespace Registry

/-- The registry of descriptors. -/
def link (ds : List Descriptor) : Except StoreError Registry :=
  let names := ds.map Descriptor.name
  ((Linking.start ds).linkAll names).map fun l => ⟨l.classes names⟩

/-- The registry of a schema. -/
def ofSchema (options : Options) (schema : Json) : Except StoreError Registry :=
  match schema.compileSchema options with
  | .ok ds => link ds
  | .error e => .error (.schema e)

/-- The class of a name. -/
def class? (r : Registry) (name : String) : Option Class := r.classes.find? (·.name.text = name)

/-- The class of a name, or the reason why there is none. -/
def lookUp (r : Registry) (name : String) : Except StoreError Class :=
  match r.class? name with
  | some c => .ok c
  | none => .error (.unknownClass name)

end Registry
end ClassSchema
