/-
The store without namespaces.

* `Value.bare`, `Instance.bare` — a value, or an instance, whose classes are without namespaces;
* `Value.toJson_bare` — a value is written as before;
* `StoreError.bare` — an error without the qualified name of its class, and otherwise unchanged;
* `Instance.perform_bare` — an operation does the same to an instance without namespaces.

Design notes: no operation compares qualified names or looks anything up by them, so taking them out
before an operation or after it makes no difference.  Each function of the store has one lemma that
says so, and the lemma of a function follows from those of the functions that it calls.
-/
import ClassSchema.Proofs.Qualification.Classes
import ClassSchema.Store.Instance

namespace ClassSchema

/-! ### Collections with other values -/

namespace Collection

variable {α β : Type} (f : α → β)

/-- The collection, each entry with what becomes of its value. -/
def map (c : Collection α) : Collection β := ⟨Entries.mapValues f c.entries, c.next⟩

@[simp] theorem map_empty : (empty : Collection α).map f = empty := rfl

@[simp] theorem get?_map (c : Collection α) (key : Key) :
    (c.map f).get? key = (c.get? key).map f :=
  Entries.get?_mapValues f key c.entries

theorem insert_map (c : Collection α) (key : Key) (value : α) :
    (c.map f).insert key (f value) = (c.insert key value).map f := by
  rw [insert, map, Entries.put_mapValues]
  rfl

theorem replace_map (c : Collection α) (key : Key) (value : α) :
    (c.map f).replace key (f value) = (c.replace key value).map f := by
  rw [replace, map, Entries.put_mapValues]
  rfl

theorem push_map (c : Collection α) (value : α) :
    (c.map f).push (f value) = (c.push value).map fun p => (p.1, p.2.map f) := by
  rw [push, push, map, Option.map_map]
  refine congrArg (fun g => Option.map g c.next) (funext fun i => ?_)
  rw [Entries.put_mapValues]
  rfl

theorem pushAll_map (c : Collection α) (values : List α) :
    (c.map f).pushAll (values.map f) = (c.pushAll values).map f := by
  induction values generalizing c with
  | nil => rfl
  | cons value rest ih =>
    -- what cannot be pushed is left out on both sides
    have hstep : (((c.map f).push (f value)).map Prod.snd).getD (c.map f) =
        (((c.push value).map Prod.snd).getD c).map f := by
      rw [push_map]
      rcases c.push value with _ | ⟨n, c'⟩
      · rfl
      · rfl
    rw [pushAll, pushAll, List.map_cons, List.foldl_cons, List.foldl_cons, hstep]
    exact ih _

end Collection

/-! ### Values -/

namespace Value

mutual

/-- A value whose classes are without namespaces. -/
def bare : Value → Value
  | null => null
  | bool b => bool b
  | int n => int n
  | float x => float x
  | str s => str s
  | list c => list (bareCollection c)
  | object owner bag => object owner.bare (bareCollection bag)

/-- A collection of values without namespaces. -/
def bareCollection : Collection Value → Collection Value
  | ⟨entries, next⟩ => ⟨bareEntries entries, next⟩

/-- Entries with values without namespaces. -/
def bareEntries : List (Key × Value) → List (Key × Value)
  | [] => []
  | (key, v) :: rest => (key, bare v) :: bareEntries rest

end

theorem bareEntries_eq (entries : List (Key × Value)) :
    bareEntries entries = Entries.mapValues bare entries := by
  induction entries with
  | nil => rfl
  | cons e rest ih => rw [bareEntries, ih, Entries.mapValues_cons]

theorem bareCollection_eq (c : Collection Value) : bareCollection c = c.map bare := by
  rw [bareCollection, bareEntries_eq]
  rfl

@[simp] theorem bare_list (c : Collection Value) : (list c).bare = list (c.map bare) := by
  rw [bare, bareCollection_eq]

@[simp] theorem bare_object (owner : Class) (bag : Collection Value) :
    (object owner bag).bare = object owner.bare (bag.map bare) := by
  rw [bare, bareCollection_eq]

@[simp] theorem kind_bare (v : Value) : v.bare.kind = v.kind := by
  cases v <;> simp [bare, kind]

@[simp] theorem fitsArray_bare (v : Value) : v.bare.fitsArray = v.fitsArray := by
  simp [fitsArray]

mutual

/-- A value is written without a word about its classes. -/
theorem toJson_bare : ∀ v : Value, v.bare.toJson = v.toJson
  | null => rfl
  | bool _ => rfl
  | int _ => rfl
  | float _ => rfl
  | str _ => rfl
  | list c => by rw [bare, toJson, toJson, collectionToJson_bare c]
  | object owner bag => by rw [bare, toJson, toJson, collectionToJson_bare bag]

theorem collectionToJson_bare :
    ∀ c : Collection Value, collectionToJson (bareCollection c) = collectionToJson c
  | ⟨entries, next⟩ => by
    rw [bareCollection, collectionToJson, collectionToJson, entriesToJson_bare entries]

theorem entriesToJson_bare :
    ∀ entries : List (Key × Value), entriesToJson (bareEntries entries) = entriesToJson entries
  | [] => rfl
  | (key, v) :: rest => by
    rw [bareEntries, entriesToJson, entriesToJson, toJson_bare v, entriesToJson_bare rest]

end

end Value

/-! ### Errors and outcomes -/

/-- An error without the qualified name of the class that it is about. -/
def StoreError.bare : StoreError → StoreError
  | unknownProperty _ property => unknownProperty "" property
  | typeMismatch _ property expected found => typeMismatch "" property expected.bare found
  | notArray _ property declared => notArray "" property declared.bare
  | invalidAccessor _ accessor => invalidAccessor "" accessor
  | notOpen _ => notOpen ""
  | indexExhausted _ property => indexExhausted "" property
  | unknownClass name => unknownClass name
  | missingParent child parent => missingParent child parent
  | schema e => schema e

/-- A result without namespaces, where `f` takes them out of what comes out. -/
def bareResult {α : Type} (f : α → α) : Except StoreError α → Except StoreError α
  | .ok a => .ok (f a)
  | .error e => .error e.bare

/-- An instance without namespaces. -/
def Instance.bare (i : Instance) : Instance := ⟨i.owner.bare, i.bag.map Value.bare⟩

/-- An outcome without namespaces, where `f` takes them out of what comes out. -/
def Outcome.bare {α : Type} (f : α → α) (o : Outcome α) : Outcome α :=
  ⟨bareResult f o.result, o.after.bare⟩

/-- An operation on a value without namespaces. -/
def Operation.bare : Operation → Operation
  | get name => get name
  | set name v => set name v.bare
  | setting name v => setting name v.bare
  | add key property v => add key property v.bare
  | append v key => append v.bare key
  | call accessor v key => call accessor v.bare key

/-- Writes give nothing, so there is nothing to take out of what they give. -/
theorem Outcome.replacing_bare {o o' : Outcome Unit} (h : o' = o.bare id) :
    o'.replacing none = (o.replacing none).bare (Option.map Value.bare) := by
  rcases o with ⟨e | ⟨⟩, i⟩
  · rw [h]; rfl
  · rw [h]; rfl

/-! ### Operations -/

theorem Registry.create_bare (r : Registry) (name : String) :
    r.bare.create name = bareResult Instance.bare (r.create name) := by
  rw [create, create, lookUp, lookUp, class?_bare]
  rcases r.class? name with _ | c
  · rfl
  · rfl

namespace Instance

theorem toValue_bare (i : Instance) : i.bare.toValue = i.toValue.bare :=
  (Value.bare_object i.owner i.bag).symm

theorem done_bare (i : Instance) (bag : Collection Value) :
    i.bare.done (bag.map Value.bare) = (i.done bag).bare id := rfl

theorem set_bare (i : Instance) (name : String) (v : Value) :
    i.bare.set name v.bare = (i.set name v).bare id := by
  rw [set, set, show i.bare.owner = i.owner.bare from rfl, Class.hasProperty?_bare]
  rcases i.owner.hasProperty? name with _ | t
  · rfl
  · simp only [Option.map_some, SlotType.isArray_bare, Value.fitsArray_bare, Value.kind_bare]
    split
    · rfl
    · rw [show i.bare.bag = i.bag.map Value.bare from rfl, Collection.insert_map, done_bare]

theorem setting_bare (i : Instance) (name : String) (v : Value) :
    i.bare.become (i.bare.setting name v.bare) =
      (i.become (i.setting name v)).bare (Option.map Value.bare) := by
  rw [setting, setting, set_bare]
  rcases hset : i.set name v with ⟨e | ⟨⟩, after⟩
  · rfl
  · rfl

theorem get_bare (i : Instance) (name : String) :
    i.bare.get name = bareResult (Option.map Value.bare) (i.get name) := by
  rw [get, get, show i.bare.owner = i.owner.bare from rfl, Class.hasProperty?_bare]
  rcases i.owner.hasProperty? name with _ | t
  · rfl
  · rw [show i.bare.bag = i.bag.map Value.bare from rfl, Collection.get?_map]
    rfl

theorem openList_bare (bag : Collection Value) (key : Key) :
    openList (bag.map Value.bare) key =
      (openList bag key).map fun opened => (opened.1.map Value.bare, opened.2.map Value.bare) := by
  rw [openList, openList, Collection.get?_map]
  have hfresh : (bag.map Value.bare).insert key (.list .empty) =
      (bag.insert key (.list .empty)).map Value.bare := by
    rw [← Collection.insert_map, Value.bare_list, Collection.map_empty]
  rcases bag.get? key with _ | v
  · simp only [Option.map_none, hfresh]
    rfl
  · cases v with
    | null => simp only [Option.map_some, Value.bare, hfresh]; rfl
    | list c => simp only [Option.map_some, Value.bare_list]; rfl
    | object owner c => simp only [Option.map_some, Value.bare_object]; rfl
    | _ => rfl

theorem addToProperty_bare (i : Instance) (property : String) (key : Option String) (v : Value) :
    i.bare.addToProperty property key v.bare = (i.addToProperty property key v).bare id := by
  rw [addToProperty, addToProperty, show i.bare.bag = i.bag.map Value.bare from rfl, openList_bare]
  rcases openList i.bag (.parse property) with found | ⟨bag, c⟩
  · rfl
  · -- the collection takes the value in either form, and so does the bag the collection
    have hput : ∀ c' : Collection Value,
        i.bare.done ((bag.map Value.bare).replace (.parse property) (.list (c'.map Value.bare))) =
          (i.done (bag.replace (.parse property) (.list c'))).bare id := by
      intro c'
      rw [← Value.bare_list, Collection.replace_map, done_bare]
    rcases key with _ | k
    · simp only [Except.map, Collection.push_map]
      rcases c.push v with _ | ⟨n, c'⟩
      · rfl
      · exact hput c'
    · simp only [Except.map, Collection.insert_map]
      exact hput (c.insert (.parse k) v)

theorem append_bare (i : Instance) (v : Value) (key : Option String) :
    i.bare.append v.bare key = (i.append v key).bare id := by
  unfold append
  rw [show i.bare.owner.wildcard = i.owner.wildcard.map SlotType.bare from rfl]
  rcases i.owner.wildcard with _ | t
  · rfl
  · simp only [Option.map_some, SlotType.isArray_bare, SlotType.elementName_bare]
    split
    · rfl
    · rw [show i.bare.bag = i.bag.map Value.bare from rfl]
      rcases key with _ | k
      · simp only [Collection.push_map]
        rcases i.bag.push v with _ | ⟨n, bag⟩
        · rfl
        · exact done_bare i bag
      · simp only [Collection.insert_map]
        exact done_bare i (i.bag.insert (.parse k) v)

theorem add_bare (i : Instance) (key property : Option String) (v : Value) :
    i.bare.add key property v.bare = (i.add key property v).bare id := by
  rcases property with _ | property
  · rcases key with _ | name
    · rfl
    · exact set_bare i name v
  · rw [add, add, show i.bare.owner = i.owner.bare from rfl]
    simp only [Class.property?_bare, Class.isOpen_bare]
    rcases i.owner.property? property with _ | t
    · simp only [Option.map_none]
      split
      · exact append_bare i v key
      · rfl
    · simp only [Option.map_some, SlotType.isArray_bare]
      split
      · exact addToProperty_bare i property key v
      · rfl

theorem read_bare (i : Instance) (name : String) :
    i.bare.read name = (i.read name).bare (Option.map Value.bare) := by
  rw [read, read, get_bare]
  rcases i.get name with e | v
  · rfl
  · rcases v with _ | v
    · rfl
    · rfl

theorem call_bare (i : Instance) (accessor : String) (v : Value) (key : Option String) :
    i.bare.call accessor v.bare key = (i.call accessor v key).bare (Option.map Value.bare) := by
  rw [call, call, show i.bare.owner = i.owner.bare from rfl, Class.accessor?_bare]
  rcases i.owner.accessor? accessor with _ | ⟨verb, p⟩
  · rfl
  · cases verb with
    | get => exact read_bare i p
    | set => exact Outcome.replacing_bare (set_bare i p v)
    | add => exact Outcome.replacing_bare (add_bare i key (some p) v)
    | append => exact Outcome.replacing_bare (append_bare i v key)

/-- An operation does the same to an instance without namespaces. -/
theorem perform_bare (i : Instance) (o : Operation) :
    i.bare.perform o.bare = (i.perform o).bare (Option.map Value.bare) := by
  cases o with
  | get name => exact congrArg (Outcome.mk · i.bare) (get_bare i name)
  | set name v => exact Outcome.replacing_bare (set_bare i name v)
  | setting name v => exact setting_bare i name v
  | add key property v => exact Outcome.replacing_bare (add_bare i key property v)
  | append v key => exact Outcome.replacing_bare (append_bare i v key)
  | call accessor v key => exact call_bare i accessor v key

end Instance
end ClassSchema
