/-
Operations that go by the names of accessors.

* `Class.Reaches` — the properties that a class lets be read and written;
* `Instance.CallsAs` — the call of an accessor comes to an operation, and is not refused for its
  name;
* `accessors_are_primitives` — getters read, setters set, adders add and appenders append.

Design notes: a call asks the class for the accessor of a name and goes on with the operation that
the accessor stands for.  So all there is to say is that the class finds the accessor, which it may
list or read off the name, and that the operation itself never blames the name.
-/
import ClassSchema.Proofs.AccessorName
import ClassSchema.Proofs.Outcome
import ClassSchema.Proofs.Store.Action

namespace ClassSchema

/-- The properties that a class lets be read and written: its explicit ones, and whatever has a name
if the class is open. -/
def Class.Reaches (c : Class) (p : String) : Prop :=
  (∃ t, c.property? p = some t) ∨ (c.isOpen = true ∧ ∃ x : Ident, x.text = p)

theorem Class.Reaches.exists_hasProperty? {c : Class} {p : String} (h : c.Reaches p) :
    ∃ t, c.hasProperty? p = some t := by
  rw [exists_hasProperty?_iff]
  exact h.imp id And.left

namespace Class.Flattens

variable {c : Class} {chain : List Descriptor} {p : String}

/-- A class finds its getters and setters. -/
theorem accessor?_of_reaches (h : c.Flattens chain) (hkeys : (Entries.keys c.dispatch).Nodup)
    (hp : c.Reaches p) :
    c.accessor? (Accessor.name ⟨.get, p⟩) = some ⟨.get, p⟩ ∧
      c.accessor? (Accessor.name ⟨.set, p⟩) = some ⟨.set, p⟩ := by
  rcases hp with ⟨t, ht⟩ | ⟨hopen, x, rfl⟩
  · exact ⟨h.accessor?_of_callsFor hkeys (.get ht), h.accessor?_of_callsFor hkeys (.set ht)⟩
  · exact ⟨h.accessor?_of_isOpen hkeys hopen (by decide) x,
      h.accessor?_of_isOpen hkeys hopen (by decide) x⟩

/-- A class finds its adders. -/
theorem accessor?_add (h : c.Flattens chain) (hkeys : (Entries.keys c.dispatch).Nodup)
    (hp : (∃ element, c.property? p = some (.arrayOf element)) ∨
      (c.isOpen = true ∧ ∃ x : Ident, x.text = p)) :
    c.accessor? (Accessor.name ⟨.add, p⟩) = some ⟨.add, p⟩ := by
  rcases hp with ⟨element, ht⟩ | ⟨hopen, x, rfl⟩
  · exact h.accessor?_of_callsFor hkeys (.add ht)
  · exact h.accessor?_of_isOpen hkeys hopen (by decide) x

end Class.Flattens

namespace Instance

variable {i : Instance} {accessor p : String} {v : Value} {key : Option String}

/-- The call of an accessor comes to an operation, and is not refused for its name. -/
def CallsAs (i : Instance) (accessor : String) (v : Value) (key : Option String)
    (out : Outcome (Option Value)) : Prop :=
  i.call accessor v key = out ∧
    ∀ owner name, (i.call accessor v key).result ≠ .error (.invalidAccessor owner name)

/-! ### What operations are refused for -/

/-- Only an action that is to blame a name for no accessor does so. -/
theorem act_ne_invalidAccessor {a : Action} {owner name : String}
    (ha : a ≠ .refuse (.invalidAccessor owner name)) :
    (i.act a).result ≠ .error (.invalidAccessor owner name) := by
  intro h
  cases a with
  | refuse e => exact ha (congrArg _ (Except.error.inj h))
  | get name =>
    simp only [act, get] at h
    split at h <;> cases h
  | read name =>
    simp only [act, read, get] at h
    split at h <;> cases h
  | set name v =>
    simp only [act, Outcome.replacing, set] at h
    split at h
    · cases h
    · split at h <;> cases h
  | addTo property key v =>
    simp only [act, addToProperty_eq] at h
    split at h
    · cases h
    · split at h <;> cases h
  | append v key =>
    rcases ht : i.owner.wildcard with _ | t
    · simp only [act, append, ht] at h
      cases h
    · rcases harray : t.isArray with _ | _
      · simp [act, append, ht, harray, refuse, Outcome.replacing, Except.map] at h
      · simp only [act, append_eq ht harray] at h
        split at h <;> cases h

theorem addAction_ne_invalidAccessor (c : Class) (property : Option String)
    {owner name : String} :
    c.addAction key property v ≠ .refuse (.invalidAccessor owner name) := by
  intro h
  rcases Class.refusal_of_addAction h with ⟨p, hp⟩ | ⟨p, t, hp⟩
  · cases hp
  · cases hp

/-- Setting a property that there is fails for the value at most. -/
theorem set_ne_unknownProperty {t : SlotType} (ht : i.owner.hasProperty? p = some t)
    {owner name : String} : (i.set p v).result ≠ .error (.unknownProperty owner name) := by
  simp only [set, ht]
  split
  · simp [refuse]
  · simp [done]

/-! ### Calls -/

/-- A call takes the action that the accessor of its name stands for. -/
theorem callsAs_of_accessor? {a : Action}
    (hcall : (Operation.call accessor v key).action i.owner = a)
    (ha : ∀ owner name, a ≠ .refuse (.invalidAccessor owner name)) :
    i.CallsAs accessor v key (i.act a) := by
  have hact : i.call accessor v key = i.act a := by
    rw [← hcall]
    exact perform_eq_act i (.call accessor v key)
  refine ⟨hact, fun owner name => ?_⟩
  rw [hact]
  exact act_ne_invalidAccessor (ha owner name)

theorem call_get (h : i.owner.accessor? accessor = some ⟨.get, p⟩) {t : SlotType}
    (ht : i.owner.hasProperty? p = some t) :
    ∃ stored, i.get p = .ok stored ∧
      i.call accessor v key = ⟨.ok (some (stored.getD .null)), i⟩ := by
  have hget : i.get p = .ok (i.bag.get? (.parse p)) := by
    simp only [get, ht]
  refine ⟨_, hget, ?_⟩
  simp only [call, h, read, hget, Except.map]

theorem callsAs_set (h : i.owner.accessor? accessor = some ⟨.set, p⟩) :
    i.CallsAs accessor v key ((i.set p v).replacing none) :=
  callsAs_of_accessor? (a := .set p v) (by simp only [Operation.action, h]) (by simp)

theorem callsAs_add (h : i.owner.accessor? accessor = some ⟨.add, p⟩) :
    i.CallsAs accessor v key ((i.add key (some p) v).replacing none) := by
  rw [add_eq_act]
  refine callsAs_of_accessor? (by simp only [Operation.action, h]) ?_
  exact fun _ _ => addAction_ne_invalidAccessor _ _

theorem callsAs_append {target : String} (h : i.owner.accessor? accessor = some ⟨.append, target⟩) :
    i.CallsAs accessor v key ((i.append v key).replacing none) :=
  callsAs_of_accessor? (a := .append v key) (by simp only [Operation.action, h]) (by simp)

end Instance

/-- **Accessors are the primitive operations.**  On any instance of a class of a schema, whatever it
holds, the getter of a property reads it, with null where nothing is stored, and leaves the instance
as it is; the setter sets it, and the property is never unknown; the adder adds to it; and the
appender, named after what the wildcard holds, appends.  Getters, setters and adders do so for
declared properties — an adder for typed arrays — and, on an open class, for every name there is.
None of the calls is refused for its name. -/
theorem Registry.accessors_are_primitives {options : Options} {schema : Json} {r : Registry}
    (hr : ofSchema options schema = .ok r) {c : Class} (hc : c ∈ r.classes) {i : Instance}
    (hi : i.owner = c) (v : Value) (key : Option String) :
    (∀ p, c.Reaches p →
      (∃ stored, i.get p = .ok stored ∧
        i.call ("get" ++ pascalCase p) v key = ⟨.ok (some (stored.getD .null)), i⟩) ∧
      i.CallsAs ("set" ++ pascalCase p) v key ((i.set p v).replacing none) ∧
      ∀ owner name, (i.call ("set" ++ pascalCase p) v key).result ≠
        .error (.unknownProperty owner name)) ∧
    (∀ p, (∃ element, c.property? p = some (.arrayOf element)) ∨
        (c.isOpen = true ∧ ∃ x : Ident, x.text = p) →
      i.CallsAs ("add" ++ pascalCase p) v key ((i.add key (some p) v).replacing none)) ∧
    ∀ t, c.wildcard = some t →
      i.CallsAs ("append" ++ pascalCase t.element.elementName) v key
        ((i.append v key).replacing none) := by
  subst hi
  obtain ⟨ds, -, hlink⟩ := exists_descriptors hr
  obtain ⟨chain, -, -, hflattens, hkeys⟩ := exists_flattens hlink hc
  refine ⟨?_, ?_, ?_⟩
  · intro p hp
    obtain ⟨t, ht⟩ := hp.exists_hasProperty?
    obtain ⟨hget, hset⟩ := hflattens.accessor?_of_reaches hkeys hp
    have hcall : i.CallsAs (Accessor.name ⟨.set, p⟩) v key ((i.set p v).replacing none) :=
      Instance.callsAs_set hset
    refine ⟨Instance.call_get hget ht, hcall, fun owner name => ?_⟩
    rw [show "set" ++ pascalCase p = Accessor.name ⟨.set, p⟩ from rfl, hcall.1]
    intro herror
    exact Instance.set_ne_unknownProperty ht (Except.map_eq_error_iff.mp herror)
  · intro p hp
    exact Instance.callsAs_add (hflattens.accessor?_add hkeys hp)
  · intro t ht
    exact Instance.callsAs_append (hflattens.accessor?_of_callsFor hkeys (.append ht))

/-- A property that is nowhere declared is read by name; an adder that was left behind adds to what
is no array any more, and is refused for that; and values are appended under a key by name. -/
theorem narrow_is_called_by_name :
    Registry.ofSchema {} narrowing = .ok ⟨[Class.link broad [], Class.link narrow [broad]]⟩ ∧
    let c := Class.link narrow [broad]
    let i := c.create.run [.append (.int 7) none]
    i.owner = c ∧ c.property? "spare_part" = none ∧
    (∃ stored, i.get "spare_part" = .ok stored ∧
      i.call ("get" ++ pascalCase "spare_part") .null none =
        ⟨.ok (some (stored.getD .null)), i⟩) ∧
    i.CallsAs ("add" ++ pascalCase "items") (.str "nut") none
      ((i.add none (some "items") (.str "nut")).replacing none) ∧
    (i.add none (some "items") (.str "nut")).result =
      .error (.notArray "Narrow" "items" (.primitive .string)) ∧
    i.CallsAs ("append" ++ pascalCase "int") (.int 8) (some "spare_part")
      ((i.append (.int 8) (some "spare_part")).replacing none) := by
  have hmem : Class.link narrow [broad] ∈ [Class.link broad [], Class.link narrow [broad]] := by
    simp
  have howner := Instance.owner_run (Class.link narrow [broad]).create [.append (.int 7) none]
  have hcalls := Registry.accessors_are_primitives ofSchema_narrowing hmem howner
  refine ⟨ofSchema_narrowing, howner, by decide, ?_, ?_, by rfl, ?_⟩
  · exact ((hcalls .null none).1 "spare_part" (Or.inr ⟨by decide, ⟨_, by decide⟩, rfl⟩)).1
  · exact (hcalls (.str "nut") none).2.1 "items" (Or.inr ⟨by decide, ⟨_, by decide⟩, rfl⟩)
  · exact (hcalls (.int 8) (some "spare_part")).2.2 (.arrayOf (.primitive .int)) rfl

end ClassSchema
