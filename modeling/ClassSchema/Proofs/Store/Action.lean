/-
What the operations on an instance come down to.

* `Action` — what is left of an operation once the class has said what its names stand for;
* `Operation.action` — the action of an operation on instances of a class;
* `Operation.refusal_of_action` — what an operation is refused for whatever the instance holds;
* `perform_eq_act` — to perform an operation is to take its action;
* `append_eq`, `addToProperty_eq` — a value goes to its key or to the next index, or is refused;
* `act_after_of_error` — an action that fails leaves the instance as it was;
* `owner_perform` — no operation changes the class.

Design notes: accessors, and additions under names that are not explicit, are other spellings of
four writes.  Which of them an operation spells depends on the class alone, never on the bag, so
what is proved of the four writes holds of operations on every route.
-/
import ClassSchema.Proofs.Store.Collection
import ClassSchema.Store.Instance

namespace ClassSchema

/-- What is left of an operation once the class has said what its names stand for. -/
inductive Action where
  | refuse (e : StoreError)
  | get (name : String)
  /-- Reads as a getter does, with null where nothing is stored. -/
  | read (name : String)
  | set (name : String) (v : Value)
  /-- Adds to the collection of an explicit property that holds arrays. -/
  | addTo (property : String) (key : Option String) (v : Value)
  /-- Adds to the instance itself. -/
  | append (v : Value) (key : Option String)

/-- The action of adding, under a key, to a property if one is named. -/
def Class.addAction (c : Class) (key property : Option String) (v : Value) : Action :=
  match property with
  | none =>
    match key with
    | some name => .set name v
    | none => .refuse (.unknownProperty c.qualified "")
  | some property =>
    match c.property? property with
    | some t =>
      if t.isArray then .addTo property key v
      else .refuse (.notArray c.qualified property t)
    | none =>
      if c.isOpen then .append v key
      else .refuse (.unknownProperty c.qualified property)

/-- The action of an operation on instances of a class. -/
def Operation.action (c : Class) : Operation → Action
  | .get name => .get name
  | .set name v => .set name v
  | .setting name v => .set name v
  | .add key property v => c.addAction key property v
  | .append v key => .append v key
  | .call accessor v key =>
    match c.accessor? accessor with
    | none => .refuse (.invalidAccessor c.qualified accessor)
    | some ⟨.get, p⟩ => .read p
    | some ⟨.set, p⟩ => .set p v
    | some ⟨.add, p⟩ => c.addAction key (some p) v
    | some ⟨.append, _⟩ => .append v key

/-- What may be wrong with an addition before the instance is looked at: the name of the property,
or that it does not hold arrays. -/
theorem Class.refusal_of_addAction {c : Class} {key property : Option String} {v : Value}
    {e : StoreError} (h : c.addAction key property v = .refuse e) :
    (∃ p, e = .unknownProperty c.qualified p) ∨ ∃ p t, e = .notArray c.qualified p t := by
  unfold addAction at h
  split at h
  · split at h
    · cases h
    · exact Or.inl ⟨"", (Action.refuse.inj h).symm⟩
  · next p =>
    split at h
    · next t ht =>
      split at h
      · cases h
      · exact Or.inr ⟨p, t, (Action.refuse.inj h).symm⟩
    · split at h
      · cases h
      · exact Or.inl ⟨p, (Action.refuse.inj h).symm⟩

/-- What may be wrong with an operation before the instance is looked at: besides what may be wrong
with an addition, the name of the accessor. -/
theorem Operation.refusal_of_action {c : Class} {o : Operation} {e : StoreError}
    (h : o.action c = .refuse e) :
    (∃ name, e = .invalidAccessor c.qualified name) ∨
      (∃ p, e = .unknownProperty c.qualified p) ∨ ∃ p t, e = .notArray c.qualified p t := by
  cases o with
  | add key property v => exact Or.inr (Class.refusal_of_addAction h)
  | call accessor v key =>
    rw [action] at h
    rcases ha : c.accessor? accessor with _ | ⟨verb, p⟩
    · rw [ha] at h
      exact Or.inl ⟨accessor, (Action.refuse.inj h).symm⟩
    · rw [ha] at h
      cases verb with
      | add => exact Or.inr (Class.refusal_of_addAction h)
      | _ => cases h
  | _ => cases h

namespace Instance

/-- Takes an action. -/
def act (i : Instance) : Action → Outcome (Option Value)
  | .refuse e => i.refuse e
  | .get name => ⟨i.get name, i⟩
  | .read name => i.read name
  | .set name v => (i.set name v).replacing none
  | .addTo property key v => (i.addToProperty property key v).replacing none
  | .append v key => (i.append v key).replacing none

/-! ### Writes are done or refused -/

theorem append_eq {i : Instance} {t : SlotType} (ht : i.owner.wildcard = some t)
    (harray : t.isArray = true) (v : Value) (key : Option String) :
    i.append v key =
      match i.bag.target? key with
      | some k => i.done (i.bag.insert k v)
      | none => i.refuse (.indexExhausted i.ownerName none) := by
  rcases key with _ | k
  · rcases hn : i.bag.next with _ | n
    · simp [append, ht, harray, Collection.push, Collection.target?, hn]
    · simp [append, ht, harray, Collection.push_eq_insert hn, Collection.target?, hn]
  · simp [append, ht, harray, Collection.target?]

/-- What is opened was there already, or it is a fresh collection. -/
theorem openList_eq_ok {bag b : Collection Value} {key : Key} {c : Collection Value}
    (h : openList bag key = .ok (b, c)) :
    (bag.get? key = some (.list c) ∧ b = bag) ∨
      ((bag.get? key = none ∨ bag.get? key = some .null) ∧ c = .empty ∧
        b = bag.insert key (.list .empty)) := by
  unfold openList at h
  split at h
  · next c' hc =>
    simp only [Except.ok.injEq, Prod.mk.injEq] at h
    obtain ⟨rfl, rfl⟩ := h
    exact Or.inl ⟨hc, rfl⟩
  · next hc =>
    simp only [Except.ok.injEq, Prod.mk.injEq] at h
    obtain ⟨rfl, rfl⟩ := h
    exact Or.inr ⟨Or.inl hc, rfl, rfl⟩
  · next hc =>
    simp only [Except.ok.injEq, Prod.mk.injEq] at h
    obtain ⟨rfl, rfl⟩ := h
    exact Or.inr ⟨Or.inr hc, rfl, rfl⟩
  · cases h

theorem openList_eq_error_iff {bag : Collection Value} {key : Key} {found : ValueKind} :
    openList bag key = .error found ↔
      ∃ w, bag.get? key = some w ∧ w.fitsArray = false ∧ w.kind = found := by
  rcases hget : bag.get? key with _ | w
  · simp [openList, hget]
  · cases w <;> simp [openList, hget, Value.fitsArray, Value.kind]

/-- A fresh collection always has room, so there is none only where a collection was held before —
and then opening it has not touched the bag. -/
theorem addToProperty_eq (i : Instance) (property : String) (key : Option String) (v : Value) :
    i.addToProperty property key v =
      match openList i.bag (.parse property) with
      | .error found => i.refuse (.typeMismatch i.ownerName property (.primitive .array) found)
      | .ok (bag, c) =>
        match c.target? key with
        | some k => i.done (bag.replace (.parse property) (.list (c.insert k v)))
        | none => i.refuse (.indexExhausted i.ownerName (some property)) := by
  unfold addToProperty
  rcases ho : openList i.bag (.parse property) with found | ⟨bag, c⟩
  · rfl
  · rcases key with _ | k
    · rcases hn : c.next with _ | n
      · have hbag : bag = i.bag := by
          rcases openList_eq_ok ho with ⟨-, rfl⟩ | ⟨-, rfl, -⟩
          · rfl
          · cases hn
        simp [Collection.push, Collection.target?, hn, hbag, refuse]
      · simp [Collection.push_eq_insert hn, Collection.target?, hn]
    · rfl

/-- The outcome of a write: it is refused, and nothing has happened, or it is done, and nothing is
left to happen. -/
def Settles (i : Instance) (out : Outcome Unit) : Prop :=
  (∃ e, out = i.refuse e) ∨ ∃ bag, out = i.done bag

theorem settles_set (i : Instance) (name : String) (v : Value) : i.Settles (i.set name v) := by
  unfold set
  split
  · exact Or.inl ⟨_, rfl⟩
  · split
    · exact Or.inl ⟨_, rfl⟩
    · exact Or.inr ⟨_, rfl⟩

theorem settles_append (i : Instance) (v : Value) (key : Option String) :
    i.Settles (i.append v key) := by
  rcases ht : i.owner.wildcard with _ | t
  · exact Or.inl ⟨.notOpen i.ownerName, by simp only [append, ht]⟩
  · rcases harray : t.isArray with _ | _
    · exact Or.inl ⟨.notArray i.ownerName t.elementName t, by simp [append, ht, harray]⟩
    · rw [append_eq ht harray]
      split
      · exact Or.inr ⟨_, rfl⟩
      · exact Or.inl ⟨_, rfl⟩

theorem settles_addToProperty (i : Instance) (property : String) (key : Option String)
    (v : Value) : i.Settles (i.addToProperty property key v) := by
  rw [addToProperty_eq]
  split
  · exact Or.inl ⟨_, rfl⟩
  · split
    · exact Or.inr ⟨_, rfl⟩
    · exact Or.inl ⟨_, rfl⟩

theorem Settles.after_of_error {i : Instance} {out : Outcome Unit} {b : Option Value}
    {e : StoreError} (h : i.Settles out) (he : (out.replacing b).result = .error e) :
    (out.replacing b).after = i := by
  rcases h with ⟨e', rfl⟩ | ⟨bag, rfl⟩
  · rfl
  · cases he

theorem Settles.owner {i : Instance} {out : Outcome Unit} (h : i.Settles out) :
    out.after.owner = i.owner := by
  rcases h with ⟨e, rfl⟩ | ⟨bag, rfl⟩
  · rfl
  · rfl

/-! ### Operations are actions -/

theorem add_eq_act (i : Instance) (key property : Option String) (v : Value) :
    (i.add key property v).replacing none = i.act (i.owner.addAction key property v) := by
  unfold add Class.addAction
  rcases property with _ | p
  · rcases key with _ | name <;> rfl
  · rcases hp : i.owner.property? p with _ | t
    · by_cases ho : i.owner.isOpen
      · simp only [hp, ho, if_true, act]
      · simp only [hp, if_neg ho, act]; rfl
    · by_cases ht : t.isArray
      · simp only [hp, ht, if_true, act]
      · simp only [hp, if_neg ht, act]; rfl

/-- Going on with the instance that comes out is setting in place. -/
theorem become_setting (i : Instance) (name : String) (v : Value) :
    i.become (i.setting name v) = (i.set name v).replacing none := by
  unfold setting
  rcases i.settles_set name v with ⟨e, h⟩ | ⟨bag, h⟩
  · rw [h]; rfl
  · rw [h]; rfl

/-- **To perform an operation is to take its action.** -/
theorem perform_eq_act (i : Instance) (o : Operation) :
    i.perform o = i.act (o.action i.owner) := by
  cases o with
  | get name => rfl
  | set name v => rfl
  | setting name v => exact become_setting i name v
  | add key property v => exact add_eq_act i key property v
  | append v key => rfl
  | call accessor v key =>
    simp only [perform, call, Operation.action]
    rcases i.owner.accessor? accessor with _ | ⟨verb, p⟩
    · rfl
    · cases verb with
      | get => rfl
      | set => rfl
      | add => exact add_eq_act i key (some p) v
      | append => rfl

theorem act_after_of_error {i : Instance} {a : Action} {e : StoreError}
    (h : (i.act a).result = .error e) : (i.act a).after = i := by
  cases a with
  | refuse e' => rfl
  | get name => rfl
  | read name => rfl
  | set name v => exact (i.settles_set name v).after_of_error h
  | addTo property key v => exact (i.settles_addToProperty property key v).after_of_error h
  | append v key => exact (i.settles_append v key).after_of_error h

/-- No operation changes the class. -/
theorem owner_perform (i : Instance) (o : Operation) : (i.perform o).after.owner = i.owner := by
  rw [perform_eq_act]
  cases o.action i.owner with
  | refuse e => rfl
  | get name => rfl
  | read name => rfl
  | set name v => exact (i.settles_set name v).owner
  | addTo property key v => exact (i.settles_addToProperty property key v).owner
  | append v key => exact (i.settles_append v key).owner

/-! ### Runs -/

/-- A list with one more element is split at the new one, or else where the list itself is. -/
theorem concat_eq_append_cons_iff {α : Type} {as before after : List α} {last a : α} :
    as ++ [last] = before ++ a :: after ↔
      (before = as ∧ a = last ∧ after = []) ∨
        ∃ rest, after = rest ++ [last] ∧ as = before ++ a :: rest := by
  constructor
  · intro h
    rcases List.eq_nil_or_concat' after with rfl | ⟨rest, last', rfl⟩
    · obtain ⟨rfl, hlast⟩ := List.append_inj' h rfl
      exact Or.inl ⟨rfl, (List.head_eq_of_cons_eq hlast).symm, rfl⟩
    · have h' : as ++ [last] = (before ++ a :: rest) ++ [last'] := by simpa using h
      obtain ⟨rfl, hlast⟩ := List.append_inj' h' rfl
      obtain rfl := List.head_eq_of_cons_eq hlast
      exact Or.inr ⟨rest, rfl, rfl⟩
  · rintro (⟨rfl, rfl, rfl⟩ | ⟨rest, rfl, rfl⟩)
    · rfl
    · simp

theorem run_append (i : Instance) (os more : List Operation) :
    i.run (os ++ more) = (i.run os).run more := by
  simp [run]

theorem run_concat (i : Instance) (os : List Operation) (o : Operation) :
    i.run (os ++ [o]) = ((i.run os).perform o).after := by
  rw [run_append]
  rfl

theorem owner_run (i : Instance) (os : List Operation) : (i.run os).owner = i.owner := by
  induction os using List.reverseRecOn with
  | nil => rfl
  | append_singleton os o ih => rw [run_concat, owner_perform, ih]

end Instance

/-! ### A class to try things on -/

theorem items_valid : identDefect? "items" = none := by decide

/-- A type that holds arrays, in a property and beyond its properties. -/
def shelf : Descriptor where
  name := ⟨"shelf", by decide⟩
  namespacePath := none
  qualified := "Shelf"
  parent := none
  properties := [(⟨"items", items_valid⟩, .primitive .array)]
  wildcard := some (.primitive .array)

end ClassSchema
