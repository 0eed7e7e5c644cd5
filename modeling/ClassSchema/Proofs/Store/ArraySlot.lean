/-
Which slots that are declared to hold arrays do hold arrays.

* `Instance.HoldsArray` — under a name stands nothing, null or a collection;
* `Operation.Spoils` — the operation appends, under the name, what is no array;
* `Operation.Mends` — the operation puts an array under the name;
* `holdsArray_perform_iff` — what one operation does to a slot;
* `array_slot_spoiled_iff` — after any history a slot holds something else exactly if it was spoiled
  and not mended since, and some history gets there exactly if the wildcard of the class is an
  array.

Design notes: `set` asks the class what the name may hold, and additions to a property see to it
that a collection is there.  To append under a key asks nothing of the name, and the key may be that
of an explicit property.
-/
import ClassSchema.Proofs.Flattening
import ClassSchema.Proofs.Store.Action
import ClassSchema.Proofs.Store.Key

namespace ClassSchema

/-- Does the class let values be appended? -/
def Class.Appends (c : Class) : Prop := ∃ t, c.wildcard = some t ∧ t.isArray = true

namespace Operation

/-- The operation appends, under a name, a value that is no array. -/
def Spoils (c : Class) (name : String) (o : Operation) : Prop :=
  c.Appends ∧ ∃ v, o.action c = .append v (some name) ∧ v.fitsArray = false

/-- The operation puts a value under a name that may stand where arrays are expected. -/
def Mends (c : Class) (name : String) (o : Operation) : Prop :=
  ∃ v, v.fitsArray = true ∧
    (o.action c = .set name v ∨ (c.Appends ∧ o.action c = .append v (some name)))

theorem Spoils.not_mends {c : Class} {name : String} {o : Operation} (h : o.Spoils c name) :
    ¬ o.Mends c name := by
  obtain ⟨-, v, haction, hv⟩ := h
  rintro ⟨w, hw, hset | ⟨-, happend⟩⟩
  · rw [haction] at hset; cases hset
  · rw [haction] at happend
    obtain ⟨rfl, -⟩ := Action.append.inj happend
    rw [hv] at hw; cases hw

end Operation

namespace Instance

/-- Under a name stands nothing, null or a collection. -/
def HoldsArray (i : Instance) (name : String) : Prop :=
  ∀ v, i.bag.get? (.parse name) = some v → v.fitsArray = true

variable {i : Instance} {p : String} {t : SlotType}

theorem holdsArray_create (c : Class) (name : String) : c.create.HoldsArray name := by
  intro v hv
  cases hv

/-! ### What the writes do to a slot -/

/-- A value is written at one key, and all else is read as before. -/
theorem holdsArray_of_get? {bag after : Collection Value} {key : Key} {v : Value}
    (h : ∀ k, after.get? k = if key = k then some v else bag.get? k) :
    HoldsArray { i with bag := after } p ↔
      (key = .parse p ∧ v.fitsArray = true) ∨
        (key ≠ .parse p ∧ HoldsArray { i with bag := bag } p) := by
  by_cases hkey : key = .parse p
  · simp [HoldsArray, h, hkey]
  · simp [HoldsArray, h, hkey]

theorem holdsArray_insert {bag : Collection Value} {key : Key} {v : Value} :
    HoldsArray { i with bag := bag.insert key v } p ↔
      (key = .parse p ∧ v.fitsArray = true) ∨
        (key ≠ .parse p ∧ HoldsArray { i with bag := bag } p) :=
  holdsArray_of_get? fun k => bag.get?_insert k key v

theorem holdsArray_replace {bag : Collection Value} {key : Key} {v : Value} :
    HoldsArray { i with bag := bag.replace key v } p ↔
      (key = .parse p ∧ v.fitsArray = true) ∨
        (key ≠ .parse p ∧ HoldsArray { i with bag := bag } p) :=
  holdsArray_of_get? fun k => bag.get?_replace k key v

theorem hasProperty?_of_property? {c : Class} (h : c.property? p = some t) :
    c.hasProperty? p = some t := by
  rw [Class.hasProperty?, h]; rfl

theorem holdsArray_set (ht : i.owner.property? p = some t) (harray : t.isArray = true)
    (name : String) (v : Value) :
    (i.set name v).after.HoldsArray p ↔
      (name = p ∧ v.fitsArray = true) ∨ i.HoldsArray p := by
  by_cases hname : name = p
  · subst hname
    rcases hv : v.fitsArray with _ | _
    · simp [set, hasProperty?_of_property? ht, harray, hv, refuse]
    · simp [set, hasProperty?_of_property? ht, hv, done, holdsArray_insert]
  · rcases i.settles_set name v with ⟨e, h⟩ | ⟨bag, h⟩
    · simp [h, refuse, hname]
    · have hbag : bag = i.bag.insert (.parse name) v := by
        unfold set at h
        split at h
        · cases h
        · split at h
          · cases h
          · exact (Instance.mk.inj (Outcome.mk.inj h).2).2.symm
      simp [h, hbag, done, holdsArray_insert, hname]

theorem holdsArray_append_key (happends : i.owner.Appends) (key : String) (v : Value) :
    (i.append v (some key)).after.HoldsArray p ↔
      (key = p ∧ v.fitsArray = true) ∨ (key ≠ p ∧ i.HoldsArray p) := by
  obtain ⟨t, ht, harray⟩ := happends
  simp [append_eq ht harray, Collection.target?, done, holdsArray_insert]

/-- Nothing is appended to the instances of a class that does not let it. -/
theorem append_after_of_not_appends (h : ¬ i.owner.Appends) (v : Value) (key : Option String) :
    (i.append v key).after = i := by
  unfold append
  split
  · rfl
  · next t ht =>
    have harray : t.isArray = false := by
      by_contra hne
      exact h ⟨t, ht, by simpa using hne⟩
    simp [harray, refuse]

/-- What goes to the next index does not go to a name. -/
theorem holdsArray_append_next (hp : Key.parse p = .name p) (v : Value) :
    (i.append v none).after.HoldsArray p ↔ i.HoldsArray p := by
  by_cases happends : i.owner.Appends
  · obtain ⟨t, ht, harray⟩ := happends
    rw [append_eq ht harray]
    rcases hn : i.bag.next with _ | n
    · simp [Collection.target?, hn, refuse]
    · simp [Collection.target?, hn, done, holdsArray_insert, hp]
  · rw [append_after_of_not_appends happends]

theorem holdsArray_addToProperty (property : String) (key : Option String) (v : Value) :
    (i.addToProperty property key v).after.HoldsArray p ↔ i.HoldsArray p := by
  rw [addToProperty_eq]
  rcases ho : openList i.bag (.parse property) with found | ⟨bag, c⟩
  · rfl
  · rcases hk : c.target? key with _ | k
    · simp only [hk]; rfl
    · simp only [hk, done, holdsArray_replace]
      by_cases hname : property = p
      · -- the slot held a collection or could be given one, and holds one now
        subst hname
        have hbefore : i.HoldsArray property := by
          intro w hw
          rcases openList_eq_ok ho with ⟨hget, -⟩ | ⟨hget | hget, -, -⟩
          · obtain rfl := Option.some.inj (hw.symm.trans hget); rfl
          · rw [hw] at hget; cases hget
          · obtain rfl := Option.some.inj (hw.symm.trans hget); rfl
        exact iff_of_true (Or.inl ⟨rfl, rfl⟩) hbefore
      · have hne : Key.parse property ≠ .parse p := fun h => hname (Key.parse_inj.mp h)
        rcases openList_eq_ok ho with ⟨-, rfl⟩ | ⟨-, -, rfl⟩
        · simp [hne]
        · simp [hne, holdsArray_insert]

/-! ### Operations and histories -/

/-- After an operation a slot holds an array if the operation mended it, or if it did before and the
operation did not spoil it. -/
theorem holdsArray_perform_iff (ht : i.owner.property? p = some t) (harray : t.isArray = true)
    (hp : Key.parse p = .name p) (o : Operation) :
    (i.perform o).after.HoldsArray p ↔
      o.Mends i.owner p ∨ (i.HoldsArray p ∧ ¬ o.Spoils i.owner p) := by
  rw [perform_eq_act]
  -- which of the writes the operation spells decides both sides
  cases ha : o.action i.owner with
  | refuse e => simp [act, refuse, Operation.Mends, Operation.Spoils, ha]
  | get name => simp [act, Operation.Mends, Operation.Spoils, ha]
  | read name => simp [act, Instance.read, Operation.Mends, Operation.Spoils, ha]
  | set name v =>
    simp only [act, Outcome.replacing, holdsArray_set ht harray, Operation.Mends,
      Operation.Spoils, ha]
    grind
  | addTo property key v =>
    simp [act, Outcome.replacing, holdsArray_addToProperty, Operation.Mends, Operation.Spoils, ha]
  | append v key =>
    rcases key with _ | k
    · simp [act, Outcome.replacing, holdsArray_append_next hp, Operation.Mends, Operation.Spoils,
        ha]
    · by_cases happends : i.owner.Appends
      · simp only [act, Outcome.replacing, holdsArray_append_key happends, Operation.Mends,
          Operation.Spoils, ha, happends]
        grind
      · simp [act, Outcome.replacing, append_after_of_not_appends happends, Operation.Mends,
          Operation.Spoils, ha, happends]

/-- Behind some element of one kind stands none of another kind: with one more element at the end,
that is so if the new one is of the first kind, or if it was so before and the new one is not of the
second. -/
theorem exists_since_concat {α : Type} {S M : α → Prop} {as : List α} {last : α} :
    (∃ before a after, as ++ [last] = before ++ a :: after ∧ S a ∧ ∀ a' ∈ after, ¬ M a') ↔
      S last ∨ (¬ M last ∧
        ∃ before a after, as = before ++ a :: after ∧ S a ∧ ∀ a' ∈ after, ¬ M a') := by
  constructor
  · rintro ⟨before, a, after, hsplit, ha, hkept⟩
    rcases concat_eq_append_cons_iff.mp hsplit with ⟨-, rfl, -⟩ | ⟨rest, rfl, hrest⟩
    · exact Or.inl ha
    · refine Or.inr ⟨hkept last (by simp), before, a, rest, hrest, ha, ?_⟩
      intro a' ha'
      exact hkept a' (by simp [ha'])
  · rintro (hlast | ⟨hlast, before, a, after, rfl, ha, hkept⟩)
    · exact ⟨as, last, [], rfl, hlast, fun a' ha' => absurd ha' List.not_mem_nil⟩
    · refine ⟨before, a, after ++ [last], by simp, ha, ?_⟩
      intro a' ha'
      rcases List.mem_append.mp ha' with ha' | ha'
      · exact hkept a' ha'
      · obtain rfl := List.mem_singleton.mp ha'
        exact hlast

/-- After a history a slot holds no array if it was spoiled at some point and not mended since. -/
theorem not_holdsArray_run_iff {c : Class} (ht : c.property? p = some t)
    (harray : t.isArray = true) (hp : Key.parse p = .name p) (history : List Operation) :
    ¬ (c.create.run history).HoldsArray p ↔
      ∃ before o after, history = before ++ o :: after ∧ o.Spoils c p ∧
        ∀ o' ∈ after, ¬ o'.Mends c p := by
  induction history using List.reverseRecOn with
  | nil =>
    constructor
    · intro h
      exact absurd (holdsArray_create c p) h
    · rintro ⟨before, o, after, h, -⟩
      simp at h
  | append_singleton os last ih =>
    have howner : (c.create.run os).owner = c := owner_run c.create os
    have ht' : (c.create.run os).owner.property? p = some t := by rw [howner]; exact ht
    have hlast := holdsArray_perform_iff ht' harray hp last
    rw [howner] at hlast
    -- the last operation mends the slot, or spoils it, or leaves it as the others left it
    rw [run_concat, hlast, not_or, not_and_or, not_not, ih, exists_since_concat]
    constructor
    · rintro ⟨hmends, hbefore | hspoils⟩
      · exact Or.inr ⟨hmends, hbefore⟩
      · exact Or.inl hspoils
    · rintro (hspoils | ⟨hmends, hbefore⟩)
      · exact ⟨hspoils.not_mends, Or.inr hspoils⟩
      · exact ⟨hmends, Or.inl hbefore⟩

/-- To append under the name of a slot spoils it, on every class that lets values be appended. -/
theorem spoils_append {c : Class} (h : c.Appends) (p : String) :
    (Operation.append (.int 0) (some p)).Spoils c p :=
  ⟨h, .int 0, rfl, rfl⟩

/-- **When array slots stay arrays.**  Let a linked class have an explicit property, its own or
inherited, that is declared to hold arrays.  After a history the slot holds something else exactly
if some operation appended what is no array under its name, and no later one put an array there; and
the slot holds arrays after all histories exactly if the class does not let values be appended. -/
theorem array_slot_spoiled_iff {ds : List Descriptor} {r : Registry}
    (hr : Registry.link ds = .ok r) {c : Class} (hc : c ∈ r.classes)
    (ht : c.property? p = some t) (harray : t.isArray = true) :
    (∀ history, ¬ (c.create.run history).HoldsArray p ↔
      ∃ before o after, history = before ++ o :: after ∧ o.Spoils c p ∧
        ∀ o' ∈ after, ¬ o'.Mends c p) ∧
    ((∀ history, (c.create.run history).HoldsArray p) ↔ ¬ c.Appends) := by
  obtain ⟨x, rfl⟩ := Registry.exists_ident hr hc ht
  have hp := Key.parse_ident x
  have hrun := not_holdsArray_run_iff ht harray hp
  refine ⟨hrun, ?_, ?_⟩
  · intro hall happends
    exact (hrun [.append (.int 0) (some x.text)]).mpr
      ⟨[], _, [], rfl, spoils_append happends x.text, fun o' ho' => absurd ho' List.not_mem_nil⟩
      (hall _)
  · intro hnot history
    by_contra hspoiled
    obtain ⟨before, o, after, -, hspoils, -⟩ := (hrun history).mp hspoiled
    exact hnot hspoils.1

theorem items_spoiled_iff :
    Registry.link [shelf] = .ok ⟨[Class.root shelf]⟩ ∧
    (Class.root shelf).property? "items" = some (.primitive .array) ∧
    (∀ history, ¬ ((Class.root shelf).create.run history).HoldsArray "items" ↔
      ∃ before o after, history = before ++ o :: after ∧ o.Spoils (Class.root shelf) "items" ∧
        ∀ o' ∈ after, ¬ o'.Mends (Class.root shelf) "items") ∧
    ((∀ history, ((Class.root shelf).create.run history).HoldsArray "items") ↔
      ¬ (Class.root shelf).Appends) := by
  have hlink : Registry.link [shelf] = .ok ⟨[Class.root shelf]⟩ := by with_unfolding_all rfl
  have ht : (Class.root shelf).property? "items" = some (.primitive .array) := by rfl
  exact ⟨hlink, ht, array_slot_spoiled_iff hlink List.mem_cons_self ht rfl⟩

/-- A number stands where an array was declared, because it was appended there. -/
theorem number_appended_under_items :
    Registry.link [shelf] = .ok ⟨[Class.root shelf]⟩ ∧
    (Class.root shelf).property? "items" = some (.primitive .array) ∧
    ((Class.root shelf).create.run [.append (.int 5) (some "items")]).bag.get? (.parse "items") =
      some (.int 5) ∧
    ¬ ((Class.root shelf).create.run [.append (.int 5) (some "items")]).HoldsArray "items" := by
  have hget : ((Class.root shelf).create.run [.append (.int 5) (some "items")]).bag.get?
      (.parse "items") = some (.int 5) := by rfl
  refine ⟨by with_unfolding_all rfl, by rfl, hget, ?_⟩
  intro h
  cases h (.int 5) hget

end Instance
end ClassSchema
