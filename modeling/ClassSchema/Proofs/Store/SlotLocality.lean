/-
What the slot of a property hangs on.

* `Operation.address?` — the name under which an operation writes into the instance, if any;
* `Instance.slot` — what an instance holds under a name;
* `Instance.resultsAt` — what comes of those operations of a history that write under a name;
* `slot_act_of_ne` — what writes elsewhere leaves a slot alone;
* `act_congr_at` — what writes into a slot asks for nothing but the slot;
* `slots_are_local` — so of two histories that write alike under an explicit property, both come to
  the same there.

Design notes: the entries of an instance stand in one bag, under keys that are read off texts.  Keys
of different texts differ, and the name of a property is not how an index is printed.  With that, a
history can be thinned out to what it writes under one name, and no one looking there will notice.
-/
import ClassSchema.Proofs.Flattening
import ClassSchema.Proofs.Store.Action
import ClassSchema.Proofs.Store.Key

namespace ClassSchema

/-! ### Where operations write -/

/-- The name under which adding writes: an explicit property that is named, and otherwise the key,
which is set where no property is named and appended under where the class is open. -/
def Class.addAddress? (c : Class) (key property : Option String) : Option String :=
  match property with
  | none => key
  | some q =>
    match c.property? q with
    | some _ => some q
    | none => if c.isOpen then key else none

/-- The name under which an operation writes into the instance, if any. -/
def Operation.address? (c : Class) : Operation → Option String
  | .get _ => none
  | .set name _ => some name
  | .setting name _ => some name
  | .add key property _ => c.addAddress? key property
  | .append _ key => key
  | .call accessor _ key =>
    match c.accessor? accessor with
    | none | some ⟨.get, _⟩ => none
    | some ⟨.set, q⟩ => some q
    | some ⟨.add, q⟩ => c.addAddress? key (some q)
    | some ⟨.append, _⟩ => key

/-- The name under which an action writes, if any. -/
def Action.address? : Action → Option String
  | .refuse _ | .get _ | .read _ => none
  | .set name _ => some name
  | .addTo property _ _ => some property
  | .append _ key => key

theorem Class.address?_addAction (c : Class) (key property : Option String) (v : Value) :
    (c.addAction key property v).address? = c.addAddress? key property ∨
      ∃ e, c.addAction key property v = .refuse e := by
  unfold addAction addAddress?
  rcases property with _ | q
  · rcases key with _ | name
    · exact Or.inl rfl
    · exact Or.inl rfl
  · rcases hq : c.property? q with _ | t
    · by_cases ho : c.isOpen = true
      · exact Or.inl (by simp only [hq, ho, if_true, Action.address?])
      · exact Or.inr ⟨.unknownProperty c.qualified q, by simp only [hq, if_neg ho]⟩
    · by_cases ht : t.isArray = true
      · exact Or.inl (by simp only [hq, ht, if_true, Action.address?])
      · exact Or.inr ⟨.notArray c.qualified q t, by simp only [hq, if_neg ht]⟩

/-- An operation writes where its action does, or else it is refused whatever the instance holds. -/
theorem Operation.address?_action (c : Class) (o : Operation) :
    (o.action c).address? = o.address? c ∨ ∃ e, o.action c = .refuse e := by
  cases o with
  | get name => exact Or.inl rfl
  | set name v => exact Or.inl rfl
  | setting name v => exact Or.inl rfl
  | add key property v => exact c.address?_addAction key property v
  | append v key => exact Or.inl rfl
  | call accessor v key =>
    simp only [action, address?]
    rcases c.accessor? accessor with _ | ⟨verb, q⟩
    · exact Or.inl rfl
    · cases verb with
      | get => exact Or.inl rfl
      | set => exact Or.inl rfl
      | add => exact c.address?_addAction key (some q) v
      | append => exact Or.inl rfl

namespace Instance

/-- What an instance holds under a name. -/
def slot (i : Instance) (name : String) : Option Value := i.bag.get? (.parse name)

variable {i j : Instance} {p : String}

/-! ### Writing elsewhere -/

theorem slot_insert_of_ne {key : Key} (h : key ≠ .parse p) (v : Value) :
    slot { i with bag := i.bag.insert key v } p = i.slot p := by
  simp only [slot, Collection.get?_insert, if_neg h]

/-- To open a collection elsewhere leaves a slot alone. -/
theorem get?_openList_of_ne {bag b c : Collection Value} {key k : Key} (h : key ≠ k)
    (ho : openList bag key = .ok (b, c)) : b.get? k = bag.get? k := by
  rcases openList_eq_ok ho with ⟨-, rfl⟩ | ⟨-, -, rfl⟩
  · rfl
  · rw [Collection.get?_insert, if_neg h]

theorem slot_addToProperty_of_ne {property : String} (h : property ≠ p) (key : Option String)
    (v : Value) : (i.addToProperty property key v).after.slot p = i.slot p := by
  have hne : Key.parse property ≠ .parse p := fun heq => h (Key.parse_inj.mp heq)
  rw [addToProperty_eq]
  rcases ho : openList i.bag (.parse property) with found | ⟨bag, c⟩
  · rfl
  · rcases hk : c.target? key with _ | k
    · simp only [hk]; rfl
    · simp only [hk, done, slot, Collection.get?_replace, if_neg hne]
      exact get?_openList_of_ne hne ho

/-- What is appended under no name goes to an index, and so not to a property. -/
theorem slot_append_of_ne (hp : Key.parse p = .name p) {key : Option String} (h : key ≠ some p)
    (v : Value) : (i.append v key).after.slot p = i.slot p := by
  rcases ht : i.owner.wildcard with _ | t
  · simp only [append, ht]; rfl
  · rcases harray : t.isArray with _ | _
    · simp [append, ht, harray, refuse]
    · rw [append_eq ht harray]
      rcases hk : i.bag.target? key with _ | k
      · rfl
      · have hne : k ≠ .parse p := by
          rintro rfl
          rcases key with _ | s
          · obtain ⟨n, -, hn⟩ := Option.map_eq_some_iff.mp hk
            rw [hp] at hn
            cases hn
          · exact h (congrArg some (Key.parse_inj.mp (Option.some.inj hk)))
        exact slot_insert_of_ne hne v

/-- **What writes elsewhere leaves a slot alone.** -/
theorem slot_act_of_ne (hp : Key.parse p = .name p) {a : Action} (ha : a.address? ≠ some p) :
    (i.act a).after.slot p = i.slot p := by
  cases a with
  | refuse e => rfl
  | get name => rfl
  | read name => rfl
  | set name v =>
    have hname : name ≠ p := fun h => ha (congrArg some h)
    have hne : Key.parse name ≠ .parse p := fun h => hname (Key.parse_inj.mp h)
    simp only [act, Outcome.replacing, set]
    split
    · rfl
    · split
      · rfl
      · exact slot_insert_of_ne hne v
  | addTo property key v =>
    exact slot_addToProperty_of_ne (fun h => ha (congrArg some h)) key v
  | append v key => exact slot_append_of_ne hp ha v

/-! ### Writing there -/

/-- Two instances of one class hold the same under a name. -/
def AgreeAt (p : String) (i j : Instance) : Prop := i.owner = j.owner ∧ i.slot p = j.slot p

/-- What is found when a collection is opened hangs on the slot alone. -/
theorem openList_congr {bag bag' : Collection Value} {key : Key}
    (h : bag.get? key = bag'.get? key) :
    (openList bag key).map Prod.snd = (openList bag' key).map Prod.snd := by
  unfold openList
  rw [h]
  split <;> rfl

theorem addToProperty_congr (h : AgreeAt p i j) (key : Option String) (v : Value) :
    (i.addToProperty p key v).result = (j.addToProperty p key v).result ∧
      (i.addToProperty p key v).after.slot p = (j.addToProperty p key v).after.slot p := by
  obtain ⟨owner, bag⟩ := i
  obtain ⟨owner', bag'⟩ := j
  obtain ⟨rfl, hslot⟩ := h
  have hopen := openList_congr hslot
  simp only [addToProperty_eq]
  -- both find what can take no element, or both find one collection
  rcases ho : openList bag (.parse p) with found | ⟨b, c⟩
  · rcases ho' : openList bag' (.parse p) with found' | ⟨b', c'⟩
    · rw [ho, ho'] at hopen
      obtain rfl := Except.error.inj hopen
      exact ⟨rfl, hslot⟩
    · rw [ho, ho'] at hopen; cases hopen
  · rcases ho' : openList bag' (.parse p) with found' | ⟨b', c'⟩
    · rw [ho, ho'] at hopen; cases hopen
    · rw [ho, ho'] at hopen
      obtain rfl : c = c' := Except.ok.inj hopen
      rcases hk : c.target? key with _ | k
      · simp only [hk]
        exact ⟨rfl, hslot⟩
      · simp only [hk]
        exact ⟨rfl, by simp [done, slot, Collection.get?_replace]⟩

/-- **What writes into a slot asks for nothing but the slot.** -/
theorem act_congr_at (h : AgreeAt p i j) {a : Action}
    (ha : a.address? = some p ∨ ∃ e, a = .refuse e) :
    (i.act a).result = (j.act a).result ∧ (i.act a).after.slot p = (j.act a).after.slot p := by
  rcases ha with ha | ⟨e, rfl⟩
  · cases a with
    | refuse e => cases ha
    | get name => cases ha
    | read name => cases ha
    | set name v =>
      obtain rfl : name = p := Option.some.inj ha
      obtain ⟨owner, bag⟩ := i
      obtain ⟨owner', bag'⟩ := j
      obtain ⟨rfl, hslot⟩ := h
      simp only [act, Outcome.replacing, set]
      split
      · exact ⟨rfl, hslot⟩
      · split
        · exact ⟨rfl, hslot⟩
        · exact ⟨rfl, by simp [done, slot, Collection.get?_insert]⟩
    | addTo property key v =>
      obtain rfl : property = p := Option.some.inj ha
      obtain ⟨hresult, hafter⟩ := addToProperty_congr h key v
      exact ⟨congrArg (Except.map _) hresult, hafter⟩
    | append v key =>
      obtain rfl : key = some p := ha
      obtain ⟨owner, bag⟩ := i
      obtain ⟨owner', bag'⟩ := j
      obtain ⟨rfl, hslot⟩ := h
      simp only [act, Outcome.replacing, append]
      split
      · exact ⟨rfl, hslot⟩
      · split
        · exact ⟨rfl, hslot⟩
        · exact ⟨rfl, by simp [done, slot, Collection.get?_insert]⟩
  · exact ⟨rfl, h.2⟩

/-! ### Operations and histories -/

/-- What comes of those operations of a history that write under a name. -/
def resultsAt (i : Instance) (p : String) : List Operation → List (Except StoreError (Option Value))
  | [] => []
  | o :: os =>
    if o.address? i.owner = some p then
      (i.perform o).result :: resultsAt (i.perform o).after p os
    else resultsAt (i.perform o).after p os

theorem slot_perform_of_ne (hp : Key.parse p = .name p) {o : Operation}
    (ho : o.address? i.owner ≠ some p) : (i.perform o).after.slot p = i.slot p := by
  rw [perform_eq_act]
  refine slot_act_of_ne hp ?_
  rcases o.address?_action i.owner with h | ⟨e, h⟩
  · rw [h]; exact ho
  · rw [h]; exact fun h => by cases h

/-- Operations that write under a name and have one action have one result, as far as the instances
agree there. -/
theorem perform_congr_at (h : AgreeAt p i j) {o o' : Operation}
    (ho : o.address? i.owner = some p) (hsame : o'.action i.owner = o.action i.owner) :
    (i.perform o).result = (j.perform o').result ∧
      AgreeAt p (i.perform o).after (j.perform o').after := by
  have howner : (i.perform o).after.owner = (j.perform o').after.owner := by
    rw [owner_perform, owner_perform, h.1]
  have hact : (o.action i.owner).address? = some p ∨ ∃ e, o.action i.owner = .refuse e := by
    rcases o.address?_action i.owner with haddress | hrefuse
    · exact Or.inl (haddress.trans ho)
    · exact Or.inr hrefuse
  have hperform : j.perform o' = j.act (o.action i.owner) := by
    rw [perform_eq_act, ← h.1, hsame]
  obtain ⟨hresult, hslot⟩ := act_congr_at h hact
  rw [hperform] at howner ⊢
  rw [perform_eq_act] at howner ⊢
  exact ⟨hresult, howner, hslot⟩

/-- A history comes, under a name, to what those of its operations come to that write there. -/
theorem run_filter_at (hp : Key.parse p = .name p) {c : Class} (hi : i.owner = c)
    (h : AgreeAt p i j) (os : List Operation) :
    i.resultsAt p os = j.resultsAt p (os.filter (·.address? c = some p)) ∧
      (i.run os).slot p = (j.run (os.filter (·.address? c = some p))).slot p := by
  induction os generalizing i j with
  | nil => exact ⟨rfl, h.2⟩
  | cons o os ih =>
    subst hi
    have howner := owner_perform i o
    by_cases ho : o.address? i.owner = some p
    · obtain ⟨hresult, hagree⟩ := perform_congr_at h ho rfl
      obtain ⟨hresults, hslot⟩ := ih howner hagree
      have ho' : o.address? j.owner = some p := by rw [← h.1]; exact ho
      rw [List.filter_cons_of_pos (by simpa using ho)]
      refine ⟨?_, hslot⟩
      rw [resultsAt, if_pos ho, resultsAt, if_pos ho', hresult, hresults]
    · -- the operation is left out on one side, and on the other it leaves the slot alone
      have hagree : AgreeAt p (i.perform o).after j :=
        ⟨howner.trans h.1, (slot_perform_of_ne hp ho).trans h.2⟩
      obtain ⟨hresults, hslot⟩ := ih howner hagree
      rw [List.filter_cons_of_neg (by simpa using ho)]
      refine ⟨?_, hslot⟩
      rw [resultsAt, if_neg ho, hresults]

/-- Operations that all write under a name come to the same there if they have the same actions. -/
theorem run_congr_at {c : Class} (hi : i.owner = c) (h : AgreeAt p i j) {os os' : List Operation}
    (hos : ∀ o ∈ os, o.address? c = some p) (hos' : ∀ o ∈ os', o.address? c = some p)
    (hsame : os.map (·.action c) = os'.map (·.action c)) :
    i.resultsAt p os = j.resultsAt p os' ∧ (i.run os).slot p = (j.run os').slot p := by
  induction os generalizing i j os' with
  | nil =>
    obtain rfl := List.map_eq_nil_iff.mp hsame.symm
    exact ⟨rfl, h.2⟩
  | cons o os ih =>
    subst hi
    rcases os' with _ | ⟨o', os'⟩
    · cases hsame
    · obtain ⟨haction, hrest⟩ := List.cons.inj hsame
      have ho := hos o List.mem_cons_self
      have ho' : o'.address? j.owner = some p := by
        rw [← h.1]; exact hos' o' List.mem_cons_self
      obtain ⟨hresult, hagree⟩ := perform_congr_at h ho haction.symm
      obtain ⟨hresults, hslot⟩ := ih (owner_perform i o) hagree
        (fun q hq => hos q (List.mem_cons_of_mem o hq))
        (fun q hq => hos' q (List.mem_cons_of_mem o' hq)) hrest
      refine ⟨?_, hslot⟩
      rw [resultsAt, if_pos ho, resultsAt, if_pos ho', hresult, hresults]

end Instance

/-- **Slots are local.**  Take an explicit property of a linked class, and two histories of new
instances that agree in what the class makes of those operations that write under its name, whatever
else they do.  Then these operations have the same results in both, errors included, and both
instances hold the same under the name in the end.  No other operation touches the slot: none that
writes under no name, under another one, or under a text that is an index. -/
theorem Registry.slots_are_local {ds : List Descriptor} {r : Registry} (hr : link ds = .ok r)
    {c : Class} (hc : c ∈ r.classes) {p : String} {t : SlotType} (ht : c.property? p = some t) :
    (∀ history other : List Operation,
      (history.filter (·.address? c = some p)).map (·.action c) =
        (other.filter (·.address? c = some p)).map (·.action c) →
      c.create.resultsAt p history = c.create.resultsAt p other ∧
        (c.create.run history).slot p = (c.create.run other).slot p) ∧
    ∀ (i : Instance) (o : Operation), i.owner = c →
      (o.address? c ≠ some p ∨ ∃ s n, o.address? c = some s ∧ Key.parse s = .index n) →
      (i.perform o).after.slot p = i.slot p := by
  obtain ⟨x, rfl⟩ := exists_ident hr hc ht
  have hp := Key.parse_ident x
  refine ⟨?_, ?_⟩
  · intro history other hsame
    have hself : Instance.AgreeAt x.text c.create c.create := ⟨rfl, rfl⟩
    have hthere : ∀ os : List Operation, ∀ o ∈ os.filter (·.address? c = some x.text),
        o.address? c = some x.text := by
      intro os o ho
      simpa using (List.mem_filter.mp ho).2
    -- both histories are thinned out, and then taken step by step together
    obtain ⟨hresults, hslot⟩ := Instance.run_filter_at hp (c := c) rfl hself history
    obtain ⟨hresults', hslot'⟩ := Instance.run_filter_at hp (c := c) rfl hself other
    obtain ⟨hthin, hthin'⟩ :=
      Instance.run_congr_at (c := c) rfl hself (hthere history) (hthere other) hsame
    exact ⟨(hresults.trans hthin).trans hresults'.symm, (hslot.trans hthin').trans hslot'.symm⟩
  · rintro i o rfl ho
    refine Instance.slot_perform_of_ne hp ?_
    rcases ho with ho | ⟨s, n, hs, hn⟩
    · exact ho
    · rw [hs]
      rintro ⟨⟩
      rw [hp] at hn
      cases hn

/-- One history adds to what is no property, under the very name, and so appends there; in between
it appends under no key and under an index, and is refused twice.  The other one appends outright,
and adds by the name of the accessor. -/
theorem items_of_shelf_are_local :
    let c := Class.root shelf
    let history : List Operation :=
      [.append (.int 1) none, .add (some "items") (some "boxes") .null, .set "weight" (.int 2),
        .add (some "k") (some "items") (.int 3), .append (.int 4) (some "7"),
        .add none none (.int 5), .add none (some "items") (.int 6)]
    let other : List Operation :=
      [.append .null (some "items"), .call "addItems" (.int 3) (some "k"),
        .call "addItems" (.int 6) none]
    Registry.link [shelf] = .ok ⟨[c]⟩ ∧ c.property? "items" = some (.primitive .array) ∧
    (history.filter (·.address? c = some "items")).map (·.action c) =
      (other.filter (·.address? c = some "items")).map (·.action c) ∧
    c.create.resultsAt "items" history = c.create.resultsAt "items" other ∧
    (c.create.run history).slot "items" = (c.create.run other).slot "items" ∧
    ((c.create.run history).perform (.append (.int 8) none)).after.slot "items" =
      (c.create.run history).slot "items" := by
  intro c history other
  have hlink : Registry.link [shelf] = .ok ⟨[Class.root shelf]⟩ := by with_unfolding_all rfl
  have ht : (Class.root shelf).property? "items" = some (.primitive .array) := by rfl
  have hsame : (history.filter (·.address? c = some "items")).map (·.action c) =
      (other.filter (·.address? c = some "items")).map (·.action c) := by rfl
  obtain ⟨hruns, htouch⟩ := Registry.slots_are_local hlink List.mem_cons_self ht
  obtain ⟨hresults, hslot⟩ := hruns history other hsame
  refine ⟨hlink, ht, hsame, hresults, hslot, ?_⟩
  exact htouch (c.create.run history) (.append (.int 8) none) (Instance.owner_run _ _)
    (Or.inl (by simp [Operation.address?]))

end ClassSchema
