/-
What operations leave in the bag of an instance.

* `Collection.Orderly` — no key is repeated, some text writes each of them, and the next index is
  the least that is above them all;
* `Collection.Sound` — an orderly collection whose values have some property;
* `Action.Of` — to which actions operations come, and where their values are;
* `Action.Stores` — at which key an action stores which value, given the bag that it finds;
* `Action.Places` — which collections an action puts at a key as they were given;
* `act_of_ok` — an action that succeeds reads and changes nothing, or it stores one value;
* `orderly_run` — so the bag of an instance is orderly, whatever was done to it;
* `list_run` — and a collection in it keeps what additions keep.

Design notes: to add to a property is to open a collection, to change it and to put it back.  What
is put back stands at a key that is present by then, so the three steps come to one insertion, and
every write of the store is an insertion of one value at one key.
-/
import ClassSchema.Proofs.Outcome
import ClassSchema.Proofs.Store.Action
import ClassSchema.Proofs.Store.Key

namespace ClassSchema

namespace Collection

variable {α : Type} {c : Collection α}

/-! ### Orderly collections -/

/-- No key is repeated, the next index is the least above all indexes, and some text writes each
key. -/
structure Orderly (c : Collection α) : Prop where
  nodup : c.keys.Nodup
  tight : c.Tight
  written : ∀ key ∈ c.keys, key.Written

theorem orderly_empty : (empty : Collection α).Orderly where
  nodup := List.nodup_nil
  tight := tight_empty
  written := fun _ hkey => absurd hkey List.not_mem_nil

theorem Orderly.insert (h : c.Orderly) {key : Key} (hkey : key.Written) (value : α) :
    (c.insert key value).Orderly where
  nodup := Entries.nodup_keys_put key value h.nodup
  tight := tight_insert h.tight key value
  written := by
    intro k hk
    rcases mem_keys_insert.mp hk with rfl | hk
    · exact hkey
    · exact h.written k hk

/-! ### Collections whose values have a property -/

section Sound

variable {P : α → Prop}

/-- The collection is orderly, and all its values have a property. -/
structure Sound (P : α → Prop) (c : Collection α) : Prop where
  orderly : c.Orderly
  holds : ∀ e ∈ c.entries, P e.2

theorem sound_empty : (empty : Collection α).Sound P :=
  ⟨orderly_empty, fun _ he => absurd he List.not_mem_nil⟩

theorem Sound.insert (h : c.Sound P) {key : Key} (hkey : key.Written) {value : α}
    (hvalue : P value) : (c.insert key value).Sound P where
  orderly := h.orderly.insert hkey value
  holds := by
    intro e he
    rcases Entries.mem_of_mem_put he with rfl | he
    · exact hvalue
    · exact h.holds e he

theorem Sound.push (h : c.Sound P) {value : α} (hvalue : P value) {i : UInt64}
    {after : Collection α} (hpush : c.push value = some (i, after)) : after.Sound P := by
  rcases hn : c.next with _ | n
  · rw [(push_eq_none_iff c value).mpr hn] at hpush
    cases hpush
  · rw [push_eq_insert hn] at hpush
    obtain ⟨rfl, rfl⟩ := Prod.mk.inj (Option.some.inj hpush)
    exact h.insert (Key.written_index n) hvalue

theorem Sound.pushAll (h : c.Sound P) {values : List α} (hvalues : ∀ value ∈ values, P value) :
    (c.pushAll values).Sound P := by
  induction values generalizing c with
  | nil => exact h
  | cons value rest ih =>
    have hrest : ∀ v ∈ rest, P v := fun v hv => hvalues v (List.mem_cons_of_mem value hv)
    have hstep : (((c.push value).map Prod.snd).getD c).Sound P := by
      -- what cannot be pushed is left out
      rcases hpush : c.push value with _ | ⟨i, after⟩
      · exact h
      · exact h.push (hvalues value List.mem_cons_self) hpush
    exact ih hstep hrest

theorem Sound.insertAll (h : c.Sound P) {pairs : List (Key × α)}
    (hpairs : ∀ p ∈ pairs, p.1.Written ∧ P p.2) : (c.insertAll pairs).Sound P := by
  induction pairs generalizing c with
  | nil => exact h
  | cons p rest ih =>
    obtain ⟨hkey, hvalue⟩ := hpairs p List.mem_cons_self
    exact ih (h.insert hkey hvalue) fun q hq => hpairs q (List.mem_cons_of_mem p hq)

theorem Sound.get? (h : c.Sound P) {key : Key} {value : α} (hget : c.get? key = some value) :
    P value :=
  h.holds (key, value) (Entries.mem_of_get? hget)

end Sound

/-! ### Where values go -/

theorem written_target? {key : Option String} {k : Key} (h : c.target? key = some k) :
    k.Written := by
  rcases key with _ | s
  · obtain ⟨n, -, rfl⟩ := Option.map_eq_some_iff.mp h
    exact Key.written_index n
  · obtain rfl := Option.some.inj h
    exact Key.written_parse s

/-- To write at a key that is present is to insert there: the next index is past it already. -/
theorem Tight.replace_eq_insert (h : c.Tight) {key : Key} (hkey : key ∈ c.keys) (value : α) :
    c.replace key value = c.insert key value := by
  have hnext : c.nextAfter key = c.next := by
    cases key with
    | name s => rfl
    | index i =>
      rcases hn : c.next with _ | n
      · simp [nextAfter, hn]
      · have hlt : i.toNat < c.nextNumber := (h c.nextNumber).mp le_rfl i hkey
        have hnumber : c.nextNumber = n.toNat := next_eq_some_iff.mp hn
        have hle : ¬ n ≤ i := by
          rw [UInt64.le_iff_toNat_le]
          omega
        simp [nextAfter, hn, hle]
  rw [replace, insert, hnext]

theorem replace_insert (c : Collection α) (key : Key) (value other : α) :
    (c.insert key value).replace key other = c.insert key other := by
  rw [replace, insert, insert, Entries.put_put]

/-- The collection to which a value under a key of the bag can be added: the one that is held there,
or a fresh one if there is nothing or null. -/
def Opens (bag : Collection Value) (key : Key) (c : Collection Value) : Prop :=
  bag.get? key = some (.list c) ∨
    ((bag.get? key = none ∨ bag.get? key = some .null) ∧ c = .empty)

end Collection

/-! ### Actions of operations -/

/-- The value that an operation is given. -/
def Operation.operand? : Operation → Option Value
  | .get _ => none
  | .set _ v | .setting _ v | .add _ _ v | .append v _ | .call _ v _ => some v

/-- The actions that operations on instances of a class come to, by the value that they take. -/
inductive Action.Of (c : Class) : Option Value → Action → Prop where
  | refuse {given : Option Value} (e : StoreError) : Of c given (.refuse e)
  | get {given : Option Value} (name : String) : Of c given (.get name)
  | read {given : Option Value} (name : String) : Of c given (.read name)
  | set (name : String) (v : Value) : Of c (some v) (.set name v)
  | addTo {property : String} {t : SlotType} (key : Option String) (v : Value) :
      c.property? property = some t → Of c (some v) (.addTo property key v)
  | append (v : Value) (key : Option String) : Of c (some v) (.append v key)

theorem Action.Of.exists_property? {c : Class} {given : Option Value} {property : String}
    {key : Option String} {v : Value} (h : Of c given (.addTo property key v)) :
    ∃ t, c.property? property = some t := by
  cases h with
  | addTo _ _ ht => exact ⟨_, ht⟩

theorem Class.of_addAction (c : Class) (key property : Option String) (v : Value) :
    (c.addAction key property v).Of c (some v) := by
  unfold addAction
  split
  · split
    · exact .set _ v
    · exact .refuse _
  · split
    · next t ht =>
      split
      · exact .addTo key v ht
      · exact .refuse _
    · split
      · exact .append v key
      · exact .refuse _

theorem Operation.of_action (o : Operation) (c : Class) : (o.action c).Of c o.operand? := by
  cases o with
  | get name => exact .get name
  | set name v => exact .set name v
  | setting name v => exact .set name v
  | add key property v => exact c.of_addAction key property v
  | append v key => exact .append v key
  | call accessor v key =>
    rw [action]
    rcases c.accessor? accessor with _ | ⟨verb, p⟩
    · exact .refuse _
    · cases verb with
      | get => exact .read p
      | set => exact .set p v
      | add => exact c.of_addAction key (some p) v
      | append => exact .append v key

/-! ### What actions store -/

/-- The key and the value that an action stores, given the bag that it finds. -/
inductive Action.Stores (bag : Collection Value) : Action → Key → Value → Prop where
  | set (name : String) (v : Value) : Stores bag (.set name v) (.parse name) v
  | append {v : Value} {key : Option String} {k : Key} : bag.target? key = some k →
      Stores bag (.append v key) k v
  | addTo {property : String} {key : Option String} {v : Value} {c : Collection Value} {k : Key} :
      bag.Opens (.parse property) c → c.target? key = some k →
      Stores bag (.addTo property key v) (.parse property) (.list (c.insert k v))

/-- The action puts a collection at a key as it was given; where no key is named, any index may be
next. -/
inductive Action.Places : Action → Key → Collection Value → Prop where
  | set (name : String) (d : Collection Value) : Places (.set name (.list d)) (.parse name) d
  | append (k : String) (d : Collection Value) : Places (.append (.list d) (some k)) (.parse k) d
  | push (n : UInt64) (d : Collection Value) : Places (.append (.list d) none) (.index n) d

/-- An action that only looks at the instance. -/
inductive Action.Looks : Action → Prop where
  | get (name : String) : Looks (.get name)
  | read (name : String) : Looks (.read name)

theorem Action.Stores.written {bag : Collection Value} {a : Action} {key : Key} {w : Value}
    (h : a.Stores bag key w) : key.Written := by
  cases h with
  | set name v => exact Key.written_parse name
  | append hk => exact Collection.written_target? hk
  | addTo _ _ => exact Key.written_parse _

/-- A collection that is stored was given as it is, or a value was added to one that is opened. -/
theorem Action.Stores.places_or_adds {bag : Collection Value} {a : Action} {key : Key}
    {d : Collection Value} (h : a.Stores bag key (.list d)) :
    a.Places key d ∨
      ∃ c k v, bag.Opens key c ∧ k.Written ∧ d = c.insert k v := by
  cases h with
  | set name => exact Or.inl (.set name d)
  | @append v key k hk =>
    rcases key with _ | s
    · obtain ⟨n, -, rfl⟩ := Option.map_eq_some_iff.mp hk
      exact Or.inl (.push n d)
    · obtain rfl := Option.some.inj hk
      exact Or.inl (.append s d)
  | addTo hopens hk => exact Or.inr ⟨_, _, _, hopens, Collection.written_target? hk, rfl⟩

theorem Action.Places.eq_given {c : Class} {given : Option Value} {a : Action} {key : Key}
    {d : Collection Value} (h : a.Places key d) (hof : a.Of c given) : given = some (.list d) := by
  cases h with
  | set => cases hof; rfl
  | append => cases hof; rfl
  | push => cases hof; rfl

theorem Outcome.result_of_replacing {o : Outcome Unit} {b out : Option Value}
    (h : (o.replacing b).result = .ok out) : o.result = .ok () := by
  obtain ⟨⟨⟩, ho, -⟩ := Except.map_eq_ok_iff.mp h
  exact ho

namespace Instance

variable {i : Instance}

/-- What is put back into a collection that was opened is inserted. -/
theorem replace_openList {bag b : Collection Value} {key : Key} {c : Collection Value}
    (h : bag.Tight) (ho : openList bag key = .ok (b, c)) (w : Value) :
    bag.Opens key c ∧ b.replace key w = bag.insert key w := by
  rcases openList_eq_ok ho with ⟨hget, rfl⟩ | ⟨hget, rfl, rfl⟩
  · have hkey : key ∈ b.keys := by
      refine Entries.contains_iff.mp ?_
      rw [Entries.contains, show Entries.get? key b.entries = some (.list c) from hget]
      rfl
    exact ⟨Or.inl hget, h.replace_eq_insert hkey w⟩
  · exact ⟨Or.inr ⟨hget, rfl⟩, bag.replace_insert key _ w⟩

/-- The instance with one more value in its bag. -/
def storing (i : Instance) (key : Key) (w : Value) : Instance :=
  { i with bag := i.bag.insert key w }

theorem set_of_ok {name : String} {v : Value} (hok : (i.set name v).result = .ok ()) :
    (∃ t, i.owner.hasProperty? name = some t) ∧
      (i.set name v).after = i.storing (.parse name) v := by
  unfold set at hok ⊢
  split at hok
  · cases hok
  · next t ht =>
    split at hok
    · cases hok
    · next hfits =>
      rw [if_neg hfits]
      exact ⟨⟨t, ht⟩, rfl⟩

theorem append_of_ok {v : Value} {key : Option String} (hok : (i.append v key).result = .ok ()) :
    i.owner.isOpen = true ∧
      ∃ k, i.bag.target? key = some k ∧ (i.append v key).after = i.storing k v := by
  rcases ht : i.owner.wildcard with _ | t
  · simp only [append, ht, refuse] at hok
    cases hok
  · by_cases harray : t.isArray = true
    · rw [append_eq ht harray] at hok ⊢
      rcases hk : i.bag.target? key with _ | k
      · rw [hk] at hok
        cases hok
      · exact ⟨by simp [Class.isOpen, ht], k, rfl, rfl⟩
    · simp only [append, ht, harray, Bool.not_false, if_true, refuse] at hok
      cases hok

theorem addToProperty_of_ok (h : i.bag.Tight) {property : String} {key : Option String} {v : Value}
    (hok : (i.addToProperty property key v).result = .ok ()) :
    ∃ c k, i.bag.Opens (.parse property) c ∧ c.target? key = some k ∧
      (i.addToProperty property key v).after =
        i.storing (.parse property) (.list (c.insert k v)) := by
  rw [addToProperty_eq] at hok ⊢
  rcases ho : openList i.bag (.parse property) with found | ⟨b, c⟩
  · rw [ho] at hok
    cases hok
  · rcases hk : c.target? key with _ | k
    · simp only [ho, hk] at hok
      cases hok
    · obtain ⟨hopens, hput⟩ := replace_openList h ho (.list (c.insert k v))
      refine ⟨c, k, hopens, hk, ?_⟩
      simp only [hk, hput]
      rfl

/-- **An action that succeeds looks at the instance, or it stores one value.** -/
theorem act_of_ok (h : i.bag.Tight) {a : Action} {out : Option Value}
    (hok : (i.act a).result = .ok out) :
    (a.Looks ∧ (i.act a).after = i) ∨
      ∃ key w, a.Stores i.bag key w ∧ (i.act a).after = i.storing key w := by
  cases a with
  | refuse e => cases hok
  | get name => exact Or.inl ⟨.get name, rfl⟩
  | read name => exact Or.inl ⟨.read name, rfl⟩
  | set name v =>
    obtain ⟨-, hafter⟩ := set_of_ok (Outcome.result_of_replacing hok)
    exact Or.inr ⟨_, _, .set name v, hafter⟩
  | addTo property key v =>
    obtain ⟨c, k, hopens, hk, hafter⟩ :=
      addToProperty_of_ok h (Outcome.result_of_replacing hok)
    exact Or.inr ⟨_, _, .addTo hopens hk, hafter⟩
  | append v key =>
    obtain ⟨-, k, hk, hafter⟩ := append_of_ok (Outcome.result_of_replacing hok)
    exact Or.inr ⟨_, _, .append hk, hafter⟩

theorem perform_cases (h : i.bag.Tight) (o : Operation) :
    (i.perform o).after = i ∨
      ∃ key w, (o.action i.owner).Stores i.bag key w ∧ (i.perform o).after = i.storing key w := by
  rw [perform_eq_act]
  rcases hresult : (i.act (o.action i.owner)).result with e | out
  · exact Or.inl (act_after_of_error hresult)
  · rcases act_of_ok h hresult with ⟨-, hsame⟩ | hstores
    · exact Or.inl hsame
    · exact Or.inr hstores

/-! ### Runs -/

theorem orderly_perform (h : i.bag.Orderly) (o : Operation) : (i.perform o).after.bag.Orderly := by
  rcases perform_cases h.tight o with hsame | ⟨key, w, hstores, hafter⟩
  · rw [hsame]
    exact h
  · rw [hafter]
    exact h.insert hstores.written w

theorem orderly_run (h : i.bag.Orderly) (os : List Operation) : (i.run os).bag.Orderly := by
  induction os using List.reverseRecOn with
  | nil => exact h
  | append_singleton os o ih =>
    rw [run_concat]
    exact orderly_perform ih o

theorem orderly_run_create (c : Class) (history : List Operation) :
    (c.create.run history).bag.Orderly :=
  orderly_run (i := c.create) Collection.orderly_empty history

/-! ### Collections at a key -/

section Held

variable {Q : Collection Value → Prop} {key : Key}

/-- What holds of the empty collection, and after additions to any that it holds of, holds of the
collection at a key after an operation if it did before and of what the operation places there. -/
theorem list_perform (hempty : Q .empty)
    (hinsert : ∀ {c : Collection Value} {k : Key} (v : Value), k.Written → Q c → Q (c.insert k v))
    (hbag : i.bag.Tight) {o : Operation}
    (hplaced : ∀ d, (o.action i.owner).Places key d → Q d)
    (hbefore : ∀ d, i.bag.get? key = some (.list d) → Q d) {d : Collection Value}
    (hd : (i.perform o).after.bag.get? key = some (.list d)) : Q d := by
  rcases perform_cases hbag o with hsame | ⟨k, w, hstores, hafter⟩
  · rw [hsame] at hd
    exact hbefore d hd
  · rw [hafter, storing, Collection.get?_insert] at hd
    by_cases hk : k = key
    · rw [if_pos hk] at hd
      obtain rfl := Option.some.inj hd
      rw [hk] at hstores
      rcases hstores.places_or_adds with hplaces | ⟨c, k', v, hopens, hk', rfl⟩
      · exact hplaced d hplaces
      · -- the value was added to what was held, or to a fresh collection
        refine hinsert v hk' ?_
        rcases hopens with hget | ⟨-, rfl⟩
        · exact hbefore c hget
        · exact hempty
    · rw [if_neg hk] at hd
      exact hbefore d hd

/-- Over a whole history, it holds of the collection at a key if it does of all that is placed
there. -/
theorem list_run (hempty : Q .empty)
    (hinsert : ∀ {c : Collection Value} {k : Key} (v : Value), k.Written → Q c → Q (c.insert k v))
    {c : Class} {history : List Operation}
    (hplaced : ∀ o ∈ history, ∀ d, (o.action c).Places key d → Q d) :
    ∀ d, (c.create.run history).bag.get? key = some (.list d) → Q d := by
  induction history using List.reverseRecOn with
  | nil =>
    intro d hd
    cases hd
  | append_singleton os o ih =>
    intro d hd
    have howner : (c.create.run os).owner = c := owner_run c.create os
    rw [run_concat] at hd
    refine list_perform hempty hinsert (orderly_run_create c os).tight ?_ (ih fun o' ho' => ?_) hd
    · rw [howner]
      exact hplaced o (by simp)
    · exact hplaced o' (by simp [ho'])

end Held

end Instance
end ClassSchema
