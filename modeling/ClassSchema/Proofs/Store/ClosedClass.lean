/-
Instances of classes that have no wildcard.

* `Instance.writtenNames` — the names under which the operations of a history have written;
* `perform_of_closed` — an operation leaves the instance as it is, or it writes under the name of an
  explicit property;
* `keys_run_of_closed` — so the keys are such names, in the order of their first writes;
* `closed_class_confined` — what that means for indexes, for additions and for the JSON tree.

Design notes: without a wildcard nothing is ever appended, so all that is written passes by the
types of the explicit properties.  This is why a slot for arrays never holds anything else: `add`
does not look at what the slot holds before it opens it, and does not have to.
-/
import ClassSchema.Proofs.Store.ArraySlot
import ClassSchema.Proofs.Store.Atomicity
import ClassSchema.Proofs.Store.Rendering
import ClassSchema.Proofs.Store.SlotLocality

namespace ClassSchema

namespace Instance

variable {i : Instance} {c : Class}

/-- The names under which the operations of a history have written, in the order of the writes. -/
def writtenNames (i : Instance) (history : List Operation) : List String :=
  (i.succeeding history).filterMap (·.address? i.owner)

/-! ### One operation -/

theorem append_of_closed (hclosed : i.owner.wildcard = none) (v : Value) (key : Option String) :
    i.append v key = i.refuse (.notOpen i.ownerName) := by
  simp only [append, hclosed]

/-- What is set, or added to, is a property that the class has. -/
theorem exists_property?_of_stores (hclosed : i.owner.wildcard = none) {o : Operation}
    {key : Key} {w : Value} {out : Option Value} (hok : (i.perform o).result = .ok out)
    (hstores : (o.action i.owner).Stores i.bag key w) :
    ∃ name t, i.owner.property? name = some t ∧ (o.action i.owner).address? = some name ∧
      key = .parse name := by
  have hof := o.of_action i.owner
  rw [perform_eq_act] at hok
  generalize o.action i.owner = a at hof hok hstores ⊢
  cases hstores with
  | set name =>
    rcases ht : i.owner.property? name with _ | t
    · -- the name is neither explicit nor covered by a wildcard
      have hnone : i.owner.hasProperty? name = none := by
        rw [Class.hasProperty?, ht, hclosed]
        rfl
      simp only [act, Outcome.replacing, set, hnone] at hok
      cases hok
    · exact ⟨name, t, ht, rfl, rfl⟩
  | @addTo p k v c k' hopens hk =>
    obtain ⟨t, ht⟩ := hof.exists_property?
    exact ⟨p, t, ht, rfl, rfl⟩
  | append hk =>
    -- nothing is appended to an instance of a closed class
    simp only [act, append_of_closed hclosed] at hok
    cases hok

/-- **An operation leaves the instance as it is, or it writes under the name of a property.** -/
theorem perform_of_closed (hclosed : i.owner.wildcard = none) (hbag : i.bag.Tight)
    (o : Operation) :
    (i.writtenNames [o] = [] ∧ (i.perform o).after = i) ∨
      ∃ name t w, i.owner.property? name = some t ∧ i.writtenNames [o] = [name] ∧
        (i.perform o).after = i.storing (.parse name) w := by
  rcases hresult : (i.perform o).result with e | out
  · refine Or.inl ⟨?_, perform_after_of_error hresult⟩
    simp only [writtenNames, succeeding, hresult, List.filterMap_nil]
  · have hwritten : i.writtenNames [o] = (o.address? i.owner).toList := by
      simp only [writtenNames, succeeding, hresult]
      rcases ho : o.address? i.owner with _ | name <;> simp [ho]
    -- the operation was not refused, so it writes where its action does
    have haddress : (o.action i.owner).address? = o.address? i.owner := by
      rcases o.address?_action i.owner with heq | ⟨e, he⟩
      · exact heq
      · rw [perform_eq_act, he] at hresult
        cases hresult
    have hact := hresult
    rw [perform_eq_act] at hact
    rw [hwritten, ← haddress]
    rcases act_of_ok hbag hact with ⟨hlooks, hsame⟩ | ⟨key, w, hstores, hafter⟩
    · rw [← perform_eq_act] at hsame
      have hnone : ∀ {a : Action}, a.Looks → a.address? = none := by
        intro a ha
        cases ha <;> rfl
      exact Or.inl ⟨by rw [hnone hlooks]; rfl, hsame⟩
    · rw [← perform_eq_act] at hafter
      obtain ⟨name, t, ht, hname, rfl⟩ := exists_property?_of_stores hclosed hresult hstores
      rw [hname]
      exact Or.inr ⟨name, t, w, ht, rfl, hafter⟩

/-! ### Histories -/

theorem writtenNames_concat (i : Instance) (os : List Operation) (o : Operation) :
    i.writtenNames (os ++ [o]) = i.writtenNames os ++ (i.run os).writtenNames [o] := by
  rw [writtenNames, succeeding_append, List.filterMap_append]
  simp only [writtenNames, owner_run]

/-- **The keys are names of explicit properties, in the order of their first writes.** -/
theorem keys_run_of_closed (hclosed : c.wildcard = none)
    (hnames : ∀ name t, c.property? name = some t → Key.parse name = .name name)
    (history : List Operation) :
    (c.create.run history).bag.keys = (c.create.writtenNames history).eraseDups.map Key.name ∧
      ∀ name ∈ c.create.writtenNames history, ∃ t, c.property? name = some t := by
  induction history using List.reverseRecOn with
  | nil => exact ⟨rfl, fun name hname => absurd hname List.not_mem_nil⟩
  | append_singleton os o ih =>
    obtain ⟨hkeys, hexplicit⟩ := ih
    have howner : (c.create.run os).owner = c := owner_run c.create os
    have htight : (c.create.run os).bag.Tight := (orderly_run_create c os).tight
    have hclosed' : (c.create.run os).owner.wildcard = none := by rw [howner]; exact hclosed
    rw [run_concat, writtenNames_concat]
    rcases perform_of_closed hclosed' htight o with ⟨hnone, hsame⟩ | ⟨name, t, w, ht, hname, hafter⟩
    · rw [hnone, hsame, List.append_nil]
      exact ⟨hkeys, hexplicit⟩
    · rw [howner] at ht
      have hkey : Key.parse name = .name name := hnames name t ht
      have hmem : Key.name name ∈ (c.create.run os).bag.keys ↔
          name ∈ c.create.writtenNames os := by
        rw [hkeys]
        simp
      rw [hname, hafter]
      refine ⟨?_, ?_⟩
      · rw [storing, Collection.keys_insert, hkey, Entries.eraseDups_concat]
        by_cases hold : name ∈ c.create.writtenNames os
        · rw [if_pos (hmem.mpr hold), if_pos hold, hkeys]
        · rw [if_neg (mt hmem.mp hold), if_neg hold, hkeys, List.map_append]
          rfl
      · intro other hother
        rcases List.mem_append.mp hother with hother | hother
        · exact hexplicit other hother
        · obtain rfl := List.mem_singleton.mp hother
          exact ⟨t, ht⟩

/-- A closed class never lets its slots for arrays hold anything else. -/
theorem holdsArray_run_of_closed (hclosed : c.wildcard = none) {p : String} {t : SlotType}
    (ht : c.property? p = some t) (harray : t.isArray = true) (hp : Key.parse p = .name p)
    (history : List Operation) : (c.create.run history).HoldsArray p := by
  by_contra hspoiled
  obtain ⟨before, o, after, -, hspoils, -⟩ :=
    (not_holdsArray_run_iff ht harray hp history).mp hspoiled
  obtain ⟨⟨wildcard, hwildcard, -⟩, -⟩ := hspoils
  rw [hclosed] at hwildcard
  cases hwildcard

/-- What can be opened lacks a next index at most. -/
theorem add_error_of_holdsArray {p : String} {t : SlotType} (ht : i.owner.property? p = some t)
    (harray : t.isArray = true) (hholds : i.HoldsArray p) {key : Option String} {v : Value}
    {e : StoreError} (h : (i.add key (some p) v).result = .error e) :
    e = .indexExhausted i.ownerName (some p) := by
  simp only [add, ht, harray, if_true, addToProperty_eq] at h
  rcases ho : openList i.bag (.parse p) with found | ⟨bag, c⟩
  · -- the slot would hold something that no array is
    obtain ⟨w, hget, hnot, -⟩ := openList_eq_error_iff.mp ho
    rw [hholds w hget] at hnot
    cases hnot
  · simp only [ho] at h
    rcases hk : c.target? key with _ | k
    · simp only [hk] at h
      exact (Except.error.inj h).symm
    · simp only [hk] at h
      cases h

/-! ### The JSON tree -/

/-- A bag whose keys are names is written as an object, unless it is empty. -/
theorem toJson_of_names (hbag : i.bag.Orderly) {names : List String}
    (hkeys : i.bag.keys = names.map Key.name) :
    (names = [] → i.toJson = .arr []) ∧
      (names ≠ [] → ∃ members, i.toJson = .obj members ∧ Entries.keys members = names) := by
  have hkeys' : Entries.keys (Entries.mapValues Value.toJson i.bag.entries) =
      names.map Key.name := by
    rw [Entries.keys_mapValues]
    exact hkeys
  have hwritten : ∀ key ∈ Entries.keys (Entries.mapValues Value.toJson i.bag.entries),
      key.Written := by
    rw [Entries.keys_mapValues]
    exact hbag.written
  have hnodup : (Entries.keys (Entries.mapValues Value.toJson i.bag.entries)).Nodup := by
    rw [Entries.keys_mapValues]
    exact hbag.nodup
  rw [toJson, Value.collectionToJson_eq, Value.jsonOfEntries_eq hnodup hwritten, hkeys']
  rcases names with _ | ⟨name, rest⟩
  · have hnil : Entries.mapValues Value.toJson i.bag.entries = [] := by
      simpa [Entries.keys] using hkeys'
    exact ⟨fun _ => by rw [hnil]; rfl, fun hne => absurd rfl hne⟩
  · refine ⟨fun h => (by cases h), fun _ => ⟨_, rfl, ?_⟩⟩
    have htexts := congrArg (List.map Key.text) hkeys'
    rw [Entries.keys, List.map_map] at htexts ⊢
    rw [show Prod.fst ∘ (fun e : Key × Json => (e.1.text, e.2)) = Key.text ∘ Prod.fst from rfl,
      htexts, List.map_map]
    exact List.map_id _

end Instance

/-- **Closed classes are confined.**  Whatever was done to an instance of a class without a
wildcard, its keys are the names under which operations have written, in the order of the first
writes, and all of them are explicit properties; no index appears, and the next one stays zero.
Nothing is ever appended.  To add to a property that holds arrays fails only where no index is left,
be it by name or not.  The instance is written as an object with these names for members, or as the
empty array where there are none. -/
theorem Registry.closed_class_confined {ds : List Descriptor} {r : Registry}
    (hr : link ds = .ok r) {c : Class} (hc : c ∈ r.classes) (hclosed : c.wildcard = none)
    (history : List Operation) :
    let i := c.create.run history
    let names := (c.create.writtenNames history).eraseDups
    i.bag.keys = names.map Key.name ∧ (∀ name ∈ names, ∃ t, c.property? name = some t) ∧
    i.bag.next = some 0 ∧
    (∀ v key, (i.append v key).result = .error (.notOpen c.qualified)) ∧
    (∀ p t, c.property? p = some t → t.isArray = true → ∀ key v e,
      ((i.add key (some p) v).result = .error e → e = .indexExhausted c.qualified (some p)) ∧
      ∀ accessor, c.accessor? accessor = some ⟨.add, p⟩ →
        (i.call accessor v key).result = .error e → e = .indexExhausted c.qualified (some p)) ∧
    (names = [] → i.toJson = .arr []) ∧
    (names ≠ [] → ∃ members, i.toJson = .obj members ∧ Entries.keys members = names) := by
  intro i names
  have hproperty : ∀ name t, c.property? name = some t → Key.parse name = .name name := by
    intro name t ht
    obtain ⟨x, rfl⟩ := exists_ident hr hc ht
    exact Key.parse_ident x
  have howner : i.owner = c := Instance.owner_run c.create history
  have hqualified : i.ownerName = c.qualified := congrArg Class.qualified howner
  have horderly : i.bag.Orderly := Instance.orderly_run Collection.orderly_empty history
  obtain ⟨hkeys, hexplicit⟩ := Instance.keys_run_of_closed hclosed hproperty history
  have hadd : ∀ p t, c.property? p = some t → t.isArray = true → ∀ {key v e},
      (i.add key (some p) v).result = .error e → e = .indexExhausted c.qualified (some p) := by
    intro p t ht harray key v e he
    have hholds := Instance.holdsArray_run_of_closed hclosed ht harray (hproperty p t ht) history
    rw [← hqualified]
    exact Instance.add_error_of_holdsArray (by rw [howner]; exact ht) harray hholds he
  refine ⟨hkeys, ?explicit, ?next, ?append, ?add, Instance.toJson_of_names horderly hkeys⟩
  case explicit =>
    intro name hname
    exact hexplicit name (List.mem_eraseDups.mp hname)
  case next =>
    refine horderly.tight.next_of_no_index fun n hn => ?_
    rw [hkeys] at hn
    obtain ⟨name, -, heq⟩ := List.mem_map.mp hn
    cases heq
  case append =>
    intro v key
    rw [Instance.append_of_closed (by rw [howner]; exact hclosed), hqualified]
    rfl
  case add =>
    intro p t ht harray key v e
    refine ⟨hadd p t ht harray, fun accessor haccessor he => ?_⟩
    rw [← howner] at haccessor
    simp only [Instance.call, haccessor] at he
    exact hadd p t ht harray (Except.map_eq_error_iff.mp he)

/-- A type whose arrays are those of one property. -/
def crate : Descriptor where
  name := ⟨"crate", by decide⟩
  namespacePath := none
  qualified := "Crate"
  parent := none
  properties := [(⟨"items", items_valid⟩, .arrayOf (.primitive .int)),
    (⟨"label", by decide⟩, .primitive .string)]
  wildcard := none

/-- The label is set twice and the items are used up; all else is refused. -/
theorem crate_is_confined :
    let c := Class.root crate
    let history : List Operation :=
      [.set "label" (.str "pears"), .append (.int 1) none, .set "weight" (.int 2),
        .add (some "18446744073709551615") (some "items") (.int 3), .set "items" (.int 4),
        .append (.int 5) (some "items"), .call "setLabel" .null none]
    let i := c.create.run history
    Registry.link [crate] = .ok ⟨[c]⟩ ∧ c.wildcard = none ∧
    i.bag.keys = ["label", "items"].map Key.name ∧ i.bag.next = some 0 ∧
    (i.call "addItems" (.int 6) none).result = .error (.indexExhausted "Crate" (some "items")) ∧
    ∃ members, i.toJson = .obj members ∧ Entries.keys members = ["label", "items"] := by
  intro c history i
  have hlink : Registry.link [crate] = .ok ⟨[Class.root crate]⟩ := by with_unfolding_all rfl
  have hnames : (c.create.writtenNames history).eraseDups = ["label", "items"] := by decide +kernel
  obtain ⟨hkeys, -, hnext, -, -, -, hjson⟩ :=
    Registry.closed_class_confined hlink List.mem_cons_self rfl history
  rw [hnames] at hkeys hjson
  exact ⟨hlink, rfl, hkeys, hnext, by rfl, hjson (by decide)⟩

end ClassSchema
