/-
What the store refuses to write, and why.

* `Class.Grants` — what a name may hold: the type of an explicit property goes before the wildcard;
* `Instance.SetFails`, `Instance.AppendFails`, `Instance.AddFails` — the causes for which a value is
  not set, not appended or not added, each with its error;
* `set_eq_error_iff`, `append_eq_error_iff`, `add_eq_error_iff` — an operation fails for one of its
  causes, with the error of that cause, and for nothing else;
* `writes_fail_exactly` — the same for all instances that there are.

Design notes: the causes speak of the keys that are there to be seen, while the program asks for the
next index.  That no index is left exactly if the greatest one is a key cannot be told from a single
operation.  It is known of the bag of an instance, and of the collections in it as long as those
that were given as they are had been made by pushes and insertions.
-/
import ClassSchema.Proofs.Store.Bag
import ClassSchema.Proofs.Store.SlotLocality

namespace ClassSchema

/-! ### Causes -/

/-- What a name may hold: an explicit property has its own type, and any other name that of the
wildcard. -/
inductive Class.Grants (c : Class) (name : String) : SlotType → Prop where
  | explicit {t : SlotType} : c.property? name = some t → Grants c name t
  | wildcard {t : SlotType} : c.property? name = none → c.wildcard = some t → Grants c name t

/-- The value is neither null nor a collection. -/
def Value.IsSingle (v : Value) : Prop := v ≠ .null ∧ ∀ d, v ≠ .list d

namespace Instance

/-- Why a value is not set under a name. -/
inductive SetFails (i : Instance) (name : String) (v : Value) : StoreError → Prop where
  | unknown : i.owner.property? name = none → i.owner.wildcard = none →
      SetFails i name v (.unknownProperty i.ownerName name)
  | mismatch {t : SlotType} : i.owner.Grants name t → t.isArray = true → v.IsSingle →
      SetFails i name v (.typeMismatch i.ownerName name t v.kind)

/-- Why a value is not appended, under a key or at the next index. -/
inductive AppendFails (i : Instance) (key : Option String) : StoreError → Prop where
  | notOpen : i.owner.wildcard = none → AppendFails i key (.notOpen i.ownerName)
  | notArray {t : SlotType} : i.owner.wildcard = some t → t.isArray = false →
      AppendFails i key (.notArray i.ownerName t.elementName t)
  | exhausted {t : SlotType} : i.owner.wildcard = some t → t.isArray = true → key = none →
      Key.index lastIndex ∈ i.bag.keys → AppendFails i key (.indexExhausted i.ownerName none)

/-- Why a value is not added to what a property holds, under a key or at the next index. -/
inductive HeldFails (i : Instance) (p : String) (key : Option String) : StoreError → Prop where
  | mismatch {w : Value} : i.slot p = some w → w.IsSingle →
      HeldFails i p key (.typeMismatch i.ownerName p (.primitive .array) w.kind)
  | exhausted {d : Collection Value} : i.slot p = some (.list d) → key = none →
      Key.index lastIndex ∈ d.keys → HeldFails i p key (.indexExhausted i.ownerName (some p))

/-- Why a value is not added, under the key and to the property that are named. -/
inductive AddFails (i : Instance) (v : Value) :
    Option String → Option String → StoreError → Prop where
  | unnamed : AddFails i v none none (.unknownProperty i.ownerName "")
  /-- Without a property, the value is set under the key. -/
  | set {name : String} {e : StoreError} : i.SetFails name v e → AddFails i v (some name) none e
  | notArray {key : Option String} {p : String} {t : SlotType} : i.owner.property? p = some t →
      t.isArray = false → AddFails i v key (some p) (.notArray i.ownerName p t)
  | held {key : Option String} {p : String} {t : SlotType} {e : StoreError} :
      i.owner.property? p = some t → t.isArray = true → i.HeldFails p key e →
      AddFails i v key (some p) e
  /-- To a property that is not explicit, the value is appended if the class is open. -/
  | append {key : Option String} {p : String} {e : StoreError} : i.owner.property? p = none →
      i.owner.isOpen = true → i.AppendFails key e → AddFails i v key (some p) e
  | unknown {key : Option String} {p : String} : i.owner.property? p = none →
      i.owner.isOpen = false → AddFails i v key (some p) (.unknownProperty i.ownerName p)

end Instance

/-! ### What the program looks at -/

theorem Class.hasProperty?_eq_none_iff {c : Class} {name : String} :
    c.hasProperty? name = none ↔ c.property? name = none ∧ c.wildcard = none := by
  rw [hasProperty?]
  rcases c.property? name with _ | t
  · simp
  · simp

theorem Class.hasProperty?_eq_some_iff {c : Class} {name : String} {t : SlotType} :
    c.hasProperty? name = some t ↔ c.Grants name t := by
  rw [hasProperty?]
  constructor
  · intro h
    rcases hp : c.property? name with _ | t'
    · rw [hp] at h
      exact .wildcard hp h
    · rw [hp] at h
      obtain rfl := Option.some.inj h
      exact .explicit hp
  · intro h
    cases h with
    | explicit hp => rw [hp]; rfl
    | wildcard hp hw => rw [hp, hw]; rfl

theorem Value.fitsArray_eq_false_iff {v : Value} : v.fitsArray = false ↔ v.IsSingle := by
  cases v <;> simp [fitsArray, kind, IsSingle]

namespace Collection

variable {c : Collection Value}

/-- A value has nowhere to go exactly if no key is named and the greatest index is used. -/
theorem Tight.target?_eq_none_iff (h : c.Tight) {key : Option String} :
    c.target? key = none ↔ key = none ∧ Key.index lastIndex ∈ c.keys := by
  rw [← h.next_eq_none_iff_last]
  rcases key with _ | k
  · simp [target?]
  · simp [target?]

end Collection

namespace Instance

variable {i : Instance} {v : Value} {key : Option String} {e : StoreError}

/-! ### The operations -/

theorem set_eq_error_iff {name : String} :
    (i.set name v).result = .error e ↔ i.SetFails name v e := by
  constructor
  · intro h
    unfold set at h
    split at h
    · next ht =>
      obtain ⟨hp, hw⟩ := Class.hasProperty?_eq_none_iff.mp ht
      obtain rfl := Except.error.inj h
      exact .unknown hp hw
    · next t ht =>
      split at h
      · next hfits =>
        obtain ⟨harray, hv⟩ : t.isArray = true ∧ v.fitsArray = false := by simpa using hfits
        obtain rfl := Except.error.inj h
        exact .mismatch (Class.hasProperty?_eq_some_iff.mp ht) harray
          (Value.fitsArray_eq_false_iff.mp hv)
      · cases h
  · intro h
    cases h with
    | unknown hp hw => simp [set, Class.hasProperty?_eq_none_iff.mpr ⟨hp, hw⟩, refuse]
    | mismatch hgrants harray hv =>
      simp [set, Class.hasProperty?_eq_some_iff.mpr hgrants, harray,
        Value.fitsArray_eq_false_iff.mpr hv, refuse]

theorem append_eq_error_iff (hbag : i.bag.Tight) :
    (i.append v key).result = .error e ↔ i.AppendFails key e := by
  constructor
  · intro h
    rcases ht : i.owner.wildcard with _ | t
    · simp only [append, ht, refuse, Except.error.injEq] at h
      obtain rfl := h
      exact .notOpen ht
    · by_cases harray : t.isArray = true
      · rw [append_eq ht harray] at h
        split at h
        · cases h
        · next hnone =>
          obtain ⟨hkey, hlast⟩ := hbag.target?_eq_none_iff.mp hnone
          obtain rfl := Except.error.inj h
          exact .exhausted ht harray hkey hlast
      · simp only [Bool.not_eq_true] at harray
        simp only [append, ht, harray, Bool.not_false, if_true, refuse, Except.error.injEq] at h
        obtain rfl := h
        exact .notArray ht harray
  · intro h
    cases h with
    | notOpen ht => simp [append, ht, refuse]
    | notArray ht harray => simp [append, ht, harray, refuse]
    | exhausted ht harray hkey hlast =>
      rw [append_eq ht harray, hbag.target?_eq_none_iff.mpr ⟨hkey, hlast⟩]
      rfl

theorem addToProperty_eq_error_iff {p : String}
    (hlists : ∀ d, i.slot p = some (.list d) → d.Tight) :
    (i.addToProperty p key v).result = .error e ↔ i.HeldFails p key e := by
  rw [addToProperty_eq]
  constructor
  · intro h
    split at h
    · next found hopen =>
      obtain ⟨w, hget, hw, rfl⟩ := openList_eq_error_iff.mp hopen
      obtain rfl := Except.error.inj h
      exact .mismatch hget (Value.fitsArray_eq_false_iff.mp hw)
    · next bag c hopen =>
      split at h
      · cases h
      · next hnone =>
        rcases openList_eq_ok hopen with ⟨hget, -⟩ | ⟨-, rfl, -⟩
        · obtain ⟨hkey, hlast⟩ := (hlists c hget).target?_eq_none_iff.mp hnone
          obtain rfl := Except.error.inj h
          exact .exhausted hget hkey hlast
        · -- no index of a fresh collection is used
          obtain ⟨-, hlast⟩ := Collection.tight_empty.target?_eq_none_iff.mp hnone
          cases hlast
  · intro h
    cases h with
    | mismatch hget hw =>
      rw [openList_eq_error_iff.mpr ⟨_, hget, Value.fitsArray_eq_false_iff.mpr hw, rfl⟩]
      rfl
    | @exhausted d hget hkey hlast =>
      have hopen : openList i.bag (.parse p) = .ok (i.bag, d) := by
        rw [openList, show i.bag.get? (.parse p) = some (.list d) from hget]
      rw [hopen]
      simp only [(hlists d hget).target?_eq_none_iff.mpr ⟨hkey, hlast⟩]
      rfl

/-- To add to a property that is not explicit is to append, if the class is open. -/
theorem add_eq_append {p : String} (hp : i.owner.property? p = none) (hopen : i.owner.isOpen = true)
    (key : Option String) (v : Value) : i.add key (some p) v = i.append v key := by
  simp only [add, hp, hopen, if_true]

theorem add_eq_addToProperty {p : String} {t : SlotType} (hp : i.owner.property? p = some t)
    (harray : t.isArray = true) (key : Option String) (v : Value) :
    i.add key (some p) v = i.addToProperty p key v := by
  simp only [add, hp, harray, if_true]

theorem add_eq_error_iff (hbag : i.bag.Tight)
    (hlists : ∀ p d, i.slot p = some (.list d) → d.Tight) {property : Option String} :
    (i.add key property v).result = .error e ↔ i.AddFails v key property e := by
  constructor
  · intro h
    rcases property with _ | p
    · rcases key with _ | name
      · obtain rfl := Except.error.inj h
        exact .unnamed
      · exact .set (set_eq_error_iff.mp h)
    · rcases hp : i.owner.property? p with _ | t
      · by_cases hopen : i.owner.isOpen = true
        · rw [add_eq_append hp hopen] at h
          exact .append hp hopen ((append_eq_error_iff hbag).mp h)
        · simp only [add, hp, hopen, Bool.false_eq_true, if_false, refuse, Except.error.injEq] at h
          obtain rfl := h
          exact .unknown hp (by simpa using hopen)
      · by_cases harray : t.isArray = true
        · rw [add_eq_addToProperty hp harray] at h
          exact .held hp harray ((addToProperty_eq_error_iff (hlists p)).mp h)
        · simp only [add, hp, harray, Bool.false_eq_true, if_false, refuse, Except.error.injEq] at h
          obtain rfl := h
          exact .notArray hp (by simpa using harray)
  · intro h
    cases h with
    | unnamed => rfl
    | set h => exact set_eq_error_iff.mpr h
    | notArray hp hnot => simp [add, hp, hnot, refuse]
    | held hp harray h =>
      rw [add_eq_addToProperty hp harray]
      exact (addToProperty_eq_error_iff (hlists _)).mpr h
    | append hp hopen h =>
      rw [add_eq_append hp hopen]
      exact (append_eq_error_iff hbag).mpr h
    | unknown hp hclosed => simp [add, hp, hclosed, refuse]

/-! ### Instances that there are -/

/-- **Writes fail for a cause, and for nothing else.**  Whatever was done to an instance before, as
long as the collections that it was given had been made by pushes and insertions: a value is not set
exactly if its name is neither explicit nor covered by a wildcard, or holds arrays where the value
is neither null nor a collection.  It is not appended exactly if there is no wildcard, or the
wildcard is no array, or no key is named and the greatest index is a key.  It is not added exactly
if the property is no array, or what the property holds is neither null nor a collection, or no key
is named and the greatest index is a key of that collection; without a property to add is to set,
and on an open class to add to a property that is not explicit is to append. -/
theorem writes_fail_exactly (c : Class) {history : List Operation}
    (hmade : ∀ o ∈ history, ∀ d, o.operand? = some (.list d) → d.Made) :
    let i := c.create.run history
    (∀ name v e, (i.set name v).result = .error e ↔ i.SetFails name v e) ∧
    (∀ v key e, (i.append v key).result = .error e ↔ i.AppendFails key e) ∧
    (∀ key property v e,
      (i.add key property v).result = .error e ↔ i.AddFails v key property e) ∧
    (∀ name v, i.add (some name) none v = i.set name v) ∧
    ∀ p key v, c.property? p = none → c.isOpen = true →
      i.add key (some p) v = i.append v key := by
  intro i
  have howner : i.owner = c := owner_run c.create history
  have hbag : i.bag.Tight := (orderly_run_create c history).tight
  have hlists : ∀ p d, i.slot p = some (.list d) → d.Tight := by
    intro p d hd
    have hheld : d.Made := by
      refine list_run Collection.made_empty (fun v _ h => h.insert _ v) ?_ d hd
      intro o ho d' hplaces
      exact hmade o ho d' (hplaces.eq_given (o.of_action c))
    exact hheld.tight
  refine ⟨fun name v e => set_eq_error_iff, fun v key e => append_eq_error_iff hbag,
    fun key property v e => add_eq_error_iff hbag hlists, fun name v => rfl, ?_⟩
  intro p key v hp hopen
  rw [← howner] at hp hopen
  exact add_eq_append hp hopen key v

/-- The greatest index is used in the collection that was given, and in the instance itself. -/
theorem shelf_fails_exactly :
    let d := Collection.empty.insert (.index lastIndex) (Value.int 1)
    let history : List Operation :=
      [.set "items" (.list d), .append (.int 2) (some "18446744073709551615")]
    let i := (Class.root shelf).create.run history
    (∀ o ∈ history, ∀ d', o.operand? = some (.list d') → d'.Made) ∧
    (i.add none (some "items") .null).result =
      .error (.indexExhausted "Shelf" (some "items")) ∧
    (∀ e, (i.add (some "k") (some "items") .null).result ≠ .error e) ∧
    (i.add none (some "boxes") .null).result = .error (.indexExhausted "Shelf" none) := by
  intro d history i
  have hmade : ∀ o ∈ history, ∀ d', o.operand? = some (.list d') → d'.Made := by
    intro o ho d' hd'
    have hd : d' = d := by
      simp only [history, List.mem_cons, List.not_mem_nil, or_false] at ho
      rcases ho with rfl | rfl
      · simpa [Operation.operand?] using hd'.symm
      · cases hd'
    rw [hd]
    exact Collection.made_empty.insert _ _
  obtain ⟨-, -, hadd, -⟩ := writes_fail_exactly (Class.root shelf) hmade
  have ht : i.owner.property? "items" = some (.primitive .array) := by rfl
  have hslot : i.slot "items" = some (.list d) := by rfl
  refine ⟨hmade, ?_, ?_, ?_⟩
  · exact (hadd _ _ _ _).mpr (.held ht rfl (.exhausted hslot rfl (by decide)))
  · intro e he
    cases (hadd _ _ _ _).mp he with
    | notArray hp hnot =>
      obtain rfl := Option.some.inj (ht.symm.trans hp)
      cases hnot
    | held hp harray h =>
      -- there is room under a key
      cases h with
      | mismatch hget hw =>
        obtain rfl := Option.some.inj (hslot.symm.trans hget)
        exact hw.2 d rfl
      | exhausted hget hkey => cases hkey
    | append hp => rw [ht] at hp; cases hp
    | unknown hp => rw [ht] at hp; cases hp
  · exact (hadd _ _ _ _).mpr (.append (by rfl) (by rfl) (.exhausted (by rfl) rfl rfl (by decide)))

end Instance
end ClassSchema
