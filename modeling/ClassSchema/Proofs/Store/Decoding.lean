/-
Values that are read back from JSON.

* `Value.Built` — values that can be made: by pushing and inserting, by collecting, from JSON, and
  by operations on instances;
* `Value.Regular` — every collection in the value is orderly;
* `regular_of_built` — what can be made is regular;
* `Value.flat` — the value with collections in place of instances;
* `ofJson_toJson` — a regular value whose numbers are finite is read back flat;
* `decoding_undoes_rendering` — and what is read back equals the flat value.

Design notes: a JSON tree tells neither indexes from names nor which index is next, and it says
nothing of classes.  Indexes and names come back because every collection that can be made is
orderly.  Classes do not come back, and `flat` leaves them out.
-/
import ClassSchema.Proofs.Decimal.Finite
import ClassSchema.Proofs.Store.Rendering

namespace ClassSchema

/-! ### What can be made -/

namespace Value

/-- Values that can be made. -/
inductive Built : Value → Prop where
  | null : Built .null
  | bool (b : Bool) : Built (.bool b)
  | int (n : Int64) : Built (.int n)
  | float (x : Float) : Built (.float x)
  | str (s : String) : Built (.str s)
  | empty : Built (.list .empty)
  | push {c after : Collection Value} {v : Value} {i : UInt64} : Built (.list c) → Built v →
      c.push v = some (i, after) → Built (.list after)
  | insertText {c : Collection Value} {v : Value} (key : String) : Built (.list c) → Built v →
      Built (.list (c.insert (.parse key) v))
  | insertIndex {c : Collection Value} {v : Value} (i : UInt64) : Built (.list c) → Built v →
      Built (.list (c.insert (.index i) v))
  | collect {vs : List Value} : (∀ v ∈ vs, Built v) → Built (.list (Collection.empty.pushAll vs))
  | ofJson (j : Json) : Built (ofJson j)
  | create (c : Class) : Built c.create.toValue
  | perform {i : Instance} (o : Operation) : Built i.toValue →
      (∀ v, o.operand? = some v → Built v) → Built (i.perform o).after.toValue
  /-- Takes a value out of a collection. -/
  | item {c : Collection Value} {key : Key} {v : Value} : Built (.list c) →
      c.get? key = some v → Built v
  /-- Takes a value out of an instance. -/
  | held {i : Instance} {key : Key} {v : Value} : Built i.toValue →
      i.bag.get? key = some v → Built v

/-- Every collection in the value is orderly. -/
inductive Regular : Value → Prop where
  | null : Regular .null
  | bool (b : Bool) : Regular (.bool b)
  | int (n : Int64) : Regular (.int n)
  | float (x : Float) : Regular (.float x)
  | str (s : String) : Regular (.str s)
  | list {c : Collection Value} : c.Orderly → (∀ e ∈ c.entries, Regular e.2) → Regular (.list c)
  | object {owner : Class} {bag : Collection Value} : bag.Orderly →
      (∀ e ∈ bag.entries, Regular e.2) → Regular (.object owner bag)

theorem regular_list_iff {c : Collection Value} : (list c).Regular ↔ c.Sound Regular := by
  constructor
  · intro h
    cases h with
    | list horderly hentries => exact ⟨horderly, hentries⟩
  · rintro ⟨horderly, hentries⟩
    exact .list horderly hentries

theorem regular_object_iff {owner : Class} {bag : Collection Value} :
    (object owner bag).Regular ↔ bag.Sound Regular := by
  constructor
  · intro h
    cases h with
    | object horderly hentries => exact ⟨horderly, hentries⟩
  · rintro ⟨horderly, hentries⟩
    exact .object horderly hentries

/-! ### What can be made is regular -/

theorem Regular.of_stores {bag : Collection Value} (hbag : bag.Sound Regular) {owner : Class}
    {given : Option Value} {a : Action} (hof : a.Of owner given) {key : Key} {w : Value}
    (h : a.Stores bag key w) (hgiven : ∀ v, given = some v → v.Regular) : w.Regular := by
  cases h with
  | set name =>
    cases hof
    exact hgiven w rfl
  | append hk =>
    cases hof
    exact hgiven w rfl
  | @addTo property key v c k hopens hk =>
    cases hof
    have hc : c.Sound Regular := by
      rcases hopens with hget | ⟨-, rfl⟩
      · exact regular_list_iff.mp (hbag.get? hget)
      · exact Collection.sound_empty
    exact regular_list_iff.mpr (hc.insert (Collection.written_target? hk) (hgiven v rfl))

theorem sound_perform {i : Instance} (h : i.bag.Sound Regular) (o : Operation)
    (hoperand : ∀ v, o.operand? = some v → v.Regular) :
    (i.perform o).after.bag.Sound Regular := by
  rcases Instance.perform_cases h.orderly.tight o with hsame | ⟨key, w, hstores, hafter⟩
  · rw [hsame]
    exact h
  · rw [hafter]
    exact h.insert hstores.written (.of_stores h (o.of_action i.owner) hstores hoperand)

theorem regular_ofNumber (n : Number) : (ofNumber n).Regular := by
  cases n with
  | float x => exact .float x
  | int n =>
    rw [ofNumber]
    split
    · exact .int _
    · exact .float _

theorem regular_ofJson (j : Json) : (ofJson j).Regular := by
  induction j using Json.tree_induction with
  | null => exact .null
  | bool b => exact .bool b
  | num n => exact regular_ofNumber n
  | str s => exact .str s
  | arr items ih =>
    rw [ofJson, ofItems_eq]
    exact regular_list_iff.mpr (Collection.sound_empty.pushAll (List.forall_mem_map.mpr ih))
  | obj members ih =>
    rw [ofJson, ofMembers_eq]
    refine regular_list_iff.mpr (Collection.sound_empty.insertAll ?_)
    exact List.forall_mem_map.mpr fun e he => ⟨Key.written_parse e.1, ih e he⟩

theorem regular_of_built {v : Value} (h : v.Built) : v.Regular := by
  induction h with
  | null => exact .null
  | bool b => exact .bool b
  | int n => exact .int n
  | float x => exact .float x
  | str s => exact .str s
  | empty => exact regular_list_iff.mpr Collection.sound_empty
  | push _ _ hpush hc hv => exact regular_list_iff.mpr ((regular_list_iff.mp hc).push hv hpush)
  | insertText key _ _ hc hv =>
    exact regular_list_iff.mpr ((regular_list_iff.mp hc).insert (Key.written_parse key) hv)
  | insertIndex i _ _ hc hv =>
    exact regular_list_iff.mpr ((regular_list_iff.mp hc).insert (Key.written_index i) hv)
  | collect _ hvs => exact regular_list_iff.mpr (Collection.sound_empty.pushAll hvs)
  | ofJson j => exact regular_ofJson j
  | create c => exact regular_object_iff.mpr Collection.sound_empty
  | perform o _ _ hi hoperand =>
    exact regular_object_iff.mpr (sound_perform (regular_object_iff.mp hi) o hoperand)
  | item _ hget hc => exact (regular_list_iff.mp hc).get? hget
  | held _ hget hi => exact (regular_object_iff.mp hi).get? hget

/-! ### Values without instances -/

mutual

/-- The value with collections in place of instances. -/
def flat : Value → Value
  | null => null
  | bool b => bool b
  | int n => int n
  | float x => float x
  | str s => str s
  | list c => list (flatCollection c)
  | object _ bag => list (flatCollection bag)

/-- A collection of values without instances. -/
def flatCollection : Collection Value → Collection Value
  | ⟨entries, next⟩ => ⟨flatEntries entries, next⟩

/-- Entries with values without instances. -/
def flatEntries : List (Key × Value) → List (Key × Value)
  | [] => []
  | (key, v) :: rest => (key, flat v) :: flatEntries rest

end

theorem flatEntries_eq (entries : List (Key × Value)) :
    flatEntries entries = Entries.mapValues flat entries := by
  induction entries with
  | nil => rfl
  | cons e rest ih => rw [flatEntries, ih, Entries.mapValues_cons]

theorem flatCollection_eq (c : Collection Value) : flatCollection c = c.map flat := by
  rw [flatCollection, flatEntries_eq]
  rfl

theorem flat_list (c : Collection Value) : (list c).flat = list (c.map flat) := by
  rw [flat, flatCollection_eq]

theorem flat_object (owner : Class) (bag : Collection Value) :
    (object owner bag).flat = list (bag.map flat) := by
  rw [flat, flatCollection_eq]

/-! ### Reading back -/

/-- The first value stands somewhere in the second, or it is the second. -/
inductive Within : Value → Value → Prop where
  | refl (v : Value) : Within v v
  | list {w : Value} {c : Collection Value} {e : Key × Value} : e ∈ c.entries → Within w e.2 →
      Within w (.list c)
  | object {w : Value} {owner : Class} {bag : Collection Value} {e : Key × Value} :
      e ∈ bag.entries → Within w e.2 → Within w (.object owner bag)

/-- Every number in the value is finite. -/
def NumbersFinite (v : Value) : Prop := ∀ x, (float x).Within v → x.isFinite = true

theorem numbersFinite_float_iff {x : Float} : (float x).NumbersFinite ↔ x.isFinite = true := by
  constructor
  · intro h
    exact h x (.refl _)
  · rintro h y ⟨⟩
    exact h

theorem numbersFinite_list_iff {c : Collection Value} :
    (list c).NumbersFinite ↔ ∀ e ∈ c.entries, e.2.NumbersFinite := by
  constructor
  · intro h e he x hx
    exact h x (.list he hx)
  · intro h x hx
    cases hx with
    | list he hx => exact h _ he x hx

theorem numbersFinite_object_iff {owner : Class} {bag : Collection Value} :
    (object owner bag).NumbersFinite ↔ ∀ e ∈ bag.entries, e.2.NumbersFinite := by
  constructor
  · intro h e he x hx
    exact h x (.object he hx)
  · intro h x hx
    cases hx with
    | object he hx => exact h _ he x hx

theorem ofNumber_toInt (n : Int64) : ofNumber (.int n.toInt) = int n := by
  have hlow : Int64.minValue.toInt ≤ n.toInt := Int64.minValue_le_toInt n
  have hhigh : n.toInt ≤ Int64.maxValue.toInt := Int64.toInt_le n
  rw [ofNumber, if_pos ⟨hlow, hhigh⟩, Int64.ofInt_toInt]

/-- A collection is read back with flat values if these are read back flat. -/
theorem ofJson_collectionToJson {c : Collection Value} (h : c.Orderly)
    (hentries : ∀ e ∈ c.entries, ofJson e.2.toJson = e.2.flat) :
    ofJson (collectionToJson c) = list (c.map flat) := by
  have hkeys : Entries.keys (Entries.mapValues toJson c.entries) = c.keys :=
    Entries.keys_mapValues toJson c.entries
  have hvalues : Entries.mapValues ofJson (Entries.mapValues toJson c.entries) =
      (c.map flat).entries := by
    rw [Entries.mapValues_mapValues]
    exact Entries.mapValues_congr hentries
  -- the keys come back from their texts, and the next index from the keys
  rw [collectionToJson_eq, ofJson_jsonOfEntries (by rw [hkeys]; exact h.nodup)
    (by rw [hkeys]; exact h.written), hvalues, (h.map flat).insertAll_entries]

theorem ofJson_toJson {v : Value} (h : v.Regular) (hfinite : v.NumbersFinite) :
    ofJson v.toJson = v.flat := by
  induction h with
  | null => rfl
  | bool b => rfl
  | str s => rfl
  | int n => exact ofNumber_toInt n
  | float x =>
    rw [toJson, if_pos (numbersFinite_float_iff.mp hfinite)]
    rfl
  | list horderly _ ih =>
    rw [toJson, flat_list]
    refine ofJson_collectionToJson horderly fun e he => ?_
    exact ih e he (numbersFinite_list_iff.mp hfinite e he)
  | object horderly _ ih =>
    rw [toJson, flat_object]
    refine ofJson_collectionToJson horderly fun e he => ?_
    exact ih e he (numbersFinite_object_iff.mp hfinite e he)

/-! ### Equality -/

theorem sameEntries_of_forall {entries others : List (Key × Value)}
    (h : ∀ e ∈ entries, ∃ w, Entries.get? e.1 others = some w ∧ e.2.same w = true) :
    sameEntries entries others = true := by
  induction entries with
  | nil => rfl
  | cons e rest ih =>
    obtain ⟨w, hw, hsame⟩ := h e List.mem_cons_self
    have hrest := ih fun e' he' => h e' (List.mem_cons_of_mem e he')
    simp only [sameEntries, hw, hsame, hrest, Bool.and_self]

theorem sameCollection_self {c : Collection Value} (h : c.keys.Nodup)
    (hentries : ∀ e ∈ c.entries, e.2.same e.2 = true) : sameCollection c c = true := by
  have hsame : sameEntries c.entries c.entries = true :=
    sameEntries_of_forall fun e he => ⟨e.2, Entries.get?_of_mem h he, hentries e he⟩
  rcases c with ⟨entries, next⟩
  rw [sameCollection, hsame, beq_self_eq_true, beq_self_eq_true]
  rfl

/-- A flat value equals itself if its numbers do. -/
theorem same_flat {v : Value} (h : v.Regular) (hfinite : v.NumbersFinite) :
    v.flat.same v.flat = true := by
  -- the entries of a collection with flat values
  have hflat : ∀ {c : Collection Value}, (∀ e ∈ c.entries, e.2.flat.same e.2.flat = true) →
      ∀ e ∈ (c.map flat).entries, e.2.same e.2 = true := by
    intro c hc e he
    obtain ⟨e', he', rfl⟩ := List.mem_map.mp he
    exact hc e' he'
  induction h with
  | null => rfl
  | bool b => exact beq_self_eq_true b
  | int n => exact beq_self_eq_true n
  | str s => exact beq_self_eq_true s
  | float x => exact Decimal.beq_self_of_isFinite (numbersFinite_float_iff.mp hfinite)
  | list horderly _ ih =>
    rw [flat_list]
    refine sameCollection_self (horderly.map flat).nodup (hflat fun e he => ?_)
    exact ih e he (numbersFinite_list_iff.mp hfinite e he)
  | object horderly _ ih =>
    rw [flat_object]
    refine sameCollection_self (horderly.map flat).nodup (hflat fun e he => ?_)
    exact ih e he (numbersFinite_object_iff.mp hfinite e he)

/-- **Decoding undoes rendering.**  A value that can be made is read back from its JSON tree with
collections in place of instances and nothing else changed: neither the kind of a key nor the order
of entries nor the next index of a collection.  What is read back equals it, too, since its numbers
are finite. -/
theorem decoding_undoes_rendering {v : Value} (hv : v.Built) (hfinite : v.NumbersFinite) :
    ofJson v.toJson = v.flat ∧ (ofJson v.toJson).same v.flat = true := by
  have hregular := regular_of_built hv
  have hback := ofJson_toJson hregular hfinite
  refine ⟨hback, ?_⟩
  rw [hback]
  exact same_flat hregular hfinite

end Value

/-- Keys of both kinds, out of order, with no index left, around an instance. -/
theorem bundle_is_read_back :
    let i := (Class.root shelf).create.run
      [.add (some "x") (some "items") (.int 7), .append (.float 0.5) none]
    let c := (Collection.empty.insert (.index lastIndex) i.toValue).insert (.parse "007") .null
    let items := Collection.mk [(Key.name "x", Value.int 7)] (some 0)
    let bag := Collection.mk [(Key.name "items", .list items), (.index 0, .float 0.5)] (some 1)
    (Value.list c).Built ∧ (Value.list c).NumbersFinite ∧
      Value.ofJson (Value.list c).toJson =
        .list ⟨[(.index lastIndex, .list bag), (.name "007", .null)], none⟩ := by
  intro i c items bag
  have hi : i.toValue.Built := by
    refine .perform _ (.perform _ (.create _) fun v hv => ?_) fun v hv => ?_
    · cases hv
      exact .int 7
    · cases hv
      exact .float 0.5
  have hc : c = ⟨[(.index lastIndex, .object (.root shelf) bag), (.name "007", .null)], none⟩ := by
    rfl
  have hbuilt : (Value.list c).Built := .insertText "007" (.insertIndex lastIndex .empty hi) .null
  have hfinite : (Value.list c).NumbersFinite := by
    have hhalf : (0.5 : Float).isFinite = true := by decide
    have hint : (Value.int 7).NumbersFinite := fun x hx => by cases hx
    have hnull : Value.null.NumbersFinite := fun x hx => by cases hx
    rw [hc]
    simp [bag, items, Value.numbersFinite_list_iff, Value.numbersFinite_object_iff,
      Value.numbersFinite_float_iff, hhalf, hint, hnull]
  refine ⟨hbuilt, hfinite, ?_⟩
  rw [(Value.decoding_undoes_rendering hbuilt hfinite).1, hc]
  rfl

end ClassSchema
