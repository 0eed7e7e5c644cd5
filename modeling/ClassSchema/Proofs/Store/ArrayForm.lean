/-
When a collection is written as an array, and when as an object.

* `Collection.CountsOn` — all that has become a key since is the index that counts the entries;
* `Collection.Grows` — at most one key is new since, and it comes last;
* `Grows.isSequential_iff` — of two collections of which one grows into the other, the second counts
  up exactly if the first does and counts on;
* `isSequential_writeAll_iff`, `isSequential_run_iff` — so a run of writes, or of operations, keeps
  the count exactly if each of its steps does;
* `Tight.nextNumber_of_isSequential` — where keys count up, the next index is their number;
* `array_form_is_never_regained` — what all this means for the trees that are written.

Design notes: whether keys count up is told from the keys alone, each time anew.  But a key never
moves and never goes away, so the keys of before are the first keys of after, and where they fail to
count up, they fail for good.
-/
import ClassSchema.Proofs.Store.Rendering

namespace ClassSchema

/-- One more key goes on with a run exactly if it is the index that comes next. -/
theorem isRun_concat_iff {start : Nat} {keys : List Key} {key : Key} :
    isRun start (keys ++ [key]) = true ↔
      isRun start keys = true ∧ ∃ n : UInt64, key = .index n ∧ n.toNat = start + keys.length := by
  induction keys generalizing start with
  | nil => simp [isRun_cons_iff, isRun]
  | cons k rest ih =>
    have hlength : start + 1 + rest.length = start + (k :: rest).length := by
      simp only [List.length_cons]
      omega
    rw [List.cons_append, isRun_cons_iff, isRun_cons_iff]
    simp only [ih, hlength]
    constructor
    · rintro ⟨i, hk, hi, hrest, hkey⟩
      exact ⟨⟨i, hk, hi, hrest⟩, hkey⟩
    · rintro ⟨⟨i, hk, hi, hrest⟩, hkey⟩
      exact ⟨i, hk, hi, hrest, hkey⟩

theorem lt_of_isRun {start : Nat} {keys : List Key} (h : isRun start keys = true) {n : UInt64}
    (hn : Key.index n ∈ keys) : n.toNat < start + keys.length := by
  induction keys using List.reverseRecOn with
  | nil => cases hn
  | append_singleton keys key ih =>
    obtain ⟨hkeys, m, rfl, hm⟩ := isRun_concat_iff.mp h
    rw [List.length_append, List.length_singleton]
    rcases List.mem_append.mp hn with hn | hn
    · have := ih hkeys hn
      omega
    · obtain rfl := Key.index.inj (List.mem_singleton.mp hn)
      omega

namespace Collection

variable {α : Type} {c after : Collection α}

/-! ### One step -/

/-- All that has become a key since is the index that counts the entries. -/
def CountsOn (c after : Collection α) : Prop :=
  ∀ key, key ∉ c.keys → key ∈ after.keys → ∃ n : UInt64, key = .index n ∧ n.toNat = c.size

/-- At most one key is new since, and it comes last. -/
def Grows (c after : Collection α) : Prop :=
  after.keys = c.keys ∨ ∃ key, key ∉ c.keys ∧ after.keys = c.keys ++ [key]

theorem grows_insert (c : Collection α) (key : Key) (value : α) : c.Grows (c.insert key value) := by
  by_cases hkey : key ∈ c.keys
  · exact Or.inl (by rw [keys_insert, if_pos hkey])
  · exact Or.inr ⟨key, hkey, by rw [keys_insert, if_neg hkey]⟩

theorem grows_write (c : Collection α) (w : Write α) : c.Grows (c.write w) := by
  cases w with
  | insert key value => exact c.grows_insert key value
  | push value =>
    rcases hn : c.next with _ | n
    · exact Or.inl (by simp [write, push, hn])
    · simp only [write, push_eq_insert hn]
      exact c.grows_insert (.index n) value

theorem length_keys (c : Collection α) : c.keys.length = c.size := List.length_map _

/-- The count is kept exactly if it was kept so far and the step counts on. -/
theorem Grows.isSequential_iff (h : c.Grows after) :
    after.isSequential = true ↔ c.isSequential = true ∧ c.CountsOn after := by
  rcases h with hsame | ⟨key, hnew, hkeys⟩
  · rw [isSequential, isSequential, hsame, iff_self_and]
    intro _ key hkey hkey'
    rw [hsame] at hkey'
    exact absurd hkey' hkey
  · have honly : ∀ k, k ∉ c.keys → k ∈ after.keys → k = key := by
      intro k hk hk'
      rw [hkeys] at hk'
      simpa [hk] using hk'
    rw [isSequential, isSequential, hkeys, isRun_concat_iff, Nat.zero_add, length_keys]
    refine and_congr_right fun _ => ?_
    constructor
    · intro hcount k hk hk'
      rw [honly k hk hk']
      exact hcount
    · intro hcount
      exact hcount key hnew (by rw [hkeys]; simp)

/-! ### Runs -/

/-- What one more step keeps exactly if it does as it should, a run keeps exactly if all of its
steps do. -/
theorem foldl_iff_forall_steps {σ β : Type} {step : σ → β → σ} {s : σ} {P : σ → Prop}
    {C : σ → σ → Prop}
    (hstep : ∀ earlier b, P (step (List.foldl step s earlier) b) ↔
      P (List.foldl step s earlier) ∧
        C (List.foldl step s earlier) (step (List.foldl step s earlier) b)) (bs : List β) :
    P (bs.foldl step s) ↔ P s ∧ ∀ earlier b later, bs = earlier ++ b :: later →
      C (earlier.foldl step s) (step (earlier.foldl step s) b) := by
  induction bs using List.reverseRecOn with
  | nil => simp
  | append_singleton bs last ih =>
    rw [List.foldl_append, List.foldl_cons, List.foldl_nil, hstep, ih]
    constructor
    · rintro ⟨⟨hs, hbefore⟩, hlast⟩
      refine ⟨hs, fun earlier b later hsplit => ?_⟩
      rcases Instance.concat_eq_append_cons_iff.mp hsplit with ⟨rfl, rfl, -⟩ | ⟨rest, -, hrest⟩
      · exact hlast
      · exact hbefore earlier b rest hrest
    · rintro ⟨hs, hall⟩
      refine ⟨⟨hs, fun earlier b later hsplit => ?_⟩, hall bs last [] rfl⟩
      exact hall earlier b (later ++ [last]) (by simp [hsplit])

theorem isSequential_writeAll_iff (c : Collection α) (ws : List (Write α)) :
    (c.writeAll ws).isSequential = true ↔ c.isSequential = true ∧
      ∀ earlier w later, ws = earlier ++ w :: later →
        (c.writeAll earlier).CountsOn ((c.writeAll earlier).write w) :=
  foldl_iff_forall_steps (P := fun c : Collection α => c.isSequential = true)
    (fun earlier w => (grows_write (c.writeAll earlier) w).isSequential_iff) ws

/-! ### The next index -/

/-- Where keys count up, the next index is their number. -/
theorem Tight.nextNumber_of_isSequential (h : c.Tight) (hcount : c.isSequential = true) :
    c.nextNumber = c.size := by
  rw [← length_keys]
  apply le_antisymm
  · refine (h _).mpr fun n hn => ?_
    have := lt_of_isRun hcount hn
    omega
  · rcases List.eq_nil_or_concat' c.keys with hnil | ⟨keys, key, hkeys⟩
    · rw [hnil]
      exact Nat.zero_le _
    · -- the last key is a number below that of all keys
      rw [isSequential, hkeys, isRun_concat_iff] at hcount
      obtain ⟨-, n, rfl, hn⟩ := hcount
      have hlast : n.toNat < c.nextNumber := (h _).mp le_rfl n (by rw [hkeys]; simp)
      rw [hkeys, List.length_append, List.length_singleton]
      omega

/-- To push is to count on, unless all indexes are used. -/
theorem Tight.push_of_isSequential (h : c.Tight) (hcount : c.isSequential = true) (value : α) :
    (∀ n after, c.push value = some (n, after) → n.toNat = c.size) ∧
      (c.push value = none ↔ c.size = 2 ^ 64) := by
  rw [push_eq_none_iff, next_eq_none_iff, h.nextNumber_of_isSequential hcount, iff_self, and_true]
  intro n after hpush
  obtain ⟨m, hm, heq⟩ := Option.map_eq_some_iff.mp hpush
  obtain ⟨rfl, -⟩ := Prod.mk.inj heq
  rw [← next_eq_some_iff.mp hm, h.nextNumber_of_isSequential hcount]

end Collection

/-! ### Instances -/

namespace Instance

variable {i : Instance}

theorem grows_perform (h : i.bag.Tight) (o : Operation) :
    i.bag.Grows (i.perform o).after.bag := by
  rcases perform_cases h o with hsame | ⟨key, w, -, hafter⟩
  · exact Or.inl (by rw [hsame])
  · rw [hafter]
    exact i.bag.grows_insert key w

theorem isSequential_run_iff (h : i.bag.Orderly) (os : List Operation) :
    (i.run os).bag.isSequential = true ↔ i.bag.isSequential = true ∧
      ∀ earlier o later, os = earlier ++ o :: later →
        (i.run earlier).bag.CountsOn ((i.run earlier).perform o).after.bag :=
  Collection.foldl_iff_forall_steps (P := fun i : Instance => i.bag.isSequential = true)
    (C := fun i after => i.bag.CountsOn after.bag)
    (fun earlier o => (grows_perform (orderly_run h earlier).tight o).isSequential_iff) os

end Instance

/-! ### Trees -/

/-- The tree is an array. -/
def Json.IsArray (j : Json) : Prop := ∃ items, j = .arr items

/-- The tree is an object. -/
def Json.IsObject (j : Json) : Prop := ∃ members, j = .obj members

theorem Json.IsObject.not_isArray {j : Json} (h : j.IsObject) : ¬ j.IsArray := by
  rintro ⟨items, rfl⟩
  obtain ⟨members, hobject⟩ := h
  cases hobject

namespace Collection

variable {c : Collection Value}

/-- The tree is an array if the keys count up, and an object if not. -/
theorem form_toJson (c : Collection Value) :
    c.isSequential = true ∧ (Value.collectionToJson c).IsArray ∨
      ¬ c.isSequential = true ∧ (Value.collectionToJson c).IsObject := by
  have hkeys : isRun 0 (Entries.keys (Entries.mapValues Value.toJson c.entries)) =
      c.isSequential := by
    rw [Entries.keys_mapValues]
    rfl
  rw [Value.collectionToJson_eq, Value.jsonOfEntries, hkeys]
  by_cases hcount : c.isSequential = true
  · rw [if_pos hcount]
    exact Or.inl ⟨hcount, _, rfl⟩
  · rw [if_neg hcount]
    exact Or.inr ⟨hcount, _, rfl⟩

theorem isArray_toJson_iff : (Value.collectionToJson c).IsArray ↔ c.isSequential = true := by
  rcases form_toJson c with ⟨hcount, harray⟩ | ⟨hcount, hobject⟩
  · exact iff_of_true harray hcount
  · exact iff_of_false hobject.not_isArray hcount

theorem isObject_toJson_iff : (Value.collectionToJson c).IsObject ↔ ¬ c.isSequential = true := by
  rcases form_toJson c with ⟨hcount, harray⟩ | ⟨hcount, hobject⟩
  · exact iff_of_false (fun hobject => hobject.not_isArray harray) (not_not_intro hcount)
  · exact iff_of_true hobject hcount

end Collection

/-- **What has become an object never becomes an array again**, whatever is written into a
collection after that, and whatever is done to an instance.  What began empty is an array as long as
every step that brought in a new key brought in the index that counts the entries that were there.
To push does so in all these cases, unless there are as many entries as indexes, and then it brings
in nothing. -/
theorem Collection.array_form_is_never_regained :
    (∀ (c : Collection Value) (ws : List (Write Value)), (Value.list c).toJson.IsObject →
      (Value.list (c.writeAll ws)).toJson.IsObject) ∧
    (∀ (owner : Class) (history more : List Operation),
      (owner.create.run history).toJson.IsObject →
        (owner.create.run (history ++ more)).toJson.IsObject) ∧
    (∀ ws : List (Write Value), (Value.list (empty.writeAll ws)).toJson.IsArray ↔
      ∀ earlier w later, ws = earlier ++ w :: later →
        (empty.writeAll earlier).CountsOn ((empty.writeAll earlier).write w)) ∧
    (∀ (owner : Class) (history : List Operation), (owner.create.run history).toJson.IsArray ↔
      ∀ earlier o later, history = earlier ++ o :: later →
        (owner.create.run earlier).bag.CountsOn
          ((owner.create.run earlier).perform o).after.bag) ∧
    ∀ c : Collection Value,
      c.Made ∨ (∃ (owner : Class) (history : List Operation), c = (owner.create.run history).bag) →
      (Value.list c).toJson.IsArray → ∀ value,
        (∀ n after, c.push value = some (n, after) → n.toNat = c.size) ∧
        (c.push value = none ↔ c.size = 2 ^ 64) := by
  refine ⟨?writes, ?operations, ?written, ?performed, ?pushed⟩
  case writes =>
    intro c ws hobject
    rw [Value.toJson, isObject_toJson_iff] at hobject ⊢
    intro hcount
    exact hobject ((isSequential_writeAll_iff c ws).mp hcount).1
  case operations =>
    intro owner history more hobject
    have horderly := Instance.orderly_run_create owner history
    rw [Instance.toJson, isObject_toJson_iff] at hobject ⊢
    rw [Instance.run_append]
    intro hcount
    exact hobject ((Instance.isSequential_run_iff horderly more).mp hcount).1
  case written =>
    intro ws
    rw [Value.toJson, isArray_toJson_iff, isSequential_writeAll_iff]
    exact and_iff_right rfl
  case performed =>
    intro owner history
    rw [Instance.toJson, isArray_toJson_iff,
      Instance.isSequential_run_iff (i := owner.create) orderly_empty]
    exact and_iff_right rfl
  case pushed =>
    intro c hc harray value
    have htight : c.Tight := by
      rcases hc with hmade | ⟨owner, history, rfl⟩
      · exact hmade.tight
      · exact (Instance.orderly_run_create owner history).tight
    rw [Value.toJson, isArray_toJson_iff] at harray
    exact htight.push_of_isSequential harray value

/-- A key counts on although it is named, another one leaves a place open, and to take that place
later does not help. -/
theorem shelf_becomes_an_object :
    let i := (Class.root shelf).create
    let history : List Operation := [.append .null none, .append .null (some "1")]
    (i.run history).toJson.IsArray ∧
    (i.run (history ++ [.append .null (some "3")])).toJson.IsObject ∧
    (i.run (history ++ [.append .null (some "3")] ++
      [.append .null (some "2")])).toJson.IsObject := by
  intro i history
  obtain ⟨-, hoperations, -⟩ := Collection.array_form_is_never_regained
  have hobject : (i.run (history ++ [.append .null (some "3")])).toJson.IsObject := ⟨_, rfl⟩
  exact ⟨⟨_, rfl⟩, hobject, hoperations (Class.root shelf) _ _ hobject⟩

end ClassSchema
