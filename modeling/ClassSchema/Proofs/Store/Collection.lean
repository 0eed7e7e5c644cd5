/-
Collections after any sequence of pushes and insertions.

* `Write` — a push or an insertion; `writeAll` carries them out one after the other;
* `stored` — the pairs that writes store, each under the key that it got;
* `tight_writeAll` — the number of the next index is the least that is above every index present;
* `Made` — the collections that writes make of the empty one;
* `stored_indexes_stay_in_sequence` — what keys there are, in which order, under which values, which
  index is next, and what the next push does.

Design notes: the next index is kept beside the entries and brought up to date in two places.  The
invariant speaks of its *number*, which is `2 ^ 64` once there is none left: that number is a least
upper bound (`Tight`), and both writes replace it by a maximum.  Neither the order in which indexes
arrive nor the end of the words makes a case of its own.
-/
import Mathlib.Order.Bounds.Basic
import Mathlib.Data.UInt
import ClassSchema.Proofs.Entries
import ClassSchema.Store.Collection

namespace ClassSchema

/-- The greatest index there is. -/
def lastIndex : UInt64 := 18446744073709551615

namespace Collection

variable {α : Type}

/-- A push or an insertion. -/
inductive Write (α : Type) where
  | push (value : α)
  | insert (key : Key) (value : α)

/-- Carries out a write.  A push changes nothing where no index is left. -/
def write (c : Collection α) : Write α → Collection α
  | .push value =>
    match c.push value with
    | some (_, after) => after
    | none => c
  | .insert key value => c.insert key value

/-- Carries out writes, one after the other. -/
def writeAll (c : Collection α) (ws : List (Write α)) : Collection α := ws.foldl write c

/-- The pair that a write stores, if it stores one: a push stores under the index that it gives. -/
def pair? (c : Collection α) : Write α → Option (Key × α)
  | .push value => (c.push value).map fun p => (.index p.1, value)
  | .insert key value => some (key, value)

/-- The pairs that writes store, in the order of the writes. -/
def stored (c : Collection α) : List (Write α) → List (Key × α)
  | [] => []
  | w :: ws => (c.pair? w).toList ++ stored (c.write w) ws

/-! ### Entries are what was stored -/

theorem entries_write (c : Collection α) (w : Write α) :
    (c.write w).entries = Entries.putAll c.entries (c.pair? w).toList := by
  cases w with
  | insert key value => rfl
  | push value =>
    rcases hn : c.next with _ | i
    · simp [write, pair?, push, hn, Entries.putAll]
    · simp [write, pair?, push, hn, Entries.putAll]

theorem entries_writeAll (c : Collection α) (ws : List (Write α)) :
    (c.writeAll ws).entries = Entries.putAll c.entries (c.stored ws) := by
  induction ws generalizing c with
  | nil => rfl
  | cons w ws ih =>
    rw [show c.writeAll (w :: ws) = (c.write w).writeAll ws from rfl, ih]
    rw [stored, Entries.putAll_append, entries_write]

/-! ### The number of the next index -/

/-- The number of the next index, which is past all words where there is none. -/
def nextNumber (c : Collection α) : Nat := c.next.elim (2 ^ 64) UInt64.toNat

theorem number_indexAfter (i : UInt64) :
    (indexAfter i).elim (2 ^ 64) UInt64.toNat = i.toNat + 1 := by
  have hi := i.toNat_lt
  have hsize : UInt64.size = 2 ^ 64 := rfl
  unfold indexAfter
  split
  · next h =>
    have hone : (1 : UInt64).toNat = 1 := rfl
    simp only [Option.elim_some, UInt64.toNat_add, hone]
    omega
  · next h =>
    -- past the greatest word, where the number is what it would have been
    simp only [Option.elim_none]
    omega

theorem nextNumber_le (c : Collection α) : c.nextNumber ≤ 2 ^ 64 := by
  unfold nextNumber
  rcases c.next with _ | i
  · exact le_rfl
  · exact i.toNat_lt.le

theorem nextNumber_insert_name (c : Collection α) (s : String) (value : α) :
    (c.insert (.name s) value).nextNumber = c.nextNumber := by
  simp [nextNumber, insert, nextAfter]

theorem nextNumber_insert_index (c : Collection α) (i : UInt64) (value : α) :
    (c.insert (.index i) value).nextNumber = max c.nextNumber (i.toNat + 1) := by
  have hi := i.toNat_lt
  rcases hn : c.next with _ | n
  · simp only [nextNumber, insert, nextAfter, hn, Option.elim_none]
    omega
  · simp only [nextNumber, insert, nextAfter, hn]
    by_cases hle : n ≤ i
    · have hle' : n.toNat ≤ i.toNat := UInt64.le_iff_toNat_le.mp hle
      rw [if_pos hle, number_indexAfter, Option.elim_some]
      omega
    · have hlt : i.toNat < n.toNat := UInt64.lt_iff_toNat_lt.mp (UInt64.not_le.mp hle)
      rw [if_neg hle, Option.elim_some]
      omega

/-- The number of the next index is the least above every index that is present. -/
def Tight (c : Collection α) : Prop :=
  ∀ n, c.nextNumber ≤ n ↔ ∀ i, Key.index i ∈ c.keys → i.toNat < n

theorem tight_empty : (empty : Collection α).Tight := by
  intro n
  simp [nextNumber, empty, keys, Entries.keys]

theorem mem_keys_insert {c : Collection α} {k key : Key} {value : α} :
    k ∈ (c.insert key value).keys ↔ k = key ∨ k ∈ c.keys := by
  rw [keys_insert]
  split
  · next h => exact ⟨Or.inr, fun hk => hk.elim (fun hk => hk ▸ h) id⟩
  · rw [List.mem_append, List.mem_singleton, or_comm]

theorem tight_insert {c : Collection α} (h : c.Tight) (key : Key) (value : α) :
    (c.insert key value).Tight := by
  intro n
  cases key with
  | name s =>
    rw [nextNumber_insert_name, h n]
    simp [mem_keys_insert]
  | index i =>
    -- the least upper bound of one more index is the maximum with it
    rw [nextNumber_insert_index, max_le_iff, h n]
    simp only [mem_keys_insert, Key.index.injEq]
    constructor
    · rintro ⟨hold, hnew⟩ j (rfl | hj)
      · exact hnew
      · exact hold j hj
    · intro hall
      exact ⟨fun j hj => hall j (Or.inr hj), hall i (Or.inl rfl)⟩

/-- A push is an insertion at the next index. -/
theorem push_eq_insert {c : Collection α} {i : UInt64} (h : c.next = some i) (value : α) :
    c.push value = some (i, c.insert (.index i) value) := by
  simp [push, h, insert, nextAfter]

/-- Where a value goes: the key that a text writes, or else the next index, if there is one. -/
def target? (c : Collection α) : Option String → Option Key
  | some k => some (.parse k)
  | none => c.next.map .index

theorem tight_write {c : Collection α} (h : c.Tight) (w : Write α) : (c.write w).Tight := by
  cases w with
  | insert key value => exact tight_insert h key value
  | push value =>
    rcases hn : c.next with _ | i
    · simpa [write, push, hn] using h
    · simpa [write, push_eq_insert hn] using tight_insert h (.index i) value

theorem tight_writeAll {c : Collection α} (h : c.Tight) (ws : List (Write α)) :
    (c.writeAll ws).Tight := by
  induction ws generalizing c with
  | nil => exact h
  | cons w ws ih => exact ih (tight_write h w)

/-! ### The next index, and what a push does with it -/

theorem next_eq_some_iff {c : Collection α} {i : UInt64} :
    c.next = some i ↔ c.nextNumber = i.toNat := by
  have hi := i.toNat_lt
  unfold nextNumber
  rcases c.next with _ | n
  · simp only [Option.elim_none, reduceCtorEq, false_iff]
    omega
  · rw [Option.elim_some, Option.some_inj, UInt64.toNat_inj]

theorem next_eq_none_iff {c : Collection α} : c.next = none ↔ c.nextNumber = 2 ^ 64 := by
  unfold nextNumber
  rcases c.next with _ | n
  · simp
  · simp only [Option.elim_some, reduceCtorEq, false_iff]
    exact n.toNat_lt.ne

theorem Tight.next_of_no_index {c : Collection α} (h : c.Tight)
    (hno : ∀ i, Key.index i ∉ c.keys) : c.next = some 0 := by
  have hle : c.nextNumber ≤ 0 := (h 0).mpr fun i hi => absurd hi (hno i)
  have hzero : (0 : UInt64).toNat = 0 := rfl
  rw [next_eq_some_iff]
  omega

/-- The number of the next index is one past the greatest index. -/
theorem Tight.nextNumber_of_greatest {c : Collection α} (h : c.Tight) {m : UInt64}
    (hm : IsGreatest {i | Key.index i ∈ c.keys} m) : c.nextNumber = m.toNat + 1 := by
  apply le_antisymm
  · refine (h _).mpr fun i hi => ?_
    exact Nat.lt_succ_of_le (UInt64.le_iff_toNat_le.mp (hm.2 hi))
  · exact (h _).mp le_rfl m hm.1

theorem Tight.next_of_greatest {c : Collection α} (h : c.Tight) {m : UInt64}
    (hm : IsGreatest {i | Key.index i ∈ c.keys} m) (hlt : m < lastIndex) :
    c.next = some (m + 1) := by
  have hlast : lastIndex.toNat = 2 ^ 64 - 1 := rfl
  have hone : (1 : UInt64).toNat = 1 := rfl
  have hlt' : m.toNat < lastIndex.toNat := UInt64.lt_iff_toNat_lt.mp hlt
  rw [next_eq_some_iff, h.nextNumber_of_greatest hm, UInt64.toNat_add, hone]
  omega

theorem Tight.next_eq_none_iff_last {c : Collection α} (h : c.Tight) :
    c.next = none ↔ Key.index lastIndex ∈ c.keys := by
  have hlast : lastIndex.toNat = 2 ^ 64 - 1 := rfl
  have hbound := c.nextNumber_le
  rw [next_eq_none_iff]
  constructor
  · intro hnum
    -- otherwise all indexes were below the greatest word, and so would be the next one
    by_contra hnot
    have hle : c.nextNumber ≤ 2 ^ 64 - 1 := by
      refine (h _).mpr fun i hi => ?_
      have hne : i ≠ lastIndex := fun heq => hnot (heq ▸ hi)
      have hne' : i.toNat ≠ lastIndex.toNat := fun heq => hne (UInt64.toNat_inj.mp heq)
      have := i.toNat_lt
      omega
    omega
  · intro hmem
    have := (h c.nextNumber).mp le_rfl lastIndex hmem
    omega

/-- The next index is above every index that is present, so what is pushed goes to the end. -/
theorem Tight.push_eq {c : Collection α} (h : c.Tight) {i : UInt64} (hi : c.next = some i)
    (value : α) :
    c.push value = some (i, ⟨c.entries ++ [(.index i, value)], indexAfter i⟩) ∧
      ∀ j, Key.index j ∈ c.keys → j < i := by
  have hbelow : ∀ j, Key.index j ∈ c.keys → j < i := by
    intro j hj
    rw [UInt64.lt_iff_toNat_lt, ← next_eq_some_iff.mp hi]
    exact (h _).mp le_rfl j hj
  have hnew : Key.index i ∉ Entries.keys c.entries := fun hmem =>
    absurd (hbelow i hmem) (UInt64.lt_irrefl i)
  refine ⟨?_, hbelow⟩
  rw [push, hi, Option.map_some, Entries.put_of_notMem hnew]

/-! ### Any sequence of writes -/

theorem keys_writeAll_empty (ws : List (Write α)) :
    (empty.writeAll ws).keys = ((empty.stored ws).map Prod.fst).eraseDups := by
  rw [keys, entries_writeAll]
  exact Entries.keys_ofList _

theorem get?_writeAll_empty (ws : List (Write α)) (key : Key) :
    (empty.writeAll ws).get? key = Entries.last? key (empty.stored ws) := by
  rw [get?, entries_writeAll]
  exact Entries.get?_ofList key _

/-- The collection is what writes make of the empty one. -/
def Made (c : Collection α) : Prop := ∃ ws, c = empty.writeAll ws

theorem made_empty : (empty : Collection α).Made := ⟨[], rfl⟩

theorem Made.insert {c : Collection α} (h : c.Made) (key : Key) (value : α) :
    (c.insert key value).Made := by
  obtain ⟨ws, rfl⟩ := h
  exact ⟨ws ++ [.insert key value], by simp [writeAll, write]⟩

theorem Made.tight {c : Collection α} (h : c.Made) : c.Tight := by
  obtain ⟨ws, rfl⟩ := h
  exact tight_writeAll tight_empty ws

theorem Made.nodup {c : Collection α} (h : c.Made) : c.keys.Nodup := by
  obtain ⟨ws, rfl⟩ := h
  rw [keys, entries_writeAll]
  exact Entries.nodup_keys_ofList _

/-- **Indexes stay in sequence.**  After any writes to the empty collection, keys are distinct and
stand where they were first written, each under the value written to it last; the next index is
zero, one past the greatest index, or missing once the greatest word has been used.  What is pushed
goes to the end, under an index above all others — or the push is refused, and changes nothing,
because the greatest word is a key. -/
theorem stored_indexes_stay_in_sequence (ws : List (Write α)) :
    let c := empty.writeAll ws
    let pairs := empty.stored ws
    c.keys.Nodup ∧ c.keys = (pairs.map Prod.fst).eraseDups ∧
    (∀ key, c.get? key = Entries.last? key pairs) ∧
    ((∀ i, Key.index i ∉ c.keys) → c.next = some 0) ∧
    (∀ m, IsGreatest {i | Key.index i ∈ c.keys} m → m < lastIndex → c.next = some (m + 1)) ∧
    (c.next = none ↔ Key.index lastIndex ∈ c.keys) ∧
    ∀ value,
      (c.push value = none ↔ Key.index lastIndex ∈ c.keys) ∧
      (c.push value = none → c.write (.push value) = c) ∧
      ∀ i after, c.push value = some (i, after) →
        c.write (.push value) = after ∧ after.entries = c.entries ++ [(.index i, value)] ∧
          ∀ j, Key.index j ∈ c.keys → j < i := by
  intro c pairs
  have htight : c.Tight := tight_writeAll tight_empty ws
  have hkeys : c.keys = (pairs.map Prod.fst).eraseDups := keys_writeAll_empty ws
  have hnodup : c.keys.Nodup := by
    rw [show c.keys = Entries.keys c.entries from rfl, entries_writeAll]
    exact Entries.nodup_keys_ofList _
  refine ⟨hnodup, hkeys, get?_writeAll_empty ws, htight.next_of_no_index,
    fun m hm hlt => htight.next_of_greatest hm hlt, htight.next_eq_none_iff_last, ?_⟩
  intro value
  refine ⟨?_, ?_, ?_⟩
  · rw [push_eq_none_iff, htight.next_eq_none_iff_last]
  · intro hnone
    simp only [write, hnone]
  · intro i after hpush
    have hi : c.next = some i := by
      simp only [push, Option.map_eq_some_iff, Prod.mk.injEq] at hpush
      obtain ⟨j, hj, rfl, -⟩ := hpush
      exact hj
    obtain ⟨heq, hbelow⟩ := htight.push_eq hi value
    obtain ⟨-, rfl⟩ := Prod.mk.inj (Option.some.inj (hpush.symm.trans heq))
    exact ⟨by simp only [write, hpush], rfl, hbelow⟩

end Collection
end ClassSchema
