/-
What can be read after a write.

* `get_storing` — what is read of an instance that has stored one more value;
* `what_is_written_is_read` — a value that was set or appended is read under the text of its key,
  every other text is read as before, and no key moves.

Design notes: one bag holds what stands under names and what stands under indexes, and both are read
by texts.  Two texts never write the same key, not even "3" and "03", so a value that is stored at a
key can be seen under one text alone.
-/
import ClassSchema.Proofs.Flattening
import ClassSchema.Proofs.Store.Bag

namespace ClassSchema.Instance

variable {i : Instance} {v : Value}

/-! ### One more value -/

theorem get_of_hasProperty? {s : String} {t : SlotType} (ht : i.owner.hasProperty? s = some t) :
    i.get s = .ok (i.bag.get? (.parse s)) := by
  simp only [get, ht]

/-- Where a value is stored it is read, as far as the class lets the text be read at all. -/
theorem get_storing (i : Instance) (key : Key) (w : Value) (s : String) :
    (i.storing key w).get s =
      if key = .parse s then (i.get s).map fun _ => some w else i.get s := by
  rcases ht : i.owner.hasProperty? s with _ | t
  · simp [get, storing, ownerName, ht, Except.map]
  · rw [get_of_hasProperty? ht, get_of_hasProperty? (i := i.storing key w) ht, storing,
      Collection.get?_insert]
    by_cases hkey : key = .parse s
    · rw [if_pos hkey, if_pos hkey]
      rfl
    · rw [if_neg hkey, if_neg hkey]

theorem get_storing_parse {a : String} {t : SlotType} (ht : i.owner.hasProperty? a = some t)
    (w : Value) : (i.storing (.parse a) w).get a = .ok (some w) := by
  rw [get_storing, if_pos rfl, get_of_hasProperty? ht]
  rfl

theorem get_storing_of_ne {a b : String} (hab : a ≠ b) (w : Value) :
    (i.storing (.parse a) w).get b = i.get b := by
  have hne : Key.parse a ≠ .parse b := fun h => hab (Key.parse_inj.mp h)
  rw [get_storing, if_neg hne]

/-- An open class lets every text be read. -/
theorem exists_hasProperty?_of_isOpen {c : Class} (h : c.isOpen = true) (s : String) :
    ∃ t, c.hasProperty? s = some t :=
  Class.exists_hasProperty?_iff.mpr (Or.inr h)

/-! ### Reading after writing -/

/-- **What is written is read, and nothing else changes.**  Whatever was done to an instance before:
a value that is set under a name, or appended under it, is read under this name; every other text is
read as before, be it a value, nothing or an error; and no key moves, the one of the name keeping
its position if it was there and coming last if not.  A value that is appended under no name comes
last, under an index that no key was, and is read under the text of this index alone. -/
theorem what_is_written_is_read (c : Class) (history : List Operation) (v : Value) :
    let i := c.create.run history
    (∀ a b, a ≠ b → ∀ out, out = i.set a v ∨ out = i.append v (some a) → out.result = .ok () →
      out.after.get a = .ok (some v) ∧ out.after.get b = i.get b ∧
      out.after.bag.keys =
        if .parse a ∈ i.bag.keys then i.bag.keys else i.bag.keys ++ [.parse a]) ∧
    ∀ out, out = i.append v none → out.result = .ok () →
      ∃ n : UInt64, .index n ∉ i.bag.keys ∧
        out.after.bag.entries = i.bag.entries ++ [(.index n, v)] ∧
        out.after.get (toString n.toNat) = .ok (some v) ∧
        ∀ s, s ≠ toString n.toNat → out.after.get s = i.get s := by
  intro i
  have hbag : i.bag.Tight := (orderly_run_create c history).tight
  refine ⟨?_, ?_⟩
  · intro a b hab out hout hok
    -- either way the value is stored at the key that the name writes
    obtain ⟨⟨t, ht⟩, hafter⟩ :
        (∃ t, i.owner.hasProperty? a = some t) ∧ out.after = i.storing (.parse a) v := by
      rcases hout with rfl | rfl
      · exact set_of_ok hok
      · obtain ⟨hopen, k, hk, hafter⟩ := append_of_ok hok
        obtain rfl := Option.some.inj hk
        exact ⟨exists_hasProperty?_of_isOpen hopen a, hafter⟩
    rw [hafter]
    exact ⟨get_storing_parse ht v, get_storing_of_ne hab v, i.bag.keys_insert (.parse a) v⟩
  · intro out hout hok
    subst hout
    obtain ⟨hopen, k, hk, hafter⟩ := append_of_ok hok
    obtain ⟨n, hn, rfl⟩ := Option.map_eq_some_iff.mp hk
    obtain ⟨hpush, hbelow⟩ := hbag.push_eq hn v
    have hindex : Key.index n = .parse (toString n.toNat) := (Key.parse_toString_toNat n).symm
    obtain ⟨t, ht⟩ := exists_hasProperty?_of_isOpen hopen (toString n.toNat)
    refine ⟨n, ?_, ?_, ?_, ?_⟩
    · intro hmem
      exact absurd (hbelow n hmem) (UInt64.lt_irrefl n)
    · -- to append at the next index is to push
      rw [Collection.push_eq_insert hn] at hpush
      rw [hafter, storing, (Prod.mk.inj (Option.some.inj hpush)).2]
    · rw [hafter, hindex]
      exact get_storing_parse ht v
    · intro s hs
      rw [hafter, hindex]
      exact get_storing_of_ne hs.symm v

/-- Names that look like indexes, and one that is the text of an index. -/
theorem shelf_reads_what_is_written :
    let i := (Class.root shelf).create.run
      [.append (.int 1) (some "03"), .append (.int 2) (some "3")]
    let keyed := i.append .null (some "03")
    let pushed := i.append .null none
    "03" ≠ "3" ∧ keyed.result = .ok () ∧ pushed.result = .ok () ∧
    keyed.after.get "03" = .ok (some .null) ∧ keyed.after.get "3" = i.get "3" ∧
    keyed.after.bag.keys = [.name "03", .index 3] ∧
    ∃ n : UInt64, .index n ∉ i.bag.keys ∧
      pushed.after.bag.entries = i.bag.entries ++ [(.index n, .null)] ∧
      pushed.after.get (toString n.toNat) = .ok (some .null) ∧
      ∀ s, s ≠ toString n.toNat → pushed.after.get s = i.get s := by
  intro i keyed pushed
  have hkeyed : keyed.result = .ok () := by rfl
  have hpushed : pushed.result = .ok () := by rfl
  obtain ⟨hnamed, hnext⟩ := what_is_written_is_read (Class.root shelf)
    [.append (.int 1) (some "03"), .append (.int 2) (some "3")] .null
  obtain ⟨hget, hother, hkeys⟩ := hnamed "03" "3" (by decide) keyed (Or.inr rfl) hkeyed
  refine ⟨by decide, hkeyed, hpushed, hget, hother, ?_, hnext pushed rfl hpushed⟩
  rw [hkeys]
  rfl

end ClassSchema.Instance
