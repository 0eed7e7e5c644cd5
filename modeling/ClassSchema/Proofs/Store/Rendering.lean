/-
How entries are written as JSON, and how they are put together again.

* `isRun_map_parse_iff` — texts write the indexes from zero on exactly if they are "0", "1", "2", …;
* `jsonOfEntries_eq` — entries as an array or an object: no entry is left out, none moves, and each
  keeps its text;
* `insertAll_entries` — an orderly collection is what its entries make, one put after the other;
* `entries_pushAll` — and values that are pushed come under the indexes from zero on;
* `ofJson_jsonOfEntries` — so what was written is read back, as an array or as an object.

Design notes: of a collection only the values and the texts of the keys are written.  All else can
be told from these where the collection is orderly: the texts write the keys, the keys decide the
next index, and an array leaves out just those keys that pushing gives.
-/
import ClassSchema.Proofs.Qualification.Store
import ClassSchema.Proofs.Store.Bag

namespace ClassSchema

/-! ### Indexes from zero on -/

theorem isRun_cons_iff {start : Nat} {key : Key} {rest : List Key} :
    isRun start (key :: rest) = true ↔
      ∃ i : UInt64, key = .index i ∧ i.toNat = start ∧ isRun (start + 1) rest = true := by
  cases key with
  | index i => simp [isRun]
  | name s => simp [isRun]

theorem nodup_of_isRun {start : Nat} {keys : List Key} (h : isRun start keys = true) :
    keys.Nodup ∧ ∀ key ∈ keys, ∃ i : UInt64, key = .index i ∧ start ≤ i.toNat := by
  induction keys generalizing start with
  | nil => exact ⟨List.nodup_nil, fun _ hkey => absurd hkey List.not_mem_nil⟩
  | cons key rest ih =>
    obtain ⟨i, rfl, hi, hrest⟩ := isRun_cons_iff.mp h
    obtain ⟨hnodup, hindex⟩ := ih hrest
    refine ⟨List.nodup_cons.mpr ⟨?_, hnodup⟩, ?_⟩
    · intro hmem
      obtain ⟨j, hj, hle⟩ := hindex _ hmem
      obtain rfl := Key.index.inj hj
      omega
    · intro key hkey
      rcases List.mem_cons.mp hkey with rfl | hkey
      · exact ⟨i, rfl, hi.ge⟩
      · obtain ⟨j, rfl, hle⟩ := hindex key hkey
        exact ⟨j, rfl, by omega⟩

/-- Texts write the indexes from some number on exactly if they print these numbers, and no number
is too great for an index. -/
theorem isRun_map_parse_iff {start : Nat} (hstart : start ≤ 2 ^ 64) (texts : List String) :
    isRun start (texts.map Key.parse) = true ↔
      texts = (List.range' start texts.length).map toString ∧ start + texts.length ≤ 2 ^ 64 := by
  induction texts generalizing start with
  | nil => simpa [isRun] using hstart
  | cons s texts ih =>
    rw [List.map_cons, isRun_cons_iff, List.length_cons, List.range'_succ, List.map_cons,
      List.cons.injEq]
    constructor
    · rintro ⟨i, hi, rfl, hrest⟩
      have hlt : i.toNat < 2 ^ 64 := i.toNat_lt
      obtain ⟨htexts, hle⟩ := (ih (by omega)).mp hrest
      exact ⟨⟨Key.parse_eq_index_iff.mp hi, htexts⟩, by omega⟩
    · rintro ⟨⟨rfl, htexts⟩, hle⟩
      have hsmall : start < 2 ^ 64 := by omega
      have hword : start.toUInt64.toNat = start := UInt64.toNat_ofNat_of_lt' hsmall
      refine ⟨start.toUInt64, ?_, hword, ?_⟩
      · rw [Key.parse_eq_index_iff, hword]
      · exact (ih (by omega)).mpr ⟨htexts, by omega⟩

/-! ### Collections that are put together -/

namespace Collection

variable {α : Type} {c d : Collection α}

theorem entries_insertAll (c : Collection α) (pairs : List (Key × α)) :
    (c.insertAll pairs).entries = Entries.putAll c.entries pairs := by
  induction pairs generalizing c with
  | nil => rfl
  | cons p rest ih => exact ih (c.insert p.1 p.2)

theorem Orderly.insertAll (h : c.Orderly) {pairs : List (Key × α)}
    (hkeys : ∀ key ∈ Entries.keys pairs, key.Written) : (c.insertAll pairs).Orderly := by
  have hsound : c.Sound fun _ => True := ⟨h, fun _ _ => trivial⟩
  refine (hsound.insertAll fun p hp => ⟨?_, trivial⟩).orderly
  exact hkeys p.1 (List.mem_map_of_mem hp)

theorem Orderly.map {β : Type} (h : c.Orderly) (f : α → β) : (c.map f).Orderly := by
  have hkeys : (c.map f).keys = c.keys := Entries.keys_mapValues f c.entries
  refine ⟨?_, ?_, ?_⟩
  · rw [hkeys]
    exact h.nodup
  · intro n
    rw [hkeys]
    exact h.tight n
  · rw [hkeys]
    exact h.written

/-- The indexes that are present decide which one is next. -/
theorem Tight.next_unique (hc : c.Tight) (hd : d.Tight)
    (hindexes : ∀ i, Key.index i ∈ c.keys ↔ Key.index i ∈ d.keys) : c.next = d.next := by
  -- both numbers are the least above the same indexes
  have hle : ∀ n, c.nextNumber ≤ n ↔ d.nextNumber ≤ n := by
    intro n
    simp only [hc n, hd n, hindexes]
  have hnumber : c.nextNumber = d.nextNumber :=
    le_antisymm ((hle _).mpr le_rfl) ((hle _).mp le_rfl)
  rcases hn : d.next with _ | i
  · rw [next_eq_none_iff, hnumber]
    exact next_eq_none_iff.mp hn
  · rw [next_eq_some_iff, hnumber]
    exact next_eq_some_iff.mp hn

theorem Orderly.insertAll_entries (h : c.Orderly) : empty.insertAll c.entries = c := by
  have hentries : (empty.insertAll c.entries).entries = c.entries := by
    rw [entries_insertAll]
    exact Entries.ofList_of_nodup h.nodup
  have hkeys : (empty.insertAll c.entries).keys = c.keys := congrArg Entries.keys hentries
  have hnext := Tight.next_unique (orderly_empty.insertAll h.written).tight h.tight
    fun i => by rw [hkeys]
  rcases hmade : empty.insertAll c.entries with ⟨entries, next⟩
  rw [hmade] at hentries hnext
  rw [show c = ⟨c.entries, c.next⟩ from rfl, ← hentries, ← hnext]

/-- To push values is to insert them under the indexes that follow. -/
theorem pushAll_of_isRun {pairs : List (Key × α)}
    (h : isRun c.nextNumber (Entries.keys pairs) = true) :
    c.pushAll (pairs.map Prod.snd) = c.insertAll pairs := by
  induction pairs generalizing c with
  | nil => rfl
  | cons p rest ih =>
    obtain ⟨i, hp, hi, hrest⟩ := isRun_cons_iff.mp h
    have hnext : c.next = some i := next_eq_some_iff.mpr hi.symm
    have hafter : (c.insert (.index i) p.2).nextNumber = c.nextNumber + 1 := by
      rw [nextNumber_insert_index]
      omega
    have hstep : ((c.push p.2).map Prod.snd).getD c = c.insert p.1 p.2 := by
      rw [push_eq_insert hnext, hp]
      rfl
    rw [show c.pushAll ((p :: rest).map Prod.snd) =
      (((c.push p.2).map Prod.snd).getD c).pushAll (rest.map Prod.snd) from rfl, hstep]
    refine ih ?_
    rw [hp, hafter]
    exact hrest

/-- Values under the indexes from a number on. -/
def numbered (start : Nat) : List α → List (Key × α)
  | [] => []
  | value :: rest => (.index start.toUInt64, value) :: numbered (start + 1) rest

theorem map_snd_numbered (start : Nat) (values : List α) :
    (numbered start values).map Prod.snd = values := by
  induction values generalizing start with
  | nil => rfl
  | cons value rest ih => rw [numbered, List.map_cons, ih]

theorem isRun_numbered {start : Nat} {values : List α} (h : start + values.length ≤ 2 ^ 64) :
    isRun start (Entries.keys (numbered start values)) = true := by
  induction values generalizing start with
  | nil => rfl
  | cons value rest ih =>
    rw [List.length_cons] at h
    have hsmall : start < 2 ^ 64 := by omega
    have hword : start.toUInt64.toNat = start := UInt64.toNat_ofNat_of_lt' hsmall
    exact isRun_cons_iff.mpr ⟨_, rfl, hword, ih (by omega)⟩

theorem entries_pushAll {values : List α} (h : values.length ≤ 2 ^ 64) :
    (empty.pushAll values).entries = numbered 0 values := by
  have hrun : isRun 0 (Entries.keys (numbered 0 values)) = true := isRun_numbered (by omega)
  have hpush := pushAll_of_isRun (c := empty) hrun
  rw [map_snd_numbered] at hpush
  rw [hpush, entries_insertAll]
  exact Entries.ofList_of_nodup (nodup_of_isRun hrun).1

end Collection

/-! ### Entries as JSON -/

/-- Induction over trees: what holds of leaves, and of arrays and objects if it holds of all that is
in them, holds of every tree. -/
@[elab_as_elim]
theorem Json.tree_induction {P : Json → Prop} (null : P .null) (bool : ∀ b, P (.bool b))
    (num : ∀ n, P (.num n)) (str : ∀ s, P (.str s))
    (arr : ∀ items, (∀ i ∈ items, P i) → P (.arr items))
    (obj : ∀ members, (∀ e ∈ members, P e.2) → P (.obj members)) (j : Json) : P j := by
  refine @Json.rec P (fun items => ∀ i ∈ items, P i) (fun members => ∀ e ∈ members, P e.2)
    (fun e => P e.2) null bool num str arr obj ?_ ?_ ?_ ?_ ?_ j
  · exact fun _ hi => absurd hi List.not_mem_nil
  · exact fun _ _ hj hrest => List.forall_mem_cons.mpr ⟨hj, hrest⟩
  · exact fun _ he => absurd he List.not_mem_nil
  · exact fun _ _ he hrest => List.forall_mem_cons.mpr ⟨he, hrest⟩
  · exact fun _ _ hj => hj

namespace Value

theorem entriesToJson_eq (entries : List (Key × Value)) :
    entriesToJson entries = Entries.mapValues toJson entries := by
  induction entries with
  | nil => rfl
  | cons e rest ih => rw [entriesToJson, ih, Entries.mapValues_cons]

theorem collectionToJson_eq (c : Collection Value) :
    collectionToJson c = jsonOfEntries (Entries.mapValues toJson c.entries) := by
  rw [show c = ⟨c.entries, c.next⟩ from rfl, collectionToJson, entriesToJson_eq]

theorem ofItems_eq (items : List Json) : ofItems items = items.map ofJson := by
  induction items with
  | nil => rfl
  | cons j rest ih => rw [ofItems, ih, List.map_cons]

theorem ofMembers_eq (members : List (String × Json)) :
    ofMembers members = members.map fun e => (Key.parse e.1, ofJson e.2) := by
  induction members with
  | nil => rfl
  | cons e rest ih => rw [ofMembers, ih, List.map_cons]

theorem keys_map_text {α : Type} (entries : List (Key × α)) :
    Entries.keys (entries.map fun e => (e.1.text, e.2)) = (Entries.keys entries).map Key.text := by
  simp [Entries.keys]

/-- **Entries are written as an array or an object, with nothing left out and nothing moved.** -/
theorem jsonOfEntries_eq {entries : List (Key × Json)} (hnodup : (Entries.keys entries).Nodup)
    (hwritten : ∀ key ∈ Entries.keys entries, key.Written) :
    jsonOfEntries entries =
      if isRun 0 (Entries.keys entries) then .arr (entries.map Prod.snd)
      else .obj (entries.map fun e => (e.1.text, e.2)) := by
  have htexts : (Entries.keys (entries.map fun e => (e.1.text, e.2))).Nodup := by
    rw [keys_map_text]
    exact Key.nodup_map_text hnodup hwritten
  rw [jsonOfEntries]
  split
  · rfl
  · rw [Entries.ofList_of_nodup htexts]

theorem ofJson_jsonOfEntries {entries : List (Key × Json)}
    (hnodup : (Entries.keys entries).Nodup)
    (hwritten : ∀ key ∈ Entries.keys entries, key.Written) :
    ofJson (jsonOfEntries entries) =
      .list (Collection.empty.insertAll (Entries.mapValues ofJson entries)) := by
  rw [jsonOfEntries_eq hnodup hwritten]
  split
  · next hrun =>
    have hvalues : (entries.map Prod.snd).map ofJson =
        (Entries.mapValues ofJson entries).map Prod.snd := by simp [Entries.mapValues]
    have hrun' : isRun (Collection.empty : Collection Value).nextNumber
        (Entries.keys (Entries.mapValues ofJson entries)) = true := by
      rw [Entries.keys_mapValues]
      exact hrun
    rw [ofJson, ofItems_eq, hvalues, Collection.pushAll_of_isRun hrun']
  · have hmembers : (entries.map fun e => (e.1.text, e.2)).map
          (fun e => (Key.parse e.1, ofJson e.2)) = Entries.mapValues ofJson entries := by
      rw [List.map_map, Entries.mapValues]
      refine List.map_congr_left fun e he => ?_
      have hkey := (hwritten e.1 (List.mem_map_of_mem he)).parse_text
      show (Key.parse e.1.text, ofJson e.2) = (e.1, ofJson e.2)
      rw [hkey]
    rw [ofJson, ofMembers_eq, hmembers]

end Value
end ClassSchema
