/-
When values are equal.

* `Collection.SameKeys` — two collections have the same keys, in whatever order;
* `Value.Alike` — what equality is meant to be: equal leaves, and equal values under the same keys;
* `Value.Made` — every collection in the value is made by pushes and insertions;
* `sameCollection_iff` — such collections are equal exactly if they have the same keys, with equal
  values under them;
* `same_iff_alike` — so equality is what it is meant to be, at every depth;
* `equality_is_extensional` — neither the order of insertion nor the next index has a say in it, and
  it is symmetric and transitive.

Design notes: equality goes through the entries of one side only and counts them, so it is not
symmetric by its form, and it compares the next indexes too.  Where no key is repeated a count of
keys is as good as a look from the other side, and where the next index is the least above all
indexes it adds nothing to the keys.  `Alike` has neither the count nor the index, and symmetry and
transitivity are read off from it.
-/
import ClassSchema.Proofs.Store.Decoding

namespace ClassSchema

/-! ### Floating-point numbers -/

namespace Decimal

open Float.Model.UnpackedFloat

theorem beq_symm {x y : Float} (h : (x == y) = true) : (y == x) = true := by
  obtain ⟨hx, hy, heq⟩ := (beq_iff_ne_notANumber_and_eq _ _).mp h
  refine (beq_iff_ne_notANumber_and_eq _ _).mpr ⟨hy, hx, ?_⟩
  rcases heq with heq | ⟨hx, hy⟩ | ⟨hx, hy⟩
  · exact Or.inl heq.symm
  · exact Or.inr (Or.inr ⟨hy, hx⟩)
  · exact Or.inr (Or.inl ⟨hy, hx⟩)

theorem beq_trans {x y z : Float} (hxy : (x == y) = true) (hyz : (y == z) = true) :
    (x == z) = true := by
  obtain ⟨hx, -, hxy⟩ := (beq_iff_ne_notANumber_and_eq _ _).mp hxy
  obtain ⟨-, hz, hyz⟩ := (beq_iff_ne_notANumber_and_eq _ _).mp hyz
  refine (beq_iff_ne_notANumber_and_eq _ _).mpr ⟨hx, hz, ?_⟩
  -- the zeros of both signs are equal to one another, and all else only to itself
  generalize x.toModel.unpack = a at *
  generalize y.toModel.unpack = b at *
  generalize z.toModel.unpack = c at *
  rcases hxy with rfl | ⟨rfl, rfl⟩ | ⟨rfl, rfl⟩
  · exact hyz
  · rcases hyz with rfl | ⟨hb, -⟩ | ⟨-, rfl⟩
    · exact Or.inr (Or.inl ⟨rfl, rfl⟩)
    · cases hb
    · exact Or.inl rfl
  · rcases hyz with rfl | ⟨-, rfl⟩ | ⟨hb, -⟩
    · exact Or.inr (Or.inr ⟨rfl, rfl⟩)
    · exact Or.inl rfl
    · cases hb

end Decimal

/-! ### Keys -/

namespace Collection

variable {α : Type} {c d e : Collection α}

/-- The collections have the same keys. -/
def SameKeys (c d : Collection α) : Prop := ∀ key, key ∈ c.keys ↔ key ∈ d.keys

theorem SameKeys.symm (h : c.SameKeys d) : d.SameKeys c := fun key => (h key).symm

theorem SameKeys.trans (hcd : c.SameKeys d) (hde : d.SameKeys e) : c.SameKeys e :=
  fun key => (hcd key).trans (hde key)

theorem SameKeys.exists_get? (h : c.SameKeys d) {key : Key} {value : α}
    (hget : c.get? key = some value) : ∃ other, d.get? key = some other := by
  have hkey : key ∈ d.keys := (h key).mp (List.mem_map_of_mem (Entries.mem_of_get? hget))
  exact Option.isSome_iff_exists.mp (Entries.contains_iff.mpr hkey)

/-- Keys that are not repeated are as many as others exactly if they are the same, once all of them
are among the others. -/
theorem sameKeys_iff (hc : c.keys.Nodup) (hd : d.keys.Nodup) :
    c.SameKeys d ↔ c.size = d.size ∧ ∀ key ∈ c.keys, key ∈ d.keys := by
  have hlength : ∀ c : Collection α, c.keys.length = c.size := fun _ => List.length_map _
  constructor
  · intro h
    have hperm : c.keys.Perm d.keys := (List.perm_ext_iff_of_nodup hc hd).mpr h
    exact ⟨by rw [← hlength, ← hlength, hperm.length_eq], fun key => (h key).mp⟩
  · rintro ⟨hsize, hall⟩
    have hperm : c.keys.Perm d.keys := by
      refine (hc.subperm hall).perm_of_length_le ?_
      rw [hlength, hlength, hsize]
    exact fun key => hperm.mem_iff

theorem Made.next_eq (hc : c.Made) (hd : d.Made) (h : c.SameKeys d) : c.next = d.next :=
  hc.tight.next_unique hd.tight fun i => h (.index i)

/-- A collection in which every key is a written one is made by insertions. -/
theorem Orderly.made (h : c.Orderly) : c.Made := by
  refine ⟨c.entries.map fun e => .insert e.1 e.2, ?_⟩
  rw [writeAll, List.foldl_map]
  exact h.insertAll_entries.symm

end Collection

namespace Value

/-! ### What equality is meant to be -/

/-- Leaves are equal, collections have the same keys with equal values under them, and so do
instances, whose classes have one qualified name. -/
inductive Alike : Value → Value → Prop where
  | null : Alike .null .null
  | bool (b : Bool) : Alike (.bool b) (.bool b)
  | int (n : Int64) : Alike (.int n) (.int n)
  | float {x y : Float} : (x == y) = true → Alike (.float x) (.float y)
  | str (s : String) : Alike (.str s) (.str s)
  | list {c d : Collection Value} : c.SameKeys d →
      (∀ key v w, c.get? key = some v → d.get? key = some w → Alike v w) →
      Alike (.list c) (.list d)
  | object {owner owner' : Class} {bag bag' : Collection Value} :
      owner.qualified = owner'.qualified → bag.SameKeys bag' →
      (∀ key v w, bag.get? key = some v → bag'.get? key = some w → Alike v w) →
      Alike (.object owner bag) (.object owner' bag')

theorem Alike.symm {v w : Value} (h : v.Alike w) : w.Alike v := by
  induction h with
  | null => exact .null
  | bool b => exact .bool b
  | int n => exact .int n
  | float hxy => exact .float (Decimal.beq_symm hxy)
  | str s => exact .str s
  | list hkeys _ ih => exact .list hkeys.symm fun key v w hv hw => ih key w v hw hv
  | object howner hkeys _ ih =>
    exact .object howner.symm hkeys.symm fun key v w hv hw => ih key w v hw hv

/-- Under a key of the outer collections the one in the middle has a value too. -/
theorem exists_between {c d e : Collection Value} (hcd : c.SameKeys d)
    (hvalues : ∀ key u v, c.get? key = some u → d.get? key = some v →
      ∀ w, v.Alike w → u.Alike w)
    (hde : ∀ key v w, d.get? key = some v → e.get? key = some w → v.Alike w) :
    ∀ key u w, c.get? key = some u → e.get? key = some w → u.Alike w := by
  intro key u w hu hw
  obtain ⟨v, hv⟩ := hcd.exists_get? hu
  exact hvalues key u v hu hv w (hde key v w hv hw)

theorem Alike.trans {u v w : Value} (huv : u.Alike v) (hvw : v.Alike w) : u.Alike w := by
  induction huv generalizing w with
  | null => exact hvw
  | bool b => exact hvw
  | int n => exact hvw
  | str s => exact hvw
  | float hxy =>
    cases hvw with
    | float hyz => exact .float (Decimal.beq_trans hxy hyz)
  | list hcd _ ih =>
    cases hvw with
    | list hde hvalues =>
      exact .list (hcd.trans hde) (exists_between hcd (fun key u v hu hv w => ih key u v hu hv)
        hvalues)
  | object howner hcd _ ih =>
    cases hvw with
    | object howner' hde hvalues =>
      exact .object (howner.trans howner') (hcd.trans hde)
        (exists_between hcd (fun key u v hu hv w => ih key u v hu hv) hvalues)

/-! ### What equality is -/

theorem sameEntries_iff {entries others : List (Key × Value)} :
    sameEntries entries others = true ↔
      ∀ e ∈ entries, ∃ w, Entries.get? e.1 others = some w ∧ e.2.same w = true := by
  refine ⟨fun h => ?_, sameEntries_of_forall⟩
  induction entries with
  | nil => exact fun _ he => absurd he List.not_mem_nil
  | cons e rest ih =>
    rw [show e = (e.1, e.2) from rfl, sameEntries] at h
    split at h
    · next w hw =>
      obtain ⟨hsame, hrest⟩ := Bool.and_eq_true_iff.mp h
      exact List.forall_mem_cons.mpr ⟨⟨w, hw, hsame⟩, ih hrest⟩
    · cases h

theorem sameCollection_eq (c d : Collection Value) :
    sameCollection c d =
      (c.size == d.size && sameEntries c.entries d.entries && c.next == d.next) := by
  rw [show c = ⟨c.entries, c.next⟩ from rfl, sameCollection]
  rfl

variable {c d : Collection Value}

/-- Keys and values decide, in whatever order they stand; the next index has no say. -/
theorem sizes_and_entries_iff (hc : c.keys.Nodup) (hd : d.keys.Nodup) :
    (c.size == d.size && sameEntries c.entries d.entries) = true ↔
      c.SameKeys d ∧
        ∀ key v w, c.get? key = some v → d.get? key = some w → v.same w = true := by
  rw [Bool.and_eq_true_iff, beq_iff_eq, sameEntries_iff, Collection.sameKeys_iff hc hd]
  constructor
  · rintro ⟨hsize, hentries⟩
    refine ⟨⟨hsize, fun key hkey => ?_⟩, fun key v w hv hw => ?_⟩
    · obtain ⟨e, he, rfl⟩ := List.mem_map.mp hkey
      obtain ⟨w, hw, -⟩ := hentries e he
      exact Entries.contains_iff.mp (Option.isSome_iff_exists.mpr ⟨w, hw⟩)
    · obtain ⟨w', hw', hsame⟩ := hentries (key, v) (Entries.mem_of_get? hv)
      obtain rfl := Option.some.inj (hw'.symm.trans hw)
      exact hsame
  · rintro ⟨⟨hsize, hall⟩, hvalues⟩
    refine ⟨hsize, fun e he => ?_⟩
    have hv : c.get? e.1 = some e.2 := Entries.get?_of_mem hc he
    obtain ⟨w, hw⟩ :=
      Option.isSome_iff_exists.mp (Entries.contains_iff.mpr (hall e.1 (List.mem_map_of_mem he)))
    exact ⟨w, hw, hvalues e.1 e.2 w hv hw⟩

/-- Collections that writes make are equal as far as their entries are. -/
theorem sameCollection_eq_of_made (hc : c.Made) (hd : d.Made) :
    sameCollection c d = (c.size == d.size && sameEntries c.entries d.entries) := by
  rw [sameCollection_eq]
  rcases hentries : c.size == d.size && sameEntries c.entries d.entries with _ | _
  · rfl
  · have hkeys := ((sizes_and_entries_iff hc.nodup hd.nodup).mp hentries).1
    rw [hc.next_eq hd hkeys, beq_self_eq_true]
    rfl

theorem sameCollection_iff (hc : c.Made) (hd : d.Made) :
    sameCollection c d = true ↔
      c.SameKeys d ∧
        ∀ key v w, c.get? key = some v → d.get? key = some w → v.same w = true := by
  rw [sameCollection_eq_of_made hc hd, sizes_and_entries_iff hc.nodup hd.nodup]

/-! ### Equality is what it is meant to be -/

/-- Every collection in the value is made by pushes and insertions. -/
inductive Made : Value → Prop where
  | null : Made .null
  | bool (b : Bool) : Made (.bool b)
  | int (n : Int64) : Made (.int n)
  | float (x : Float) : Made (.float x)
  | str (s : String) : Made (.str s)
  | list {c : Collection Value} : c.Made → (∀ e ∈ c.entries, Made e.2) → Made (.list c)
  | object {owner : Class} {bag : Collection Value} : bag.Made →
      (∀ e ∈ bag.entries, Made e.2) → Made (.object owner bag)

theorem Regular.made {v : Value} (h : v.Regular) : v.Made := by
  induction h with
  | null => exact .null
  | bool b => exact .bool b
  | int n => exact .int n
  | float x => exact .float x
  | str s => exact .str s
  | list horderly _ ih => exact .list horderly.made ih
  | object horderly _ ih => exact .object horderly.made ih

theorem made_empty : (list .empty).Made :=
  .list Collection.made_empty fun _ he => absurd he List.not_mem_nil

theorem made_insert {c : Collection Value} (h : (list c).Made) (key : Key) {v : Value}
    (hv : v.Made) : (list (c.insert key v)).Made := by
  cases h with
  | list hc hentries =>
    refine .list (hc.insert key v) fun e he => ?_
    rcases Entries.mem_of_mem_put he with rfl | he
    · exact hv
    · exact hentries e he

theorem Made.of_get? {c : Collection Value} (h : ∀ e ∈ c.entries, e.2.Made) {key : Key} {v : Value}
    (hv : c.get? key = some v) : v.Made :=
  h (key, v) (Entries.mem_of_get? hv)

theorem alike_of_same {v w : Value} (hv : v.Made) (hw : w.Made) (h : v.same w = true) :
    v.Alike w := by
  -- what is of another kind is not equal
  induction hv generalizing w with
  | null => cases w <;> first | exact .null | cases h
  | bool b =>
    cases w with
    | bool b' => rw [eq_of_beq (show (b == b') = true from h)]; exact .bool b'
    | _ => cases h
  | int n =>
    cases w with
    | int n' => rw [eq_of_beq (show (n == n') = true from h)]; exact .int n'
    | _ => cases h
  | float x =>
    cases w with
    | float y => exact .float h
    | _ => cases h
  | str s =>
    cases w with
    | str s' => rw [eq_of_beq (show (s == s') = true from h)]; exact .str s'
    | _ => cases h
  | @list c hc hentries ih =>
    cases w with
    | list d =>
      cases hw with
      | list hd hothers =>
        obtain ⟨hkeys, hvalues⟩ := (sameCollection_iff hc hd).mp h
        refine .list hkeys fun key v w hv hw => ?_
        exact ih (key, v) (Entries.mem_of_get? hv) (.of_get? hothers hw) (hvalues key v w hv hw)
    | _ => cases h
  | @object owner bag hbag hentries ih =>
    cases w with
    | object owner' bag' =>
      cases hw with
      | object hbag' hothers =>
        obtain ⟨howner, hsame⟩ := Bool.and_eq_true_iff.mp h
        obtain ⟨hkeys, hvalues⟩ := (sameCollection_iff hbag hbag').mp hsame
        refine .object (eq_of_beq howner) hkeys fun key v w hv hw => ?_
        exact ih (key, v) (Entries.mem_of_get? hv) (.of_get? hothers hw) (hvalues key v w hv hw)
    | _ => cases h

theorem same_of_alike {v w : Value} (hv : v.Made) (hw : w.Made) (h : v.Alike w) :
    v.same w = true := by
  induction h with
  | null => rfl
  | bool b => exact beq_self_eq_true b
  | int n => exact beq_self_eq_true n
  | float hxy => exact hxy
  | str s => exact beq_self_eq_true s
  | list hkeys _ ih =>
    cases hv with
    | list hc hentries =>
      cases hw with
      | list hd hothers =>
        refine (sameCollection_iff hc hd).mpr ⟨hkeys, fun key v w hv hw => ?_⟩
        exact ih key v w hv hw (.of_get? hentries hv) (.of_get? hothers hw)
  | object howner hkeys _ ih =>
    cases hv with
    | object hc hentries =>
      cases hw with
      | object hd hothers =>
        refine Bool.and_eq_true_iff.mpr ⟨beq_iff_eq.mpr howner, ?_⟩
        refine (sameCollection_iff hc hd).mpr ⟨hkeys, fun key v w hv hw => ?_⟩
        exact ih key v w hv hw (.of_get? hentries hv) (.of_get? hothers hw)

theorem same_iff_alike {v w : Value} (hv : v.Made) (hw : w.Made) :
    v.same w = true ↔ v.Alike w :=
  ⟨alike_of_same hv hw, same_of_alike hv hw⟩

theorem same_comm {v w : Value} (hv : v.Made) (hw : w.Made) : v.same w = w.same v := by
  rw [Bool.eq_iff_iff, same_iff_alike hv hw, same_iff_alike hw hv]
  exact ⟨Alike.symm, Alike.symm⟩

theorem same_trans {u v w : Value} (hu : u.Made) (hv : v.Made) (hw : w.Made)
    (huv : u.same v = true) (hvw : v.same w = true) : u.same w = true :=
  same_of_alike hu hw ((alike_of_same hu hv huv).trans (alike_of_same hv hw hvw))

/-- The same entries in another order are equal to the same collections. -/
theorem sameCollection_perm {c' : Collection Value} (hc : c.Made) (hc' : c'.Made) (hd : d.Made)
    (hperm : c.entries.Perm c'.entries) :
    sameCollection c' d = sameCollection c d ∧ sameCollection d c' = sameCollection d c := by
  have hget : c'.get? = c.get? := funext fun key => Entries.get?_perm hc.nodup hperm key
  have hkeys : ∀ key, key ∈ c'.keys ↔ key ∈ c.keys := fun key => (hperm.map Prod.fst).mem_iff.symm
  constructor
  · rw [Bool.eq_iff_iff, sameCollection_iff hc' hd, sameCollection_iff hc hd]
    simp only [Collection.SameKeys, hkeys, hget]
  · rw [Bool.eq_iff_iff, sameCollection_iff hd hc', sameCollection_iff hd hc]
    simp only [Collection.SameKeys, hkeys, hget]

/-- **Equality is extensional.**  Collections that pushes and insertions make are equal exactly if
they have the same keys with equal values under them: the order of their entries says nothing, and
neither does the next index, since the keys decide it.  So it is at every depth of a value, where
instances need classes of one qualified name as well.  Equality of values, hence of collections and
of instances, is symmetric and transitive, though not reflexive, for NaN equals nothing.  And this
is so of all that can be made. -/
theorem equality_is_extensional :
    (∀ c d : Collection Value, c.Made → d.Made →
      (sameCollection c d = true ↔
        c.SameKeys d ∧
          ∀ key v w, c.get? key = some v → d.get? key = some w → v.same w = true) ∧
      (c.SameKeys d → c.next = d.next) ∧
      sameCollection c d = (c.size == d.size && sameEntries c.entries d.entries) ∧
      ∀ c' : Collection Value, c'.Made → c.entries.Perm c'.entries →
        sameCollection c' d = sameCollection c d ∧ sameCollection d c' = sameCollection d c) ∧
    (∀ v w : Value, v.Made → w.Made → (v.same w = true ↔ v.Alike w)) ∧
    (∀ c d : Collection Value, (list c).same (list d) = sameCollection c d) ∧
    (∀ i j : Instance, i.same j = true ↔
      i.owner.qualified = j.owner.qualified ∧ sameCollection i.bag j.bag = true) ∧
    (∀ v w : Value, v.Made → w.Made → v.same w = w.same v) ∧
    (∀ u v w : Value, u.Made → v.Made → w.Made → u.same v = true → v.same w = true →
      u.same w = true) ∧
    ∀ v : Value, v.Built → v.Made := by
  refine ⟨fun c d hc hd => ?_, fun v w => same_iff_alike, fun c d => rfl, fun i j => ?_,
    fun v w => same_comm, fun u v w => same_trans, fun v hv => (regular_of_built hv).made⟩
  · exact ⟨sameCollection_iff hc hd, hc.next_eq hd, sameCollection_eq_of_made hc hd,
      fun c' hc' => sameCollection_perm hc hc' hd⟩
  · rw [show i.same j = (i.owner.qualified == j.owner.qualified && sameCollection i.bag j.bag)
      from rfl, Bool.and_eq_true_iff, beq_iff_eq]

/-- A name that is spelled like an index, and the greatest index: in either order they leave equal
collections, and no next index. -/
theorem either_order_is_equal :
    let c := ((Collection.empty : Collection Value).insert (.index lastIndex) .null).insert
      (.name "0") (.list .empty)
    let d := ((Collection.empty : Collection Value).insert (.name "0") (.list .empty)).insert
      (.index lastIndex) .null
    (list c).Made ∧ (list d).Made ∧ c.SameKeys d ∧ c.next = d.next ∧ (list c).Alike (list d) ∧
      (list d).same (list c) = true := by
  intro c d
  have hc : (list c).Made := made_insert (made_insert made_empty _ .null) _ made_empty
  have hd : (list d).Made := made_insert (made_insert made_empty _ made_empty) _ .null
  have hsame : (list c).same (list d) = true := rfl
  obtain ⟨hcollections, hvalues, -, -, hcomm, -⟩ := equality_is_extensional
  obtain ⟨hiff, hnext, -⟩ := hcollections c d ((Collection.made_empty.insert _ _).insert _ _)
    ((Collection.made_empty.insert _ _).insert _ _)
  have hkeys := (hiff.mp hsame).1
  refine ⟨hc, hd, hkeys, hnext hkeys, (hvalues _ _ hc hd).mp hsame, ?_⟩
  rw [hcomm _ _ hd hc]
  exact hsame

end Value
end ClassSchema
