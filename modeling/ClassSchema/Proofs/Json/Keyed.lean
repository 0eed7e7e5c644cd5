/-
JSON trees whose objects repeat no key.

* `Json.Keyed` — no object in the tree repeats a key;
* `keyed_collapse`, `keyed_of_yaml` — what is left of a tree whose keys were collapsed, and what a
  YAML tree becomes, are such trees;
* `keyed_of_ofSource` — so is every tree that is read from a file.
-/
import ClassSchema.Proofs.Entries
import ClassSchema.Proofs.Outcome
import ClassSchema.Source

namespace ClassSchema.Json

/-- No object in the tree repeats a key. -/
inductive Keyed : Json → Prop where
  | null : Keyed .null
  | bool (b : Bool) : Keyed (.bool b)
  | num (n : Number) : Keyed (.num n)
  | str (s : String) : Keyed (.str s)
  | arr {items : List Json} : (∀ j ∈ items, Keyed j) → Keyed (.arr items)
  | obj {members : List (String × Json)} : (Entries.keys members).Nodup →
      (∀ e ∈ members, Keyed e.2) → Keyed (.obj members)

/-- Members that are put together make such an object if their values are such trees. -/
theorem keyed_ofList {members : List (String × Json)} (h : ∀ e ∈ members, e.2.Keyed) :
    (obj (Entries.ofList members)).Keyed :=
  .obj (Entries.nodup_keys_ofList members) fun e he => h e (Entries.mem_of_mem_ofList he)

/-! ### Keys that were collapsed -/

mutual

theorem keyed_collapse : ∀ j : Json, j.collapse.Keyed
  | .null => .null
  | .bool b => .bool b
  | .num n => .num n
  | .str s => .str s
  | .arr items => by
    rw [collapse]
    exact .arr (keyed_collapseItems items)
  | .obj members => by
    rw [collapse]
    exact keyed_ofList (keyed_collapseMembers members)

theorem keyed_collapseItems : ∀ items : List Json, ∀ j ∈ collapseItems items, j.Keyed
  | [] => fun _ hj => absurd hj List.not_mem_nil
  | j :: rest => by
    rw [collapseItems]
    exact List.forall_mem_cons.mpr ⟨keyed_collapse j, keyed_collapseItems rest⟩

theorem keyed_collapseMembers :
    ∀ members : List (String × Json), ∀ e ∈ collapseMembers members, e.2.Keyed
  | [] => fun _ he => absurd he List.not_mem_nil
  | (_, j) :: rest => by
    rw [collapseMembers]
    exact List.forall_mem_cons.mpr ⟨keyed_collapse j, keyed_collapseMembers rest⟩

end

/-! ### Files -/

mutual

theorem keyed_of_yaml : ∀ {t : Yaml.Tree} {j : Json}, t.toJson = .ok j → j.Keyed
  | .null, j, h => by rw [← Except.ok.inj h]; exact .null
  | .bool b, j, h => by rw [← Except.ok.inj h]; exact .bool b
  | .str s, j, h => by rw [← Except.ok.inj h]; exact .str s
  | .num (.int n), j, h => by rw [← Except.ok.inj h]; exact .num _
  | .num (.float x), j, h => by
    rw [Yaml.Tree.toJson] at h
    split_ifs at h
    rw [← Except.ok.inj h]
    exact .num _
  | .seq items, j, h => by
    rw [Yaml.Tree.toJson] at h
    obtain ⟨js, hjs, h⟩ := Except.bind_eq_ok_iff.mp h
    rw [← Except.ok.inj h]
    exact .arr (keyed_of_yamlItems hjs)
  | .map pairs, j, h => by
    rw [Yaml.Tree.toJson] at h
    obtain ⟨members, hmembers, h⟩ := Except.bind_eq_ok_iff.mp h
    rw [← Except.ok.inj h]
    exact keyed_ofList (keyed_of_yamlPairs hmembers)
  | .tagged _ t, j, h => by
    rw [Yaml.Tree.toJson] at h
    exact keyed_of_yaml h

theorem keyed_of_yamlItems : ∀ {items : List Yaml.Tree} {js : List Json},
    Yaml.Tree.itemsToJson items = .ok js → ∀ j ∈ js, j.Keyed
  | [], js, h => by rw [← Except.ok.inj h]; exact fun _ hj => absurd hj List.not_mem_nil
  | t :: rest, js, h => by
    rw [Yaml.Tree.itemsToJson] at h
    obtain ⟨j, hj, h⟩ := Except.bind_eq_ok_iff.mp h
    obtain ⟨js', hjs', h⟩ := Except.bind_eq_ok_iff.mp h
    rw [← Except.ok.inj h]
    exact List.forall_mem_cons.mpr ⟨keyed_of_yaml hj, keyed_of_yamlItems hjs'⟩

theorem keyed_of_yamlPairs : ∀ {pairs : List (Yaml.Tree × Yaml.Tree)}
    {members : List (String × Json)},
    Yaml.Tree.pairsToJson pairs = .ok members → ∀ e ∈ members, e.2.Keyed
  | [], members, h => by rw [← Except.ok.inj h]; exact fun _ he => absurd he List.not_mem_nil
  | (k, v) :: rest, members, h => by
    rw [Yaml.Tree.pairsToJson] at h
    obtain ⟨key, -, h⟩ := Except.bind_eq_ok_iff.mp h
    obtain ⟨j, hj, h⟩ := Except.bind_eq_ok_iff.mp h
    obtain ⟨members', hmembers', h⟩ := Except.bind_eq_ok_iff.mp h
    rw [← Except.ok.inj h]
    exact List.forall_mem_cons.mpr ⟨keyed_of_yaml hj, keyed_of_yamlPairs hmembers'⟩

end

theorem keyed_of_ofText {path text : String} {j : Json} (h : ofText path text = .ok j) :
    j.Keyed := by
  unfold ofText at h
  split at h
  · split at h
    · next t _ =>
      split at h
      · next j' hj =>
        obtain rfl := Except.ok.inj h
        exact keyed_of_yaml hj
      · cases h
    · cases h
  · split at h
    · next j' hj =>
      obtain rfl := Except.ok.inj h
      obtain ⟨r, -, hr⟩ := Option.bind_eq_some_iff.mp hj
      obtain ⟨j', -, rfl⟩ := Option.map_eq_some_iff.mp hr
      exact keyed_collapse j'
    · cases h

/-- In a tree that is read from a file no object repeats a key. -/
theorem keyed_of_ofSource {path : String} {content : Option ByteArray} {j : Json}
    (h : ofSource path content = .ok j) : j.Keyed := by
  unfold ofSource at h
  split at h
  · next text _ => exact keyed_of_ofText (Except.mapError_eq_ok_iff.mp h)
  · cases h

end ClassSchema.Json
