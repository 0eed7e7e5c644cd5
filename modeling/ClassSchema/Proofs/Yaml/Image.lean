/-
JSON trees written as YAML trees.

* `Tree.ofJson` — the YAML tree that says what a JSON tree says;
* `Tree.untagged` — a tree without the tags around its values;
* `toJson_untagged` — such tags say nothing;
* `toJson_ofJson_iff` — what was written is read back, for all JSON trees that there are;
* `Tree.Misfit` — what a JSON tree has no place for, and how it is reported;
* `exists_error_iff` — a tree has no JSON tree exactly if something like that is in it.

Design notes: an object repeats no key and a number is finite in every JSON tree that a program can
hold, and what comes of a YAML tree is always such a tree.  Keys are no values: a tag around a key
is a misfit, while a key may be a number that is not finite.
-/
import ClassSchema.Proofs.Json.Keyed
import ClassSchema.Proofs.Yaml.AsJson

namespace ClassSchema

/-- All floating-point numbers in the tree are finite. -/
inductive Json.Finite : Json → Prop where
  | null : Finite .null
  | bool (b : Bool) : Finite (.bool b)
  | int (n : Int) : Finite (.num (.int n))
  | float {x : Float} : x.isFinite = true → Finite (.num (.float x))
  | str (s : String) : Finite (.str s)
  | arr {items : List Json} : (∀ j ∈ items, Finite j) → Finite (.arr items)
  | obj {members : List (String × Json)} : (∀ e ∈ members, Finite e.2) → Finite (.obj members)

namespace Yaml.Tree

/-! ### Writing a JSON tree -/

mutual

/-- The YAML tree that says what a JSON tree says. -/
def ofJson : Json → Tree
  | .null => null
  | .bool b => bool b
  | .num n => num n
  | .str s => str s
  | .arr items => seq (ofItems items)
  | .obj members => map (ofMembers members)

/-- The items of an array as YAML trees. -/
def ofItems : List Json → List Tree
  | [] => []
  | j :: rest => ofJson j :: ofItems rest

/-- The members of an object as pairs, in order, under texts as keys. -/
def ofMembers : List (String × Json) → List (Tree × Tree)
  | [] => []
  | (key, j) :: rest => (str key, ofJson j) :: ofMembers rest

end

theorem ofItems_eq (items : List Json) : ofItems items = items.map ofJson := by
  induction items with
  | nil => rfl
  | cons j rest ih => rw [ofItems, ih, List.map_cons]

theorem ofMembers_eq (members : List (String × Json)) :
    ofMembers members = members.map fun e => (str e.1, ofJson e.2) := by
  induction members with
  | nil => rfl
  | cons e rest ih => rw [ofMembers, ih, List.map_cons]

theorem toJson_ofJson {j : Json} (hkeyed : j.Keyed) (hfinite : j.Finite) :
    (ofJson j).toJson = .ok j := by
  induction hkeyed with
  | null => rfl
  | bool b => rfl
  | str s => rfl
  | num n =>
    cases hfinite with
    | int n => rfl
    | float hx => rw [ofJson, toJson, if_pos hx]
  | @arr items _ ih =>
    cases hfinite with
    | arr hitems =>
      rw [ofJson, ofItems_eq]
      refine toJson_seq_eq_ok_iff.mpr ⟨items, ?_, rfl⟩
      rw [List.forall₂_map_left_iff, List.forall₂_same]
      exact fun j hj => ih j hj (hitems j hj)
  | @obj members hnodup _ ih =>
    cases hfinite with
    | obj hmembers =>
      rw [ofJson, ofMembers_eq]
      -- no key is repeated, so no member is lost
      refine toJson_map_eq_ok_iff.mpr ⟨members, ?_, by rw [Entries.ofList_of_nodup hnodup]⟩
      rw [List.forall₂_map_left_iff, List.forall₂_same]
      exact fun e he => ⟨rfl, ih e he (hmembers e he)⟩

/-- What comes of a YAML tree has finite numbers only. -/
theorem finite_of_toJson {t : Tree} {j : Json} (h : t.toJson = .ok j) : j.Finite := by
  induction t using tree_induction generalizing j with
  | null =>
    obtain rfl := Except.ok.inj h
    exact .null
  | bool b =>
    obtain rfl := Except.ok.inj h
    exact .bool b
  | str s =>
    obtain rfl := Except.ok.inj h
    exact .str s
  | num n =>
    cases n with
    | int n =>
      obtain rfl := Except.ok.inj h
      exact .int n
    | float x =>
      rw [toJson] at h
      split at h
      · next hx =>
        obtain rfl := Except.ok.inj h
        exact .float hx
      · cases h
  | seq items ih =>
    obtain ⟨js, hitems, rfl⟩ := toJson_seq_eq_ok_iff.mp h
    refine .arr fun j hj => ?_
    obtain ⟨t, ht, hjson⟩ := hitems.flip.exists_of_mem hj
    exact ih t ht hjson
  | map pairs ih =>
    obtain ⟨members, hpairs, rfl⟩ := toJson_map_eq_ok_iff.mp h
    refine .obj fun e he => ?_
    obtain ⟨p, hp, hbecomes⟩ := hpairs.flip.exists_of_mem (Entries.mem_of_mem_ofList he)
    exact ih p hp hbecomes.2
  | tagged tag t ih =>
    rw [toJson] at h
    exact ih h

/-- What was written is read back exactly if no object repeats a key and all numbers are finite. -/
theorem toJson_ofJson_iff {j : Json} : (ofJson j).toJson = .ok j ↔ j.Keyed ∧ j.Finite :=
  ⟨fun h => ⟨Json.keyed_of_yaml h, finite_of_toJson h⟩, fun h => toJson_ofJson h.1 h.2⟩

/-! ### Tags -/

mutual

/-- The tree without the tags around its values.  Keys keep theirs. -/
def untagged : Tree → Tree
  | null => null
  | bool b => bool b
  | num n => num n
  | str s => str s
  | seq items => seq (untaggedItems items)
  | map pairs => map (untaggedPairs pairs)
  | tagged _ t => untagged t

/-- Items without the tags around values. -/
def untaggedItems : List Tree → List Tree
  | [] => []
  | t :: rest => untagged t :: untaggedItems rest

/-- Pairs without the tags around values. -/
def untaggedPairs : List (Tree × Tree) → List (Tree × Tree)
  | [] => []
  | (k, v) :: rest => (k, untagged v) :: untaggedPairs rest

end

theorem itemsToJson_untagged {items : List Tree} (h : ∀ i ∈ items, i.untagged.toJson = i.toJson) :
    itemsToJson (untaggedItems items) = itemsToJson items := by
  induction items with
  | nil => rfl
  | cons t rest ih =>
    obtain ⟨ht, hrest⟩ := List.forall_mem_cons.mp h
    rw [untaggedItems, itemsToJson, itemsToJson, ht, ih hrest]

theorem pairsToJson_untagged {pairs : List (Tree × Tree)}
    (h : ∀ p ∈ pairs, p.2.untagged.toJson = p.2.toJson) :
    pairsToJson (untaggedPairs pairs) = pairsToJson pairs := by
  induction pairs with
  | nil => rfl
  | cons p rest ih =>
    obtain ⟨hp, hrest⟩ := List.forall_mem_cons.mp h
    rw [untaggedPairs, pairsToJson_cons, pairsToJson_cons, toMember, toMember, hp, ih hrest]

/-- Tags around values say nothing. -/
theorem toJson_untagged (t : Tree) : t.untagged.toJson = t.toJson := by
  induction t using tree_induction with
  | seq items ih => rw [untagged, toJson, toJson, itemsToJson_untagged ih]
  | map pairs ih => rw [untagged, toJson, toJson, pairsToJson_untagged ih]
  | tagged tag t ih => rw [untagged, ih, toJson]
  | _ => rfl

/-! ### What has no place in a JSON tree -/

/-- Is the key a text, a number or a boolean? -/
def IsWord (k : Tree) : Prop := k.IsText ∨ (∃ n, k = num n) ∨ ∃ b, k = bool b

theorem isWord_iff {k : Tree} : k.IsWord ↔ ∃ s, k.toKey = .ok s := by
  constructor
  · rintro (⟨s, rfl⟩ | ⟨n, rfl⟩ | ⟨b, rfl⟩)
    · exact ⟨s, rfl⟩
    · exact ⟨_, rfl⟩
    · exact ⟨_, rfl⟩
  · rintro ⟨s, hs⟩
    rcases toKey_eq_ok_iff.mp hs with rfl | ⟨n, rfl, -⟩ | ⟨b, rfl, -⟩
    · exact Or.inl ⟨s, rfl⟩
    · exact Or.inr (Or.inl ⟨n, rfl⟩)
    · exact Or.inr (Or.inr ⟨b, rfl⟩)

/-- A key that is none of these is reported as it stands. -/
theorem toKey_eq_error_iff {k : Tree} {e : Unrepresentable} :
    k.toKey = .error e ↔ ¬ k.IsWord ∧ e = .key k := by
  rw [isWord_iff]
  cases k <;> simp [toKey, eq_comm]

/-- A JSON tree has no place for the tree itself, and this is how it is reported. -/
inductive Misfit : Tree → Unrepresentable → Prop where
  | number {x : Float} : x.isFinite = false → Misfit (.num (.float x)) (.number x)
  | key {pairs : List (Tree × Tree)} {p : Tree × Tree} : p ∈ pairs → ¬ p.1.IsWord →
      Misfit (.map pairs) (.key p.1)

theorem Misfit.toJson_ne_ok {t : Tree} {e : Unrepresentable} (h : t.Misfit e) (j : Json) :
    t.toJson ≠ .ok j := by
  intro hj
  cases h with
  | number hx =>
    rw [toJson, hx] at hj
    cases hj
  | key hp hword =>
    obtain ⟨members, hpairs, -⟩ := toJson_map_eq_ok_iff.mp hj
    obtain ⟨member, -, hbecomes⟩ := hpairs.exists_of_mem hp
    exact hword (isWord_iff.mpr ⟨member.1, hbecomes.1⟩)

/-- What is reported is somewhere in the tree. -/
theorem exists_misfit_of_error {t : Tree} {e : Unrepresentable} (h : t.toJson = .error e) :
    ∃ s : Tree, s.Within t ∧ s.Misfit e := by
  induction t using tree_induction generalizing e with
  | null => cases h
  | bool b => cases h
  | str s => cases h
  | num n =>
    cases n with
    | int n => cases h
    | float x =>
      rw [toJson] at h
      split at h
      · cases h
      · next hx =>
        obtain rfl := Except.error.inj h
        exact ⟨_, .refl _, .number (by simpa using hx)⟩
  | seq items ih =>
    rw [toJson] at h
    rcases Except.bind_eq_error_iff.mp h with hitems | ⟨js, -, hpure⟩
    · obtain ⟨i, hi, herror⟩ :=
        Except.exists_mem_of_steps_error toJson hitems rfl fun _ _ => rfl
      obtain ⟨s, hs, hmisfit⟩ := ih i hi herror
      exact ⟨s, .item hi hs, hmisfit⟩
    · cases hpure
  | map pairs ih =>
    rw [toJson] at h
    rcases Except.bind_eq_error_iff.mp h with hpairs | ⟨members, -, hpure⟩
    · obtain ⟨p, hp, herror⟩ :=
        Except.exists_mem_of_steps_error toMember hpairs rfl pairsToJson_cons
      -- it is the key of the pair that has no place, or something in its value
      rcases Except.bind_eq_error_iff.mp herror with hkey | ⟨key, -, herror⟩
      · obtain ⟨hword, rfl⟩ := toKey_eq_error_iff.mp hkey
        exact ⟨_, .refl _, .key hp hword⟩
      · rcases Except.bind_eq_error_iff.mp herror with hvalue | ⟨j, -, hpure⟩
        · obtain ⟨s, hs, hmisfit⟩ := ih p hp hvalue
          exact ⟨s, .value hp hs, hmisfit⟩
        · cases hpure
    · cases hpure
  | tagged tag t ih =>
    rw [toJson] at h
    obtain ⟨s, hs, hmisfit⟩ := ih h
    exact ⟨s, .content hs, hmisfit⟩

/-- A tree has no JSON tree exactly if there is no place for something in it. -/
theorem exists_error_iff {t : Tree} :
    (∃ e, t.toJson = .error e) ↔
      ∃ (s : Tree) (e : Unrepresentable), s.Within t ∧ s.Misfit e := by
  constructor
  · rintro ⟨e, h⟩
    obtain ⟨s, hs, hmisfit⟩ := exists_misfit_of_error h
    exact ⟨s, e, hs, hmisfit⟩
  · rintro ⟨s, e, hs, hmisfit⟩
    rcases ht : t.toJson with e' | j
    · exact ⟨e', rfl⟩
    · obtain ⟨j', hj'⟩ := hs.exists_toJson ht
      exact absurd hj' (hmisfit.toJson_ne_ok j')

/-- **YAML trees and JSON trees are the same trees.**  A JSON tree that is written as a YAML tree is
read back, whatever tags are put around values; this holds of every JSON tree in which no object
repeats a key and all numbers are finite, and of no other.  A YAML tree has no JSON tree exactly if
a number in it is not finite, or a mapping in it has a key that is no text, number or boolean; what
is reported is such a number or key. -/
theorem written_trees_are_read_back :
    (∀ j : Json, (ofJson j).toJson = .ok j ↔ j.Keyed ∧ j.Finite) ∧
    (∀ t : Tree, t.untagged.toJson = t.toJson) ∧
    (∀ (j : Json) (t : Tree), j.Keyed → j.Finite → t.untagged = ofJson j → t.toJson = .ok j) ∧
    (∀ t : Tree, (∃ e, t.toJson = .error e) ↔
      ∃ s : Tree, s.Within t ∧
        ((∃ x : Float, s = num (.float x) ∧ x.isFinite = false) ∨
          ∃ pairs, s = map pairs ∧ ∃ p ∈ pairs, ¬ p.1.IsWord)) ∧
    ∀ (t : Tree) (e : Unrepresentable), t.toJson = .error e →
      ∃ s : Tree, s.Within t ∧ s.Misfit e := by
  refine ⟨fun j => toJson_ofJson_iff, toJson_untagged, ?tags, ?fails,
    fun t e => exists_misfit_of_error⟩
  case tags =>
    intro j t hkeyed hfinite ht
    rw [← toJson_untagged, ht]
    exact toJson_ofJson hkeyed hfinite
  case fails =>
    intro t
    rw [exists_error_iff]
    refine exists_congr fun s => ?_
    constructor
    · rintro ⟨e, hs, hmisfit⟩
      cases hmisfit with
      | number hx => exact ⟨hs, Or.inl ⟨_, rfl, hx⟩⟩
      | key hp hword => exact ⟨hs, Or.inr ⟨_, rfl, _, hp, hword⟩⟩
    · rintro ⟨hs, ⟨x, rfl, hx⟩ | ⟨pairs, rfl, p, hp, hword⟩⟩
      · exact ⟨_, hs, .number hx⟩
      · exact ⟨_, hs, .key hp hword⟩

/-- A mapping with tags around itself, an item of a sequence and a value; and one with a tag around
its key. -/
theorem tagged_logs_are_read_back :
    let j := Json.obj [("oak", .arr [.int 1, .null]), ("elm", .obj [])]
    let t := tagged "!wood" (.map [(.str "oak", .seq [.tagged "!count" (.num (.int 1)), .null]),
      (.str "elm", .tagged "!none" (.map []))])
    let u := map [(.tagged "!wood" (.str "oak"), .null)]
    t.toJson = .ok j ∧ ∃ e, u.toJson = .error e := by
  intro j t u
  obtain ⟨-, -, htags, hfails, -⟩ := written_trees_are_read_back
  have hkeyed : j.Keyed := by
    refine .obj (by decide) ?_
    simp [Json.Keyed.null, Json.Keyed.arr, Json.Keyed.obj, Json.int, Json.Keyed.num, Entries.keys]
  have hfinite : j.Finite := by
    refine .obj ?_
    simp [Json.Finite.null, Json.Finite.arr, Json.Finite.obj, Json.int, Json.Finite.int]
  have hword : ¬ (tagged "!wood" (.str "oak")).IsWord := by
    rintro (⟨s, ⟨⟩⟩ | ⟨n, ⟨⟩⟩ | ⟨b, ⟨⟩⟩)
  exact ⟨htags j t hkeyed hfinite rfl,
    (hfails u).mpr ⟨u, .refl u, Or.inr ⟨_, rfl, _, List.mem_cons_self, hword⟩⟩⟩

end Yaml.Tree
end ClassSchema
