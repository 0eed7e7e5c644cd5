/-
What of a YAML tree is left in its JSON tree.

* `Tree.Becomes` — the member that a pair becomes;
* `Tree.Clash` — a text is a key beside another key, which is none but is written like it;
* `nodup_keys_iff` — members have keys of their own exactly where there is no such text;
* `Tree.Mirrors` — an item for every item and a member for every pair, in order and at every depth;
* `toJson_mirrors_iff` — which is so exactly where nothing clashes.

Design notes: an object keeps all members exactly if their keys differ (`Entries.ofList_of_nodup`,
`length_ofList_lt`), so all that has to be known of keys is when two of them are written alike.
-/
import ClassSchema.Proofs.Entries
import ClassSchema.Proofs.Outcome
import ClassSchema.Proofs.Yaml.Key
import ClassSchema.Proofs.Yaml.Reading

namespace ClassSchema.Yaml.Tree

/-! ### Members and pairs -/

/-- The pair becomes the member. -/
def Becomes (p : Tree × Tree) (e : String × Json) : Prop :=
  p.1.toKey = .ok e.1 ∧ p.2.toJson = .ok e.2

theorem itemsToJson_eq_ok_iff {items : List Tree} {js : List Json} :
    itemsToJson items = .ok js ↔ List.Forall₂ (fun t j => t.toJson = .ok j) items js :=
  ⟨fun h => Except.forall₂_of_steps toJson h rfl fun _ _ => rfl,
    fun h => Except.steps_of_forall₂ toJson h rfl fun _ _ => rfl⟩

/-- The member of one pair. -/
def toMember (p : Tree × Tree) : Except Unrepresentable (String × Json) := do
  let key ← p.1.toKey
  let j ← p.2.toJson
  pure (key, j)

theorem toMember_eq_ok_iff {p : Tree × Tree} {e : String × Json} :
    toMember p = .ok e ↔ Becomes p e := by
  constructor
  · intro h
    obtain ⟨key, hkey, h⟩ := Except.bind_eq_ok_iff.mp h
    obtain ⟨j, hj, h⟩ := Except.bind_eq_ok_iff.mp h
    obtain rfl := Except.ok.inj h
    exact ⟨hkey, hj⟩
  · rintro ⟨hkey, hj⟩
    rw [toMember, hkey, hj]
    rfl

theorem pairsToJson_cons (p : Tree × Tree) (rest : List (Tree × Tree)) :
    pairsToJson (p :: rest) =
      (do let e ← toMember p; let es ← pairsToJson rest; pure (e :: es)) := by
  rw [show p = (p.1, p.2) from rfl, pairsToJson, toMember]
  dsimp only
  rcases p.1.toKey with u | key
  · rfl
  · rcases p.2.toJson with u | j
    · rfl
    · rfl

theorem pairsToJson_eq_ok_iff {pairs : List (Tree × Tree)} {members : List (String × Json)} :
    pairsToJson pairs = .ok members ↔ List.Forall₂ Becomes pairs members := by
  have hsteps : (fun p e => toMember p = .ok e) = Becomes := by
    funext p e
    exact propext toMember_eq_ok_iff
  rw [← hsteps]
  exact ⟨fun h => Except.forall₂_of_steps toMember h rfl pairsToJson_cons,
    fun h => Except.steps_of_forall₂ toMember h rfl pairsToJson_cons⟩

theorem toJson_map_eq_ok_iff {pairs : List (Tree × Tree)} {j : Json} :
    (map pairs).toJson = .ok j ↔
      ∃ members, List.Forall₂ Becomes pairs members ∧ j = .obj (Entries.ofList members) := by
  rw [toJson, Except.bind_eq_ok_iff]
  refine exists_congr fun members => and_congr pairsToJson_eq_ok_iff ?_
  exact ⟨fun h => (Except.ok.inj h).symm, fun h => by rw [h]; rfl⟩

theorem toJson_seq_eq_ok_iff {items : List Tree} {j : Json} :
    (seq items).toJson = .ok j ↔
      ∃ js, List.Forall₂ (fun t j => t.toJson = .ok j) items js ∧ j = .arr js := by
  rw [toJson, Except.bind_eq_ok_iff]
  refine exists_congr fun js => and_congr itemsToJson_eq_ok_iff ?_
  exact ⟨fun h => (Except.ok.inj h).symm, fun h => by rw [h]; rfl⟩

/-- A tree in a tree that has a JSON tree has one itself. -/
theorem Within.exists_toJson {s t : Tree} (h : s.Within t) {j : Json} (hj : t.toJson = .ok j) :
    ∃ j', s.toJson = .ok j' := by
  induction h generalizing j with
  | refl => exact ⟨j, hj⟩
  | item hi _ ih =>
    obtain ⟨js, hitems, -⟩ := toJson_seq_eq_ok_iff.mp hj
    obtain ⟨j', -, hj'⟩ := hitems.exists_of_mem hi
    exact ih hj'
  | value hp _ ih =>
    obtain ⟨members, hpairs, -⟩ := toJson_map_eq_ok_iff.mp hj
    obtain ⟨e, -, hbecomes⟩ := hpairs.exists_of_mem hp
    exact ih hbecomes.2
  | content _ ih =>
    rw [toJson] at hj
    exact ih hj

/-! ### Keys that are written alike -/

/-- A text is a key beside another key, which is none but is written like it. -/
def Clash (pairs : List (Tree × Tree)) : Prop :=
  ∃ p ∈ pairs, ∃ q ∈ pairs, ∃ s, p.1 = str s ∧ ¬ q.1.IsText ∧ q.1.toKey = .ok s

/-- Members have keys of their own exactly where nothing clashes. -/
theorem nodup_keys_iff {pairs : List (Tree × Tree)} {members : List (String × Json)}
    (hapart : Apart pairs)
    (hkeys : pairs.map (fun p => p.1.toKey) = members.map fun e => .ok e.1) :
    (Entries.keys members).Nodup ↔ ¬ Clash pairs := by
  have hnodup : (Entries.keys members).Nodup ↔ (pairs.map fun p => p.1.toKey).Nodup := by
    have hinjective : Function.Injective (Except.ok : String → Except Unrepresentable String) :=
      fun _ _ => Except.ok.inj
    rw [hkeys, ← List.nodup_map_iff hinjective, Entries.keys, List.map_map]
    rfl
  rw [hnodup]
  constructor
  · rintro hdistinct ⟨p, hp, q, hq, s, hps, hqtext, hqs⟩
    have hkey : p.1.toKey = q.1.toKey := by
      rw [hps, hqs]
      rfl
    obtain rfl := List.inj_on_of_nodup_map hdistinct hp hq hkey
    exact hqtext ⟨s, hps⟩
  · intro hclash
    rw [List.Nodup, List.pairwise_map]
    refine hapart.imp_of_mem fun {p q} hp hq hsame heq => ?_
    have hmem : p.1.toKey ∈ members.map fun e => .ok e.1 := by
      rw [← hkeys]
      exact List.mem_map_of_mem hp
    obtain ⟨e, -, hkey⟩ := List.mem_map.mp hmem
    have hkey' := heq.symm.trans hkey.symm
    rcases same_or_text hkey.symm hkey' with h | ⟨hps, hq'⟩ | ⟨hqs, hp'⟩
    · rw [h] at hsame
      cases hsame
    · exact hclash ⟨p, hp, q, hq, e.1, hps, hq', hkey'⟩
    · exact hclash ⟨q, hq, p, hp, e.1, hqs, hp', hkey.symm⟩

/-! ### What is left -/

/-- The tree says all that the other one says: an item for every item and a member for every pair,
in order and at every depth. -/
inductive Mirrors : Tree → Json → Prop where
  | null : Mirrors .null .null
  | bool (b : Bool) : Mirrors (.bool b) (.bool b)
  | num (n : Number) : Mirrors (.num n) (.num n)
  | str (s : String) : Mirrors (.str s) (.str s)
  | seq {items : List Tree} {js : List Json} : List.Forall₂ Mirrors items js →
      Mirrors (.seq items) (.arr js)
  | map {pairs : List (Tree × Tree)} {members : List (String × Json)} :
      pairs.map (fun p => p.1.toKey) = members.map (fun e => .ok e.1) →
      List.Forall₂ Mirrors (pairs.map Prod.snd) (members.map Prod.snd) →
      Mirrors (.map pairs) (.obj members)
  | tagged {tag : String} {t : Tree} {j : Json} : Mirrors t j → Mirrors (.tagged tag t) j

theorem mirrors_map_iff {pairs : List (Tree × Tree)} {members : List (String × Json)} :
    Mirrors (map pairs) (.obj members) ↔
      (pairs.map fun p => p.1.toKey) = (members.map fun e => .ok e.1) ∧
        List.Forall₂ (fun p e => Mirrors p.2 e.2) pairs members := by
  constructor
  · rintro ⟨⟩
    next hkeys hvalues =>
      exact ⟨hkeys, List.forall₂_map_left_iff.mp (List.forall₂_map_right_iff.mp hvalues)⟩
  · rintro ⟨hkeys, hvalues⟩
    exact .map hkeys (List.forall₂_map_left_iff.mpr (List.forall₂_map_right_iff.mpr hvalues))

theorem mirrors_seq_iff {items : List Tree} {js : List Json} :
    Mirrors (seq items) (.arr js) ↔ List.Forall₂ Mirrors items js := by
  constructor
  · rintro ⟨⟩
    assumption
  · exact .seq

theorem mirrors_tagged_iff {tag : String} {t : Tree} {j : Json} :
    Mirrors (tagged tag t) j ↔ Mirrors t j := by
  constructor
  · rintro ⟨⟩
    assumption
  · exact .tagged

/-- Where elements are related one by one, another relation holds of all of them if it holds of
each. -/
theorem forall₂_iff_forall_mem {α β : Type} {R S : α → β → Prop} {P : α → Prop} {l : List α}
    {l' : List β} (h : List.Forall₂ R l l') (hP : ∀ a ∈ l, ∀ b, R a b → (S a b ↔ P a)) :
    List.Forall₂ S l l' ↔ ∀ a ∈ l, P a := by
  induction h with
  | nil => exact iff_of_true .nil (fun _ ha => absurd ha List.not_mem_nil)
  | @cons a b l l' hR _ ih =>
    have ih := ih fun a ha => hP a (List.mem_cons_of_mem _ ha)
    rw [List.forall₂_cons, List.forall_mem_cons, ih, hP a List.mem_cons_self b hR]

/-- The keys of members are the keys of the pairs that they come from. -/
theorem map_toKey_eq {pairs : List (Tree × Tree)} {members : List (String × Json)}
    (h : List.Forall₂ Becomes pairs members) :
    (pairs.map fun p => p.1.toKey) = members.map fun e => .ok e.1 := by
  induction h with
  | nil => rfl
  | cons hbecomes _ ih => rw [List.map_cons, List.map_cons, hbecomes.1, ih]

/-- A tree is mirrored exactly where nothing in it clashes. -/
theorem toJson_mirrors_iff {t : Tree} {j : Json} (hapart : EveryMapping Apart t)
    (hj : t.toJson = .ok j) : Mirrors t j ↔ EveryMapping (¬ Clash ·) t := by
  induction t using tree_induction generalizing j with
  | null =>
    obtain rfl := Except.ok.inj hj
    exact iff_of_true .null (by rintro _ ⟨⟩)
  | bool b =>
    obtain rfl := Except.ok.inj hj
    exact iff_of_true (.bool b) (by rintro _ ⟨⟩)
  | str s =>
    obtain rfl := Except.ok.inj hj
    exact iff_of_true (.str s) (by rintro _ ⟨⟩)
  | num n =>
    refine iff_of_true ?_ (by rintro _ ⟨⟩)
    cases n with
    | int n =>
      obtain rfl := Except.ok.inj hj
      exact .num _
    | float x =>
      rw [toJson] at hj
      split_ifs at hj
      obtain rfl := Except.ok.inj hj
      exact .num _
  | seq items ih =>
    obtain ⟨js, hitems, rfl⟩ := toJson_seq_eq_ok_iff.mp hj
    rw [everyMapping_seq_iff] at hapart ⊢
    rw [mirrors_seq_iff]
    exact forall₂_iff_forall_mem hitems fun i hi j hj => ih i hi (hapart i hi) hj
  | map pairs ih =>
    obtain ⟨members, hpairs, rfl⟩ := toJson_map_eq_ok_iff.mp hj
    rw [everyMapping_map_iff] at hapart ⊢
    have hkeys := map_toKey_eq hpairs
    have hclash := nodup_keys_iff hapart.1 hkeys
    have hvalues := forall₂_iff_forall_mem (S := fun p e => Mirrors p.2 e.2) hpairs
      fun p hp e he => ih p hp (hapart.2 p hp) he.2
    rw [mirrors_map_iff, ← hclash, ← hvalues]
    constructor
    · rintro ⟨hkept, hmirrors⟩
      -- an object repeats no key, so the members do not either
      have hsame : Entries.keys (Entries.ofList members) = Entries.keys members := by
        have hinjective : Function.Injective (Except.ok : String → Except Unrepresentable String) :=
          fun _ _ => Except.ok.inj
        refine hinjective.list_map ?_
        rw [Entries.keys, Entries.keys, List.map_map, List.map_map]
        exact hkept.symm.trans hkeys
      have hnodup : (Entries.keys members).Nodup := hsame ▸ Entries.nodup_keys_ofList members
      rw [Entries.ofList_of_nodup hnodup] at hmirrors
      exact ⟨hnodup, hmirrors⟩
    · rintro ⟨hnodup, hmirrors⟩
      rw [Entries.ofList_of_nodup hnodup]
      exact ⟨hkeys, hmirrors⟩
  | tagged tag t ih =>
    rw [toJson] at hj
    rw [everyMapping_tagged_iff] at hapart ⊢
    rw [mirrors_tagged_iff]
    exact ih hapart hj

/-- **A mapping keeps all of its pairs, one by one and in order, exactly where no text is a key
beside another key that is none but is written like it.**  Where one is, a pair is lost. -/
theorem pairs_are_kept_unless_keys_clash {t : Tree} {j : Json} (hapart : EveryMapping Apart t)
    (hj : t.toJson = .ok j) :
    (Mirrors t j ↔ EveryMapping (¬ Clash ·) t) ∧
    EveryMapping (fun pairs => ∃ members, (map pairs).toJson = .ok (.obj members) ∧
      (¬ Clash pairs → List.Forall₂ Becomes pairs members) ∧
      (Clash pairs → members.length < pairs.length)) t := by
  refine ⟨toJson_mirrors_iff hapart hj, fun pairs hwithin => ?_⟩
  obtain ⟨j', hj'⟩ := hwithin.exists_toJson hj
  obtain ⟨members, hpairs, rfl⟩ := toJson_map_eq_ok_iff.mp hj'
  have hclash := nodup_keys_iff (hapart pairs hwithin) (map_toKey_eq hpairs)
  refine ⟨Entries.ofList members, hj', fun hnone => ?_, fun hsome => ?_⟩
  · rw [Entries.ofList_of_nodup (hclash.mpr hnone)]
    exact hpairs
  · rw [hpairs.length_eq]
    exact Entries.length_ofList_lt fun hnodup => hclash.mp hnodup hsome

/-- A text and a boolean are keys of one mapping. -/
def planks : Tree := .map [(.str "oak", .str "_int"), (.bool true, .str "_float")]

theorem planks_are_kept :
    Tree.parse? "oak: _int\ntrue: _float\n" = some planks ∧ EveryMapping Apart planks ∧
      planks.toJson = .ok (.obj [("oak", .str "_int"), ("true", .str "_float")]) ∧
      Mirrors planks (.obj [("oak", .str "_int"), ("true", .str "_float")]) := by
  have hparse : Tree.parse? "oak: _int\ntrue: _float\n" = some planks := by cbv
  have hapart := apart_of_parse? hparse
  have hj : planks.toJson = .ok (.obj [("oak", .str "_int"), ("true", .str "_float")]) := by
    with_unfolding_all rfl
  have hclash : EveryMapping (¬ Clash ·) planks := by
    refine everyMapping_map_iff.mpr ⟨?_, ?_⟩
    · rintro ⟨p, hp, q, hq, s, hps, hqtext, hqs⟩
      rcases List.mem_pair.mp hp with rfl | rfl
      · obtain rfl : "oak" = s := Tree.str.inj hps
        rcases List.mem_pair.mp hq with rfl | rfl
        · exact hqtext ⟨_, rfl⟩
        · exact absurd (Except.ok.inj hqs) (by decide)
      · cases hps
    · intro p hp
      rcases List.mem_pair.mp hp with rfl | rfl
      · exact everyMapping_of_isLeaf rfl
      · exact everyMapping_of_isLeaf rfl
  exact ⟨hparse, hapart, hj, (pairs_are_kept_unless_keys_clash hapart hj).1.mpr hclash⟩

/-- A type has a text for its name, and the next one has the boolean that this text writes. -/
def timberText : String := "\"true\":\n  size: _int\ntrue:\n  weight: _float\n"

/-- Of the two types in a text only one is left, with the property of the other. -/
theorem timber_loses_a_type :
    ¬ ∀ text t j, Tree.parse? text = some t → EveryMapping Apart t → t.toJson = .ok j →
      EveryMapping (fun pairs => ∃ members, (map pairs).toJson = .ok (.obj members) ∧
        List.Forall₂ Becomes pairs members) t := by
  intro hclaim
  have hparse : Tree.parse? timberText =
      some (.map [(.str "true", .map [(.str "size", .str "_int")]),
        (.bool true, .map [(.str "weight", .str "_float")])]) := by cbv
  have hj : (Tree.map [(.str "true", .map [(.str "size", .str "_int")]),
      (.bool true, .map [(.str "weight", .str "_float")])]).toJson =
        .ok (.obj [("true", .obj [("weight", .str "_float")])]) := by
    with_unfolding_all rfl
  obtain ⟨members, hmembers, hkept⟩ :=
    hclaim timberText _ _ hparse (apart_of_parse? hparse) hj _ (.refl _)
  rw [hj] at hmembers
  obtain rfl := Json.obj.inj (Except.ok.inj hmembers)
  exact absurd hkept.length_eq (by decide)

end ClassSchema.Yaml.Tree
