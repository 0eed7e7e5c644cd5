/-
JSON trees that are stored as values and written again.

* `Json.normal` — the tree with arrays in place of objects that count up, and with floating-point
  numbers in place of integers that are too great;
* `normal_eq_self_iff` — a tree is left alone exactly if it has neither of these in it;
* `normal_normal` — what is rewritten has neither of them left;
* `toJson_ofJson` — to store a tree and to write it again is to rewrite it so;
* `stored_trees_are_normal` — hence what is written is stored and written again without change.

Design notes: whether an object becomes an array depends on the keys and their order alone.  Texts
such as "00", "+1" or "18446744073709551616" write names, so they do not count, and since no two
texts write one key no member is lost.
-/
import ClassSchema.Proofs.Decimal.Finite
import ClassSchema.Proofs.Store.Rendering

namespace ClassSchema

namespace Json

/-! ### Rewriting -/

/-- The texts are "0", "1", "2" and so on.  There are no more of them than there are indexes. -/
def CountsUp (texts : List String) : Prop :=
  texts = (List.range texts.length).map toString ∧ texts.length ≤ 2 ^ 64

instance (texts : List String) : Decidable (CountsUp texts) := inferInstanceAs (Decidable (_ ∧ _))

/-- The number, as a floating-point number if it is above all signed 64-bit words. -/
def normalNumber : Number → Number
  | .int n => if Int64.maxValue.toInt < n then .float (Float.ofInt n) else .int n
  | .float x => .float x

mutual

/-- The tree with arrays in place of objects that count up, and with floating-point numbers in
place of integers above all signed 64-bit words. -/
def normal : Json → Json
  | null => null
  | bool b => bool b
  | num n => num (normalNumber n)
  | str s => str s
  | arr items => arr (normalItems items)
  | obj members =>
    if CountsUp (Entries.keys members) then arr ((normalMembers members).map Prod.snd)
    else obj (normalMembers members)

/-- Items, each rewritten. -/
def normalItems : List Json → List Json
  | [] => []
  | j :: rest => normal j :: normalItems rest

/-- Members, the value of each rewritten. -/
def normalMembers : List (String × Json) → List (String × Json)
  | [] => []
  | (key, j) :: rest => (key, normal j) :: normalMembers rest

end

theorem normalItems_eq (items : List Json) : normalItems items = items.map normal := by
  induction items with
  | nil => rfl
  | cons j rest ih => rw [normalItems, ih, List.map_cons]

theorem normalMembers_eq (members : List (String × Json)) :
    normalMembers members = Entries.mapValues normal members := by
  induction members with
  | nil => rfl
  | cons e rest ih => rw [normalMembers, ih, Entries.mapValues_cons]

theorem normal_arr (items : List Json) : (arr items).normal = arr (items.map normal) := by
  rw [normal, normalItems_eq]

theorem normal_obj (members : List (String × Json)) :
    (obj members).normal =
      if CountsUp (Entries.keys members) then arr ((Entries.mapValues normal members).map Prod.snd)
      else obj (Entries.mapValues normal members) := by
  rw [normal, normalMembers_eq]

/-! ### What is left alone -/

/-- The first tree stands somewhere in the second, or it is the second. -/
inductive Within : Json → Json → Prop where
  | refl (j : Json) : Within j j
  | item {s i : Json} {items : List Json} : i ∈ items → Within s i → Within s (.arr items)
  | member {s : Json} {e : String × Json} {members : List (String × Json)} : e ∈ members →
      Within s e.2 → Within s (.obj members)

/-- The tree is itself something else once it is rewritten. -/
inductive Rewritten : Json → Prop where
  | object {members : List (String × Json)} : CountsUp (Entries.keys members) →
      Rewritten (.obj members)
  | integer {n : Int} : Int64.maxValue.toInt < n → Rewritten (.int n)

/-- Nothing in the tree is rewritten. -/
def Plain (j : Json) : Prop := ∀ s : Json, s.Within j → ¬ s.Rewritten

theorem plain_arr_iff {items : List Json} : (arr items).Plain ↔ ∀ i ∈ items, i.Plain := by
  constructor
  · intro h i hi s hs
    exact h s (.item hi hs)
  · intro h s hs
    cases hs with
    | refl => rintro ⟨⟩
    | item hi hs => exact h _ hi s hs

theorem plain_obj_iff {members : List (String × Json)} :
    (obj members).Plain ↔ ¬ CountsUp (Entries.keys members) ∧ ∀ e ∈ members, e.2.Plain := by
  constructor
  · intro h
    exact ⟨fun hcount => h _ (.refl _) (.object hcount), fun e he s hs => h s (.member he hs)⟩
  · rintro ⟨hcount, hmembers⟩ s hs
    cases hs with
    | refl =>
      rintro ⟨hcount'⟩
      exact hcount hcount'
    | member he hs => exact hmembers _ he s hs

theorem plain_num_iff {n : Number} : (num n).Plain ↔ normalNumber n = n := by
  constructor
  · intro h
    cases n with
    | float x => rfl
    | int n =>
      have hsmall : ¬ Int64.maxValue.toInt < n := fun hlt => h _ (.refl _) (.integer hlt)
      rw [normalNumber, if_neg hsmall]
  · rintro h s ⟨⟩ hs
    cases hs with
    | integer hlt =>
      rw [normalNumber, if_pos hlt] at h
      cases h

theorem normal_eq_self_iff (j : Json) : j.normal = j ↔ j.Plain := by
  induction j using tree_induction with
  | null => exact iff_of_true rfl (by rintro s ⟨⟩ ⟨⟩)
  | bool b => exact iff_of_true rfl (by rintro s ⟨⟩ ⟨⟩)
  | str s => exact iff_of_true rfl (by rintro s ⟨⟩ ⟨⟩)
  | num n => rw [normal, plain_num_iff, num.injEq]
  | arr items ih =>
    have hitems : items.map normal = items ↔ ∀ i ∈ items, i.normal = i := by
      rw [← List.map_eq_map_iff, List.map_id']
    rw [normal_arr, arr.injEq, hitems, plain_arr_iff]
    exact forall₂_congr ih
  | obj members ih =>
    rw [normal_obj, plain_obj_iff]
    split
    · next hcount => exact iff_of_false (by rintro ⟨⟩) fun h => h.1 hcount
    · next hcount =>
      rw [obj.injEq, Entries.mapValues_eq_self_iff, and_iff_right hcount]
      exact forall₂_congr ih

theorem plain_normal (j : Json) : j.normal.Plain := by
  induction j using tree_induction with
  | null => rintro s ⟨⟩ ⟨⟩
  | bool b => rintro s ⟨⟩ ⟨⟩
  | str s => rintro s ⟨⟩ ⟨⟩
  | num n =>
    rw [normal, plain_num_iff]
    cases n with
    | float x => rfl
    | int n =>
      by_cases hlarge : Int64.maxValue.toInt < n
      · simp only [normalNumber, if_pos hlarge]
      · simp only [normalNumber, if_neg hlarge]
  | arr items ih =>
    rw [normal_arr, plain_arr_iff]
    exact List.forall_mem_map.mpr ih
  | obj members ih =>
    rw [normal_obj]
    split
    · rw [plain_arr_iff, Entries.mapValues, List.map_map]
      exact List.forall_mem_map.mpr ih
    · next hcount =>
      rw [plain_obj_iff, Entries.keys_mapValues]
      exact ⟨hcount, List.forall_mem_map.mpr ih⟩

theorem normal_normal (j : Json) : j.normal.normal = j.normal :=
  (normal_eq_self_iff j.normal).mpr (plain_normal j)

/-! ### Storing and writing again -/

/-- No object repeats a key, no array is too long to be indexed, integers fit a signed or an
unsigned 64-bit word, and all other numbers are finite. -/
inductive WellFormed : Json → Prop where
  | null : WellFormed .null
  | bool (b : Bool) : WellFormed (.bool b)
  | int {n : Int} : -2 ^ 63 ≤ n → n < 2 ^ 64 → WellFormed (.int n)
  | float {x : Float} : x.isFinite = true → WellFormed (.num (.float x))
  | str (s : String) : WellFormed (.str s)
  | arr {items : List Json} : items.length ≤ 2 ^ 64 → (∀ i ∈ items, WellFormed i) →
      WellFormed (.arr items)
  | obj {members : List (String × Json)} : (Entries.keys members).Nodup →
      (∀ e ∈ members, WellFormed e.2) → WellFormed (.obj members)

theorem wellFormed_normal {j : Json} (h : j.WellFormed) : j.normal.WellFormed := by
  induction h with
  | null => exact .null
  | bool b => exact .bool b
  | str s => exact .str s
  | float hx => exact .float hx
  | @int n hlow hhigh =>
    show (num (normalNumber (.int n))).WellFormed
    have hmax : Int64.maxValue.toInt = 2 ^ 63 - 1 := rfl
    rw [normalNumber]
    split
    · exact .float (Decimal.isFinite_ofInt (by omega) hhigh)
    · exact .int hlow hhigh
  | arr hlength _ ih =>
    rw [normal_arr]
    exact .arr (by rw [List.length_map]; exact hlength) (List.forall_mem_map.mpr ih)
  | @obj members hnodup _ ih =>
    rw [normal_obj]
    split
    · next hcount =>
      have hlength : (Entries.keys members).length = members.length := List.length_map _
      refine .arr ?_ ?_
      · rw [List.length_map, Entries.mapValues, List.length_map, ← hlength]
        exact hcount.2
      · rw [Entries.mapValues, List.map_map]
        exact List.forall_mem_map.mpr ih
    · rw [← Entries.keys_mapValues normal] at hnodup
      exact .obj hnodup (List.forall_mem_map.mpr ih)

end Json

namespace Value

theorem toJson_ofNumber {n : Number} (h : (Json.num n).WellFormed) :
    (ofNumber n).toJson = .num (Json.normalNumber n) := by
  cases h with
  | float hx => rw [ofNumber, toJson, if_pos hx, Json.normalNumber]
  | @int n hlow hhigh =>
    have hmin : Int64.minValue.toInt = -2 ^ 63 := rfl
    have hmax : Int64.maxValue.toInt = 2 ^ 63 - 1 := rfl
    by_cases hlarge : Int64.maxValue.toInt < n
    · have hx := Decimal.isFinite_ofInt (n := n) (by omega) hhigh
      rw [ofNumber, if_neg (by omega), toJson, if_pos hx, Json.normalNumber, if_pos hlarge]
    · have hword : (Int64.ofInt n).toInt = n := Int64.toInt_ofInt_of_le (by omega) (by omega)
      rw [ofNumber, if_pos (by omega), toJson, hword, Json.normalNumber, if_neg hlarge]
      rfl

theorem toJson_pushAll {vs : List Value} (h : vs.length ≤ 2 ^ 64) :
    (list (Collection.empty.pushAll vs)).toJson = .arr (vs.map toJson) := by
  have hrun : isRun 0 (Entries.keys (Entries.mapValues toJson (Collection.numbered 0 vs))) := by
    rw [Entries.keys_mapValues]
    exact Collection.isRun_numbered (by omega)
  have hvalues : (Entries.mapValues toJson (Collection.numbered 0 vs)).map Prod.snd =
      vs.map toJson := by
    conv_rhs => rw [← Collection.map_snd_numbered 0 vs]
    simp [Entries.mapValues]
  rw [toJson, collectionToJson_eq, Collection.entries_pushAll h, jsonOfEntries, if_pos hrun,
    hvalues]

/-- Values under the keys that texts write are written as an array if the texts count up, and under
these texts if not. -/
theorem toJson_insertAll {pairs : List (String × Value)} (h : (Entries.keys pairs).Nodup) :
    (list (Collection.empty.insertAll (pairs.map fun e => (Key.parse e.1, e.2)))).toJson =
      if Json.CountsUp (Entries.keys pairs) then
        .arr ((Entries.mapValues toJson pairs).map Prod.snd)
      else .obj (Entries.mapValues toJson pairs) := by
  have hkeys : Entries.keys (pairs.map fun e => (Key.parse e.1, e.2)) =
      (Entries.keys pairs).map Key.parse := by simp [Entries.keys]
  -- no two texts write one key
  have hnodup : ((Entries.keys pairs).map Key.parse).Nodup := h.map Key.parse_injective
  have hwritten : ∀ key ∈ (Entries.keys pairs).map Key.parse, key.Written :=
    List.forall_mem_map.mpr fun s _ => Key.written_parse s
  have hentries : (Collection.empty.insertAll (pairs.map fun e => (Key.parse e.1, e.2))).entries =
      pairs.map fun e => (Key.parse e.1, e.2) := by
    rw [Collection.entries_insertAll]
    exact Entries.ofList_of_nodup (by rw [hkeys]; exact hnodup)
  have hcount : isRun 0 ((Entries.keys pairs).map Key.parse) = true ↔
      Json.CountsUp (Entries.keys pairs) := by
    rw [isRun_map_parse_iff (by omega), Json.CountsUp, List.range_eq_range', Nat.zero_add]
  rw [toJson, collectionToJson_eq, hentries,
    jsonOfEntries_eq (by rw [Entries.keys_mapValues, hkeys]; exact hnodup)
      (by rw [Entries.keys_mapValues, hkeys]; exact hwritten),
    Entries.keys_mapValues, hkeys, if_congr hcount rfl rfl]
  simp [Entries.mapValues, Function.comp_def, Key.text_parse]

theorem toJson_ofJson {j : Json} (h : j.WellFormed) : (ofJson j).toJson = j.normal := by
  induction h with
  | null => rfl
  | bool b => rfl
  | str s => rfl
  | float hx => exact toJson_ofNumber (.float hx)
  | int hlow hhigh => exact toJson_ofNumber (.int hlow hhigh)
  | @arr items hlength _ ih =>
    rw [ofJson, ofItems_eq, toJson_pushAll (by rw [List.length_map]; exact hlength),
      Json.normal_arr, List.map_map]
    exact congrArg Json.arr (List.map_congr_left ih)
  | @obj members hnodup _ ih =>
    have hpairs : ofMembers members =
        (Entries.mapValues ofJson members).map fun e => (Key.parse e.1, e.2) := by
      rw [ofMembers_eq, Entries.mapValues, List.map_map]
      rfl
    have hvalues : Entries.mapValues toJson (Entries.mapValues ofJson members) =
        Entries.mapValues Json.normal members := by
      rw [Entries.mapValues_mapValues]
      exact Entries.mapValues_congr ih
    rw [← Entries.keys_mapValues ofJson] at hnodup
    rw [ofJson, hpairs, toJson_insertAll hnodup, Entries.keys_mapValues, hvalues, Json.normal_obj]

end Value

/-- **Stored trees are normal.**  A tree is written as it was stored, but for objects that count up,
which become arrays, and integers above all signed words, which become floating-point numbers.  To
store what was written changes nothing more, and a tree is written unchanged exactly if it has no
such object and no such integer in it. -/
theorem Json.stored_trees_are_normal {j : Json} (h : j.WellFormed) :
    (Value.ofJson j).toJson = j.normal ∧
    (Value.ofJson (Value.ofJson j).toJson).toJson = (Value.ofJson j).toJson ∧
    ((Value.ofJson j).toJson = j ↔ ∀ s : Json, s.Within j → ¬ s.Rewritten) := by
  have hnormal := Value.toJson_ofJson h
  refine ⟨hnormal, ?_, ?_⟩
  · -- what was written is a tree of the same sort, and nothing in it is left to rewrite
    rw [hnormal, Value.toJson_ofJson (wellFormed_normal h), normal_normal]
  · rw [hnormal]
    exact normal_eq_self_iff j

/-- The keys of the first item count up; those of the second only look as if they did. -/
theorem counts_become_an_array :
    let j := Json.arr [.obj [("0", .int 1), ("1", .int 9223372036854775808)],
      .obj [("00", .null), ("+1", .obj []), ("18446744073709551616", .bool true)]]
    j.WellFormed ∧ ¬ j.Plain ∧
      (Value.ofJson j).toJson =
        .arr [.arr [.int 1, .num (.float (Float.ofInt 9223372036854775808))],
          .obj [("00", .null), ("+1", .arr []), ("18446744073709551616", .bool true)]] := by
  intro j
  have hcounts : (Json.obj [("0", .int 1), ("1", .int 9223372036854775808)]).WellFormed :=
    .obj (by decide) (by simp [Json.WellFormed.int])
  have hnone : (Json.obj []).WellFormed := .obj (by decide) (by simp)
  have hothers : (Json.obj [("00", .null), ("+1", .obj []),
      ("18446744073709551616", .bool true)]).WellFormed :=
    .obj (by decide) (by simp [Json.WellFormed.null, Json.WellFormed.bool, hnone])
  have hj : j.WellFormed := .arr (by decide) (by simp [hcounts, hothers])
  obtain ⟨hnormal, -, hplain⟩ := Json.stored_trees_are_normal hj
  have hrewritten : (Value.ofJson j).toJson =
      .arr [.arr [.int 1, .num (.float (Float.ofInt 9223372036854775808))],
        .obj [("00", .null), ("+1", .arr []), ("18446744073709551616", .bool true)]] := by
    rw [hnormal]
    rfl
  refine ⟨hj, ?_, hrewritten⟩
  intro h
  have hsame := hplain.mpr h
  rw [hrewritten] at hsame
  simp [j] at hsame

end ClassSchema
