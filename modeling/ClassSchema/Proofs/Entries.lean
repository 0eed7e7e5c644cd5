/-
Keyed entries as the outcome of everything that was put into them.

* `last?` — the value that a list of pairs gives a key last;
* `get?_putAll` — what is read at a key is what was put there last;
* `keys_putAll` — the keys stand where they first arrived;
* `put_of_notMem` — a new key goes to the end;
* `ofList_of_nodup`, `length_ofList_lt` — pairs that repeat no key are left as they are, and others
  leave fewer entries;
* `get?_eq_some_iff`, `get?_perm` — where no key is repeated, reading does not hang on the order;
* `mapValues` — the entries with other values, which is the same before and after any writing.

The two equations leave nothing else to say about entries into which pairs were put, whatever the
order and however often a key comes back.
-/
import Mathlib.Data.List.Induction
import Mathlib.Data.List.Perm.Subperm
import ClassSchema.Entries

namespace ClassSchema.Entries

variable {κ α : Type} [DecidableEq κ]

/-- The value that a list of pairs gives a key last. -/
def last? (key : κ) (pairs : List (κ × α)) : Option α :=
  (pairs.findRev? (·.1 = key)).map Prod.snd

theorem last?_concat (key : κ) (pairs : List (κ × α)) (p : κ × α) :
    last? key (pairs ++ [p]) = if p.1 = key then some p.2 else last? key pairs := by
  by_cases hp : p.1 = key
  · simp [last?, hp]
  · simp [last?, hp]

theorem last?_append (key : κ) (pairs more : List (κ × α)) :
    last? key (pairs ++ more) = (last? key more).or (last? key pairs) := by
  simp [last?, Option.map_or]

/-- Of lists put one after the other, farthest first, the nearest one that has the key decides. -/
theorem last?_flatMap_reverse {β : Type} (key : κ) (f : β → List (κ × α)) (l : List β) :
    last? key (l.reverse.flatMap f) = l.findSome? fun b => last? key (f b) := by
  induction l with
  | nil => rfl
  | cons b l ih =>
    rw [List.reverse_cons, List.flatMap_append, last?_append, ih, List.findSome?_cons]
    rw [show List.flatMap f [b] = f b by simp]
    rcases last? key (f b) with _ | a
    · rfl
    · rfl

/-- The value that a list gives last, where every element stands for a pair. -/
theorem last?_map {β : Type} (key : κ) (g : β → κ) (f : β → α) (l : List β) :
    last? key (l.map fun b => (g b, f b)) = (l.findRev? fun b => g b = key).map f := by
  simp only [last?, List.findRev?_eq_find?_reverse, ← List.map_reverse, List.find?_map,
    Option.map_map]
  rfl

/-- Where no key is repeated, a key has the value that stands beside it. -/
theorem last?_eq_some_iff {pairs : List (κ × α)} (h : (keys pairs).Nodup) {key : κ} {value : α} :
    last? key pairs = some value ↔ (key, value) ∈ pairs := by
  induction pairs using List.reverseRecOn with
  | nil => simp [last?]
  | append_singleton pairs p ih =>
    rw [keys, List.map_append, List.nodup_append] at h
    obtain ⟨hpairs, -, hnot⟩ := h
    rw [last?_concat, List.mem_append, List.mem_singleton, ← ih hpairs]
    by_cases hp : p.1 = key
    · have hnone : (key, value) ∉ pairs := fun hmem =>
        hnot key (List.mem_map_of_mem hmem) p.1 (by simp) hp.symm
      rw [if_pos hp, ih hpairs]
      simp only [hnone, false_or, Option.some_inj]
      exact ⟨fun hv => by rw [← hp, ← hv], fun hv => by rw [← hv]⟩
    · have hne : (key, value) ≠ p := fun heq => hp (by rw [← heq])
      rw [if_neg hp]
      simp only [hne, or_false]

theorem putAll_concat (entries pairs : List (κ × α)) (p : κ × α) :
    putAll entries (pairs ++ [p]) = put p.1 p.2 (putAll entries pairs) := by
  simp [putAll]

theorem putAll_append (entries pairs more : List (κ × α)) :
    putAll entries (pairs ++ more) = putAll (putAll entries pairs) more := by
  simp [putAll]

/-- What is read at a key is what was put there last, and else what stood there before. -/
theorem get?_putAll (key : κ) (entries pairs : List (κ × α)) :
    get? key (putAll entries pairs) = (last? key pairs).or (get? key entries) := by
  induction pairs using List.reverseRecOn with
  | nil => rfl
  | append_singleton pairs p ih =>
    rw [putAll_concat, get?_put, last?_concat]
    by_cases hp : p.1 = key
    · rw [if_pos hp, if_pos hp]; rfl
    · rw [if_neg hp, if_neg hp, ih]

theorem get?_ofList (key : κ) (pairs : List (κ × α)) :
    get? key (ofList pairs) = last? key pairs := by
  rw [ofList, get?_putAll, get?_nil, Option.or_none]

/-- Where no key is repeated, an entry is what is read at its key. -/
theorem get?_of_mem {entries : List (κ × α)} (h : (keys entries).Nodup) {e : κ × α}
    (he : e ∈ entries) : get? e.1 entries = some e.2 := by
  induction entries with
  | nil => cases he
  | cons e' rest ih =>
    obtain ⟨hnot, hrest⟩ := List.nodup_cons.mp h
    rcases List.mem_cons.mp he with rfl | he
    · simp [get?_cons]
    · have hne : e'.1 ≠ e.1 := fun heq => hnot (heq ▸ List.mem_map_of_mem he)
      rw [get?_cons, if_neg hne, ih hrest he]

theorem get?_eq_some_iff {entries : List (κ × α)} (h : (keys entries).Nodup) {key : κ} {value : α} :
    get? key entries = some value ↔ (key, value) ∈ entries :=
  ⟨mem_of_get?, fun hmem => get?_of_mem h hmem⟩

/-- Where no key is repeated, the order of the entries says nothing. -/
theorem get?_perm {entries entries' : List (κ × α)} (h : (keys entries).Nodup)
    (hperm : entries.Perm entries') (key : κ) : get? key entries' = get? key entries := by
  have h' : (keys entries').Nodup := (hperm.map Prod.fst).nodup_iff.mp h
  ext value
  rw [get?_eq_some_iff h, get?_eq_some_iff h', hperm.mem_iff]

theorem get?_remove (k key : κ) (entries : List (κ × α)) :
    get? k (remove key entries) = if key = k then none else get? k entries := by
  induction entries with
  | nil => simp [remove]
  | cons e rest ih =>
    rw [show remove key (e :: rest) =
      if e.1 = key then remove key rest else e :: remove key rest by
        by_cases he : e.1 = key <;> simp [remove, he]]
    by_cases he : e.1 = key
    · rw [if_pos he, ih, get?_cons, he]
      by_cases hk : key = k
      · rw [if_pos hk, if_pos hk]
      · rw [if_neg hk, if_neg hk, if_neg hk]
    · rw [if_neg he, get?_cons, get?_cons, ih]
      by_cases hk : e.1 = k
      · have hne : key ≠ k := fun h => he (hk.trans h.symm)
        rw [if_pos hk, if_pos hk, if_neg hne]
      · rw [if_neg hk, if_neg hk]

/-! ### Where keys stand -/

theorem eraseDups_of_nodup {l : List κ} (h : l.Nodup) : l.eraseDups = l := by
  induction l with
  | nil => rfl
  | cons a l ih =>
    have ⟨ha, hl⟩ := List.nodup_cons.mp h
    have hfilter : l.filter (fun b => !b == a) = l := by
      refine List.filter_eq_self.mpr fun b hb => ?_
      simpa using fun hba : b = a => ha (hba ▸ hb)
    rw [List.eraseDups_cons, hfilter, ih hl]

theorem eraseDups_concat (l : List κ) (a : κ) :
    (l ++ [a]).eraseDups = if a ∈ l then l.eraseDups else l.eraseDups ++ [a] := by
  rw [List.eraseDups_append]
  by_cases ha : a ∈ l
  · simp [ha, List.removeAll]
  · simp [ha, List.removeAll, List.eraseDups_cons]

theorem eraseDups_map {β : Type} [DecidableEq β] {f : κ → β} (hf : Function.Injective f)
    (l : List κ) : (l.map f).eraseDups = l.eraseDups.map f := by
  induction l using List.reverseRecOn with
  | nil => rfl
  | append_singleton l a ih =>
    rw [List.map_append, List.map_singleton, eraseDups_concat, eraseDups_concat, ih]
    by_cases ha : a ∈ l
    · rw [if_pos ha, if_pos (List.mem_map_of_mem ha)]
    · rw [if_neg ha, if_neg (by simpa [hf.eq_iff] using ha), List.map_append, List.map_singleton]

/-- The keys stand where they first arrived. -/
theorem keys_putAll {entries : List (κ × α)} (h : (keys entries).Nodup) (pairs : List (κ × α)) :
    keys (putAll entries pairs) = (keys entries ++ keys pairs).eraseDups := by
  induction pairs using List.reverseRecOn with
  | nil =>
    rw [show keys ([] : List (κ × α)) = [] from rfl, List.append_nil, eraseDups_of_nodup h]
    rfl
  | append_singleton pairs p ih =>
    -- a key has arrived before exactly if it stands among the keys that are there
    rw [putAll_concat, keys_put, ih]
    rw [show keys entries ++ keys (pairs ++ [p]) = (keys entries ++ keys pairs) ++ [p.1] by
      simp [keys]]
    rw [eraseDups_concat]
    simp only [List.mem_eraseDups]

theorem keys_ofList (pairs : List (κ × α)) : keys (ofList pairs) = (keys pairs).eraseDups := by
  rw [ofList, keys_putAll (by simp [keys])]
  rfl

/-- A new key goes to the end. -/
theorem put_of_notMem {key : κ} {entries : List (κ × α)} (h : key ∉ keys entries) (value : α) :
    put key value entries = entries ++ [(key, value)] := by
  induction entries with
  | nil => rfl
  | cons e rest ih =>
    simp only [keys, List.map_cons, List.mem_cons, not_or] at h
    have he : e.1 ≠ key := fun he => h.1 he.symm
    rw [put, if_neg he, ih (by simpa [keys] using h.2), List.cons_append]

/-- Of two values that are written at one key the second is left. -/
theorem put_put (key : κ) (value other : α) (entries : List (κ × α)) :
    put key other (put key value entries) = put key other entries := by
  induction entries with
  | nil => simp [put]
  | cons e rest ih =>
    by_cases he : e.1 = key
    · simp [put, he]
    · simp [put, he, ih]

theorem mem_of_mem_put {key : κ} {value : α} {entries : List (κ × α)} {e : κ × α}
    (h : e ∈ put key value entries) : e = (key, value) ∨ e ∈ entries := by
  induction entries with
  | nil => exact Or.inl (List.mem_singleton.mp h)
  | cons e' rest ih =>
    rw [put] at h
    split at h
    · exact (List.mem_cons.mp h).imp id (List.mem_cons_of_mem e')
    · rcases List.mem_cons.mp h with rfl | h
      · exact Or.inr List.mem_cons_self
      · exact (ih h).imp id (List.mem_cons_of_mem e')

theorem mem_of_mem_ofList {pairs : List (κ × α)} {e : κ × α} (h : e ∈ ofList pairs) :
    e ∈ pairs := by
  induction pairs using List.reverseRecOn with
  | nil => exact absurd h List.not_mem_nil
  | append_singleton pairs p ih =>
    rw [ofList, putAll_concat] at h
    rcases mem_of_mem_put h with rfl | h
    · exact List.mem_concat_self
    · exact List.mem_append_left _ (ih h)

/-- Pairs that repeat no key are left as they are. -/
theorem ofList_of_nodup {pairs : List (κ × α)} (h : (keys pairs).Nodup) : ofList pairs = pairs := by
  induction pairs using List.reverseRecOn with
  | nil => rfl
  | append_singleton pairs p ih =>
    rw [keys, List.map_append, List.nodup_append] at h
    obtain ⟨hpairs, -, hnot⟩ := h
    have hp : p.1 ∉ keys pairs := fun hmem => hnot p.1 hmem p.1 (by simp) rfl
    have hold : putAll [] pairs = pairs := ih hpairs
    rw [ofList, putAll_concat, hold, put_of_notMem hp]

/-- Pairs that repeat a key leave fewer entries. -/
theorem length_ofList_lt {pairs : List (κ × α)} (h : ¬ (keys pairs).Nodup) :
    (ofList pairs).length < pairs.length := by
  have hlength : ∀ entries : List (κ × α), (keys entries).length = entries.length := fun _ =>
    List.length_map _
  have hsubperm : (keys (ofList pairs)).Subperm (keys pairs) := by
    refine (nodup_keys_ofList pairs).subperm fun key hkey => ?_
    rw [keys_ofList] at hkey
    exact List.mem_eraseDups.mp hkey
  rw [← hlength, ← hlength]
  refine Nat.lt_of_le_of_ne hsubperm.length_le fun heq => h ?_
  exact (hsubperm.perm_of_length_le (Nat.le_of_eq heq.symm)).nodup_iff.mp (nodup_keys_ofList pairs)

/-! ### Other values under the same keys -/

section MapValues

variable {β : Type} (f : α → β)

/-- The entries, each with what becomes of its value. -/
def mapValues (entries : List (κ × α)) : List (κ × β) := entries.map fun e => (e.1, f e.2)

omit [DecidableEq κ] in
@[simp] theorem mapValues_nil : mapValues f ([] : List (κ × α)) = [] := rfl

omit [DecidableEq κ] in
@[simp] theorem mapValues_cons (e : κ × α) (rest : List (κ × α)) :
    mapValues f (e :: rest) = (e.1, f e.2) :: mapValues f rest := rfl

omit [DecidableEq κ] in
@[simp] theorem keys_mapValues (entries : List (κ × α)) :
    keys (mapValues f entries) = keys entries := by
  simp [keys, mapValues]

@[simp] theorem get?_mapValues (key : κ) (entries : List (κ × α)) :
    get? key (mapValues f entries) = (get? key entries).map f := by
  induction entries with
  | nil => rfl
  | cons e rest ih =>
    rw [mapValues_cons, get?_cons, get?_cons]
    by_cases he : e.1 = key
    · rw [if_pos he, if_pos he]; rfl
    · rw [if_neg he, if_neg he, ih]

@[simp] theorem contains_mapValues (key : κ) (entries : List (κ × α)) :
    contains key (mapValues f entries) = contains key entries := by
  simp [contains]

theorem put_mapValues (key : κ) (value : α) (entries : List (κ × α)) :
    put key (f value) (mapValues f entries) = mapValues f (put key value entries) := by
  induction entries with
  | nil => rfl
  | cons e rest ih =>
    by_cases he : e.1 = key
    · simp [put, he]
    · simp [put, he, ih]

theorem putAll_mapValues (entries pairs : List (κ × α)) :
    putAll (mapValues f entries) (mapValues f pairs) = mapValues f (putAll entries pairs) := by
  induction pairs generalizing entries with
  | nil => rfl
  | cons p rest ih =>
    have hstep := ih (put p.1 p.2 entries)
    rw [← put_mapValues] at hstep
    exact hstep

theorem ofList_mapValues (pairs : List (κ × α)) :
    ofList (mapValues f pairs) = mapValues f (ofList pairs) :=
  putAll_mapValues f [] pairs

theorem remove_mapValues (key : κ) (entries : List (κ × α)) :
    remove key (mapValues f entries) = mapValues f (remove key entries) := by
  rw [remove, remove, mapValues, mapValues, List.filter_map]
  rfl

omit [DecidableEq κ] in
theorem mapValues_mapValues {γ : Type} (g : β → γ) (entries : List (κ × α)) :
    mapValues g (mapValues f entries) = mapValues (g ∘ f) entries := by
  simp [mapValues]

omit [DecidableEq κ] in
theorem mapValues_congr {f g : α → β} {entries : List (κ × α)}
    (h : ∀ e ∈ entries, f e.2 = g e.2) : mapValues f entries = mapValues g entries :=
  List.map_congr_left fun e he => congrArg (Prod.mk e.1) (h e he)

omit [DecidableEq κ] in
theorem mapValues_eq_self_iff {g : α → α} {entries : List (κ × α)} :
    mapValues g entries = entries ↔ ∀ e ∈ entries, g e.2 = e.2 := by
  induction entries with
  | nil => simp
  | cons e rest ih =>
    rw [mapValues_cons, List.cons.injEq, ih, List.forall_mem_cons]
    simp [Prod.ext_iff]

end MapValues

end ClassSchema.Entries
