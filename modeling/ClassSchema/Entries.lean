/-
Lists of keyed entries, in the order in which their keys first arrived.

* `get?` — the value at a key;
* `put` — writing at a key: a present key keeps its position, a new one goes to the end;
* `ofList` — the entries left when pairs are put one after the other, so of two pairs with one key
  the first gives the position and the last the value;
* `only?` — the value at a key that is not repeated;
* `remove` — the entries but for those at a key.

Members of a JSON object, properties of a class and the contents of a collection are such lists.
Writing changes what is read at its own key and nowhere else (`get?_put`), never moves a key
(`keys_put`), and never repeats one (`nodup_keys_ofList`).
-/
namespace ClassSchema.Entries

variable {κ α : Type} [DecidableEq κ]

/-- The keys, in order. -/
def keys (entries : List (κ × α)) : List κ := entries.map Prod.fst

/-- The value at a key. -/
def get? (key : κ) : List (κ × α) → Option α
  | [] => none
  | e :: rest => if e.1 = key then some e.2 else get? key rest

/-- The value at a key, where only one entry has it. -/
def only? (key : κ) : List (κ × α) → Option α
  | [] => none
  | e :: rest =>
    if e.1 = key then (if (get? key rest).isSome then none else some e.2) else only? key rest

/-- Is there an entry at the key? -/
def contains (key : κ) (entries : List (κ × α)) : Bool := (get? key entries).isSome

/-- Writes a value at a key. -/
def put (key : κ) (value : α) : List (κ × α) → List (κ × α)
  | [] => [(key, value)]
  | e :: rest => if e.1 = key then (key, value) :: rest else e :: put key value rest

/-- Puts the pairs one after the other. -/
def putAll (entries : List (κ × α)) (pairs : List (κ × α)) : List (κ × α) :=
  pairs.foldl (fun acc p => put p.1 p.2 acc) entries

/-- The entries left when pairs are put one after the other. -/
def ofList (pairs : List (κ × α)) : List (κ × α) := putAll [] pairs

/-- The entries but for those at a key. -/
def remove (key : κ) (entries : List (κ × α)) : List (κ × α) := entries.filter (·.1 ≠ key)

/-! ### Reading -/

@[simp] theorem get?_nil (key : κ) : get? key ([] : List (κ × α)) = none := rfl

theorem get?_cons (key : κ) (e : κ × α) (rest : List (κ × α)) :
    get? key (e :: rest) = if e.1 = key then some e.2 else get? key rest := rfl

/-- There is an entry at a key exactly when the key is listed. -/
theorem contains_iff {key : κ} {entries : List (κ × α)} :
    contains key entries ↔ key ∈ keys entries := by
  induction entries with
  | nil => simp [contains, keys]
  | cons e rest ih =>
    by_cases h : e.1 = key
    · simp [contains, keys, get?_cons, h]
    · have h' : key ≠ e.1 := fun h' => h h'.symm
      simpa [contains, keys, get?_cons, h, h'] using ih

theorem get?_eq_none_iff {key : κ} {entries : List (κ × α)} :
    get? key entries = none ↔ key ∉ keys entries := by
  rw [← contains_iff, contains, Option.isSome_iff_ne_none]
  exact Decidable.not_not.symm

theorem mem_of_get? {key : κ} {entries : List (κ × α)} {value : α}
    (h : get? key entries = some value) : (key, value) ∈ entries := by
  induction entries with
  | nil => cases h
  | cons e rest ih =>
    rw [get?_cons] at h
    split at h
    · next he =>
      obtain rfl := Option.some.inj h
      rw [← he]
      exact List.mem_cons_self
    · exact List.mem_cons_of_mem _ (ih h)

/-! ### Writing -/

/-- What is written at a key is read there, and everything else is read as before. -/
theorem get?_put (k key : κ) (value : α) (entries : List (κ × α)) :
    get? k (put key value entries) = if key = k then some value else get? k entries := by
  induction entries with
  | nil => rfl
  | cons e rest ih =>
    by_cases he : e.1 = key
    · by_cases hk : key = k
      · simp [put, get?_cons, he, hk]
      · simp [put, get?_cons, he, hk]
    · by_cases hk : e.1 = k
      · have : key ≠ k := fun h => he (hk.trans h.symm)
        rw [put, if_neg he, get?_cons, get?_cons, if_pos hk, if_neg this, if_pos hk]
      · rw [put, if_neg he, get?_cons, get?_cons, if_neg hk, if_neg hk, ih]

@[simp] theorem get?_put_self (key : κ) (value : α) (entries : List (κ × α)) :
    get? key (put key value entries) = some value := by simp [get?_put]

theorem get?_put_of_ne {k key : κ} (h : key ≠ k) (value : α) (entries : List (κ × α)) :
    get? k (put key value entries) = get? k entries := by simp [get?_put, h]

/-- A present key keeps its position, and a new one goes to the end. -/
theorem keys_put (key : κ) (value : α) (entries : List (κ × α)) :
    keys (put key value entries) =
      if key ∈ keys entries then keys entries else keys entries ++ [key] := by
  induction entries with
  | nil => rfl
  | cons e rest ih =>
    by_cases he : e.1 = key
    · simp [put, keys, he]
    · have he' : key ≠ e.1 := fun h => he h.symm
      have ih' : keys (e :: put key value rest) = e.1 :: keys (put key value rest) := rfl
      rw [put, if_neg he, ih', ih]
      by_cases hm : key ∈ keys rest
      · have : key ∈ keys (e :: rest) := List.mem_cons_of_mem _ hm
        rw [if_pos hm, if_pos this]; rfl
      · have : key ∉ keys (e :: rest) := fun h => (List.mem_cons.1 h).elim he' hm
        rw [if_neg hm, if_neg this]; rfl

/-- Writing repeats no key. -/
theorem nodup_keys_put (key : κ) (value : α) {entries : List (κ × α)}
    (h : (keys entries).Nodup) : (keys (put key value entries)).Nodup := by
  rw [keys_put]
  split
  · exact h
  · next hm =>
    refine List.nodup_append.2 ⟨h, by simp, ?_⟩
    intro a ha b hb
    obtain rfl := List.mem_singleton.1 hb
    exact fun hab => hm (hab ▸ ha)

theorem nodup_keys_putAll {entries : List (κ × α)} (h : (keys entries).Nodup)
    (pairs : List (κ × α)) : (keys (putAll entries pairs)).Nodup := by
  induction pairs generalizing entries with
  | nil => exact h
  | cons p rest ih => exact ih (nodup_keys_put p.1 p.2 h)

/-- No key is repeated among the entries that pairs leave. -/
theorem nodup_keys_ofList (pairs : List (κ × α)) : (keys (ofList pairs)).Nodup :=
  nodup_keys_putAll (by simp [keys]) pairs

end ClassSchema.Entries
