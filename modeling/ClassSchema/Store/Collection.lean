/-
Collections: ordered entries under indexes and names.

* `Collection` — entries in the order in which their keys first arrived, and the next index;
* `Collection.push` — adds an entry under the next index;
* `Collection.insert` — writes at a key: a present key keeps its position;
* `Collection.isSequential` — are the keys the indexes from zero on, in order?

The next index is one past the greatest index used so far.  Once the greatest word has been used
there is no next index any more, and nothing can be pushed.
-/
import ClassSchema.Entries
import ClassSchema.Store.Key

namespace ClassSchema

/-- Ordered entries under indexes and names. -/
structure Collection (α : Type) where
  entries : List (Key × α)
  /-- The index of the next entry that is pushed, as long as there is one. -/
  next : Option UInt64

/-- The index after another one, unless that is the greatest. -/
def indexAfter (i : UInt64) : Option UInt64 :=
  if i.toNat + 1 < UInt64.size then some (i + 1) else none

/-- Are the keys the indexes from `start` on, in order? -/
def isRun (start : Nat) : List Key → Bool
  | [] => true
  | .index i :: rest => i.toNat = start && isRun (start + 1) rest
  | .name _ :: _ => false

namespace Collection

variable {α : Type}

/-- The collection without entries. -/
def empty : Collection α := ⟨[], some 0⟩

/-- The number of entries. -/
def size (c : Collection α) : Nat := c.entries.length

/-- The keys, in order. -/
def keys (c : Collection α) : List Key := Entries.keys c.entries

/-- The values, in order. -/
def values (c : Collection α) : List α := c.entries.map Prod.snd

/-- The value at a key. -/
def get? (c : Collection α) (key : Key) : Option α := Entries.get? key c.entries

/-- Is there an entry at the key? -/
def contains (c : Collection α) (key : Key) : Bool := Entries.contains key c.entries

/-- Adds an entry under the next index, if there is one. -/
def push (c : Collection α) (value : α) : Option (UInt64 × Collection α) :=
  c.next.map fun i => (i, ⟨Entries.put (.index i) value c.entries, indexAfter i⟩)

/-- The next index once an entry has been written at a key. -/
def nextAfter (c : Collection α) (key : Key) : Option UInt64 :=
  match key, c.next with
  | .index i, some next => if next ≤ i then indexAfter i else some next
  | _, next => next

/-- Writes a value at a key. -/
def insert (c : Collection α) (key : Key) (value : α) : Collection α :=
  ⟨Entries.put key value c.entries, c.nextAfter key⟩

/-- Writes a value at a key that is present. -/
def replace (c : Collection α) (key : Key) (value : α) : Collection α :=
  ⟨Entries.put key value c.entries, c.next⟩

/-- Adds values under the indexes that follow, as long as there are any. -/
def pushAll (c : Collection α) (values : List α) : Collection α :=
  values.foldl (fun c v => ((c.push v).map Prod.snd).getD c) c

/-- Writes values at keys, one after the other. -/
def insertAll (c : Collection α) (pairs : List (Key × α)) : Collection α :=
  pairs.foldl (fun c p => c.insert p.1 p.2) c

/-- Are the keys the indexes from zero on, in order? -/
def isSequential (c : Collection α) : Bool := isRun 0 c.keys

/-! ### What the writes do -/

/-- What is written at a key is read there, and everything else is read as before. -/
theorem get?_insert (c : Collection α) (k key : Key) (value : α) :
    (c.insert key value).get? k = if key = k then some value else c.get? k :=
  Entries.get?_put k key value c.entries

theorem get?_replace (c : Collection α) (k key : Key) (value : α) :
    (c.replace key value).get? k = if key = k then some value else c.get? k :=
  Entries.get?_put k key value c.entries

/-- A present key keeps its position, and a new one goes to the end. -/
theorem keys_insert (c : Collection α) (key : Key) (value : α) :
    (c.insert key value).keys = if key ∈ c.keys then c.keys else c.keys ++ [key] :=
  Entries.keys_put key value c.entries

/-- Nothing can be pushed exactly when there is no next index. -/
theorem push_eq_none_iff (c : Collection α) (value : α) : c.push value = none ↔ c.next = none := by
  simp [push]

/-- What is pushed is read at the index that was next. -/
theorem get?_push {c after : Collection α} {value : α} {i : UInt64}
    (h : c.push value = some (i, after)) (k : Key) :
    after.get? k = if .index i = k then some value else c.get? k := by
  simp only [push, Option.map_eq_some_iff, Prod.mk.injEq] at h
  obtain ⟨j, -, rfl, rfl⟩ := h
  exact Entries.get?_put k (.index j) value c.entries

end Collection
end ClassSchema
