/-
What a tree shows of the collection that was written as it.

* `Collection.ShownBy` — a tree has an element or a member for every entry;
* `shownBy_toJson` — a collection whose keys are indexes and keys that texts write is shown in full;
* `every_entry_is_shown` — the bags of instances are such collections, and so is what additions
  make.

Design notes: an object has one member for a name, so two keys that print alike would leave one of
their entries out.  Keys that texts write never print alike.  A name that looks like an index and
was not read from a text would, which is why collections that were given as they are have to be told
apart from those that additions have made.
-/
import ClassSchema.Proofs.Store.Rendering

namespace ClassSchema

namespace Collection

variable {c : Collection Value}

/-- The tree has one element or one member for each entry, in the order of the entries.  It is the
tree of the value of the entry, and a member goes by the text of the key, under which the value is
found in the collection. -/
inductive ShownBy (c : Collection Value) : Json → Prop where
  | elements {items : List Json} :
      List.Forall₂ (fun (e : Key × Value) item => item = e.2.toJson) c.entries items →
      ShownBy c (.arr items)
  | members {members : List (String × Json)} : (Entries.keys members).Nodup →
      List.Forall₂ (fun (e : Key × Value) m =>
        m = (e.1.text, e.2.toJson) ∧ c.get? (.parse m.1) = some e.2) c.entries members →
      ShownBy c (.obj members)

/-- An entry is found again under the text of its key. -/
theorem get?_parse_text (hnodup : c.keys.Nodup) (hwritten : ∀ key ∈ c.keys, key.Written)
    {e : Key × Value} (he : e ∈ c.entries) : c.get? (.parse e.1.text) = some e.2 := by
  rw [(hwritten e.1 (List.mem_map_of_mem he)).parse_text]
  exact Entries.get?_of_mem hnodup he

theorem shownBy_toJson (hnodup : c.keys.Nodup) (hwritten : ∀ key ∈ c.keys, key.Written) :
    c.ShownBy (Value.collectionToJson c) := by
  have hkeys : Entries.keys (Entries.mapValues Value.toJson c.entries) = c.keys :=
    Entries.keys_mapValues Value.toJson c.entries
  rw [Value.collectionToJson_eq, Value.jsonOfEntries_eq (by rw [hkeys]; exact hnodup)
    (by rw [hkeys]; exact hwritten)]
  split
  · refine .elements ?_
    simp [Entries.mapValues, List.forall₂_same]
  · refine .members ?_ ?_
    · rw [Value.keys_map_text, hkeys]
      exact Key.nodup_map_text hnodup hwritten
    · simp only [Entries.mapValues, List.map_map, List.forall₂_map_right_iff, List.forall₂_same]
      intro e he
      exact ⟨rfl, get?_parse_text hnodup hwritten he⟩

theorem Orderly.shownBy (h : c.Orderly) : c.ShownBy (Value.collectionToJson c) :=
  shownBy_toJson h.nodup h.written

end Collection

/-- **Every entry is shown.**  A text writes a key that prints as this text, and the text of an
index writes the index.  So where no key is repeated, and each is an index or one that a text
writes, the tree of a collection has one element or member for each entry, in order, and each entry
that becomes a member is found again under the name of the member.  Such collections are the bags of
instances, whatever was done to them, and what additions have put together in an instance, which is
all that is ever held at a key under which no collection was put as it was given.  An instance is
written as its bag wherever it stands. -/
theorem Collection.every_entry_is_shown :
    (∀ s, (Key.parse s).text = s) ∧ (∀ n : UInt64, Key.parse (toString n.toNat) = .index n) ∧
    (∀ c : Collection Value, c.keys.Nodup →
      (∀ key ∈ c.keys, (∃ n, key = .index n) ∨ ∃ s, key = .parse s) →
      c.ShownBy (Value.list c).toJson) ∧
    (∀ i : Instance, i.toValue.toJson = i.toJson) ∧
    (∀ (owner : Class) (history : List Operation),
      (owner.create.run history).bag.ShownBy (owner.create.run history).toJson) ∧
    ∀ (owner : Class) (history : List Operation) (key : Key),
      (∀ o ∈ history, ∀ d, ¬ (o.action owner).Places key d) →
      ∀ c, (owner.create.run history).bag.get? key = some (.list c) →
        c.ShownBy (Value.list c).toJson := by
  refine ⟨Key.text_parse, Key.parse_toString_toNat, ?given, ?nested, ?bags, ?added⟩
  case given =>
    intro c hnodup hkeys
    rw [Value.toJson]
    refine shownBy_toJson hnodup fun key hkey => ?_
    rcases hkeys key hkey with ⟨n, rfl⟩ | ⟨s, rfl⟩
    · exact Key.written_index n
    · exact Key.written_parse s
  case nested =>
    intro i
    rw [Instance.toValue, Value.toJson, Instance.toJson]
  case bags =>
    intro owner history
    exact (Instance.orderly_run_create owner history).shownBy
  case added =>
    intro owner history key hnone c hc
    rw [Value.toJson]
    have horderly : c.Orderly := by
      refine Instance.list_run orderly_empty (fun v hk h => h.insert hk v) ?_ c hc
      intro o ho d hplaces
      exact absurd hplaces (hnone o ho d)
    exact horderly.shownBy

/-- Two keys that read as one number, in a collection that additions have made; nothing was put
there as it is, though a collection with a name that looks like an index stands elsewhere. -/
theorem items_are_shown :
    let given := Collection.empty.insert (.name "0") (Value.int 3)
    let history : List Operation :=
      [.add (some "7") (some "items") (.int 1), .append (.list given) none,
        .add (some "07") (some "items") (.int 2)]
    (∀ o ∈ history, ∀ d, ¬ (o.action (Class.root shelf)).Places (.name "items") d) ∧
    ∃ c, ((Class.root shelf).create.run history).bag.get? (.name "items") = some (.list c) ∧
      c.ShownBy (.obj [("7", .int 1), ("07", .int 2)]) := by
  intro given history
  have hnone : ∀ o ∈ history, ∀ d,
      ¬ (o.action (Class.root shelf)).Places (.name "items") d := by
    intro o ho d hplaces
    simp only [history, List.mem_cons, List.not_mem_nil, or_false] at ho
    rcases ho with rfl | rfl | rfl
    · rw [show Operation.action (.root shelf) (.add (some "7") (some "items") (.int 1)) =
        .addTo "items" (some "7") (.int 1) by rfl] at hplaces
      cases hplaces
    · cases hplaces
    · rw [show Operation.action (.root shelf) (.add (some "07") (some "items") (.int 2)) =
        .addTo "items" (some "07") (.int 2) by rfl] at hplaces
      cases hplaces
  obtain ⟨-, -, -, -, -, hadded⟩ := Collection.every_entry_is_shown
  exact ⟨hnone, _, rfl, hadded (Class.root shelf) history _ hnone _ rfl⟩

end ClassSchema
