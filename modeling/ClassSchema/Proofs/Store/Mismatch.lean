/-
What the store says of a value that does not fit.

* `Instance.Mismatch` — the two ways in which an operation finds that something does not fit;
* `perform_eq_typeMismatch_iff` — it is refused for a mismatch exactly in one of these ways;
* `Tells` — the error is about the write: it names what is written, the type that is declared there
  and the sort of the value that was offered;
* `mismatch_tells_iff` — an error that comes of setting is about the write, and one that comes of
  adding is so only by accident.

Design notes: what is set is held against the type of its name.  What is added goes into a
collection, so there it is not the value that does not fit but what stands in the place of the
collection, and the error tells of that.  A class that lets no value be appended never gets there,
since nothing else puts such a thing into a slot for arrays.
-/
import ClassSchema.Proofs.Store.ArraySlot
import ClassSchema.Proofs.Store.Refusal
import ClassSchema.Proofs.TypeRendering

namespace ClassSchema

/-! ### Which operations can fail so -/

namespace Class

variable {c : Class} {key property : Option String} {v : Value}

/-- What is added to is an explicit property that holds arrays. -/
theorem exists_array_of_addAction {p : String} {k : Option String} {w : Value}
    (h : c.addAction key property v = .addTo p k w) :
    ∃ t, c.property? p = some t ∧ t.isArray = true := by
  unfold addAction at h
  split at h
  · split at h
    · cases h
    · cases h
  · split at h
    · next q t ht =>
      split at h
      · next harray =>
        obtain ⟨rfl, -, -⟩ := Action.addTo.inj h
        exact ⟨t, ht, harray⟩
      · cases h
    · split at h
      · cases h
      · cases h

end Class

namespace Operation

variable {c : Class} {o : Operation}

/-- No value is found not to fit before the instance is looked at. -/
theorem action_ne_typeMismatch {owner p : String} {expected : SlotType} {found : ValueKind} :
    o.action c ≠ .refuse (.typeMismatch owner p expected found) := by
  intro h
  rcases refusal_of_action h with ⟨name, hname⟩ | ⟨q, hq⟩ | ⟨q, t, hq⟩
  · cases hname
  · cases hq
  · cases hq

theorem exists_array_of_action {p : String} {key : Option String} {v : Value}
    (h : o.action c = .addTo p key v) : ∃ t, c.property? p = some t ∧ t.isArray = true := by
  cases o with
  | add key' property w => exact Class.exists_array_of_addAction h
  | call accessor w key' =>
    rw [action] at h
    rcases ha : c.accessor? accessor with _ | ⟨verb, q⟩
    · rw [ha] at h
      cases h
    · rw [ha] at h
      cases verb with
      | add => exact Class.exists_array_of_addAction h
      | _ => cases h
  | _ => cases h

/-- An operation that sets a value, or adds one to a property, writes under that name, and the value
is the one that it was given. -/
theorem given_of_action {a : Action} {p : String} {v : Value} (h : o.action c = a)
    (ha : a = .set p v ∨ ∃ key, a = .addTo p key v) :
    o.address? c = some p ∧ o.operand? = some v := by
  have hof := o.of_action c
  have haddress := o.address?_action c
  rw [h] at hof haddress
  rcases ha with rfl | ⟨key, rfl⟩
  · rcases haddress with haddress | ⟨e, he⟩
    · refine ⟨haddress.symm, ?_⟩
      generalize o.operand? = given at hof
      cases hof
      rfl
    · cases he
  · rcases haddress with haddress | ⟨e, he⟩
    · refine ⟨haddress.symm, ?_⟩
      generalize o.operand? = given at hof
      cases hof
      rfl
    · cases he

end Operation

namespace Instance

variable {i : Instance} {o : Operation} {owner p : String} {expected : SlotType}
  {found : ValueKind}

/-! ### The two ways -/

/-- Something does not fit under a name: the value that is set there, or else the value that stands
where another one is to be added. -/
inductive Mismatch (i : Instance) (o : Operation) : String → SlotType → ValueKind → Prop where
  | given {p : String} {t : SlotType} {v : Value} : o.action i.owner = .set p v →
      i.owner.Grants p t → t.isArray = true → v.IsSingle → Mismatch i o p t v.kind
  | held {p : String} {key : Option String} {v w : Value} : o.action i.owner = .addTo p key v →
      i.slot p = some w → w.IsSingle → Mismatch i o p (.primitive .array) w.kind

theorem addToProperty_eq_typeMismatch_iff {q : String} {key : Option String} {v : Value} :
    (i.addToProperty q key v).result = .error (.typeMismatch owner p expected found) ↔
      owner = i.ownerName ∧ q = p ∧ expected = .primitive .array ∧
        ∃ w, i.slot p = some w ∧ w.IsSingle ∧ found = w.kind := by
  rw [addToProperty_eq]
  constructor
  · intro h
    split at h
    · next kind hopen =>
      obtain ⟨w, hget, hw, rfl⟩ := openList_eq_error_iff.mp hopen
      obtain ⟨rfl, rfl, rfl, rfl⟩ := StoreError.typeMismatch.inj (Except.error.inj h)
      exact ⟨rfl, rfl, rfl, w, hget, Value.fitsArray_eq_false_iff.mp hw, rfl⟩
    · split at h
      · cases h
      · cases h
  · rintro ⟨rfl, rfl, rfl, w, hget, hw, rfl⟩
    rw [openList_eq_error_iff.mpr ⟨w, hget, Value.fitsArray_eq_false_iff.mpr hw, rfl⟩]
    rfl

theorem append_ne_typeMismatch {v : Value} {key : Option String} :
    (i.append v key).result ≠ .error (.typeMismatch owner p expected found) := by
  rcases ht : i.owner.wildcard with _ | t
  · simp [append, ht, refuse]
  · rcases harray : t.isArray with _ | _
    · simp [append, ht, harray, refuse]
    · rw [append_eq ht harray]
      split <;> simp [done, refuse]

theorem get_ne_typeMismatch {name : String} :
    i.get name ≠ .error (.typeMismatch owner p expected found) := by
  unfold get
  split <;> simp

/-- **An operation is refused for a mismatch exactly if the value that it sets does not fit, or the
value that stands where it would add one.** -/
theorem perform_eq_typeMismatch_iff :
    (i.perform o).result = .error (.typeMismatch owner p expected found) ↔
      owner = i.ownerName ∧ i.Mismatch o p expected found := by
  rw [perform_eq_act]
  constructor
  · intro h
    cases ha : o.action i.owner with
    | refuse e =>
      rw [ha] at h
      obtain rfl := Except.error.inj h
      exact absurd ha Operation.action_ne_typeMismatch
    | get name =>
      rw [ha] at h
      exact absurd h get_ne_typeMismatch
    | read name =>
      rw [ha] at h
      exact absurd (Except.map_eq_error_iff.mp h) get_ne_typeMismatch
    | set name v =>
      rw [ha] at h
      cases set_eq_error_iff.mp (Except.map_eq_error_iff.mp h) with
      | mismatch hgrants harray hv => exact ⟨rfl, .given ha hgrants harray hv⟩
    | addTo q key v =>
      rw [ha] at h
      obtain ⟨rfl, rfl, rfl, w, hget, hw, rfl⟩ :=
        addToProperty_eq_typeMismatch_iff.mp (Except.map_eq_error_iff.mp h)
      exact ⟨rfl, .held ha hget hw⟩
    | append v key =>
      rw [ha] at h
      exact absurd (Except.map_eq_error_iff.mp h) append_ne_typeMismatch
  · rintro ⟨rfl, hmismatch⟩
    cases hmismatch with
    | given ha hgrants harray hv =>
      rw [ha]
      exact Except.map_eq_error_iff.mpr (set_eq_error_iff.mpr (.mismatch hgrants harray hv))
    | held ha hget hw =>
      rw [ha]
      exact Except.map_eq_error_iff.mpr
        (addToProperty_eq_typeMismatch_iff.mpr ⟨rfl, rfl, rfl, _, hget, hw, rfl⟩)

/-! ### What the error tells -/

/-- The error is about the write: it has the name that is written, it expects the declared type as
documents write it, and it has found the sort of the value that was offered. -/
structure Tells (c : Class) (o : Operation) (p : String) (expected : SlotType)
    (found : ValueKind) : Prop where
  name : o.address? c = some p
  expected : ∃ t, c.Grants p t ∧ expected.docName = t.docName
  found : ∃ v, o.operand? = some v ∧ found = v.kind

variable {c : Class}

/-- What stands in a slot for arrays, and is none, was appended there and not replaced since. -/
theorem spoiled_of_slot {ds : List Descriptor} {r : Registry} (hr : Registry.link ds = .ok r)
    (hc : c ∈ r.classes) {t : SlotType} (ht : c.property? p = some t) (harray : t.isArray = true)
    {history : List Operation} {w : Value} (hw : (c.create.run history).slot p = some w)
    (hsingle : w.IsSingle) :
    ∃ before o after, history = before ++ o :: after ∧ o.Spoils c p ∧
      ∀ o' ∈ after, ¬ o'.Mends c p := by
  obtain ⟨x, rfl⟩ := Registry.exists_ident hr hc ht
  refine (not_holdsArray_run_iff ht harray (Key.parse_ident x) history).mp fun hholds => ?_
  have hfits := hholds w hw
  rw [Value.fitsArray_eq_false_iff.mpr hsingle] at hfits
  cases hfits

theorem docName_array_eq_iff {t : SlotType} (harray : t.isArray = true) :
    (SlotType.primitive .array).docName = t.docName ↔ t = .primitive .array := by
  cases t with
  | primitive q =>
    obtain rfl : q = .array := by simpa [SlotType.isArray] using harray
    simp
  | reference r => cases harray
  | arrayOf t =>
    -- a declared type of elements is told by the brackets at the end
    refine iff_of_false (fun h => ?_) (by simp)
    have hbracketed := t.bracketed_docName_arrayOf
    rw [← h] at hbracketed
    exact Primitive.not_bracketed_spelling .array hbracketed

theorem tells_of_given {o : Operation} {p : String} {t : SlotType} {v : Value}
    (ha : o.action c = .set p v) (hgrants : c.Grants p t) : Tells c o p t v.kind := by
  obtain ⟨hname, hv⟩ := Operation.given_of_action ha (Or.inl rfl)
  exact ⟨hname, ⟨t, hgrants, rfl⟩, ⟨v, hv, rfl⟩⟩

/-- What is told of the value that stands in the way is about the write by accident only. -/
theorem tells_of_held_iff {o : Operation} {p : String} {key : Option String} {t : SlotType}
    {v w : Value} (ha : o.action c = .addTo p key v) (ht : c.property? p = some t)
    (harray : t.isArray = true) :
    Tells c o p (.primitive .array) w.kind ↔ t = .primitive .array ∧ w.kind = v.kind := by
  obtain ⟨hname, hv⟩ := Operation.given_of_action ha (Or.inr ⟨key, rfl⟩)
  constructor
  · rintro ⟨-, ⟨t', hgrants, hexpected⟩, v', hv', hfound⟩
    obtain rfl := Option.some.inj (hv.symm.trans hv')
    cases hgrants with
    | explicit ht' =>
      obtain rfl := Option.some.inj (ht.symm.trans ht')
      exact ⟨(docName_array_eq_iff harray).mp hexpected, hfound⟩
    | wildcard hnone =>
      rw [ht] at hnone
      cases hnone
  · rintro ⟨rfl, hkind⟩
    exact ⟨hname, ⟨_, .explicit ht, rfl⟩, ⟨v, hv, hkind⟩⟩

/-- **What a mismatch tells.**  An error names the class and what is written.  If it comes of
setting, on whatever route, it is about the write.  If it comes of adding to a property, it expects
an array whatever the declared type is, and has found the value that stands in the slot, which some
operation has appended there; so it is about the write only if no type of elements is declared and
the two values are of one sort.  All errors are about their writes exactly if the class lets no
value be appended, or has no property that is declared to hold arrays. -/
theorem mismatch_tells_iff {ds : List Descriptor} {r : Registry} (hr : Registry.link ds = .ok r)
    (hc : c ∈ r.classes) :
    (∀ history o owner p expected found,
      ((c.create.run history).perform o).result =
        .error (.typeMismatch owner p expected found) →
      owner = c.qualified ∧ o.address? c = some p ∧
      ((∃ v, o.action c = .set p v ∧ Tells c o p expected found) ∨
        ∃ key v t w, o.action c = .addTo p key v ∧ c.property? p = some t ∧ t.isArray = true ∧
          (c.create.run history).slot p = some w ∧ w.IsSingle ∧
          (∃ before o' after, history = before ++ o' :: after ∧ o'.Spoils c p ∧
            ∀ o'' ∈ after, ¬ o''.Mends c p) ∧
          expected = .primitive .array ∧ found = w.kind ∧
          (Tells c o p expected found ↔ t = .primitive .array ∧ w.kind = v.kind))) ∧
    ((∀ history o owner p expected found,
      ((c.create.run history).perform o).result =
        .error (.typeMismatch owner p expected found) → Tells c o p expected found) ↔
      (c.Appends → ∀ p t, c.property? p = some t → t.isArray = false)) := by
  have howner : ∀ history, (c.create.run history).owner = c := owner_run c.create
  refine ⟨?told, ?always, ?never⟩
  case told =>
    intro history o owner p expected found herror
    obtain ⟨howned, hmismatch⟩ := perform_eq_typeMismatch_iff.mp herror
    rw [ownerName, howner] at howned
    cases hmismatch with
    | given ha hgrants harray hv =>
      rw [howner] at ha hgrants
      have htells := tells_of_given ha hgrants
      exact ⟨howned, htells.name, Or.inl ⟨_, ha, htells⟩⟩
    | held ha hget hw =>
      rw [howner] at ha
      obtain ⟨t, ht, harray⟩ := Operation.exists_array_of_action ha
      obtain ⟨hname, -⟩ := Operation.given_of_action ha (Or.inr ⟨_, rfl⟩)
      exact ⟨howned, hname, Or.inr ⟨_, _, t, _, ha, ht, harray, hget, hw,
        spoiled_of_slot hr hc ht harray hget hw, rfl, rfl, tells_of_held_iff ha ht harray⟩⟩
  case always =>
    intro htells happends p t ht
    by_contra hne
    have harray : t.isArray = true := by simpa using hne
    obtain ⟨u, hu, huarray⟩ := happends
    -- a number is appended under the name of the property, and then a text is added to it
    have hafter : (c.create.run [.append (.int 0) (some p)]) =
        { c.create with bag := c.create.bag.insert (.parse p) (.int 0) } := by
      show ((c.create.append (.int 0) (some p)).replacing none).after = _
      rw [append_eq (i := c.create) hu huarray]
      rfl
    have hslot : (c.create.run [.append (.int 0) (some p)]).slot p = some (.int 0) := by
      rw [hafter, slot, Collection.get?_insert, if_pos rfl]
    have ha : (Operation.add none (some p) (.str "")).action c = .addTo p none (.str "") := by
      simp [Operation.action, Class.addAction, ht, harray]
    have herror := perform_eq_typeMismatch_iff.mpr
      ⟨rfl, Mismatch.held (by rw [howner]; exact ha) hslot ⟨by simp, by simp⟩⟩
    have hkind := ((tells_of_held_iff ha ht harray).mp (htells _ _ _ _ _ _ herror)).2
    cases hkind
  case never =>
    intro hnever history o owner p expected found herror
    obtain ⟨-, hmismatch⟩ := perform_eq_typeMismatch_iff.mp herror
    cases hmismatch with
    | given ha hgrants harray hv =>
      rw [howner] at ha hgrants
      exact tells_of_given ha hgrants
    | held ha hget hw =>
      rw [howner] at ha
      obtain ⟨t, ht, harray⟩ := Operation.exists_array_of_action ha
      obtain ⟨before, o', after, -, hspoils, -⟩ := spoiled_of_slot hr hc ht harray hget hw
      rw [hnever hspoils.1 p t ht] at harray
      cases harray

/-- A type whose array holds texts, and that lets anything be appended. -/
def rack : Descriptor where
  name := ⟨"rack", by decide⟩
  namespacePath := none
  qualified := "Rack"
  parent := none
  properties := [(⟨"items", items_valid⟩, .arrayOf (.primitive .string))]
  wildcard := some (.primitive .array)

theorem rack_tells_of_what_is_set :
    Registry.link [rack] = .ok ⟨[Class.root rack]⟩ ∧
    ((Class.root rack).create.perform (.call "setItems" (.int 5) none)).result =
      .error (.typeMismatch "Rack" "items" (.arrayOf (.primitive .string)) .int) ∧
    Tells (Class.root rack) (.call "setItems" (.int 5) none) "items"
      (.arrayOf (.primitive .string)) .int := by
  have hlink : Registry.link [rack] = .ok ⟨[Class.root rack]⟩ := by with_unfolding_all rfl
  have herror : ((Class.root rack).create.perform (.call "setItems" (.int 5) none)).result =
      .error (.typeMismatch "Rack" "items" (.arrayOf (.primitive .string)) .int) := by rfl
  obtain ⟨-, -, htold⟩ := (mismatch_tells_iff hlink List.mem_cons_self).1 [] _ _ _ _ _ herror
  rcases htold with ⟨v, -, htells⟩ | ⟨key, v, t, w, ha, -⟩
  · exact ⟨hlink, herror, htells⟩
  · have hset : (Operation.call "setItems" (.int 5) none).action (Class.root rack) =
        .set "items" (.int 5) := by rfl
    rw [hset] at ha
    cases ha

/-- Of a text that is added to an array of texts, the error tells that it is a number. -/
theorem rack_tells_of_what_is_held :
    ¬ ∀ ds r c history o owner p expected found, Registry.link ds = .ok r → c ∈ r.classes →
      ((c.create.run history).perform o).result =
        .error (.typeMismatch owner p expected found) → Tells c o p expected found := by
  intro hclaim
  have hlink : Registry.link [rack] = .ok ⟨[Class.root rack]⟩ := by with_unfolding_all rfl
  have herror : (((Class.root rack).create.run [.append (.int 5) (some "items")]).perform
      (.add none (some "items") (.str "x"))).result =
        .error (.typeMismatch "Rack" "items" (.primitive .array) .int) := by rfl
  obtain ⟨-, -, v, hv, hfound⟩ :=
    hclaim [rack] _ (Class.root rack) _ _ _ _ _ _ hlink List.mem_cons_self herror
  obtain rfl := Option.some.inj hv
  cases hfound

end Instance
end ClassSchema
