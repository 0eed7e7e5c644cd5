/-
Metadata that says nothing.

* `Site` — a place between the members in the definition of a type, and the schema around it;
* `ofJson_append_metadata` — beside the types, unrecognised metadata is left out whatever it holds;
* `Site.ofJson_annotate_text` — inside a type it is left out if it holds a text;
* `Site.ofJson_annotate_of_ok` — and else the schema is refused for it, unless what stands in front
  of it is refused already;
* `unrecognised_metadata_inert_iff` — so this is exactly when it says nothing.

Design notes: members are read in the order in which they stand, so what the reader makes of a
schema with one more member hangs on the members in front of that one, and is then decided by the
member itself.  Inside a type every member has to be a text before anyone looks at its key.
-/
import ClassSchema.Proofs.Acceptance

namespace ClassSchema

/-! ### Beside the types -/

namespace Document

theorem readParts_append (members more : List (String × Json)) :
    readParts (members ++ more) =
      (do let ps ← readParts members; let qs ← readParts more; pure (ps ++ qs)) :=
  Except.steps_append (fun e : String × Json => readPart e.1 e.2) rfl (fun _ _ => rfl) members more

theorem ofParts_ignored (ps qs : List Part) :
    ofParts (ps ++ .ignored :: qs) = ofParts (ps ++ qs) := by
  simp [ofParts]

/-- Beside the types, unrecognised metadata is left out whatever it holds. -/
theorem ofJson_append_metadata {key : String} (hkey : isMetadataKey key = true)
    (hmeta : key ≠ "_meta") (note : Json) (before after : List (String × Json)) :
    ofJson (.obj (before ++ (key, note) :: after)) = ofJson (.obj (before ++ after)) := by
  have hpart : readPart key note = .ok .ignored := by
    rw [readPart, if_neg hmeta, if_pos hkey]
  have hcons : readParts ((key, note) :: after) =
      (do let qs ← readParts after; pure (.ignored :: qs)) := by
    rw [readParts, hpart]
    rfl
  rw [ofJson, ofJson, readParts_append, readParts_append, hcons]
  rcases readParts before with e | ps
  · rfl
  · rcases readParts after with e | qs
    · rfl
    · exact congrArg Except.ok (ofParts_ignored ps qs)

end Document

/-! ### Inside a type -/

namespace TypeDefinition

theorem readParts_append (type : String) (members more : List (String × Json)) :
    readParts type (members ++ more) =
      (do let ps ← readParts type members; let qs ← readParts type more; pure (ps ++ qs)) :=
  Except.steps_append (fun e : String × Json => readPart type e.1 e.2) rfl (fun _ _ => rfl) members
    more

theorem ofParts_ignored (name : Ident) (ps qs : List Part) :
    ofParts name (ps ++ .ignored :: qs) = ofParts name (ps ++ qs) := by
  simp [ofParts]

theorem readPart_of_no_text {note : Json} (h : note.text? = none) (type key : String) :
    readPart type key note = .error (.malformed (.token type key)) := by
  cases note with
  | str token => cases h
  | _ => rfl

theorem readPart_of_text {key : String} (hkey : isMetadataKey key = true)
    (hparent : key ≠ "_parent") (hany : key ≠ "_any") {note : Json} {token : String}
    (h : note.text? = some token) (type : String) : readPart type key note = .ok .ignored := by
  cases note with
  | str token => rw [readPart, if_neg hparent, if_neg hany, if_pos hkey]
  | _ => cases h

variable {type key : String} {inside : List (String × Json)}

/-- Reading a type stops at its first defect. -/
theorem ofMember_append_of_error {e : SchemaError}
    (h : ofMember type (.obj inside) = .error e) (more : List (String × Json)) :
    ofMember type (.obj (inside ++ more)) = .error e := by
  unfold ofMember at h ⊢
  split at h
  · exact h
  · dsimp only at h ⊢
    rw [readParts_append, Except.map_eq_error_iff.mp h]
    rfl

theorem ofMember_append_of_no_text {d : TypeDefinition} (h : ofMember type (.obj inside) = .ok d)
    {note : Json} (hnote : note.text? = none) (key : String) (rest : List (String × Json)) :
    ofMember type (.obj (inside ++ (key, note) :: rest)) =
      .error (.malformed (.token type key)) := by
  unfold ofMember at h ⊢
  split at h
  · cases h
  · dsimp only at h ⊢
    obtain ⟨ps, hps, -⟩ := Except.map_eq_ok_iff.mp h
    rw [readParts_append, hps, readParts, readPart_of_no_text hnote]
    rfl

/-- Unrecognised metadata that holds a text is left out. -/
theorem ofMember_append_of_text (hkey : isMetadataKey key = true) (hparent : key ≠ "_parent")
    (hany : key ≠ "_any") {note : Json} {token : String} (hnote : note.text? = some token)
    (type : String) (inside rest : List (String × Json)) :
    ofMember type (.obj (inside ++ (key, note) :: rest)) =
      ofMember type (.obj (inside ++ rest)) := by
  have hcons : readParts type ((key, note) :: rest) =
      (do let qs ← readParts type rest; pure (.ignored :: qs)) := by
    rw [readParts, readPart_of_text hkey hparent hany hnote]
    rfl
  unfold ofMember
  rcases Ident.parse type with defect | name
  · rfl
  · dsimp only
    rw [readParts_append, readParts_append, hcons]
    rcases readParts type inside with e | ps
    · rfl
    · rcases readParts type rest with e | qs
      · rfl
      · exact congrArg Except.ok (ofParts_ignored name ps qs)

/-- A type is refused for a token at a key only if it has the key. -/
theorem mem_keys_of_readParts {members : List (String × Json)} {owner : String}
    (h : readParts type members = .error (.malformed (.token owner key))) :
    owner = type ∧ key ∈ Entries.keys members := by
  induction members with
  | nil => cases h
  | cons e rest ih =>
    rcases hpart : readPart type e.1 e.2 with e' | part
    · rw [readParts, hpart] at h
      obtain rfl := Except.error.inj h
      obtain ⟨rfl, rfl⟩ : owner = type ∧ key = e.1 := by
        unfold readPart at hpart
        split at hpart
        · split_ifs at hpart
          split at hpart
          · cases hpart
          · cases hpart
        · cases hpart
          exact ⟨rfl, rfl⟩
      exact ⟨rfl, List.mem_cons_self⟩
    · rw [readParts, hpart] at h
      have hrest : readParts type rest = .error (.malformed (.token owner key)) := by
        rcases hrest : readParts type rest with e' | parts
        · rw [hrest] at h
          exact h
        · rw [hrest] at h
          cases h
      exact ⟨(ih hrest).1, List.mem_cons_of_mem _ (ih hrest).2⟩

theorem mem_keys_of_ofMember {body : Json} {owner : String}
    (h : ofMember type body = .error (.malformed (.token owner key))) :
    owner = type ∧ ∃ members, body = .obj members ∧ key ∈ Entries.keys members := by
  unfold ofMember at h
  split at h
  · cases h
  · split at h
    · next members =>
      obtain ⟨howner, hkey⟩ := mem_keys_of_readParts (Except.map_eq_error_iff.mp h)
      exact ⟨howner, members, rfl, hkey⟩
    · cases h

end TypeDefinition

namespace Document

/-- A schema is refused for a token of a type only if it has a member of that name. -/
theorem mem_keys_of_readParts {members : List (String × Json)} {owner key : String}
    (h : readParts members = .error (.malformed (.token owner key))) :
    owner ∈ Entries.keys members := by
  induction members with
  | nil => cases h
  | cons e rest ih =>
    rcases hpart : readPart e.1 e.2 with e' | part
    · rw [readParts, hpart] at h
      obtain rfl := Except.error.inj h
      suffices howner : owner = e.1 by
        rw [howner]
        exact List.mem_cons_self
      unfold readPart at hpart
      split_ifs at hpart
      · have hspace := Except.map_eq_error_iff.mp hpart
        unfold readNamespace at hspace
        split at hspace
        · split at hspace <;> cases hspace
        · cases hspace
      · exact (TypeDefinition.mem_keys_of_ofMember (Except.map_eq_error_iff.mp hpart)).1
    · rw [readParts, hpart] at h
      have hrest : readParts rest = .error (.malformed (.token owner key)) := by
        rcases hrest : readParts rest with e' | parts
        · rw [hrest] at h
          exact h
        · rw [hrest] at h
          cases h
      exact List.mem_cons_of_mem _ (ih hrest)

/-- What compilation refuses, it does not refuse for its form. -/
theorem compile_ne_malformed (options : Options) (doc : Document) (m : Malformation) :
    doc.compile options ≠ .error (.malformed m) := by
  intro h
  have hverdict := verdict_compileTypes (doc.scope options) doc.types
  rcases htypes : compileTypes (doc.scope options) doc.types with e | ds
  · rw [htypes] at hverdict
    obtain ⟨_, _, -, rfl⟩ := hverdict
    rw [compile, htypes] at h
    cases h
  · rw [compile_of_compileTypes htypes] at h
    rcases hcheck : checkInheritance ds with e | ⟨⟩
    · rw [hcheck] at h
      obtain rfl := Except.error.inj h
      unfold checkInheritance at hcheck
      split at hcheck
      · cases hcheck
      · cases hcheck
    · rw [hcheck] at h
      cases h

end Document

/-- A schema is refused for its form where it is read. -/
theorem Json.compileSchema_eq_malformed_iff {options : Options} {schema : Json} {m : Malformation} :
    schema.compileSchema options = .error (.malformed m) ↔
      Document.ofJson schema = .error (.malformed m) := by
  unfold compileSchema
  rcases Document.ofJson schema with e | doc
  · constructor
    · exact fun h => congrArg Except.error (Except.error.inj h)
    · exact fun h => congrArg Except.error (Except.error.inj h)
  · refine ⟨fun h => ?_, fun h => by cases h⟩
    exact absurd h (Document.compile_ne_malformed options doc m)

/-- A place between the members in the definition of a type. -/
structure Site where
  /-- The members of the schema in front of the type. -/
  before : List (String × Json)
  type : String
  /-- The members of the type in front of the place. -/
  inside : List (String × Json)
  /-- The members of the type behind the place. -/
  rest : List (String × Json)
  /-- The members of the schema behind the type. -/
  after : List (String × Json)

namespace Site

open Document

/-- The schema with some members in the definition of the type. -/
def around (s : Site) (members : List (String × Json)) : Json :=
  .obj (s.before ++ (s.type, .obj members) :: s.after)

/-- The schema with nothing at the place. -/
def schema (s : Site) : Json := s.around (s.inside ++ s.rest)

/-- The schema with one more member at the place. -/
def annotate (s : Site) (key : String) (note : Json) : Json :=
  s.around (s.inside ++ (key, note) :: s.rest)

/-- What stands in front of the place, as a schema of its own. -/
def lead (s : Site) : Json := .obj (s.before ++ [(s.type, .obj s.inside)])

variable {s : Site}

/-- The members in front of the type are read first, then the type, then the members behind it. -/
theorem ofJson_around (htype : isMetadataKey s.type = false) (members : List (String × Json)) :
    ofJson (s.around members) =
      (do
        let ps ← readParts s.before
        let d ← TypeDefinition.ofMember s.type (.obj members)
        let qs ← readParts s.after
        pure (ofParts (ps ++ .type d :: qs))) := by
  have hname : s.type ≠ "_meta" := by
    intro h
    rw [h] at htype
    cases htype
  rw [around, ofJson, readParts_append, readParts, readPart, if_neg hname, if_neg (by simp [htype])]
  rcases readParts s.before with e | ps
  · rfl
  · rcases TypeDefinition.ofMember s.type (.obj members) with e | d
    · rfl
    · rcases readParts s.after with e | qs
      · rfl
      · rfl

/-- What stands in front of a place is refused, or is read up to the place. -/
theorem lead_cases (htype : isMetadataKey s.type = false) :
    (∃ e, ofJson s.lead = .error e ∧
      ∀ more, ofJson (s.around (s.inside ++ more)) = .error e) ∨
    ∃ ps d, (∃ doc, ofJson s.lead = .ok doc) ∧ readParts s.before = .ok ps ∧
      TypeDefinition.ofMember s.type (.obj s.inside) = .ok d := by
  have hlead : ofJson s.lead =
      (do
        let ps ← readParts s.before
        let d ← TypeDefinition.ofMember s.type (.obj s.inside)
        pure (ofParts (ps ++ [.type d]))) :=
    ofJson_around (s := { s with after := [] }) htype s.inside
  rw [hlead]
  rcases hbefore : readParts s.before with e | ps
  · refine Or.inl ⟨e, rfl, fun more => ?_⟩
    rw [ofJson_around htype, hbefore]
    rfl
  · rcases hd : TypeDefinition.ofMember s.type (.obj s.inside) with e | d
    · refine Or.inl ⟨e, rfl, fun more => ?_⟩
      rw [ofJson_around htype, hbefore, TypeDefinition.ofMember_append_of_error hd]
      rfl
    · exact Or.inr ⟨ps, d, ⟨_, rfl⟩, rfl, rfl⟩

/-- Inside a type, unrecognised metadata is left out if it holds a text. -/
theorem ofJson_annotate_text (htype : isMetadataKey s.type = false) {key : String}
    (hkey : isMetadataKey key = true) (hparent : key ≠ "_parent") (hany : key ≠ "_any")
    {note : Json} {token : String} (hnote : note.text? = some token) :
    ofJson (s.annotate key note) = ofJson s.schema := by
  rw [annotate, schema, ofJson_around htype, ofJson_around htype,
    TypeDefinition.ofMember_append_of_text hkey hparent hany hnote]

/-- And else the schema is refused for it, where the place is reached at all. -/
theorem ofJson_annotate_of_ok (htype : isMetadataKey s.type = false)
    (hlead : ∃ doc, ofJson s.lead = .ok doc) {note : Json} (hnote : note.text? = none)
    (key : String) : ofJson (s.annotate key note) = .error (.malformed (.token s.type key)) := by
  rcases lead_cases htype with ⟨e, he, -⟩ | ⟨ps, d, -, hbefore, hd⟩
  · obtain ⟨doc, hdoc⟩ := hlead
    rw [he] at hdoc
    cases hdoc
  · rw [annotate, ofJson_around htype, hbefore,
      TypeDefinition.ofMember_append_of_no_text hd hnote]
    rfl

/-- Where the key is new, the schema is not refused for it without it. -/
theorem ofJson_schema_ne (htype : isMetadataKey s.type = false)
    (hlead : ∃ doc, ofJson s.lead = .ok doc) (hafter : s.type ∉ Entries.keys s.after)
    {key : String} (hnew : key ∉ Entries.keys (s.inside ++ s.rest)) :
    ofJson s.schema ≠ .error (.malformed (.token s.type key)) := by
  intro h
  rcases lead_cases htype with ⟨e, he, -⟩ | ⟨ps, d, -, hbefore, -⟩
  · obtain ⟨doc, hdoc⟩ := hlead
    rw [he] at hdoc
    cases hdoc
  · rw [schema, ofJson_around htype, hbefore] at h
    rcases hmember : TypeDefinition.ofMember s.type (.obj (s.inside ++ s.rest)) with e | d
    · rw [hmember] at h
      obtain rfl := Except.error.inj h
      obtain ⟨-, members, hmembers, hkey⟩ := TypeDefinition.mem_keys_of_ofMember hmember
      obtain rfl := Json.obj.inj hmembers
      exact hnew hkey
    · rw [hmember] at h
      rcases hrest : readParts s.after with e | qs
      · rw [hrest] at h
        obtain rfl := Except.error.inj h
        exact hafter (mem_keys_of_readParts hrest)
      · rw [hrest] at h
        cases h

end Site

/-! ### When metadata says nothing -/

open Document in
/-- **When unrecognised metadata says nothing.**  Beside the types it never does, whatever it holds:
the schema is read and compiled as without it, or refused for the same reason.  In the definition of
a type this is so exactly if it holds a text, or if what stands in front of it is refused already.
Otherwise the schema is refused for it, as if it were the token of a property. -/
theorem unrecognised_metadata_inert_iff {key : String} (hkey : isMetadataKey key = true)
    (note : Json) (options : Options) :
    (key ≠ "_meta" → ∀ before after : List (String × Json),
      ofJson (.obj (before ++ (key, note) :: after)) = ofJson (.obj (before ++ after)) ∧
      (Json.obj (before ++ (key, note) :: after)).compileSchema options =
        (Json.obj (before ++ after)).compileSchema options) ∧
    (key ≠ "_parent" → key ≠ "_any" → ∀ s : Site,
      isMetadataKey s.type = false → s.type ∉ Entries.keys s.after →
      key ∉ Entries.keys (s.inside ++ s.rest) →
      (ofJson (s.annotate key note) = ofJson s.schema ↔
        (∃ token, note = .str token) ∨ ∃ e, ofJson s.lead = .error e) ∧
      ((s.annotate key note).compileSchema options = s.schema.compileSchema options ↔
        (∃ token, note = .str token) ∨ ∃ e, ofJson s.lead = .error e) ∧
      ((∀ token, note ≠ .str token) → (∃ doc, ofJson s.lead = .ok doc) →
        ofJson (s.annotate key note) = .error (.malformed (.token s.type key)))) := by
  refine ⟨?beside, ?inside⟩
  case beside =>
    intro hmeta before after
    have hread := ofJson_append_metadata hkey hmeta note before after
    exact ⟨hread, by rw [Json.compileSchema, hread, ← Json.compileSchema]⟩
  case inside =>
    intro hparent hany s htype hafter hnew
    have hsame : (∃ token, note = .str token) ∨ (∃ e, ofJson s.lead = .error e) →
        ofJson (s.annotate key note) = ofJson s.schema := by
      rintro (⟨token, rfl⟩ | ⟨e, he⟩)
      · exact Site.ofJson_annotate_text htype hkey hparent hany rfl
      · rcases Site.lead_cases htype with ⟨e', -, hmore⟩ | ⟨ps, d, ⟨doc, hdoc⟩, -⟩
        · rw [Site.annotate, Site.schema, hmore, hmore]
        · rw [he] at hdoc
          cases hdoc
    -- where it is not left out it is what the schema is refused for, which it is not without it
    have hother : ¬ ((∃ token, note = .str token) ∨ ∃ e, ofJson s.lead = .error e) →
        ofJson (s.annotate key note) = .error (.malformed (.token s.type key)) ∧
          ofJson s.schema ≠ .error (.malformed (.token s.type key)) := by
      intro h
      obtain ⟨htext, hlead⟩ := not_or.mp h
      have hnote : note.text? = none := by
        cases note with
        | str token => exact absurd ⟨token, rfl⟩ htext
        | _ => rfl
      have hok : ∃ doc, ofJson s.lead = .ok doc := by
        rcases hread : ofJson s.lead with e | doc
        · exact absurd ⟨e, hread⟩ hlead
        · exact ⟨doc, rfl⟩
      exact ⟨Site.ofJson_annotate_of_ok htype hok hnote key,
        Site.ofJson_schema_ne htype hok hafter hnew⟩
    refine ⟨⟨fun h => ?_, hsame⟩, ⟨fun h => ?_, fun h => ?_⟩, ?_⟩
    · by_contra hnot
      obtain ⟨hrefused, hnever⟩ := hother hnot
      exact hnever (h ▸ hrefused)
    · by_contra hnot
      obtain ⟨hrefused, hnever⟩ := hother hnot
      rw [Json.compileSchema_eq_malformed_iff.mpr hrefused] at h
      exact hnever (Json.compileSchema_eq_malformed_iff.mp h.symm)
    · rw [Json.compileSchema, hsame h, ← Json.compileSchema]
    · rintro htext ⟨doc, hdoc⟩
      refine (hother ?_).1
      rintro (⟨token, rfl⟩ | ⟨e, he⟩)
      · exact htext token rfl
      · rw [hdoc] at he
        cases he

/-- A place in the definition of a type, between two properties, with another type behind it. -/
def shed : Site where
  before := [("_comment", .arr [])]
  type := "shed"
  inside := [("walls", .str "_int")]
  rest := [("doors", .str "_array[_string]")]
  after := [("house", .obj [("_parent", .str "shed")])]

/-- A text may be noted there, and a number may not. -/
theorem shed_takes_notes_as_text :
    Document.ofJson (shed.annotate "_note" (.str "by the lake")) = Document.ofJson shed.schema ∧
    (shed.annotate "_note" (.str "by the lake")).compileSchema {} = shed.schema.compileSchema {} ∧
    Document.ofJson (shed.annotate "_note" (.int 42)) =
      .error (.malformed (.token "shed" "_note")) := by
  have hshed := fun note => (@unrecognised_metadata_inert_iff "_note" (by decide) note {}).2
    (by decide) (by decide) shed (by decide) (by decide) (by decide)
  refine ⟨(hshed _).1.mpr (Or.inl ⟨_, rfl⟩), (hshed _).2.1.mpr (Or.inl ⟨_, rfl⟩), ?_⟩
  exact (hshed (.int 42)).2.2 (fun token h => by cases h) ⟨_, by with_unfolding_all rfl⟩

/-- The key of a note begins with an underscore and is none of those that say something, and still
a schema that compiles is refused for what the note holds. -/
theorem number_noted_in_shed :
    isMetadataKey "_note" = true ∧ "_note" ∉ ["_meta", "_parent", "_any"] ∧
    (∃ ds, shed.schema.compileSchema {} = .ok ds) ∧
    (shed.annotate "_note" (.int 42)).compileSchema {} =
      .error (.malformed (.token "shed" "_note")) := by
  exact ⟨by decide, by decide, ⟨_, by with_unfolding_all rfl⟩, by with_unfolding_all rfl⟩

end ClassSchema
