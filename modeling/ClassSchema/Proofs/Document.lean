/-
The tokens of a schema, read off its tree.

* `Json.declaredNames` — the names of the types that a tree declares;
* `Json.mentions` — the tokens in their definitions: type by type, first the parent, then the
  wildcard, then the properties;
* `names_of_ofJson`, `mentions_of_ofJson` — the document of a tree has just these names and tokens;
* `nodup_declaredNames_of_ofSource` — a tree that is read from a file declares no type twice;
* `nodup_properties` — and where no object repeats a key, no definition declares a property twice.

Design notes: where the keys for the parent and the wildcard stand among the members of a definition
says nothing about the order of the tokens.
-/
import Mathlib.Data.List.Nodup
import ClassSchema.Proofs.Ident
import ClassSchema.Proofs.Json.Keyed

namespace ClassSchema

/-- What a token is there for. -/
inductive Role where
  /-- To name the parent of a type. -/
  | parent
  /-- To write what properties may hold. -/
  | slot
deriving DecidableEq

/-- A token in the definition of a type. -/
structure Mention where
  owner : String
  role : Role
  token : String
deriving DecidableEq

/-! ### Tokens of a tree -/

namespace Json

/-- The members of an object that are no metadata. -/
def proper (members : List (String × Json)) : List (String × Json) :=
  members.filter fun e => !isMetadataKey e.1

theorem proper_cons_of_metadata {key : String} (h : isMetadataKey key = true) (j : Json)
    (rest : List (String × Json)) : proper ((key, j) :: rest) = proper rest :=
  List.filter_cons_of_neg (by simp [h])

theorem proper_cons {key : String} (h : isMetadataKey key = false) (j : Json)
    (rest : List (String × Json)) : proper ((key, j) :: rest) = (key, j) :: proper rest :=
  List.filter_cons_of_pos (by simp [h])

/-- The tokens in the definition of a type. -/
def mentionsOf (owner : String) (members : List (String × Json)) : List Mention :=
  (((Entries.get? "_parent" members).bind text?).toList.map fun token => ⟨owner, .parent, token⟩) ++
  (((Entries.get? "_any" members).bind text?).toList.map fun token => ⟨owner, .slot, token⟩) ++
  (proper members).filterMap fun e => (text? e.2).map fun token => ⟨owner, .slot, token⟩

/-- The tokens in the definitions of a schema. -/
def mentions : Json → List Mention
  | obj members => (proper members).flatMap fun e =>
    match e.2 with
    | obj body => mentionsOf e.1 body
    | _ => []
  | _ => []

/-- The names of the types that a schema declares. -/
def declaredNames : Json → List String
  | obj members => Entries.keys (proper members)
  | _ => []

end Json

/-! ### Tokens of a document -/

/-- The tokens in a definition. -/
def TypeDefinition.mentions (d : TypeDefinition) : List Mention :=
  (d.parent.toList.map fun token => ⟨d.name.text, .parent, token⟩) ++
  (d.any.toList.map fun token => ⟨d.name.text, .slot, token⟩) ++
  d.properties.map fun p => ⟨d.name.text, .slot, p.2⟩

namespace TypeDefinition

/-- What the members of a definition are read as. -/
inductive Part.Of : String × Json → Part → Prop where
  | parent (token : String) : Of ("_parent", .str token) (.parent token)
  | any (token : String) : Of ("_any", .str token) (.any token)
  | ignored {key : String} (token : String) : key ≠ "_parent" → key ≠ "_any" →
      isMetadataKey key = true → Of (key, .str token) .ignored
  | property {x : Ident} (token : String) : isMetadataKey x.text = false →
      Of (x.text, .str token) (.property x token)

theorem of_readPart {type key : String} {j : Json} {part : Part}
    (h : readPart type key j = .ok part) : Part.Of (key, j) part := by
  unfold readPart at h
  split at h
  · next token =>
    split_ifs at h with hparent hany hmeta
    · obtain rfl := Except.ok.inj h
      rw [hparent]
      exact .parent token
    · obtain rfl := Except.ok.inj h
      rw [hany]
      exact .any token
    · obtain rfl := Except.ok.inj h
      exact .ignored token hparent hany hmeta
    · split at h
      · next x hx =>
        obtain rfl := Except.ok.inj h
        obtain rfl := Ident.parse_eq_ok_iff.mp hx
        exact .property token (by simpa using hmeta)
      · cases h
  · cases h

theorem of_readParts {type : String} {members : List (String × Json)} {parts : List Part}
    (h : readParts type members = .ok parts) : List.Forall₂ Part.Of members parts := by
  have hsteps := Except.forall₂_of_steps (fun e => readPart type e.1 e.2) h rfl fun _ _ => rfl
  exact hsteps.imp fun _ _ => of_readPart

variable {members : List (String × Json)} {parts : List Part} (name : Ident)

/-- What is found among the parts is what stands at a key, if only the member at the key is read as
such a part. -/
theorem findSome?_parts {key : String} {f : Part → Option String}
    (hf : ∀ {e part}, Part.Of e part → f part = if e.1 = key then Json.text? e.2 else none)
    (h : List.Forall₂ Part.Of members parts) :
    parts.findSome? f = (Entries.get? key members).bind Json.text? := by
  induction h with
  | nil => rfl
  | @cons e part _ _ hpart _ ih =>
    rw [List.findSome?_cons, hf hpart, Entries.get?_cons]
    by_cases hkey : e.1 = key
    · rw [if_pos hkey, if_pos hkey]
      cases hpart <;> rfl
    · rw [if_neg hkey, if_neg hkey]
      exact ih

theorem parent_ofParts (h : List.Forall₂ Part.Of members parts) :
    (ofParts name parts).parent = (Entries.get? "_parent" members).bind Json.text? := by
  refine findSome?_parts (fun hpart => ?_) h
  cases hpart with
  | parent token => rfl
  | any token => rfl
  | ignored token hkey _ _ => rw [if_neg hkey]
  | @property x token hx =>
    have hkey : x.text ≠ "_parent" := fun h => by rw [h] at hx; cases hx
    rw [if_neg hkey]

theorem any_ofParts (h : List.Forall₂ Part.Of members parts) :
    (ofParts name parts).any = (Entries.get? "_any" members).bind Json.text? := by
  refine findSome?_parts (fun hpart => ?_) h
  cases hpart with
  | parent token => rfl
  | any token => rfl
  | ignored token _ hkey _ => rw [if_neg hkey]
  | @property x token hx =>
    have hkey : x.text ≠ "_any" := fun h => by rw [h] at hx; cases hx
    rw [if_neg hkey]

theorem properties_ofParts (h : List.Forall₂ Part.Of members parts) :
    (ofParts name parts).properties.map Prod.snd =
      (Json.proper members).filterMap fun e => Json.text? e.2 := by
  induction h with
  | nil => rfl
  | cons hpart _ ih =>
    cases hpart with
    | parent token => rw [Json.proper_cons_of_metadata (by decide)]; exact ih
    | any token => rw [Json.proper_cons_of_metadata (by decide)]; exact ih
    | ignored token _ _ hmeta => rw [Json.proper_cons_of_metadata hmeta]; exact ih
    | @property x token hx =>
      rw [Json.proper_cons hx]
      exact congrArg (token :: ·) ih

/-- The properties of a definition are the members that are no metadata. -/
theorem names_ofParts (h : List.Forall₂ Part.Of members parts) :
    (ofParts name parts).properties.map (fun p => p.1.text) =
      Entries.keys (Json.proper members) := by
  induction h with
  | nil => rfl
  | cons hpart _ ih =>
    cases hpart with
    | parent token => rw [Json.proper_cons_of_metadata (by decide)]; exact ih
    | any token => rw [Json.proper_cons_of_metadata (by decide)]; exact ih
    | ignored token _ _ hmeta => rw [Json.proper_cons_of_metadata hmeta]; exact ih
    | @property x token hx =>
      rw [Json.proper_cons hx]
      exact congrArg (x.text :: ·) ih

/-- The tokens of a definition are those of the members that it is read from. -/
theorem mentions_ofParts (h : List.Forall₂ Part.Of members parts) :
    (ofParts name parts).mentions = Json.mentionsOf name.text members := by
  have hproperties : (ofParts name parts).properties.map
        (fun p => (⟨name.text, .slot, p.2⟩ : Mention)) =
      (Json.proper members).filterMap fun e =>
        (Json.text? e.2).map fun token => ⟨name.text, .slot, token⟩ := by
    rw [← List.map_filterMap, ← properties_ofParts name h, List.map_map]
    rfl
  rw [mentions, Json.mentionsOf, parent_ofParts name h, any_ofParts name h]
  exact congrArg _ hproperties

end TypeDefinition

/-! ### Documents -/

namespace Document

/-- What the members of a schema are read as. -/
inductive Part.Of : String × Json → Part → Prop where
  | metadata {key : String} (body : Json) {part : Part} : isMetadataKey key = true →
      (∀ d, part ≠ .type d) → Of (key, body) part
  | type {x : Ident} {members : List (String × Json)} {parts : List TypeDefinition.Part} :
      isMetadataKey x.text = false → List.Forall₂ TypeDefinition.Part.Of members parts →
      Of (x.text, .obj members) (.type (.ofParts x parts))

theorem of_readPart {key : String} {body : Json} {part : Part} (h : readPart key body = .ok part) :
    Part.Of (key, body) part := by
  unfold readPart at h
  split_ifs at h with hnamespace hmeta
  · refine .metadata body (by rw [hnamespace]; decide) ?_
    rintro d rfl
    obtain ⟨path, -, hpart⟩ := Except.map_eq_ok_iff.mp h
    cases hpart
  · obtain rfl := Except.ok.inj h
    exact .metadata body hmeta fun d => by simp
  · obtain ⟨d, hd, rfl⟩ := Except.map_eq_ok_iff.mp h
    unfold TypeDefinition.ofMember at hd
    split at hd
    · cases hd
    · next x hx =>
      obtain rfl := Ident.parse_eq_ok_iff.mp hx
      split at hd
      · next members =>
        obtain ⟨parts, hparts, rfl⟩ := Except.map_eq_ok_iff.mp hd
        exact .type (by simpa using hmeta) (TypeDefinition.of_readParts hparts)
      · cases hd

theorem of_readParts {members : List (String × Json)} {parts : List Part}
    (h : readParts members = .ok parts) : List.Forall₂ Part.Of members parts := by
  have hsteps := Except.forall₂_of_steps (fun e => readPart e.1 e.2) h rfl fun _ _ => rfl
  exact hsteps.imp fun _ _ => of_readPart

theorem parts_of_ofJson {schema : Json} {doc : Document} (h : ofJson schema = .ok doc) :
    ∃ members parts, schema = .obj members ∧ doc = ofParts parts ∧
      List.Forall₂ Part.Of members parts := by
  cases schema with
  | obj members =>
    obtain ⟨parts, hparts, hdoc⟩ := Except.map_eq_ok_iff.mp h
    exact ⟨members, parts, rfl, hdoc.symm, of_readParts hparts⟩
  | _ => cases h

/-- What metadata is read as is left out of the types. -/
theorem types_of_metadata {part : Part} (h : ∀ d, part ≠ .type d) (parts : List Part) :
    (ofParts (part :: parts)).types = (ofParts parts).types := by
  cases part with
  | type d => exact absurd rfl (h d)
  | namespacePath path => rfl
  | ignored => rfl

/-- The types of a document are the members of its tree that are no metadata. -/
theorem names_of_ofJson {schema : Json} {doc : Document} (h : ofJson schema = .ok doc) :
    doc.typeNames.map Ident.text = schema.declaredNames := by
  obtain ⟨members, parts, rfl, rfl, hparts⟩ := parts_of_ofJson h
  clear h
  induction hparts with
  | nil => rfl
  | cons hpart _ ih =>
    rw [typeNames, Json.declaredNames] at *
    cases hpart with
    | metadata body hmeta hpart =>
      rw [types_of_metadata hpart, Json.proper_cons_of_metadata hmeta, ih]
    | @type x members parts hx _ =>
      rw [Json.proper_cons hx]
      exact congrArg (x.text :: ·) ih

/-- The tokens of a document are those of its tree, in the same order. -/
theorem mentions_of_ofJson {schema : Json} {doc : Document} (h : ofJson schema = .ok doc) :
    doc.types.flatMap TypeDefinition.mentions = schema.mentions := by
  obtain ⟨members, parts, rfl, rfl, hparts⟩ := parts_of_ofJson h
  clear h
  induction hparts with
  | nil => rfl
  | cons hpart _ ih =>
    rw [Json.mentions] at *
    cases hpart with
    | metadata body hmeta hpart =>
      rw [types_of_metadata hpart, Json.proper_cons_of_metadata hmeta, ih]
    | @type x members parts hx hparts =>
      rw [Json.proper_cons hx, List.flatMap_cons, ← ih]
      exact congrArg (· ++ _) (TypeDefinition.mentions_ofParts x hparts)

end Document

/-! ### Trees that repeat no key -/

namespace Json

theorem nodup_keys_proper {members : List (String × Json)} (h : (Entries.keys members).Nodup) :
    (Entries.keys (proper members)).Nodup :=
  h.sublist (List.filter_sublist.map Prod.fst)

theorem nodup_declaredNames {members : List (String × Json)} (h : (Entries.keys members).Nodup) :
    (obj members).declaredNames.Nodup :=
  nodup_keys_proper h

theorem Keyed.nodup_declaredNames {j : Json} (h : j.Keyed) : j.declaredNames.Nodup := by
  cases h with
  | obj hkeys _ => exact Json.nodup_declaredNames hkeys
  | _ => exact List.nodup_nil

/-- A tree that is read from a file declares no type twice. -/
theorem nodup_declaredNames_of_ofSource {path : String} {content : Option ByteArray}
    {schema : Json} (h : ofSource path content = .ok schema) : schema.declaredNames.Nodup :=
  (keyed_of_ofSource h).nodup_declaredNames

end Json

namespace Document

/-- Where no object repeats a key, no type is declared twice. -/
theorem nodup_typeNames {schema : Json} (hkeyed : schema.Keyed) {doc : Document}
    (h : ofJson schema = .ok doc) : doc.typeNames.Nodup := by
  have hnames := hkeyed.nodup_declaredNames
  rw [← names_of_ofJson h] at hnames
  exact hnames.of_map _

theorem exists_member_of_mem_types {members : List (String × Json)} {parts : List Part}
    (h : List.Forall₂ Part.Of members parts) {d : TypeDefinition}
    (hd : d ∈ (ofParts parts).types) : ∃ e ∈ members, Part.Of e (.type d) := by
  induction h with
  | nil => exact absurd hd List.not_mem_nil
  | @cons e part members' parts' hpart _ ih =>
    have hrest : d ∈ (ofParts parts').types → ∃ e' ∈ e :: members', Part.Of e' (.type d) := by
      intro hd
      obtain ⟨e', he', hof⟩ := ih hd
      exact ⟨e', List.mem_cons_of_mem e he', hof⟩
    cases part with
    | type d' =>
      rcases List.mem_cons.mp hd with rfl | hd
      · exact ⟨e, List.mem_cons_self, hpart⟩
      · exact hrest hd
    | namespacePath path => exact hrest hd
    | ignored => exact hrest hd

/-- And no property is declared twice in one definition. -/
theorem nodup_properties {schema : Json} (hkeyed : schema.Keyed) {doc : Document}
    (h : ofJson schema = .ok doc) {d : TypeDefinition} (hd : d ∈ doc.types) :
    (d.properties.map Prod.fst).Nodup := by
  obtain ⟨members, parts, rfl, rfl, hparts⟩ := parts_of_ofJson h
  obtain ⟨e, he, hof⟩ := exists_member_of_mem_types hparts hd
  have hnames : (d.properties.map fun p => p.1.text).Nodup := by
    generalize hpart : Part.type d = part at hof
    cases hof with
    | metadata body _ hnot => exact absurd hpart.symm (hnot d)
    | @type x body inner _ hinner =>
      obtain rfl := Part.type.inj hpart
      rw [TypeDefinition.names_ofParts x hinner]
      cases hkeyed with
      | obj _ hmembers =>
        cases hmembers _ he with
        | obj hkeys _ => exact Json.nodup_keys_proper hkeys
  rw [show (fun p : Ident × String => p.1.text) = Ident.text ∘ Prod.fst from rfl,
    ← List.map_map] at hnames
  exact hnames.of_map _

end Document
end ClassSchema
