/-
The accessors that a compiled type lists, in their order.

* `Scope.ListsProperty`, `Scope.ListsAny` — the lines that tokens in a definition call for;
* `lists_of_compile` — a compiled type lists these lines, property by property, and then the one for
  its wildcard;
* `Descriptor.nodup_signature_names` — no name is listed twice;
* `Class.Flattens.accessor?_of_signature` — a class makes of a listed name what the list says;
* `Json.accessor_names_tell_their_meaning` — so it is with every schema that compiles.

Design notes: the lines are given by what the tokens spell, without a look at how tokens are
resolved or how signatures are put together.  Wildcards with elements of one name append under one
name, whatever the elements are, so a name tells the accessor but not the type of what it takes.
-/
import ClassSchema.Proofs.Acceptance
import ClassSchema.Proofs.AccessorName

namespace ClassSchema

/-! ### Lines -/

/-- An accessor as it is listed: its name, the accessor, and the type of what it takes or gives. -/
def Signature.line (s : Signature) : String × Accessor × SlotType :=
  (s.accessor.name, s.accessor, s.valueType)

namespace Scope

/-- What is listed for a property with its token: a line to read it, one to write it, and where it
holds a typed array one that takes an element. -/
inductive ListsProperty (scope : Scope) :
    Ident × String → List (String × Accessor × SlotType) → Prop where
  | slot {x : Ident} {token : String} {t : SlotType} : scope.Spells token.toList t →
      (∀ e, t ≠ .arrayOf e) →
      ListsProperty scope (x, token)
        [("get" ++ pascalCase x.text, ⟨.get, x.text⟩, t),
          ("set" ++ pascalCase x.text, ⟨.set, x.text⟩, t)]
  | array {x : Ident} {token : String} {e : SlotType} : scope.Spells token.toList (.arrayOf e) →
      ListsProperty scope (x, token)
        [("get" ++ pascalCase x.text, ⟨.get, x.text⟩, .arrayOf e),
          ("set" ++ pascalCase x.text, ⟨.set, x.text⟩, .arrayOf e),
          ("add" ++ pascalCase x.text, ⟨.add, x.text⟩, e)]

/-- What is listed for a wildcard: one line if there is a token, for what the slot or its elements
are. -/
inductive ListsAny (scope : Scope) :
    Option String → List (String × Accessor × SlotType) → Prop where
  | absent : ListsAny scope none []
  | slot {token : String} {t : SlotType} : scope.Spells token.toList t → (∀ e, t ≠ .arrayOf e) →
      ListsAny scope (some token)
        [("append" ++ pascalCase t.elementName, ⟨.append, t.elementName⟩, t)]
  | array {token : String} {e : SlotType} : scope.Spells token.toList (.arrayOf e) →
      ListsAny scope (some token)
        [("append" ++ pascalCase e.elementName, ⟨.append, e.elementName⟩, e)]

/-- What is listed for a definition: the lines of its properties, in their order, and then those of
its wildcard. -/
def Lists (scope : Scope) (definition : TypeDefinition)
    (lines : List (String × Accessor × SlotType)) : Prop :=
  ∃ groups last, lines = groups.flatten ++ last ∧
    List.Forall₂ scope.ListsProperty definition.properties groups ∧
    scope.ListsAny definition.any last

variable {scope : Scope} {token : String} {t : SlotType}

/-- The property keeps its name and gets the type that its token spells. -/
def SpellsProperty (scope : Scope) (p : Ident × String) (q : Ident × SlotType) : Prop :=
  q.1 = p.1 ∧ scope.Spells p.2.toList q.2

theorem listsProperty_of_spells (x : Ident) (h : scope.Spells token.toList t) :
    scope.ListsProperty (x, token)
      ((Descriptor.propertySignatures (x, t)).map Signature.line) := by
  cases t with
  | arrayOf e => exact .array h
  | primitive p => exact .slot h fun e he => by cases he
  | reference r => exact .slot h fun e he => by cases he

theorem listsAny_of_spells (h : scope.Spells token.toList t) :
    scope.ListsAny (some token) [(Descriptor.wildcardSignature t).line] := by
  cases t with
  | arrayOf e => exact .array h
  | primitive p => exact .slot h fun e he => by cases he
  | reference r => exact .slot h fun e he => by cases he

end Scope

/-! ### What compiled types list -/

variable {scope : Scope}

namespace TypeDefinition

theorem spells_of_compileProperties {owner : Ident} {properties : List (Ident × String)}
    {ps : List (Ident × SlotType)} (h : compileProperties scope owner properties = .ok ps) :
    List.Forall₂ scope.SpellsProperty properties ps := by
  induction properties generalizing ps with
  | nil =>
    obtain rfl := Except.ok.inj h
    exact .nil
  | cons p rest ih =>
    obtain ⟨t, ht, h⟩ := Except.bind_eq_ok_iff.mp h
    obtain ⟨ps', hrest, h⟩ := Except.bind_eq_ok_iff.mp h
    obtain rfl := Except.ok.inj h
    exact .cons ⟨rfl, compileToken_eq_ok_iff.mp ht⟩ (ih hrest)

theorem names_of_spells {properties : List (Ident × String)} {ps : List (Ident × SlotType)}
    (h : List.Forall₂ scope.SpellsProperty properties ps) :
    ps.map Prod.fst = properties.map Prod.fst := by
  induction h with
  | nil => rfl
  | cons hq _ ih => rw [List.map_cons, List.map_cons, hq.1, ih]

theorem listsProperty_of_forall₂ {properties : List (Ident × String)}
    {ps : List (Ident × SlotType)} (h : List.Forall₂ scope.SpellsProperty properties ps) :
    List.Forall₂ scope.ListsProperty properties
      (ps.map fun q => (Descriptor.propertySignatures q).map Signature.line) := by
  induction h with
  | nil => exact .nil
  | @cons p q _ _ hq _ ih =>
    obtain ⟨x, token⟩ := p
    obtain ⟨y, t⟩ := q
    obtain ⟨rfl, ht⟩ := hq
    exact .cons (Scope.listsProperty_of_spells y ht) ih

theorem listsAny_of_compileOptional {owner : Ident} {token : Option String}
    {wildcard : Option SlotType}
    (h : compileOptional (compileToken scope owner) token = .ok wildcard) :
    scope.ListsAny token
      ((wildcard.toList.map Descriptor.wildcardSignature).map Signature.line) := by
  rcases token with _ | token
  · obtain rfl := Except.ok.inj h
    exact .absent
  · obtain ⟨t, ht, rfl⟩ := Except.map_eq_ok_iff.mp h
    exact Scope.listsAny_of_spells (compileToken_eq_ok_iff.mp ht)

/-- A compiled type has the properties of its definition, and lists the lines that the tokens of the
definition call for. -/
theorem lists_of_compile {definition : TypeDefinition} {d : Descriptor}
    (h : definition.compile scope = .ok d) :
    d.name = definition.name ∧ d.properties.map Prod.fst = definition.properties.map Prod.fst ∧
      scope.Lists definition (d.signatures.map Signature.line) := by
  obtain ⟨parent, -, h⟩ := Except.bind_eq_ok_iff.mp h
  obtain ⟨wildcard, hwildcard, h⟩ := Except.bind_eq_ok_iff.mp h
  obtain ⟨properties, hproperties, h⟩ := Except.bind_eq_ok_iff.mp h
  obtain rfl := Except.ok.inj h
  have hspells := spells_of_compileProperties hproperties
  refine ⟨rfl, names_of_spells hspells, _, _, ?_, listsProperty_of_forall₂ hspells,
    listsAny_of_compileOptional hwildcard⟩
  rw [Descriptor.signatures, List.map_append, List.map_flatMap, List.flatMap_def]

end TypeDefinition

/-! ### Names in a list -/

namespace Descriptor

variable {d : Descriptor}

/-- The accessors of a property tell the property, and none of them appends. -/
theorem target_of_mem_propertySignatures {p : Ident × SlotType} {s : Signature}
    (h : s ∈ propertySignatures p) : s.accessor.target = p.1.text ∧ s.accessor.verb ≠ .append := by
  obtain ⟨x, t⟩ := p
  rcases mem_propertySignatures_iff.mp h with rfl | rfl | ⟨element, -, rfl⟩
  · exact ⟨rfl, Verb.noConfusion⟩
  · exact ⟨rfl, Verb.noConfusion⟩
  · exact ⟨rfl, Verb.noConfusion⟩

theorem nodup_propertySignatures (p : Ident × SlotType) :
    ((propertySignatures p).map Signature.accessor).Nodup := by
  obtain ⟨x, t⟩ := p
  cases t with
  | arrayOf e => simp [propertySignatures, SlotType.elementType?]
  | primitive p => simp [propertySignatures, SlotType.elementType?]
  | reference r => simp [propertySignatures, SlotType.elementType?]

/-- No accessor is listed twice where no property is declared twice. -/
theorem nodup_accessors (h : (d.properties.map Prod.fst).Nodup) :
    (d.signatures.map Signature.accessor).Nodup := by
  rw [signatures, List.map_append, List.map_flatMap]
  refine List.nodup_append.mpr ⟨List.nodup_flatMap.mpr ⟨?each, ?apart⟩, ?last, ?wildcard⟩
  case each => exact fun p _ => nodup_propertySignatures p
  case apart =>
    -- an accessor tells the property that it is for
    refine (List.pairwise_map.mp h).imp ?_
    intro p q hne a ha ha'
    obtain ⟨s, hs, rfl⟩ := List.mem_map.mp ha
    obtain ⟨s', hs', heq⟩ := List.mem_map.mp ha'
    apply hne
    apply Ident.text_injective
    rw [← (target_of_mem_propertySignatures hs).1, ← (target_of_mem_propertySignatures hs').1, heq]
  case last => cases d.wildcard <;> simp
  case wildcard =>
    -- the accessor of the wildcard appends, and that of no property does
    rintro a ha b hb rfl
    obtain ⟨p, -, ha⟩ := List.mem_flatMap.mp ha
    obtain ⟨s, hs, rfl⟩ := List.mem_map.mp ha
    obtain ⟨s', hs', heq⟩ := List.mem_map.mp hb
    obtain ⟨t, -, rfl⟩ := List.mem_map.mp hs'
    exact (target_of_mem_propertySignatures hs).2 (congrArg Accessor.verb heq.symm)

theorem callsFor_of_mem {s : Signature} (hs : s ∈ d.signatures) : d.CallsFor s.accessor :=
  exists_signature_iff.mp ⟨s, hs, rfl⟩

/-- Listed accessors of one name are the same, in one list as in two. -/
theorem eq_of_signature_name {e : Descriptor} {s s' : Signature} (hs : s ∈ d.signatures)
    (hs' : s' ∈ e.signatures) (h : s.accessor.name = s'.accessor.name) : s.accessor = s'.accessor :=
  (callsFor_of_mem hs).eq_of_name (callsFor_of_mem hs') h

/-- No name is listed twice where no property is declared twice. -/
theorem nodup_signature_names (h : (d.properties.map Prod.fst).Nodup) :
    (d.signatures.map fun s => s.accessor.name).Nodup := by
  have hmap : d.signatures.map (fun s => s.accessor.name) =
      (d.signatures.map Signature.accessor).map Accessor.name := by rw [List.map_map]; rfl
  rw [hmap]
  -- accessors of one name are the same, and none is listed twice
  refine List.Nodup.map_on ?_ (nodup_accessors h)
  intro a ha b hb heq
  obtain ⟨s, hs, rfl⟩ := List.mem_map.mp ha
  obtain ⟨s', hs', rfl⟩ := List.mem_map.mp hb
  exact eq_of_signature_name hs hs' heq

/-- A listed name is read back as the accessor, unless that appends. -/
theorem ofName?_of_mem {s : Signature} (hs : s ∈ d.signatures) :
    Accessor.ofName? s.accessor.name =
      if s.accessor.verb = .append then none else some s.accessor := by
  obtain ⟨x, hx⟩ := (callsFor_of_mem hs).exists_ident
  have haccessor : s.accessor = ⟨s.accessor.verb, x.text⟩ := by rw [hx]
  rw [haccessor, Accessor.ofName?_name]

end Descriptor

/-- A class makes of a name on its chain what the list says that has it. -/
theorem Class.Flattens.accessor?_of_signature {c : Class} {chain : List Descriptor}
    (h : c.Flattens chain) (hkeys : (Entries.keys c.dispatch).Nodup) {d : Descriptor}
    (hd : d ∈ chain) {s : Signature} (hs : s ∈ d.signatures) :
    c.accessor? s.accessor.name = some s.accessor :=
  (h.accessor?_eq_some_iff hkeys).mpr (Or.inl ⟨rfl, d, hd, Descriptor.callsFor_of_mem hs⟩)

/-! ### Schemas -/

namespace Json

variable {options : Options} {schema : Json} {ds : List Descriptor}

theorem lists_of_compileSchema (h : schema.compileSchema options = .ok ds) :
    ∃ doc, Document.ofJson schema = .ok doc ∧
      List.Forall₂ (fun definition d => d.name = definition.name ∧
        d.properties.map Prod.fst = definition.properties.map Prod.fst ∧
        (doc.scope options).Lists definition (d.signatures.map Signature.line)) doc.types ds := by
  obtain ⟨doc, hdoc, hcompile⟩ := compileSchema_eq_ok_iff.mp h
  obtain ⟨htypes, -⟩ := Document.compileTypes_of_compile hcompile
  have hsteps := Except.forall₂_of_steps (TypeDefinition.compile (doc.scope options)) htypes rfl
    fun _ _ => rfl
  exact ⟨doc, hdoc, hsteps.imp fun _ _ => TypeDefinition.lists_of_compile⟩

/-- No property of a compiled type is declared twice where no object repeats a key. -/
theorem nodup_properties_of_compileSchema (hkeyed : schema.Keyed)
    (h : schema.compileSchema options = .ok ds) {d : Descriptor} (hd : d ∈ ds) :
    (d.properties.map Prod.fst).Nodup := by
  obtain ⟨doc, hdoc, hlists⟩ := lists_of_compileSchema h
  obtain ⟨definition, hdefinition, -, hnames, -⟩ := hlists.flip.exists_of_mem hd
  rw [hnames]
  exact Document.nodup_properties hkeyed hdoc hdefinition

/-- **The names of accessors tell their meaning.**  A compiled type lists, in the order of its
properties, an accessor to read each and one to write it, one that takes an element exactly where
the property holds a typed array, and at the end one that appends exactly if the type says what
properties that are not declared may hold.  No name is listed twice.  A listed name is read back as
the accessor that has it, and names of appenders are read as none.  In all lists that there are, one
name is for one accessor; so a class makes of a name that is listed anywhere on its chain what that
list says, whatever stands in between. -/
theorem accessor_names_tell_their_meaning (hkeyed : schema.Keyed)
    (h : schema.compileSchema options = .ok ds) :
    (∃ doc, Document.ofJson schema = .ok doc ∧
      List.Forall₂ (fun definition d => d.name = definition.name ∧
        (doc.scope options).Lists definition (d.signatures.map Signature.line)) doc.types ds) ∧
    (∀ d ∈ ds, (d.signatures.map fun s => s.accessor.name).Nodup) ∧
    (∀ d ∈ ds, ∀ s ∈ d.signatures, Accessor.ofName? s.accessor.name =
      if s.accessor.verb = .append then none else some s.accessor) ∧
    (∀ d e : Descriptor, ∀ s ∈ d.signatures, ∀ s' ∈ e.signatures,
      s.accessor.name = s'.accessor.name → s.accessor = s'.accessor) ∧
    ∀ es r, Registry.link es = .ok r → ∀ c ∈ r.classes, ∃ chain,
      ParentChain es c.descriptor chain ∧ ∀ d ∈ chain, ∀ s ∈ d.signatures,
        c.accessor? s.accessor.name = some s.accessor := by
  refine ⟨?lists, ?nodup, ?parsed, ?apart, ?linked⟩
  case lists =>
    obtain ⟨doc, hdoc, hlists⟩ := lists_of_compileSchema h
    exact ⟨doc, hdoc, hlists.imp fun _ _ ⟨hname, _, hlines⟩ => ⟨hname, hlines⟩⟩
  case nodup =>
    exact fun d hd => Descriptor.nodup_signature_names
      (nodup_properties_of_compileSchema hkeyed h hd)
  case parsed => exact fun d _ s hs => Descriptor.ofName?_of_mem hs
  case apart => exact fun d e s hs s' hs' => Descriptor.eq_of_signature_name hs hs'
  case linked =>
    intro es r hr c hc
    obtain ⟨chain, hchain, -, hflattens, hkeys⟩ := Registry.exists_flattens hr hc
    exact ⟨chain, hchain, fun d hd s hs => hflattens.accessor?_of_signature hkeys hd hs⟩

/-- A type that is named as a built-in kind, one that appends instances of it, and one that appends
values of the kind. -/
def namesakes : Json :=
  .obj [("string", .obj []),
    ("harp", .obj [("_any", .str "array[string]"), ("tuned_to", .str "array[_int]")]),
    ("score", .obj [("_any", .str "_string"), ("add_on", .str "harp")])]

theorem keyed_namesakes : namesakes.Keyed := by
  have hstring : Keyed (.obj []) := .obj List.nodup_nil fun _ h => absurd h List.not_mem_nil
  have htype : ∀ {key token key' token' : String}, key ≠ key' →
      Keyed (.obj [(key, .str token), (key', .str token')]) := by
    intro key token key' token' hne
    refine .obj (List.nodup_cons.mpr ⟨by simpa using hne, List.nodup_singleton _⟩) ?_
    exact List.forall_mem_cons.mpr ⟨.str _, List.forall_mem_singleton.mpr (.str _)⟩
  refine .obj (by decide) ?_
  exact List.forall_mem_cons.mpr ⟨hstring, List.forall_mem_cons.mpr
    ⟨htype (by decide), List.forall_mem_singleton.mpr (htype (by decide))⟩⟩

/-- The two appenders go by one name, and take different things. -/
theorem namesakes_append_under_one_name :
    namesakes.Keyed ∧ ∃ ds, namesakes.compileSchema {} = .ok ds ∧
      ds.map (fun d => d.signatures.map fun s => (s.accessor.name, s.valueType.docName)) =
        [[], [("getTunedTo", "int[]"), ("setTunedTo", "int[]"), ("addTunedTo", "int"),
            ("appendString", "String")],
          [("getAddOn", "Harp"), ("setAddOn", "Harp"), ("appendString", "string")]] ∧
      (∀ d ∈ ds, (d.signatures.map fun s => s.accessor.name).Nodup) ∧
      ∀ d ∈ ds, ∀ e ∈ ds, ∀ s ∈ d.signatures, ∀ s' ∈ e.signatures,
        s.accessor.name = s'.accessor.name → s.accessor = s'.accessor := by
  have hcompile : ∃ ds, namesakes.compileSchema {} = .ok ds ∧
      ds.map (fun d => d.signatures.map fun s => (s.accessor.name, s.valueType.docName)) =
        [[], [("getTunedTo", "int[]"), ("setTunedTo", "int[]"), ("addTunedTo", "int"),
            ("appendString", "String")],
          [("getAddOn", "Harp"), ("setAddOn", "Harp"), ("appendString", "string")]] :=
    ⟨_, by with_unfolding_all rfl, by with_unfolding_all rfl⟩
  obtain ⟨ds, hds, hlines⟩ := hcompile
  obtain ⟨-, hnodup, -, hapart, -⟩ := accessor_names_tell_their_meaning keyed_namesakes hds
  exact ⟨keyed_namesakes, ds, hds, hlines, hnodup, fun d _ e _ => hapart d e⟩

end Json
end ClassSchema
