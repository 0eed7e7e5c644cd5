/-
What compiled types refer to.

* `SlotType.Refers`, `Descriptor.References` — the declared types that a slot, or a descriptor, has
  in it;
* `offers_of_compile` — what a compiled type refers to is declared, and qualified by the namespace
  of the schema;
* `qualify_injective` — no two types are qualified alike;
* `references_resolve` — every reference leads to just one descriptor, under its qualified name.

Design notes: a reference gets its qualified name where its token is resolved, and a descriptor gets
one where its definition is compiled.  The two agree since both come from the name of the type and
the namespace of the schema, and the class name of a type tells the type.
-/
import ClassSchema.Proofs.Acceptance
import ClassSchema.Proofs.AccessorTable
import ClassSchema.Store.Instance

namespace ClassSchema

/-! ### References -/

/-- A type of slots has a declared type in it, itself or as the type of elements. -/
inductive SlotType.Refers : SlotType → ClassRef → Prop where
  | reference (r : ClassRef) : Refers (.reference r) r
  | arrayOf {t : SlotType} {r : ClassRef} : Refers t r → Refers (.arrayOf t) r

/-- A descriptor has a declared type in it: as its parent, in a property, in its wildcard, or in the
type of what an accessor takes or gives. -/
inductive Descriptor.References (d : Descriptor) : ClassRef → Prop where
  | parent {r : ClassRef} : d.parent = some r → References d r
  | property {x : Ident} {t : SlotType} {r : ClassRef} : (x, t) ∈ d.properties → t.Refers r →
      References d r
  | wildcard {t : SlotType} {r : ClassRef} : d.wildcard = some t → t.Refers r → References d r
  | accessor {s : Signature} {r : ClassRef} : s ∈ d.signatures → s.valueType.Refers r →
      References d r

/-- A schema can refer to a type in this way: the type is declared, under the namespace. -/
def Scope.Offers (scope : Scope) (r : ClassRef) : Prop :=
  ∃ x ∈ scope.declared, r = scope.home.refer x

theorem SlotType.refers_of_element {t : SlotType} {r : ClassRef} (h : t.element.Refers r) :
    t.Refers r := by
  cases t with
  | arrayOf t => exact .arrayOf h
  | primitive p => exact h
  | reference r' => exact h

/-- What an accessor takes or gives is the type of a slot, or that of its elements. -/
theorem Descriptor.exists_slot_of_signature {d : Descriptor} {s : Signature} {r : ClassRef}
    (hs : s ∈ d.signatures) (hr : s.valueType.Refers r) :
    (∃ x t, (x, t) ∈ d.properties ∧ t.Refers r) ∨ ∃ t, d.wildcard = some t ∧ t.Refers r := by
  rcases List.mem_append.mp hs with hs | hs
  · obtain ⟨⟨x, t⟩, hx, hs⟩ := List.mem_flatMap.mp hs
    rcases mem_propertySignatures_iff.mp hs with rfl | rfl | ⟨element, rfl, rfl⟩
    · exact Or.inl ⟨x, t, hx, hr⟩
    · exact Or.inl ⟨x, t, hx, hr⟩
    · exact Or.inl ⟨x, .arrayOf element, hx, .arrayOf hr⟩
  · obtain ⟨t, ht, rfl⟩ := List.mem_map.mp hs
    exact Or.inr ⟨t, Option.mem_toList.mp ht, SlotType.refers_of_element hr⟩

/-! ### What compiled types refer to -/

variable {scope : Scope}

theorem Scope.Spells.offers {s : List Char} {t : SlotType} (h : scope.Spells s t) {r : ClassRef}
    (hr : t.Refers r) : scope.Offers r := by
  induction h with
  | padded _ _ _ ih => exact ih hr
  | primitive p _ => cases hr
  | array _ _ ih =>
    cases hr with
    | arrayOf hr => exact ih hr
  | reference hx =>
    cases hr with
    | reference => exact ⟨_, hx, rfl⟩

namespace TypeDefinition

theorem exists_token_of_compileOptional {α : Type} {compile : String → Except SchemaError α}
    {token : Option String} {a : α} (h : compileOptional compile token = .ok (some a)) :
    ∃ token, compile token = .ok a := by
  rcases token with _ | token
  · cases h
  · obtain ⟨a', ha, hsome⟩ := Except.map_eq_ok_iff.mp h
    obtain rfl := Option.some.inj hsome
    exact ⟨token, ha⟩

theorem exists_token_of_compileProperties {owner : Ident} {properties : List (Ident × String)}
    {ps : List (Ident × SlotType)} (h : compileProperties scope owner properties = .ok ps)
    {x : Ident} {t : SlotType} (hx : (x, t) ∈ ps) :
    ∃ token, compileToken scope owner token = .ok t := by
  induction properties generalizing ps with
  | nil =>
    obtain rfl := Except.ok.inj h
    cases hx
  | cons p rest ih =>
    obtain ⟨u, hu, h⟩ := Except.bind_eq_ok_iff.mp h
    obtain ⟨ps', hrest, h⟩ := Except.bind_eq_ok_iff.mp h
    obtain rfl := Except.ok.inj h
    rcases List.mem_cons.mp hx with heq | hx
    · obtain ⟨-, rfl⟩ := Prod.mk.inj heq
      exact ⟨p.2, hu⟩
    · exact ih hrest hx

theorem offers_of_compileToken {owner : Ident} {token : String} {t : SlotType}
    (h : compileToken scope owner token = .ok t) {r : ClassRef} (hr : t.Refers r) :
    scope.Offers r :=
  (compileToken_eq_ok_iff.mp h).offers hr

theorem offers_of_compileParent {owner : Ident} {token : String} {r : ClassRef}
    (h : compileParent scope owner token = .ok r) : scope.Offers r := by
  unfold compileParent at h
  dsimp only at h
  split at h
  · next r' hr =>
    obtain rfl := Except.ok.inj h
    obtain ⟨x, hx, -, hrefer⟩ := Scope.reference?_eq_some_iff.mp hr
    exact ⟨x, hx, hrefer⟩
  · cases h

/-- A compiled type refers to declared types alone, and its own qualified name is its name under the
namespace. -/
theorem offers_of_compile {definition : TypeDefinition} {d : Descriptor}
    (h : definition.compile scope = .ok d) :
    d.qualified = scope.home.qualify d.name ∧ ∀ r, d.References r → scope.Offers r := by
  obtain ⟨parent, hparent, h⟩ := Except.bind_eq_ok_iff.mp h
  obtain ⟨wildcard, hwildcard, h⟩ := Except.bind_eq_ok_iff.mp h
  obtain ⟨properties, hproperties, h⟩ := Except.bind_eq_ok_iff.mp h
  obtain rfl := Except.ok.inj h
  -- the parent, the wildcard and the properties come from tokens, and accessors add nothing
  have hslot : ∀ {x t r}, (x, t) ∈ properties → t.Refers r → scope.Offers r := by
    intro x t r hx hr
    obtain ⟨token, htoken⟩ := exists_token_of_compileProperties hproperties hx
    exact offers_of_compileToken htoken hr
  have hany : ∀ {t r}, wildcard = some t → t.Refers r → scope.Offers r := by
    rintro t r rfl hr
    obtain ⟨token, htoken⟩ := exists_token_of_compileOptional hwildcard
    exact offers_of_compileToken htoken hr
  refine ⟨rfl, ?_⟩
  intro r hr
  cases hr with
  | parent hr =>
    obtain rfl : parent = some r := hr
    obtain ⟨token, htoken⟩ := exists_token_of_compileOptional hparent
    exact offers_of_compileParent htoken
  | property hx hr => exact hslot hx hr
  | wildcard ht hr => exact hany ht hr
  | accessor hs hr =>
    rcases Descriptor.exists_slot_of_signature hs hr with ⟨x, t, hx, hr⟩ | ⟨t, ht, hr⟩
    · exact hslot hx hr
    · exact hany ht hr

end TypeDefinition

/-! ### Qualified names -/

theorem Namespace.qualify_injective (ns : Namespace) : Function.Injective ns.qualify := by
  intro x y h
  apply Ident.className_injective
  rcases ns with ⟨_ | path, separator⟩
  · exact h
  · simp only [qualify] at h
    split at h
    · exact h
    · have hlists := congrArg String.toList h
      simp only [String.toList_append] at hlists
      exact String.toList_injective (List.append_cancel_left hlists)

namespace Document

variable {ds : List Descriptor} {doc : Document} {options : Options}

theorem offers_of_compileTypes {types : List TypeDefinition}
    (h : compileTypes scope types = .ok ds) {d : Descriptor} (hd : d ∈ ds) :
    d.qualified = scope.home.qualify d.name ∧ ∀ r, d.References r → scope.Offers r := by
  have hsteps := Except.forall₂_of_steps (TypeDefinition.compile scope) h rfl fun _ _ => rfl
  obtain ⟨definition, -, hcompile⟩ := hsteps.flip.exists_of_mem hd
  exact TypeDefinition.offers_of_compile hcompile

theorem qualified_of_compileTypes {types : List TypeDefinition}
    (h : compileTypes scope types = .ok ds) :
    ds.map Descriptor.qualified = (ds.map Descriptor.name).map scope.home.qualify := by
  rw [List.map_map]
  exact List.map_congr_left fun d hd => (offers_of_compileTypes h hd).1

end Document

theorem Descriptor.filter_name_eq {ds : List Descriptor} (h : (ds.map Descriptor.name).Nodup)
    {e : Descriptor} (he : e ∈ ds) : ds.filter (fun d => d.name = e.name) = [e] := by
  induction ds with
  | nil => cases he
  | cons d rest ih =>
    obtain ⟨hnot, hrest⟩ := List.nodup_cons.mp h
    rcases List.mem_cons.mp he with rfl | he
    · have hnone : rest.filter (fun d => d.name = e.name) = [] := by
        refine List.filter_eq_nil_iff.mpr fun d hd => ?_
        have hne : d.name ≠ e.name := fun heq => hnot (heq ▸ List.mem_map_of_mem hd)
        simpa using hne
      rw [List.filter_cons_of_pos (by simp), hnone]
    · have hne : d.name ≠ e.name := fun heq => hnot (heq ▸ List.mem_map_of_mem he)
      rw [List.filter_cons_of_neg (by simpa using hne), ih hrest he]

/-! ### Classes -/

/-- Classes of a registry that have one qualified name are the same if descriptors have not. -/
theorem Registry.eq_of_qualified {ds : List Descriptor} {registry : Registry}
    (hlink : link ds = .ok registry) (h : (ds.map Descriptor.qualified).Nodup) {c c' : Class}
    (hc : c ∈ registry.classes) (hc' : c' ∈ registry.classes) (heq : c.qualified = c'.qualified) :
    c = c' := by
  obtain ⟨above, hclass, hchain, hcounts⟩ := exists_chain_of_mem hlink hc
  obtain ⟨above', hclass', hchain', hcounts'⟩ := exists_chain_of_mem hlink hc'
  have hdescriptor : c.descriptor = c'.descriptor :=
    List.inj_on_of_nodup_map h (mem_of_declared? hcounts) (mem_of_declared? hcounts') heq
  -- one descriptor has one chain
  rw [← hdescriptor] at hchain'
  obtain ⟨-, habove⟩ := List.cons.inj (hchain.unique hchain')
  rw [hclass, hclass', ← hdescriptor, habove]

theorem Instance.same_eq_false {i j : Instance} (h : i.owner.qualified ≠ j.owner.qualified) :
    i.same j = false := by
  have hne : (i.owner.qualified == j.owner.qualified) = false := by simpa using h
  rw [same, toValue, toValue, Value.same, hne, Bool.false_and]

/-- **References resolve.**  Whatever type a compiled schema refers to, at any depth, just one of
its descriptors has the name, and that one has the qualified name.  No two descriptors have one
qualified name, so instances of different classes are never equal. -/
theorem Json.references_resolve {options : Options} {schema : Json} {ds : List Descriptor}
    (hnames : schema.declaredNames.Nodup) (hds : schema.compileSchema options = .ok ds) :
    (∀ d ∈ ds, ∀ r, d.References r →
      ∃ e, ds.filter (fun e => e.name = r.name) = [e] ∧ e.qualified = r.qualified) ∧
    (ds.map Descriptor.qualified).Nodup ∧
    ∀ registry, Registry.link ds = .ok registry → ∀ i j : Instance,
      i.owner ∈ registry.classes → j.owner ∈ registry.classes → i.owner ≠ j.owner →
        i.same j = false := by
  obtain ⟨doc, hdoc, hcompile⟩ := compileSchema_eq_ok_iff.mp hds
  obtain ⟨htypes, -⟩ := Document.compileTypes_of_compile hcompile
  have hnodup : (ds.map Descriptor.name).Nodup := Document.nodup_names hnames hdoc htypes
  have hqualified : (ds.map Descriptor.qualified).Nodup := by
    rw [Document.qualified_of_compileTypes htypes]
    exact hnodup.map (Namespace.qualify_injective _)
  refine ⟨?references, hqualified, ?classes⟩
  case references =>
    intro d hd r hr
    obtain ⟨x, hx, rfl⟩ := (Document.offers_of_compileTypes htypes hd).2 r hr
    have hx : x ∈ ds.map Descriptor.name := by
      rw [Document.names_of_compileTypes htypes]
      exact hx
    obtain ⟨e, he, rfl⟩ := List.mem_map.mp hx
    exact ⟨e, Descriptor.filter_name_eq hnodup he, (Document.offers_of_compileTypes htypes he).1⟩
  case classes =>
    intro registry hlink i j hi hj hne
    refine Instance.same_eq_false fun heq => hne ?_
    exact Registry.eq_of_qualified hlink hqualified hi hj heq

/-! ### Types that refer to each other -/

def person : Descriptor where
  name := ⟨"person", by decide⟩
  namespacePath := some "App"
  qualified := "App::Person"
  parent := none
  properties := []
  wildcard := none

def record : Descriptor where
  name := ⟨"record", by decide⟩
  namespacePath := some "App"
  qualified := "App::Record"
  parent := none
  properties := []
  wildcard := none

/-- A record with persons in arrays of arrays, and with entries beyond its properties. -/
def entry : Descriptor where
  name := ⟨"entry", by decide⟩
  namespacePath := some "App"
  qualified := "App::Entry"
  parent := some ⟨record.name, "App::Record"⟩
  properties := [(⟨"authors", by decide⟩,
    .arrayOf (.arrayOf (.reference ⟨person.name, "App::Person"⟩)))]
  wildcard := some (.arrayOf (.reference ⟨⟨"entry", by decide⟩, "App::Entry"⟩))

/-- The three types as a schema. -/
def archive : Json :=
  .obj [("_meta", .obj [("namespace", .str "App")]),
    ("entry", .obj [("_parent", .str " record "), ("authors", .str "array[array[person]]"),
      ("_any", .str "internal:array[entry]")]),
    ("record", .obj []), ("person", .obj [])]

theorem archive_references_resolve :
    archive.declaredNames.Nodup ∧
    archive.compileSchema { separator := "::" } = .ok [entry, record, person] ∧
    entry.References ⟨person.name, "App::Person"⟩ ∧
    (∃ e, [entry, record, person].filter (fun e => e.name = person.name) = [e] ∧
      e.qualified = "App::Person") ∧
    (Class.root record).create.same (Class.root person).create = false := by
  have hnames : archive.declaredNames.Nodup := by decide
  have hds : archive.compileSchema { separator := "::" } = .ok [entry, record, person] := by
    with_unfolding_all rfl
  have hlink : Registry.link [entry, record, person] =
      .ok ⟨[Class.link entry [record], Class.root record, Class.root person]⟩ := by
    with_unfolding_all rfl
  have hperson : entry.References ⟨person.name, "App::Person"⟩ :=
    .property List.mem_cons_self (.arrayOf (.arrayOf (.reference _)))
  have hne : Class.root record ≠ Class.root person := fun h =>
    absurd (congrArg Class.qualified h) (by decide)
  obtain ⟨hreferences, -, hclasses⟩ := Json.references_resolve hnames hds
  exact ⟨hnames, hds, hperson, hreferences entry List.mem_cons_self _ hperson,
    hclasses _ hlink (Class.root record).create (Class.root person).create
      (List.mem_cons_of_mem _ List.mem_cons_self) (by simp [Class.create]) hne⟩

end ClassSchema
