/-
What compiles links.

* `mem_declared_of_compileTypes` — the parents of compiled types are declared;
* `link_of_compile` — the descriptors of a document link;
* `names_of_link` — to one class for every declared type;
* `compiled_schemas_link` — a schema links exactly if it compiles, and is refused for nothing else.

Design notes: compilation looks up parents as words and looks for cycles in a table of names, while
linking climbs from descriptor to descriptor.  What they have in common is the relation `Extends`,
of which compilation has found that it stays inside the list and is acyclic.
-/
import ClassSchema.CommandLine.Commands
import ClassSchema.Proofs.Compilation
import ClassSchema.Proofs.Linking

namespace ClassSchema

namespace Document

variable {scope : Scope} {options : Options} {doc : Document} {ds : List Descriptor}

/-- The parents of compiled types are declared. -/
theorem mem_declared_of_compileTypes {types : List TypeDefinition}
    (h : compileTypes scope types = .ok ds) {d : Descriptor} (hd : d ∈ ds) {p : ClassRef}
    (hp : d.parent = some p) : p.name ∈ scope.declared := by
  have hmem := List.mem_map_of_mem (f := Descriptor.heading) hd
  rw [heading_of_compileTypes h] at hmem
  obtain ⟨definition, hdefinition, heq⟩ := List.mem_map.mp hmem
  have hparent : definition.heading.2 = some p.name.text := by
    rw [heq, Descriptor.heading, hp]
    rfl
  obtain ⟨⟨owner, role, token⟩, hm, -, hrole, hword⟩ :=
    TypeDefinition.exists_mention_of_heading hparent
  obtain rfl : role = .parent := hrole
  -- the token stands, so it is the name of a declared type, and a text is the name of one only
  have hverdict := verdict_compileTypes scope types
  rw [h] at hverdict
  obtain ⟨x, hx, htext⟩ := hverdict _ (List.mem_flatMap.mpr ⟨definition, hdefinition, hm⟩)
  rwa [← Ident.text_injective (htext.trans hword)]

theorem compileTypes_of_compile (h : doc.compile options = .ok ds) :
    compileTypes (doc.scope options) doc.types = .ok ds ∧ checkInheritance ds = .ok () := by
  obtain ⟨ds', htypes, h⟩ := Except.bind_eq_ok_iff.mp h
  obtain ⟨⟨⟩, hcheck, h⟩ := Except.bind_eq_ok_iff.mp h
  obtain rfl := Except.ok.inj h
  exact ⟨htypes, hcheck⟩

/-- The descriptors of a document link. -/
theorem link_of_compile (h : doc.compile options = .ok ds) : ∃ r, Registry.link ds = .ok r := by
  obtain ⟨htypes, hcheck⟩ := compileTypes_of_compile h
  refine (Registry.link_isOk_iff ds).mpr ⟨?_, acyclic_of_checkInheritance hcheck⟩
  rintro x y ⟨d, p, hd, hp, rfl⟩
  rw [names_of_compileTypes htypes]
  exact mem_declared_of_compileTypes htypes (mem_of_declared? hd) hp

/-- They link to one class for every declared type, in the order of the document. -/
theorem names_of_link {schema : Json} (hdoc : ofJson schema = .ok doc)
    (h : doc.compile options = .ok ds) {r : Registry} (hr : Registry.link ds = .ok r) :
    r.classes.map (fun c => c.name.text) = schema.declaredNames.eraseDups := by
  have hnames : ds.map Descriptor.name = doc.typeNames :=
    names_of_compileTypes (compileTypes_of_compile h).1
  calc r.classes.map (fun c => c.name.text)
      = (r.classes.map Class.name).map Ident.text := by rw [List.map_map]; rfl
    _ = doc.typeNames.eraseDups.map Ident.text := by rw [Registry.map_name_classes hr, hnames]
    _ = (doc.typeNames.map Ident.text).eraseDups :=
      (Entries.eraseDups_map Ident.text_injective _).symm
    _ = schema.declaredNames.eraseDups := by rw [names_of_ofJson hdoc]

end Document

theorem Json.compileSchema_eq_ok_iff {options : Options} {schema : Json} {ds : List Descriptor} :
    schema.compileSchema options = .ok ds ↔
      ∃ doc, Document.ofJson schema = .ok doc ∧ doc.compile options = .ok ds := by
  exact Except.bind_eq_ok_iff

/-! ### Commands -/

namespace CommandLine

theorem checkReport_code_iff (path : String) (options : Options) (schema : Json) :
    (checkReport path options schema).code = 0 ↔
      ∃ r, Registry.ofSchema options schema = .ok r := by
  rw [checkReport]
  rcases Registry.ofSchema options schema with e | r
  · simp
  · simp [Report.success]

/-- Whether a schema compiles does not hang on how types are written. -/
theorem manifestsOf_isOk_iff (path : String) (options : Options) (docs : Bool) (schema : Json) :
    (∃ manifests, manifestsOf path { options with docs := docs } schema = .ok manifests) ↔
      ∃ ds, schema.compileSchema options = .ok ds := by
  have hsame : schema.compileSchema { options with docs := docs } = schema.compileSchema options :=
    rfl
  rw [manifestsOf, hsame]
  rcases schema.compileSchema options with e | ds
  · simp
  · simp

end CommandLine

/-! ### Registries of schemas -/

namespace Registry

variable {options : Options} {schema : Json}

theorem ofSchema_of_error {e : SchemaError} (h : schema.compileSchema options = .error e) :
    ofSchema options schema = .error (.schema e) := by
  rw [ofSchema, h]

theorem ofSchema_of_ok {ds : List Descriptor} (h : schema.compileSchema options = .ok ds) :
    ∃ r, link ds = .ok r ∧ ofSchema options schema = .ok r ∧
      r.classes.map (fun c => c.name.text) = schema.declaredNames.eraseDups := by
  obtain ⟨doc, hdoc, hds⟩ := Json.compileSchema_eq_ok_iff.mp h
  obtain ⟨r, hr⟩ := Document.link_of_compile hds
  refine ⟨r, hr, ?_, Document.names_of_link hdoc hds hr⟩
  rw [ofSchema, h]
  exact hr

theorem ofSchema_isOk_iff :
    (∃ r, ofSchema options schema = .ok r) ↔ ∃ ds, schema.compileSchema options = .ok ds := by
  constructor
  · rintro ⟨r, hr⟩
    rcases hcompile : schema.compileSchema options with e | ds
    · rw [ofSchema_of_error hcompile] at hr; cases hr
    · exact ⟨ds, rfl⟩
  · rintro ⟨ds, hds⟩
    obtain ⟨r, -, hr, -⟩ := ofSchema_of_ok hds
    exact ⟨r, hr⟩

/-- **What compiles links.**  A schema has a registry exactly if it compiles; what it is refused for
is what compilation refuses it for, and linking finds nothing to add.  The registry has one class
for every declared type, in the order of the document.  So the command that checks a schema and the
one that compiles it accept the same schemas. -/
theorem compiled_schemas_link (options : Options) (schema : Json) :
    ((∃ r, ofSchema options schema = .ok r) ↔ ∃ ds, schema.compileSchema options = .ok ds) ∧
    (∀ e, ofSchema options schema = .error e ↔
      ∃ cause, schema.compileSchema options = .error cause ∧ e = .schema cause) ∧
    (∀ ds, schema.compileSchema options = .ok ds → ∀ e, link ds ≠ .error e) ∧
    (∀ r, ofSchema options schema = .ok r →
      r.classes.map (fun c => c.name.text) = schema.declaredNames.eraseDups ∧
      (schema.declaredNames.Nodup →
        r.classes.map (fun c => c.name.text) = schema.declaredNames)) ∧
    ∀ path docs, (CommandLine.checkReport path options schema).code = 0 ↔
      ∃ manifests, CommandLine.manifestsOf path { options with docs := options.docs || docs }
        schema = .ok manifests := by
  refine ⟨ofSchema_isOk_iff, ?error, ?links, ?names, ?commands⟩
  case error =>
    intro e
    rcases hcompile : schema.compileSchema options with cause | ds
    · rw [ofSchema_of_error hcompile]
      constructor
      · exact fun h => ⟨cause, rfl, (Except.error.inj h).symm⟩
      · rintro ⟨cause', h, rfl⟩
        rw [Except.error.inj h]
    · obtain ⟨r, -, hr, -⟩ := ofSchema_of_ok hcompile
      rw [hr]
      constructor
      · intro h; cases h
      · rintro ⟨cause, h, -⟩; cases h
  case links =>
    intro ds hds e he
    obtain ⟨r, hr, -⟩ := ofSchema_of_ok hds
    rw [hr] at he
    cases he
  case names =>
    intro r hr
    obtain ⟨ds, hds⟩ := ofSchema_isOk_iff.mp ⟨r, hr⟩
    obtain ⟨r', -, hr', hnames⟩ := ofSchema_of_ok hds
    obtain rfl := Except.ok.inj (hr.symm.trans hr')
    refine ⟨hnames, fun hnodup => ?_⟩
    rw [hnames, Entries.eraseDups_of_nodup hnodup]
  case commands =>
    intro path docs
    rw [CommandLine.checkReport_code_iff, ofSchema_isOk_iff,
      CommandLine.manifestsOf_isOk_iff path]

/-- A type whose parent comes later, with blanks around its token. -/
def grove : Json :=
  .obj [("oak", .obj [("_parent", .str " tree ")]), ("tree", .obj [("rings", .str "_int")])]

theorem grove_links :
    ∃ r, ofSchema {} grove = .ok r ∧ r.classes.map (fun c => c.name.text) = ["oak", "tree"] := by
  have hcompile : ∃ ds, grove.compileSchema {} = .ok ds := ⟨_, by with_unfolding_all rfl⟩
  obtain ⟨hlinks, -, -, hnames, -⟩ := compiled_schemas_link {} grove
  obtain ⟨r, hr⟩ := hlinks.mpr hcompile
  exact ⟨r, hr, (hnames r hr).2 (by decide)⟩

end Registry
end ClassSchema
