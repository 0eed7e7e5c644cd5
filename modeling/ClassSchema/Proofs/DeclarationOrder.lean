/-
The order of declarations.

* `Scope.Alike` — scopes that offer the same types, whatever the order of their names;
* `exists_perm_of_compileTypes` — among such scopes the same types compile to the same descriptors;
* `ofJson_perm` — a schema whose members stand in another order has the same types;
* `declared?_perm`, `ParentChain.perm` — chains of parents do not look at the order of a list;
* `link_perm` — descriptors in another order link to the same classes;
* `declaration_order_says_nothing` — so neither parents nor users have to come first.

Design notes: linking takes up a class where its name is met first, be it in the list or on the way
up from another one, so two orders share no step of the run.  What they share is its outcome: a
class is linked along the chain of its parents (`Registry.exists_chain_of_mem`), and a descriptor
has one chain at most.
-/
import ClassSchema.Proofs.Acceptance

namespace ClassSchema

/-! ### Tokens -/

namespace Scope

variable {s s' : Scope}

/-- The scopes offer the same types, whatever the order of their names. -/
structure Alike (s s' : Scope) : Prop where
  home : s.home = s'.home
  mem_iff : ∀ x, x ∈ s.declared ↔ x ∈ s'.declared

theorem Alike.reference? (h : s.Alike s') (name : String) :
    s.reference? name = s'.reference? name := by
  ext r
  rw [reference?_eq_some_iff, reference?_eq_some_iff, h.home]
  simp only [h.mem_iff]

theorem Alike.leaf? (h : s.Alike s') (token : List Char) : s.leaf? token = s'.leaf? token := by
  unfold Scope.leaf?
  rw [h.reference?]

/-- A token is resolved layer by layer, and only what is left of it is looked up. -/
theorem Alike.resolveToken (h : s.Alike s') (token : List Char) :
    s.resolveToken token = s'.resolveToken token := by
  fun_induction Scope.resolveToken s token with
  | case1 token inner hinner ih => rw [resolveToken_of_inner? hinner, ih]
  | case2 token hinner t hleaf =>
    rw [h.leaf?] at hleaf
    exact (resolveToken_of_leaf? hinner hleaf).symm
  | case3 token hinner hleaf =>
    rw [h.leaf?] at hleaf
    rw [Scope.resolveToken.eq_1 s' token]
    split
    · next inner hinner' => rw [hinner] at hinner'; cases hinner'
    · rw [hleaf]

end Scope

/-! ### Types -/

section Types

variable {scope scope' : Scope}

theorem TypeDefinition.compile_alike (h : scope.Alike scope') (definition : TypeDefinition) :
    definition.compile scope = definition.compile scope' := by
  have hparent : compileParent scope = compileParent scope' := by
    funext owner token
    simp only [compileParent, h.reference?]
  have htoken : compileToken scope = compileToken scope' := by
    funext owner token
    unfold compileToken Scope.resolveFor Scope.resolve
    rw [h.resolveToken]
  have hproperties : ∀ owner properties,
      compileProperties scope owner properties = compileProperties scope' owner properties := by
    intro owner properties
    induction properties with
    | nil => rfl
    | cons p rest ih => rw [compileProperties, compileProperties, htoken, ih]
  unfold compile
  rw [hparent, htoken, h.home]
  simp only [hproperties]

/-- Among scopes that offer the same types, types in another order compile to the same descriptors
in that order. -/
theorem Document.exists_perm_of_compileTypes (h : scope.Alike scope')
    {types types' : List TypeDefinition} (hperm : types.Perm types') {ds : List Descriptor}
    (hds : compileTypes scope types = .ok ds) :
    ∃ ds', compileTypes scope' types' = .ok ds' ∧ ds.Perm ds' := by
  have hsame : ∀ types, compileTypes scope types = compileTypes scope' types := by
    intro types
    induction types with
    | nil => rfl
    | cons definition rest ih =>
      rw [compileTypes, compileTypes, definition.compile_alike h, ih]
  rw [hsame] at hds
  exact Except.exists_perm_of_steps (TypeDefinition.compile scope') hperm hds rfl fun _ _ => rfl

end Types

/-! ### Documents -/

namespace Document

variable {members members' : List (String × Json)} {parts : List Part}

/-- The namespace of a document is what the member for metadata says of it. -/
theorem namespacePath_ofParts
    (h : List.Forall₂ (fun e part => readPart e.1 e.2 = .ok part) members parts) :
    (ofParts parts).namespacePath =
      ((Entries.get? "_meta" members).bind fun body => (readNamespace body).toOption).join := by
  refine congrArg Option.join ?_
  induction h with
  | nil => rfl
  | @cons e part members parts hpart _ ih =>
    rw [List.findSome?_cons, Entries.get?_cons]
    unfold readPart at hpart
    split_ifs at hpart with hmeta hignored
    · obtain ⟨path, hpath, rfl⟩ := Except.map_eq_ok_iff.mp hpart
      rw [if_pos hmeta, Option.bind_some, hpath]
      rfl
    · obtain rfl := Except.ok.inj hpart
      rw [if_neg hmeta]
      exact ih
    · obtain ⟨definition, -, rfl⟩ := Except.map_eq_ok_iff.mp hpart
      rw [if_neg hmeta]
      exact ih

/-- A schema whose members stand in another order is read as well, to the same types and the same
namespace. -/
theorem ofJson_perm (hkeys : (Entries.keys members).Nodup) (hperm : members.Perm members')
    {doc : Document} (hdoc : ofJson (.obj members) = .ok doc) :
    ∃ doc', ofJson (.obj members') = .ok doc' ∧ doc.types.Perm doc'.types ∧
      doc.namespacePath = doc'.namespacePath := by
  obtain ⟨parts, hparts, rfl⟩ := Except.map_eq_ok_iff.mp hdoc
  have hcons : ∀ (e : String × Json) rest, readParts (e :: rest) =
      (do let part ← readPart e.1 e.2; let parts ← readParts rest; pure (part :: parts)) :=
    fun _ _ => rfl
  obtain ⟨parts', hparts', hpartsPerm⟩ :=
    Except.exists_perm_of_steps (fun e => readPart e.1 e.2) hperm hparts rfl hcons
  refine ⟨ofParts parts', Except.map_eq_ok_iff.mpr ⟨parts', hparts', rfl⟩, ?_, ?_⟩
  · exact hpartsPerm.filterMap _
  · have hsteps := Except.forall₂_of_steps (fun e => readPart e.1 e.2) hparts rfl hcons
    have hsteps' := Except.forall₂_of_steps (fun e => readPart e.1 e.2) hparts' rfl hcons
    rw [namespacePath_ofParts hsteps, namespacePath_ofParts hsteps', Entries.get?_perm hkeys hperm]

end Document

/-! ### Chains of parents -/

section Chains

variable {ds ds' : List Descriptor}

/-- Where no name is repeated, the order of a list says nothing of which descriptor counts. -/
theorem declared?_perm (hds : (ds.map Descriptor.name).Nodup) (hperm : ds.Perm ds') (x : Ident) :
    declared? ds' x = declared? ds x := by
  have hds' : (ds'.map Descriptor.name).Nodup := (hperm.map _).nodup_iff.mp hds
  ext d
  constructor
  · intro hd
    obtain rfl := name_of_declared? hd
    exact declared?_of_mem hds (hperm.mem_iff.mpr (mem_of_declared? hd))
  · intro hd
    obtain rfl := name_of_declared? hd
    exact declared?_of_mem hds' (hperm.mem_iff.mp (mem_of_declared? hd))

theorem extends_perm (hds : (ds.map Descriptor.name).Nodup) (hperm : ds.Perm ds') :
    Extends ds' = Extends ds := by
  funext x y
  simp only [Extends, declared?_perm hds hperm]

theorem ParentChain.perm (hds : (ds.map Descriptor.name).Nodup) (hperm : ds.Perm ds')
    {d : Descriptor} {chain : List Descriptor} (h : ParentChain ds d chain) :
    ParentChain ds' d chain := by
  induction h with
  | root hnone => exact .root hnone
  | child hp he _ ih =>
    rw [← declared?_perm hds hperm] at he
    exact .child hp he ih

end Chains

/-! ### Registries -/

namespace Registry

variable {ds ds' : List Descriptor}

theorem link_isOk_perm (hds : (ds.map Descriptor.name).Nodup) (hperm : ds.Perm ds') :
    (∃ r, link ds = .ok r) ↔ ∃ r, link ds' = .ok r := by
  rw [link_isOk_iff, link_isOk_iff, extends_perm hds hperm]
  simp only [(hperm.map Descriptor.name).mem_iff]

/-- Every class of the one registry is a class of the other. -/
theorem mem_classes_perm (hds : (ds.map Descriptor.name).Nodup) (hperm : ds.Perm ds')
    {r r' : Registry} (hr : link ds = .ok r) (hr' : link ds' = .ok r') {c : Class}
    (hc : c ∈ r.classes) : c ∈ r'.classes := by
  obtain ⟨above, hlink, hchain, hcounts⟩ := exists_chain_of_mem hr hc
  have hlisted : c.name ∈ r'.classes.map Class.name := by
    rw [map_name_classes hr', List.mem_eraseDups, ← declared?_isSome_iff]
    exact ⟨c.descriptor, by rw [declared?_perm hds hperm, hcounts]⟩
  obtain ⟨c', hc', hname⟩ := List.mem_map.mp hlisted
  obtain ⟨above', hlink', hchain', hcounts'⟩ := exists_chain_of_mem hr' hc'
  -- the same descriptor counts for the name, and it has one chain
  rw [hname, declared?_perm hds hperm, hcounts] at hcounts'
  rw [← Option.some.inj hcounts'] at hlink' hchain'
  obtain ⟨-, rfl⟩ := List.cons.inj (hchain'.unique (hchain.perm hds hperm))
  rwa [hlink, ← hlink']

theorem nodup_names_classes (hds : (ds.map Descriptor.name).Nodup) {r : Registry}
    (hr : link ds = .ok r) : (r.classes.map Class.name).Nodup := by
  rwa [map_name_classes hr, Entries.eraseDups_of_nodup hds]

/-- Descriptors in another order link to the same classes. -/
theorem link_perm (hds : (ds.map Descriptor.name).Nodup) (hperm : ds.Perm ds')
    {r r' : Registry} (hr : link ds = .ok r) (hr' : link ds' = .ok r') :
    r.classes.Perm r'.classes := by
  have hds' : (ds'.map Descriptor.name).Nodup := (hperm.map _).nodup_iff.mp hds
  have hnodup := (nodup_names_classes hds hr).of_map _
  have hnodup' := (nodup_names_classes hds' hr').of_map _
  refine (List.perm_ext_iff_of_nodup hnodup hnodup').mpr fun c => ?_
  exact ⟨mem_classes_perm hds hperm hr hr', mem_classes_perm hds' hperm.symm hr' hr⟩

end Registry

/-! ### Schemas -/

namespace Json

variable {options : Options} {members members' : List (String × Json)} {ds ds' : List Descriptor}

/-- Descriptors stand in the order of the members that declare them. -/
theorem names_of_compileSchema {schema : Json} (h : schema.compileSchema options = .ok ds) :
    ds.map (fun d => d.name.text) = schema.declaredNames := by
  obtain ⟨doc, hdoc, hds⟩ := compileSchema_eq_ok_iff.mp h
  have hnames := Document.names_of_compileTypes (Document.compileTypes_of_compile hds).1
  rw [← Document.names_of_ofJson hdoc, Document.typeNames, ← hnames, List.map_map]
  rfl

/-- A schema whose members stand in another order compiles as well, to the same descriptors. -/
theorem exists_perm_of_compileSchema (hkeys : (Entries.keys members).Nodup)
    (hperm : members.Perm members') (h : (obj members).compileSchema options = .ok ds) :
    ∃ ds', (obj members').compileSchema options = .ok ds' ∧ ds.Perm ds' := by
  obtain ⟨doc, hdoc, hcompile⟩ := compileSchema_eq_ok_iff.mp h
  obtain ⟨doc', hdoc', htypes, hpath⟩ := Document.ofJson_perm hkeys hperm hdoc
  have hscope : (doc.scope options).Alike (doc'.scope options) := by
    refine ⟨?_, fun x => ?_⟩
    · rw [Document.scope, Document.scope, Document.home, Document.home, hpath]
    · exact (htypes.map TypeDefinition.name).mem_iff
  obtain ⟨hds, hcheck⟩ := Document.compileTypes_of_compile hcompile
  obtain ⟨ds', hds', hdsPerm⟩ := Document.exists_perm_of_compileTypes hscope htypes hds
  -- the other order has no cycle either, since one name extends another in both or in neither
  have hnodup := Document.nodup_names (nodup_declaredNames hkeys) hdoc hds
  have hnodup' := (hdsPerm.map Descriptor.name).nodup_iff.mp hnodup
  have hcheck' : Document.checkInheritance ds' = .ok () := by
    rw [Document.checkInheritance_eq_ok_iff hnodup', extends_perm hnodup hdsPerm]
    exact Document.acyclic_of_checkInheritance hcheck
  refine ⟨ds', compileSchema_eq_ok_iff.mpr ⟨doc', hdoc', ?_⟩, hdsPerm⟩
  rw [Document.compile_of_compileTypes hds', hcheck']
  rfl

end Json

/-- **The order of declarations says nothing.**  A schema whose members, types and metadata alike,
are put into another order compiles exactly if it did before, and to the same descriptors, which
stand in the new order.  Descriptors of different names, put into another order, link exactly if
they did before, and to the same classes: the class of a name has the same lineage, properties in
the same order, wildcard and accessors. -/
theorem declaration_order_says_nothing :
    (∀ (options : Options) (members members' : List (String × Json)),
      (Entries.keys members).Nodup → members.Perm members' →
      ((∃ ds, (Json.obj members).compileSchema options = .ok ds) ↔
        ∃ ds', (Json.obj members').compileSchema options = .ok ds') ∧
      ∀ ds ds', (Json.obj members).compileSchema options = .ok ds →
        (Json.obj members').compileSchema options = .ok ds' →
        ds.Perm ds' ∧
        ds.map (fun d => d.name.text) = (Json.obj members).declaredNames ∧
        ds'.map (fun d => d.name.text) = (Json.obj members').declaredNames) ∧
    ∀ ds ds' : List Descriptor, (ds.map Descriptor.name).Nodup → ds.Perm ds' →
      ((∃ r, Registry.link ds = .ok r) ↔ ∃ r', Registry.link ds' = .ok r') ∧
      ∀ r r', Registry.link ds = .ok r → Registry.link ds' = .ok r' →
        r.classes.Perm r'.classes ∧
        ∀ c ∈ r.classes, ∀ c' ∈ r'.classes, c'.name = c.name → c' = c := by
  constructor
  · intro options members members' hkeys hperm
    have hkeys' : (Entries.keys members').Nodup := (hperm.map Prod.fst).nodup_iff.mp hkeys
    refine ⟨⟨?_, ?_⟩, ?_⟩
    · rintro ⟨ds, hds⟩
      obtain ⟨ds', hds', -⟩ := Json.exists_perm_of_compileSchema hkeys hperm hds
      exact ⟨ds', hds'⟩
    · rintro ⟨ds', hds'⟩
      obtain ⟨ds, hds, -⟩ := Json.exists_perm_of_compileSchema hkeys' hperm.symm hds'
      exact ⟨ds, hds⟩
    · intro ds ds' hds hds'
      obtain ⟨other, hother, hdsPerm⟩ := Json.exists_perm_of_compileSchema hkeys hperm hds
      obtain rfl := Except.ok.inj (hother.symm.trans hds')
      exact ⟨hdsPerm, Json.names_of_compileSchema hds, Json.names_of_compileSchema hds'⟩
  · intro ds ds' hnodup hperm
    refine ⟨Registry.link_isOk_perm hnodup hperm, fun r r' hr hr' => ?_⟩
    have hclasses := Registry.link_perm hnodup hperm hr hr'
    refine ⟨hclasses, fun c hc c' hc' hname => ?_⟩
    exact List.inj_on_of_nodup_map (Registry.nodup_names_classes hnodup hr)
      (hclasses.mem_iff.mpr hc') hc hname

/-- A type stands before its parent, of which it holds many, and metadata stands before both. -/
def woods : List (String × Json) :=
  [("_meta", .obj [("namespace", .str "woods")]),
    ("oak", .obj [("_parent", .str "tree"), ("seedlings", .str "_array[tree]")]),
    ("tree", .obj [("rings", .str "_int"), ("_any", .str "oak")])]

theorem woods_in_either_order :
    ∃ ds ds' r r', (Json.obj woods).compileSchema {} = .ok ds ∧
      (Json.obj woods.reverse).compileSchema {} = .ok ds' ∧ ds.Perm ds' ∧
      ds'.map (fun d => d.name.text) = ["tree", "oak"] ∧
      Registry.link ds = .ok r ∧ Registry.link ds' = .ok r' ∧ r.classes.Perm r'.classes := by
  have hcompile : ∃ ds, (Json.obj woods).compileSchema {} = .ok ds := ⟨_, by with_unfolding_all rfl⟩
  obtain ⟨hschemas, hlists⟩ := declaration_order_says_nothing
  obtain ⟨hsame, hperm⟩ :=
    hschemas {} woods woods.reverse (by decide) (List.reverse_perm woods).symm
  obtain ⟨ds, hds⟩ := hcompile
  obtain ⟨ds', hds'⟩ := hsame.mp ⟨ds, hds⟩
  obtain ⟨hdsPerm, hnames, hnames'⟩ := hperm ds ds' hds hds'
  have hnodup : (ds.map Descriptor.name).Nodup := by
    have htexts : (ds.map fun d => d.name.text).Nodup := by
      rw [hnames]
      decide
    rw [show (fun d : Descriptor => d.name.text) = Ident.text ∘ Descriptor.name from rfl,
      ← List.map_map] at htexts
    exact htexts.of_map _
  obtain ⟨r, hr, -⟩ := Registry.ofSchema_of_ok hds
  obtain ⟨hlinks, hclasses⟩ := hlists ds ds' hnodup hdsPerm
  obtain ⟨r', hr'⟩ := hlinks.mp ⟨r, hr⟩
  exact ⟨ds, ds', r, r', hds, hds', hdsPerm, hnames'.trans (by decide), hr, hr',
    (hclasses r r' hr hr').1⟩

end ClassSchema
