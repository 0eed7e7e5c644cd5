/-
Which documents compile, and what the others are refused for.

* `Mention.Stands` — a token names a declared parent, or spells a type;
* `FirstDefect` — the first token that does not stand, and the part of it that is reported;
* `Verdict` — what comes of tokens that are looked at one after the other;
* `verdict_compileTypes` — the tokens of a document are looked at in their order;
* `compile_reports_first_defect` — a document compiles exactly if all its tokens stand and no type
  is above itself; the first token that does not stand is reported, and a cycle only after them all.

Design notes: every step of compilation is a verdict on some tokens, and steps one after the other
are a verdict on the tokens of both (`Verdict.bind`).  So the order in which defects are found is
the order of the tokens, without a look at how the steps are nested.
-/
import ClassSchema.Proofs.CycleCheck
import ClassSchema.Proofs.Document
import ClassSchema.Proofs.TypeToken

namespace ClassSchema

namespace Mention

/-- The token without the blanks around it. -/
def word (m : Mention) : String := String.ofList (Text.trim m.token.toList)

/-- The token names a declared type where it is for a parent, and spells a type elsewhere. -/
def Stands (scope : Scope) (m : Mention) : Prop :=
  match m.role with
  | .parent => ∃ x ∈ scope.declared, x.text = m.word
  | .slot => ∃ t, scope.Spells m.token.toList t

/-- What is reported of a token that does not stand. -/
def Reported (m : Mention) (part : String) : Prop :=
  match m.role with
  | .parent => part = m.word
  | .slot => TypeToken.Innermost m.token.toList part.toList

end Mention

variable {scope : Scope}

/-- The first token that does not stand, and the part of it that is reported. -/
inductive FirstDefect (scope : Scope) : List Mention → Mention → String → Prop where
  | here {m : Mention} {part : String} {rest : List Mention} : ¬ m.Stands scope → m.Reported part →
      FirstDefect scope (m :: rest) m part
  | later {first m : Mention} {part : String} {rest : List Mention} : first.Stands scope →
      FirstDefect scope rest m part → FirstDefect scope (first :: rest) m part

/-- What comes of tokens that are looked at one after the other. -/
def Verdict (scope : Scope) {α : Type} (ms : List Mention) : Except SchemaError α → Prop
  | .ok _ => ∀ m ∈ ms, m.Stands scope
  | .error e => ∃ m part, FirstDefect scope ms m part ∧ e = .unknownType part m.owner

/-! ### Verdicts -/

theorem FirstDefect.append {ms : List Mention} {m : Mention} {part : String}
    (h : FirstDefect scope ms m part) (more : List Mention) :
    FirstDefect scope (ms ++ more) m part := by
  induction h with
  | here hm hpart => exact .here hm hpart
  | later hfirst _ ih => exact .later hfirst ih

theorem FirstDefect.of_append {ms more : List Mention} {m : Mention} {part : String}
    (hall : ∀ m ∈ ms, m.Stands scope) (h : FirstDefect scope more m part) :
    FirstDefect scope (ms ++ more) m part := by
  induction ms with
  | nil => exact h
  | cons first ms ih =>
    exact .later (hall first List.mem_cons_self) (ih fun m hm => hall m (List.mem_cons_of_mem _ hm))

theorem FirstDefect.not_all {ms : List Mention} {m : Mention} {part : String}
    (h : FirstDefect scope ms m part) : ¬ ∀ m ∈ ms, m.Stands scope := by
  induction h with
  | here hm _ => exact fun hall => hm (hall _ List.mem_cons_self)
  | later _ _ ih => exact fun hall => ih fun m hm => hall m (List.mem_cons_of_mem _ hm)

theorem Mention.Reported.unique {m : Mention} {part other : String} (h : m.Reported part)
    (h' : m.Reported other) : other = part := by
  rcases m with ⟨owner, role, token⟩
  cases role with
  | parent => exact h'.trans h.symm
  | slot => exact String.toList_injective (TypeToken.Innermost.unique h h')

theorem FirstDefect.unique {ms : List Mention} {m m' : Mention} {part part' : String}
    (h : FirstDefect scope ms m part) (h' : FirstDefect scope ms m' part') :
    m' = m ∧ part' = part := by
  induction h with
  | here hm hpart =>
    cases h' with
    | here _ hpart' => exact ⟨rfl, hpart.unique hpart'⟩
    | later hfirst _ => exact absurd hfirst hm
  | later hfirst _ ih =>
    cases h' with
    | here hm' _ => exact absurd hfirst hm'
    | later _ h' => exact ih h'

theorem Verdict.bind {α β : Type} {ms more : List Mention} {r : Except SchemaError α}
    {f : α → Except SchemaError β} (h : Verdict scope ms r)
    (hf : ∀ a, Verdict scope more (f a)) : Verdict scope (ms ++ more) (r >>= f) := by
  rcases r with e | a
  · obtain ⟨m, part, hm, he⟩ := h
    exact ⟨m, part, hm.append more, he⟩
  · -- all tokens of the first step stand, so the next step decides
    have hmore := hf a
    rw [show (Except.ok a >>= f) = f a from rfl]
    rcases hfa : f a with e | b
    · rw [hfa] at hmore
      obtain ⟨m, part, hm, he⟩ := hmore
      exact ⟨m, part, hm.of_append h, he⟩
    · rw [hfa] at hmore
      exact fun m hm => (List.mem_append.mp hm).elim (h m) (hmore m)

theorem Verdict.map {α β : Type} {ms : List Mention} {r : Except SchemaError α} (f : α → β)
    (h : Verdict scope ms r) : Verdict scope ms (r.map f) := by
  rcases r with e | a
  · exact h
  · exact h

theorem Verdict.bind_pure {α β : Type} {ms : List Mention} {r : Except SchemaError α}
    (h : Verdict scope ms r) (f : α → β) : Verdict scope ms (do let a ← r; pure (f a)) := by
  rcases r with e | a
  · exact h
  · exact h

theorem verdict_pure {α : Type} (a : α) : Verdict scope [] (.ok a : Except SchemaError α) :=
  fun _ hm => absurd hm List.not_mem_nil

/-- The verdict on one token. -/
theorem verdict_single {α : Type} {m : Mention} {r : Except SchemaError α}
    (hok : ∀ a, r = .ok a → m.Stands scope)
    (herror : ∀ e, r = .error e →
      ∃ part, ¬ m.Stands scope ∧ m.Reported part ∧ e = .unknownType part m.owner) :
    Verdict scope [m] r := by
  rcases r with e | a
  · obtain ⟨part, hm, hpart, he⟩ := herror e rfl
    exact ⟨m, part, .here hm hpart, he⟩
  · intro m' hm'
    obtain rfl := List.mem_singleton.mp hm'
    exact hok a rfl

/-! ### Compilation is a verdict -/

namespace TypeDefinition

theorem verdict_compileParent (owner : Ident) (token : String) :
    Verdict scope [⟨owner.text, .parent, token⟩] (compileParent scope owner token) := by
  unfold compileParent
  apply verdict_single
  · intro r hr
    dsimp only at hr
    split at hr
    · next r' hr' =>
      obtain ⟨x, hx, hword, -⟩ := Scope.reference?_eq_some_iff.mp hr'
      exact ⟨x, hx, hword⟩
    · cases hr
  · intro e he
    dsimp only at he
    split at he
    · cases he
    · next hnone =>
      refine ⟨_, ?_, rfl, (Except.error.inj he).symm⟩
      rintro ⟨x, hx, hword⟩
      have hsome := Scope.reference?_eq_some_iff.mpr ⟨x, hx, hword, rfl⟩
      cases hnone.symm.trans hsome

/-- A token is compiled to the type that it spells. -/
theorem compileToken_eq_ok_iff {owner : Ident} {token : String} {t : SlotType} :
    compileToken scope owner token = .ok t ↔ scope.Spells token.toList t := by
  rw [← Scope.resolveToken_eq_ok_iff, compileToken, Scope.resolveFor, Scope.resolve]
  rcases scope.resolveToken token.toList with part | t'
  · exact ⟨fun h => (by cases h), fun h => (by cases h)⟩
  · exact ⟨fun h => congrArg _ (Except.ok.inj h), fun h => congrArg _ (Except.ok.inj h)⟩

theorem verdict_compileToken (owner : Ident) (token : String) :
    Verdict scope [⟨owner.text, .slot, token⟩] (compileToken scope owner token) := by
  unfold compileToken Scope.resolveFor Scope.resolve
  rcases hr : scope.resolveToken token.toList with part | t
  · obtain ⟨hnone, hcore⟩ := Scope.resolveToken_eq_error_iff.mp hr
    apply verdict_single
    · intro a ha; cases ha
    · intro e he
      obtain rfl := Except.error.inj he
      exact ⟨part, fun ⟨t, ht⟩ => hnone t ht, hcore, rfl⟩
  · apply verdict_single
    · intro _ _
      exact ⟨t, Scope.resolveToken_eq_ok_iff.mp hr⟩
    · intro e he; cases he

theorem verdict_compileOptional {α : Type} {compile : String → Except SchemaError α}
    {mention : String → Mention} (h : ∀ token, Verdict scope [mention token] (compile token))
    (token : Option String) :
    Verdict scope (token.toList.map mention) (compileOptional compile token) := by
  cases token with
  | none => exact verdict_pure _
  | some token => exact (h token).map some

theorem verdict_compileProperties (owner : Ident) (properties : List (Ident × String)) :
    Verdict scope (properties.map fun p => ⟨owner.text, .slot, p.2⟩)
      (compileProperties scope owner properties) := by
  induction properties with
  | nil => exact verdict_pure _
  | cons p rest ih =>
    rw [compileProperties]
    refine (verdict_compileToken owner p.2).bind fun t => ?_
    exact ih.bind_pure fun ps => (p.1, t) :: ps

/-- The tokens of a definition are looked at in their order. -/
theorem verdict_compile (definition : TypeDefinition) :
    Verdict scope definition.mentions (definition.compile scope) := by
  unfold compile mentions
  rw [List.append_assoc]
  refine (verdict_compileOptional (verdict_compileParent definition.name) _).bind fun parent => ?_
  refine (verdict_compileOptional (verdict_compileToken definition.name) _).bind fun wildcard => ?_
  exact (verdict_compileProperties definition.name definition.properties).bind_pure _

end TypeDefinition

namespace Document

/-- The tokens of a document are looked at in their order. -/
theorem verdict_compileTypes (scope : Scope) (types : List TypeDefinition) :
    Verdict scope (types.flatMap TypeDefinition.mentions) (compileTypes scope types) := by
  induction types with
  | nil => exact verdict_pure _
  | cons definition rest ih =>
    rw [compileTypes, List.flatMap_cons]
    refine definition.verdict_compile.bind fun d => ?_
    exact ih.bind_pure fun ds => d :: ds

end Document

/-! ### Who extends whom -/

/-- A name, and that of the type that it extends. -/
def Descriptor.heading (d : Descriptor) : Ident × Option String :=
  (d.name, d.parent.map fun p => p.name.text)

/-- A name, and the token of the type that it extends without the blanks around it. -/
def TypeDefinition.heading (definition : TypeDefinition) : Ident × Option String :=
  (definition.name, definition.parent.map fun token => String.ofList (Text.trim token.toList))

/-- One type extends the other by what a schema says of its parent. -/
def Json.Extends (schema : Json) (x y : Ident) : Prop :=
  ∃ m ∈ schema.mentions, m.owner = x.text ∧ m.role = .parent ∧ m.word = y.text

namespace TypeDefinition

theorem heading_of_compileParent {owner : Ident} {token : Option String} {parent : Option ClassRef}
    (h : compileOptional (compileParent scope owner) token = .ok parent) :
    (parent.map fun p => p.name.text) =
      token.map fun token => String.ofList (Text.trim token.toList) := by
  rcases token with _ | token
  · rw [← Except.ok.inj h]
    rfl
  · obtain ⟨r, hr, rfl⟩ := Except.map_eq_ok_iff.mp h
    unfold compileParent at hr
    dsimp only at hr
    split at hr
    · next r' hr' =>
      obtain ⟨x, -, hword, hrefer⟩ := Scope.reference?_eq_some_iff.mp hr'
      obtain rfl := Except.ok.inj hr
      rw [hrefer]
      exact congrArg some hword
    · cases hr

theorem heading_of_compile {definition : TypeDefinition} {d : Descriptor}
    (h : definition.compile scope = .ok d) : d.heading = definition.heading := by
  obtain ⟨parent, hparent, h⟩ := Except.bind_eq_ok_iff.mp h
  obtain ⟨wildcard, -, h⟩ := Except.bind_eq_ok_iff.mp h
  obtain ⟨properties, -, h⟩ := Except.bind_eq_ok_iff.mp h
  obtain rfl := Except.ok.inj h
  exact congrArg (definition.name, ·) (heading_of_compileParent hparent)

theorem mem_mentions_parent {definition : TypeDefinition} {m : Mention}
    (hm : m ∈ definition.mentions) (hrole : m.role = .parent) :
    definition.heading.2 = some m.word ∧ m.owner = definition.name.text := by
  rcases List.mem_append.mp hm with hm | hm
  · rcases List.mem_append.mp hm with hm | hm
    · obtain ⟨token, htoken, rfl⟩ := List.mem_map.mp hm
      rw [heading, Option.mem_toList.mp htoken]
      exact ⟨rfl, rfl⟩
    · obtain ⟨token, -, rfl⟩ := List.mem_map.mp hm
      cases hrole
  · obtain ⟨p, -, rfl⟩ := List.mem_map.mp hm
    cases hrole

theorem exists_mention_of_heading {definition : TypeDefinition} {word : String}
    (h : definition.heading.2 = some word) :
    ∃ m ∈ definition.mentions, m.owner = definition.name.text ∧ m.role = .parent ∧
      m.word = word := by
  obtain ⟨token, htoken, rfl⟩ := Option.map_eq_some_iff.mp h
  refine ⟨⟨definition.name.text, .parent, token⟩, ?_, rfl, rfl, rfl⟩
  simp [mentions, htoken]

end TypeDefinition

namespace Document

theorem heading_of_compileTypes {types : List TypeDefinition} {ds : List Descriptor}
    (h : compileTypes scope types = .ok ds) :
    ds.map Descriptor.heading = types.map TypeDefinition.heading := by
  have hsteps := Except.forall₂_of_steps (TypeDefinition.compile scope) h rfl fun _ _ => rfl
  clear h
  induction hsteps with
  | nil => rfl
  | cons hd _ ih => rw [List.map_cons, List.map_cons, TypeDefinition.heading_of_compile hd, ih]

/-- Descriptors are named as the types are, in the same order. -/
theorem names_of_compileTypes {types : List TypeDefinition} {ds : List Descriptor}
    (h : compileTypes scope types = .ok ds) :
    ds.map Descriptor.name = types.map TypeDefinition.name := by
  have hheading := congrArg (List.map Prod.fst) (heading_of_compileTypes h)
  rwa [List.map_map, List.map_map] at hheading

variable {schema : Json} {doc : Document} {ds : List Descriptor}

theorem nodup_names (hnames : schema.declaredNames.Nodup) (hdoc : ofJson schema = .ok doc)
    (h : compileTypes scope doc.types = .ok ds) : (ds.map Descriptor.name).Nodup := by
  rw [← names_of_ofJson hdoc] at hnames
  rw [names_of_compileTypes h]
  exact hnames.of_map _

/-- Among the descriptors of a schema one name extends another as the schema says. -/
theorem extends_eq (hnames : schema.declaredNames.Nodup) (hdoc : ofJson schema = .ok doc)
    (h : compileTypes scope doc.types = .ok ds) : Extends ds = schema.Extends := by
  have hnodup := nodup_names hnames hdoc h
  have hheading := heading_of_compileTypes h
  funext x y
  rw [Json.Extends, ← mentions_of_ofJson hdoc]
  refine propext ⟨?_, ?_⟩
  · rintro ⟨d, p, hd, hp, rfl⟩
    have hmem := List.mem_map_of_mem (f := Descriptor.heading) (mem_of_declared? hd)
    rw [hheading] at hmem
    obtain ⟨definition, hdefinition, heq⟩ := List.mem_map.mp hmem
    have hparent : definition.heading.2 = some p.name.text := by
      rw [heq, Descriptor.heading, hp]
      rfl
    obtain ⟨m, hm, howner, hrole, hword⟩ := TypeDefinition.exists_mention_of_heading hparent
    refine ⟨m, List.mem_flatMap.mpr ⟨definition, hdefinition, hm⟩, ?_, hrole, hword⟩
    rw [howner, ← name_of_declared? hd]
    exact congrArg (fun line => Ident.text line.1) heq
  · rintro ⟨m, hm, howner, hrole, hword⟩
    obtain ⟨definition, hdefinition, hm⟩ := List.mem_flatMap.mp hm
    obtain ⟨hparent, hname⟩ := TypeDefinition.mem_mentions_parent hm hrole
    have hmem := List.mem_map_of_mem (f := TypeDefinition.heading) hdefinition
    rw [← hheading] at hmem
    obtain ⟨d, hd, heq⟩ := List.mem_map.mp hmem
    have hx : d.name = x := by
      have hfst : d.name = definition.name := congrArg Prod.fst heq
      exact Ident.text_injective (by rw [hfst, ← hname, howner])
    have hsnd : d.heading.2 = some y.text := by rw [heq, hparent, hword]
    obtain ⟨p, hp, hy⟩ := Option.map_eq_some_iff.mp hsnd
    exact ⟨d, p, hx ▸ declared?_of_mem hnodup hd, hp, Ident.text_injective hy⟩

/-! ### Acceptance -/

theorem compile_of_compileTypes {options : Options}
    (h : compileTypes (doc.scope options) doc.types = .ok ds) :
    doc.compile options = (do checkInheritance ds; pure ds) := by
  rw [compile, h]
  rfl

/-- What compilation comes to: the first token that does not stand, or a cycle where all tokens do,
or descriptors where there is no cycle either. -/
theorem compile_cases (hnames : schema.declaredNames.Nodup) (hdoc : ofJson schema = .ok doc)
    (options : Options) :
    (∃ m part, FirstDefect (doc.scope options) schema.mentions m part ∧
      doc.compile options = .error (.unknownType part m.owner)) ∨
    (∀ m ∈ schema.mentions, m.Stands (doc.scope options)) ∧
      ((∃ chain, IsCycle schema.Extends chain ∧
          doc.compile options = .error (.inheritanceCycle chain)) ∨
        Acyclic schema.Extends ∧ ∃ ds, doc.compile options = .ok ds) := by
  have hverdict := verdict_compileTypes (doc.scope options) doc.types
  rw [mentions_of_ofJson hdoc] at hverdict
  rcases htypes : compileTypes (doc.scope options) doc.types with e | ds
  · rw [htypes] at hverdict
    obtain ⟨m, part, hfirst, rfl⟩ := hverdict
    refine Or.inl ⟨m, part, hfirst, ?_⟩
    rw [compile, htypes]
    rfl
  · rw [htypes] at hverdict
    refine Or.inr ⟨hverdict, ?_⟩
    rw [← extends_eq hnames hdoc htypes]
    rcases hcheck : checkInheritance ds with e | ⟨⟩
    · obtain ⟨chain, rfl, hcycle⟩ :=
        isCycle_of_checkInheritance (nodup_names hnames hdoc htypes) hcheck
      refine Or.inl ⟨chain, hcycle, ?_⟩
      rw [compile_of_compileTypes htypes, hcheck]
      rfl
    · refine Or.inr ⟨acyclic_of_checkInheritance hcheck, ds, ?_⟩
      rw [compile_of_compileTypes htypes, hcheck]
      rfl

/-- **Which documents compile, and what the others are refused for.**  A document compiles exactly
if every token stands among the declared names and no type is above itself.  Otherwise the first
token that does not stand is reported, in the order of types and, inside a type, of parent, wildcard
and properties; and a cycle is reported only where all tokens stand.  That no type is declared twice
is so wherever objects repeat no key, as in `Json.nodup_declaredNames_of_ofSource`. -/
theorem compile_reports_first_defect (hnames : schema.declaredNames.Nodup)
    (hdoc : ofJson schema = .ok doc) (options : Options) :
    (doc.scope options).declared.map Ident.text = schema.declaredNames ∧
    ((∃ ds, doc.compile options = .ok ds) ↔
      (∀ m ∈ schema.mentions, m.Stands (doc.scope options)) ∧ Acyclic schema.Extends) ∧
    (∀ part owner, doc.compile options = .error (.unknownType part owner) ↔
      ∃ m, FirstDefect (doc.scope options) schema.mentions m part ∧ m.owner = owner) ∧
    (∀ chain, doc.compile options = .error (.inheritanceCycle chain) →
      (∀ m ∈ schema.mentions, m.Stands (doc.scope options)) ∧ IsCycle schema.Extends chain) ∧
    ∀ e, doc.compile options = .error e →
      (∃ part owner, e = .unknownType part owner) ∨ ∃ chain, e = .inheritanceCycle chain := by
  refine ⟨names_of_ofJson hdoc, ?_⟩
  rcases compile_cases hnames hdoc options with
    ⟨m, part, hfirst, he⟩ | ⟨hall, ⟨chain, hcycle, he⟩ | ⟨hacyclic, ds, hds⟩⟩
  · rw [he]
    refine ⟨⟨?_, fun h => (hfirst.not_all h.1).elim⟩, ?_, ?_, ?_⟩
    · rintro ⟨ds, h⟩
      cases h
    · intro part' owner
      constructor
      · intro h
        obtain ⟨rfl, rfl⟩ := SchemaError.unknownType.inj (Except.error.inj h)
        exact ⟨m, hfirst, rfl⟩
      · rintro ⟨m', hfirst', rfl⟩
        obtain ⟨rfl, rfl⟩ := hfirst.unique hfirst'
        rfl
    · intro chain h
      cases h
    · intro e h
      obtain rfl := Except.error.inj h
      exact Or.inl ⟨part, m.owner, rfl⟩
  · rw [he]
    refine ⟨⟨?_, fun h => (hcycle.not_acyclic h.2).elim⟩, ?_, ?_, ?_⟩
    · rintro ⟨ds, h⟩
      cases h
    · intro part owner
      refine ⟨fun h => (by cases h), ?_⟩
      rintro ⟨m, hfirst, -⟩
      exact (hfirst.not_all hall).elim
    · intro chain' h
      obtain rfl := SchemaError.inheritanceCycle.inj (Except.error.inj h)
      exact ⟨hall, hcycle⟩
    · intro e h
      obtain rfl := Except.error.inj h
      exact Or.inr ⟨chain, rfl⟩
  · rw [hds]
    refine ⟨⟨fun _ => ⟨hall, hacyclic⟩, fun _ => ⟨ds, rfl⟩⟩, ?_, ?_, ?_⟩
    · intro part owner
      refine ⟨fun h => (by cases h), ?_⟩
      rintro ⟨m, hfirst, -⟩
      exact (hfirst.not_all hall).elim
    · intro chain h
      cases h
    · intro e h
      cases h

/-- A schema with three defects: a property, a parent whose key comes later, and a cycle. -/
def astray : Json :=
  .obj [("leaf", .obj [("size", .str "ghost"), ("_parent", .str " nowhere ")]),
    ("tree", .obj [("_parent", .str "tree")])]

theorem astray_reports_parent :
    astray.declaredNames.Nodup ∧ ∃ doc, ofJson astray = .ok doc ∧
      doc.compile {} = .error (.unknownType "nowhere" "leaf") ∧
      ∃ m, FirstDefect (doc.scope {}) astray.mentions m "nowhere" ∧ m.owner = "leaf" := by
  have hnames : astray.declaredNames.Nodup := by decide
  have hcompile : ∃ doc, ofJson astray = .ok doc ∧
      doc.compile {} = .error (.unknownType "nowhere" "leaf") :=
    ⟨_, by with_unfolding_all rfl, by with_unfolding_all rfl⟩
  obtain ⟨doc, hdoc, he⟩ := hcompile
  have hreport := (compile_reports_first_defect hnames hdoc {}).2.2.1
  exact ⟨hnames, doc, hdoc, he, (hreport _ _).mp he⟩

end Document
end ClassSchema
