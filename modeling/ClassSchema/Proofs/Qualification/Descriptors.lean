/-
What the options put into descriptors, and nothing else.

* `SlotType.bare`, `Descriptor.bare` — a type, or a descriptor, without namespaces: every qualified
  name is blank;
* `Scope.resolve_bare` — what a token stands for is the same in all namespaces, but for that;
* `checkInheritance_bare` — whether parents run into a cycle has nothing to do with namespaces;
* `Json.compileSchema_bare` — so under all options a schema is refused for the same defect or
  compiles to the same descriptors.

Design notes: two scopes that declare the same types are compared through what is left of their
results once `bare` has forgotten the names, as in `(r.map bare) = (r'.map bare)`.  That says at
once that the same errors come out, since nothing is forgotten of an error.
-/
import ClassSchema.Compilation
import ClassSchema.Proofs.Entries
import ClassSchema.Proofs.Outcome

namespace ClassSchema

/-- A declared type without its namespace. -/
def ClassRef.bare (r : ClassRef) : ClassRef := ⟨r.name, ""⟩

/-- A type without the namespaces of the classes in it. -/
def SlotType.bare : SlotType → SlotType
  | primitive p => primitive p
  | arrayOf t => arrayOf t.bare
  | reference r => reference r.bare

/-- An accessor without the namespaces in its type. -/
def Signature.bare (s : Signature) : Signature := ⟨s.accessor, s.valueType.bare⟩

/-- A descriptor without its namespace and those of the classes it names. -/
def Descriptor.bare (d : Descriptor) : Descriptor where
  name := d.name
  namespacePath := none
  qualified := ""
  parent := d.parent.map ClassRef.bare
  properties := Entries.mapValues SlotType.bare d.properties
  wildcard := d.wildcard.map SlotType.bare

/-! ### What does not depend on namespaces -/

namespace SlotType

@[simp] theorem isArray_bare (t : SlotType) : t.bare.isArray = t.isArray := by
  cases t <;> rfl

@[simp] theorem elementType?_bare (t : SlotType) :
    t.bare.elementType? = t.elementType?.map bare := by
  cases t <;> rfl

@[simp] theorem elementName_bare (t : SlotType) : t.bare.elementName = t.elementName := by
  cases t <;> rfl

@[simp] theorem element_bare (t : SlotType) : t.bare.element = t.element.bare := by
  cases t <;> rfl

end SlotType

namespace Descriptor

theorem propertySignatures_bare (x : Ident) (t : SlotType) :
    propertySignatures (x, t.bare) = (propertySignatures (x, t)).map Signature.bare := by
  simp only [propertySignatures, SlotType.elementType?_bare]
  rcases t.elementType? with _ | element
  · rfl
  · rfl

/-- The accessors are the same, each under its name and with its type. -/
theorem signatures_bare (d : Descriptor) : d.bare.signatures = d.signatures.map Signature.bare := by
  have hproperties : ∀ ps : List (Ident × SlotType),
      (Entries.mapValues SlotType.bare ps).flatMap propertySignatures =
        (ps.flatMap propertySignatures).map Signature.bare := by
    intro ps
    induction ps with
    | nil => rfl
    | cons p rest ih =>
      rw [Entries.mapValues_cons, List.flatMap_cons, List.flatMap_cons, List.map_append, ih,
        propertySignatures_bare]
  rw [signatures, signatures, List.map_append, ← hproperties]
  rcases d with ⟨x, path, qualified, parent, properties, wildcard⟩
  rcases wildcard with _ | t
  · rfl
  · simp [bare, wildcardSignature, Signature.bare]

end Descriptor

/-! ### Resolution -/

variable {s s' : Scope}

theorem Scope.reference?_bare (h : s.declared = s'.declared) (word : String) :
    (s.reference? word).map ClassRef.bare = (s'.reference? word).map ClassRef.bare := by
  rw [reference?, reference?, h, Option.map_map, Option.map_map]
  rfl

theorem Scope.leaf?_bare (h : s.declared = s'.declared) (token : List Char) :
    (s.leaf? token).map SlotType.bare = (s'.leaf? token).map SlotType.bare := by
  unfold leaf?
  split
  · rfl
  · have hrefer := reference?_bare h (String.ofList token)
    have hmap : ∀ r : Option ClassRef, (r.map SlotType.reference).map SlotType.bare =
        (r.map ClassRef.bare).map SlotType.reference := by
      intro r
      rcases r with _ | r <;> rfl
    rw [hmap, hmap, hrefer]

theorem Scope.resolveToken_bare (h : s.declared = s'.declared) (token : List Char) :
    (s.resolveToken token).map SlotType.bare = (s'.resolveToken token).map SlotType.bare := by
  fun_induction s.resolveToken token with
  | case1 token inner hinner ih =>
    -- an array on both sides, around elements that agree
    have harray : ∀ r : Except String SlotType, (r.map SlotType.arrayOf).map SlotType.bare =
        (r.map SlotType.bare).map SlotType.arrayOf := by
      intro r
      rcases r with e | t <;> rfl
    rw [resolveToken.eq_def s', hinner]
    dsimp only
    rw [harray, harray, ih]
  | case2 token hinner t hleaf =>
    have hagree := leaf?_bare h (Text.trim token)
    rw [hleaf] at hagree
    obtain ⟨t', hleaf', ht⟩ := Option.map_eq_some_iff.mp hagree.symm
    rw [resolveToken.eq_def s', hinner]
    dsimp only
    rw [hleaf']
    exact congrArg Except.ok ht.symm
  | case3 token hinner hleaf =>
    have hagree := leaf?_bare h (Text.trim token)
    rw [hleaf] at hagree
    have hleaf' : s'.leaf? (Text.trim token) = none := Option.map_eq_none_iff.mp hagree.symm
    rw [resolveToken.eq_def s', hinner]
    dsimp only
    rw [hleaf']

/-- What a token stands for is the same in all namespaces, but for qualified names. -/
theorem Scope.resolve_bare (h : s.declared = s'.declared) (token : String) :
    (s.resolve token).map SlotType.bare = (s'.resolve token).map SlotType.bare :=
  resolveToken_bare h token.toList

/-! ### Compilation -/

namespace TypeDefinition

theorem compileParent_bare (h : s.declared = s'.declared) (owner : Ident) (token : String) :
    (compileParent s owner token).map ClassRef.bare =
      (compileParent s' owner token).map ClassRef.bare := by
  have hagree := Scope.reference?_bare h (String.ofList (Text.trim token.toList))
  unfold compileParent
  dsimp only
  rcases hr : s.reference? (String.ofList (Text.trim token.toList)) with _ | r
  · rw [hr] at hagree
    rw [Option.map_eq_none_iff.mp hagree.symm]
  · rw [hr] at hagree
    obtain ⟨r', hr', heq⟩ := Option.map_eq_some_iff.mp hagree.symm
    rw [hr']
    exact congrArg Except.ok heq.symm

theorem compileToken_bare (h : s.declared = s'.declared) (owner : Ident) (token : String) :
    (compileToken s owner token).map SlotType.bare =
      (compileToken s' owner token).map SlotType.bare := by
  unfold compileToken Scope.resolveFor
  rcases Except.agree_of_map_eq (Scope.resolve_bare h token) with
    ⟨failing, hr, hr'⟩ | ⟨t, t', hr, hr', ht⟩
  · rw [hr, hr']
  · rw [hr, hr']
    exact congrArg Except.ok ht

theorem compileOptional_bare {α : Type} {bare : α → α}
    {compile compile' : String → Except SchemaError α}
    (h : ∀ token, (compile token).map bare = (compile' token).map bare) (token : Option String) :
    (compileOptional compile token).map (Option.map bare) =
      (compileOptional compile' token).map (Option.map bare) := by
  rcases token with _ | token
  · rfl
  · have hsome : ∀ r : Except SchemaError α, (r.map some).map (Option.map bare) =
        (r.map bare).map some := by
      intro r
      rcases r with e | a <;> rfl
    rw [compileOptional, compileOptional, hsome, hsome, h]

theorem compileProperties_bare (h : s.declared = s'.declared) (owner : Ident)
    (properties : List (Ident × String)) :
    (compileProperties s owner properties).map (Entries.mapValues SlotType.bare) =
      (compileProperties s' owner properties).map (Entries.mapValues SlotType.bare) := by
  induction properties with
  | nil => rfl
  | cons p rest ih =>
    refine Except.map_bind_congr (compileToken_bare h owner p.2) fun t t' ht => ?_
    refine Except.map_bind_congr ih fun ps ps' hps => ?_
    show Except.ok ((p.1, t.bare) :: Entries.mapValues _ ps) =
      Except.ok ((p.1, t'.bare) :: Entries.mapValues _ ps')
    rw [ht, hps]

/-- The descriptor of a type is the same in all namespaces, but for qualified names. -/
theorem compile_bare (h : s.declared = s'.declared) (definition : TypeDefinition) :
    (definition.compile s).map Descriptor.bare = (definition.compile s').map Descriptor.bare := by
  refine Except.map_bind_congr
    (compileOptional_bare (compileParent_bare h definition.name) definition.parent)
    fun parent parent' hparent => ?_
  refine Except.map_bind_congr
    (compileOptional_bare (compileToken_bare h definition.name) definition.any)
    fun wildcard wildcard' hwildcard => ?_
  refine Except.map_bind_congr
    (compileProperties_bare h definition.name definition.properties)
    fun properties properties' hproperties => ?_
  show Except.ok (Descriptor.mk _ _ _ (parent.map _) (Entries.mapValues _ properties)
      (wildcard.map _)) = Except.ok (Descriptor.mk _ _ _ (parent'.map _)
        (Entries.mapValues _ properties') (wildcard'.map _))
  rw [hparent, hproperties, hwildcard]

end TypeDefinition

namespace Document

theorem compileTypes_bare (h : s.declared = s'.declared) (types : List TypeDefinition) :
    (compileTypes s types).map (List.map Descriptor.bare) =
      (compileTypes s' types).map (List.map Descriptor.bare) := by
  induction types with
  | nil => rfl
  | cons definition rest ih =>
    refine Except.map_bind_congr (definition.compile_bare h) fun d d' hd => ?_
    refine Except.map_bind_congr ih fun ds ds' hds => ?_
    show Except.ok (d.bare :: _) = Except.ok (d'.bare :: _)
    rw [hd, hds]

/-- The search for a cycle reads the names of types and of their parents. -/
theorem checkInheritance_bare (ds : List Descriptor) :
    checkInheritance (ds.map Descriptor.bare) = checkInheritance ds := by
  have hparents :
      Inheritance.parentNames (ds.map Descriptor.bare) = Inheritance.parentNames ds := by
    rw [Inheritance.parentNames, Inheritance.parentNames, List.filterMap_map]
    refine congrArg Entries.ofList (List.filterMap_congr fun d _ => ?_)
    rcases hd : d.parent with _ | p
    · simp [Descriptor.bare, hd]
    · simp [Descriptor.bare, hd, ClassRef.bare]
  have hcycle : Inheritance.cycle? (ds.map Descriptor.bare) = Inheritance.cycle? ds := by
    rw [Inheritance.cycle?, Inheritance.cycle?, hparents, List.findSome?_map]
    rfl
  rw [checkInheritance, checkInheritance, hcycle]

theorem compile_bare (options others : Options) (doc : Document) :
    (doc.compile options).map (List.map Descriptor.bare) =
      (doc.compile others).map (List.map Descriptor.bare) := by
  have hdeclared : (doc.scope options).declared = (doc.scope others).declared := rfl
  refine Except.map_bind_congr (compileTypes_bare hdeclared doc.types) fun ds ds' hds => ?_
  have hcheck : checkInheritance ds = checkInheritance ds' := by
    rw [← checkInheritance_bare ds, ← checkInheritance_bare ds', hds]
  rw [hcheck]
  refine Except.map_bind_congr (f := id) rfl fun _ _ _ => ?_
  exact congrArg Except.ok hds

end Document

/-- Under all options a schema is refused for the same defect, or compiles to the same descriptors
but for qualified names. -/
theorem Json.compileSchema_bare (options others : Options) (schema : Json) :
    (schema.compileSchema options).map (List.map Descriptor.bare) =
      (schema.compileSchema others).map (List.map Descriptor.bare) := by
  refine Except.map_bind_congr (f := id) rfl fun doc doc' hdoc => ?_
  obtain rfl : doc = doc' := hdoc
  exact doc.compile_bare options others

end ClassSchema
