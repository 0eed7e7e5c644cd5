/-
The accessors that a linked class lists.

* `Accessor.CalledFor` — the accessors that properties and a wildcard call for;
* `exists_signature_iff` — a descriptor brings along those that its own properties and its own
  wildcard call for;
* `Flattens.mem_dispatch_iff` — a class lists all that is called for on its chain, and nothing else;
* `Class.LeftBehind` — what is called for on the chain, but not by the class itself;
* `listed_accessors` — so it is with every class of the registry of a schema.

Design notes: a class takes over the accessors of its parent, whatever it declares anew.  So an
accessor stays when the property that it adds to is no longer a typed array, or when another
wildcard takes the place of the one whose elements it is named after.
-/
import ClassSchema.Proofs.Flattening
import ClassSchema.Proofs.Naming

namespace ClassSchema

/-- The accessors that properties and a wildcard call for: two for every property, a third where it
holds a typed array, and one for the wildcard, named after its elements. -/
inductive Accessor.CalledFor (holds : String → SlotType → Prop) (wildcard : Option SlotType) :
    Accessor → Prop where
  | get {name : String} {t : SlotType} : holds name t → CalledFor holds wildcard ⟨.get, name⟩
  | set {name : String} {t : SlotType} : holds name t → CalledFor holds wildcard ⟨.set, name⟩
  | add {name : String} {element : SlotType} : holds name (.arrayOf element) →
      CalledFor holds wildcard ⟨.add, name⟩
  | append {t : SlotType} : wildcard = some t →
      CalledFor holds wildcard ⟨.append, t.element.elementName⟩

/-! ### What a descriptor brings along -/

namespace Descriptor

variable {d : Descriptor} {name : String} {t : SlotType} {a : Accessor}

/-- The descriptor gives a property a type. -/
def Declares (d : Descriptor) (name : String) (t : SlotType) : Prop :=
  ∃ x, (x, t) ∈ d.properties ∧ x.text = name

/-- The accessors that its own properties and its own wildcard call for. -/
def CallsFor (d : Descriptor) : Accessor → Prop := Accessor.CalledFor d.Declares d.wildcard

theorem declares_of_type? (h : d.type? name = some t) : d.Declares name t := by
  rw [type?, List.findRev?_eq_find?_reverse] at h
  obtain ⟨⟨x, u⟩, hfind, rfl⟩ := Option.map_eq_some_iff.mp h
  have hmem : (x, u) ∈ d.properties := List.mem_reverse.mp (List.mem_of_find?_eq_some hfind)
  have hname : x.text = name := by simpa using List.find?_some hfind
  exact ⟨x, hmem, hname⟩

theorem Declares.exists_type? (h : d.Declares name t) : ∃ u, d.type? name = some u := by
  obtain ⟨x, hx, rfl⟩ := h
  rw [← Option.isSome_iff_exists, type?, Option.isSome_map, List.findRev?_eq_find?_reverse,
    List.find?_isSome]
  exact ⟨(x, t), List.mem_reverse.mpr hx, by simp⟩

theorem mem_propertySignatures_iff {x : Ident} {s : Signature} :
    s ∈ propertySignatures (x, t) ↔ s = ⟨⟨.get, x.text⟩, t⟩ ∨ s = ⟨⟨.set, x.text⟩, t⟩ ∨
      ∃ element, t = .arrayOf element ∧ s = ⟨⟨.add, x.text⟩, element⟩ := by
  cases t with
  | arrayOf element => simp [propertySignatures, SlotType.elementType?]
  | _ => simp [propertySignatures, SlotType.elementType?]

/-- A descriptor brings along the accessors that it calls for. -/
theorem exists_signature_iff : (∃ s ∈ d.signatures, s.accessor = a) ↔ d.CallsFor a := by
  simp only [signatures, List.mem_append, List.mem_flatMap, List.mem_map, Option.mem_toList]
  constructor
  · rintro ⟨s, ⟨⟨x, t⟩, hx, hs⟩ | ⟨t, ht, rfl⟩, rfl⟩
    · rcases mem_propertySignatures_iff.mp hs with rfl | rfl | ⟨element, rfl, rfl⟩
      · exact .get ⟨x, hx, rfl⟩
      · exact .set ⟨x, hx, rfl⟩
      · exact .add ⟨x, hx, rfl⟩
    · exact .append ht
  · intro h
    cases h with
    | get h =>
      obtain ⟨x, hx, rfl⟩ := h
      exact ⟨_, Or.inl ⟨_, hx, mem_propertySignatures_iff.mpr (Or.inl rfl)⟩, rfl⟩
    | set h =>
      obtain ⟨x, hx, rfl⟩ := h
      exact ⟨_, Or.inl ⟨_, hx, mem_propertySignatures_iff.mpr (Or.inr (Or.inl rfl))⟩, rfl⟩
    | add h =>
      obtain ⟨x, hx, rfl⟩ := h
      exact ⟨_, Or.inl ⟨_, hx, mem_propertySignatures_iff.mpr (Or.inr (Or.inr ⟨_, rfl, rfl⟩))⟩, rfl⟩
    | append h => exact ⟨_, Or.inr ⟨_, h, rfl⟩, rfl⟩

end Descriptor

/-- The name of the type of elements is that of a type. -/
theorem SlotType.exists_ident_elementName (t : SlotType) : ∃ x : Ident, x.text = t.elementName := by
  cases t with
  | primitive p => cases p <;> exact ⟨⟨_, by decide⟩, rfl⟩
  | arrayOf element => exact ⟨⟨"array", by decide⟩, rfl⟩
  | reference r => exact ⟨r.name, rfl⟩

/-- An accessor that a descriptor calls for applies to something named. -/
theorem Descriptor.CallsFor.exists_ident {d : Descriptor} {a : Accessor} (h : d.CallsFor a) :
    ∃ x : Ident, x.text = a.target := by
  cases h with
  | get h | set h | add h =>
    obtain ⟨x, -, hx⟩ := h
    exact ⟨x, hx⟩
  | append h => exact SlotType.exists_ident_elementName _

/-- So its name is that of no other one. -/
theorem Descriptor.CallsFor.eq_of_name {d e : Descriptor} {a b : Accessor} (ha : d.CallsFor a)
    (hb : e.CallsFor b) (h : a.name = b.name) : a = b := by
  obtain ⟨x, hx⟩ := ha.exists_ident
  obtain ⟨y, hy⟩ := hb.exists_ident
  obtain ⟨v, target⟩ := a
  obtain ⟨w, target'⟩ := b
  obtain rfl : x.text = target := hx
  obtain rfl : y.text = target' := hy
  obtain ⟨rfl, rfl⟩ := Accessor.name_injective h
  rfl

/-! ### What a class lists -/

namespace Class

variable {c : Class} {chain : List Descriptor} {name : String} {t : SlotType} {a : Accessor}

/-- The accessors that the properties and the wildcard in effect call for. -/
def CallsFor (c : Class) : Accessor → Prop :=
  Accessor.CalledFor (fun name t => c.property? name = some t) c.wildcard

/-- The accessors that are called for on the chain, but not by the class itself: those that add to a
property which is no longer a typed array, and those named after the elements of a wildcard that
another one has replaced. -/
inductive LeftBehind (c : Class) (chain : List Descriptor) : Accessor → Prop where
  | add {d : Descriptor} {name : String} {element : SlotType} : d ∈ chain →
      d.Declares name (.arrayOf element) → (∀ e, c.property? name ≠ some (.arrayOf e)) →
      LeftBehind c chain ⟨.add, name⟩
  | append {d : Descriptor} {t u : SlotType} : d ∈ chain → d.wildcard = some t →
      c.wildcard = some u → t.element.elementName ≠ u.element.elementName →
      LeftBehind c chain ⟨.append, t.element.elementName⟩

theorem Flattens.declares_of_property? (h : c.Flattens chain) (ht : c.property? name = some t) :
    ∃ d ∈ chain, d.Declares name t := by
  rw [h.property] at ht
  obtain ⟨d, hd, htype⟩ := List.exists_of_findSome?_eq_some ht
  exact ⟨d, hd, Descriptor.declares_of_type? htype⟩

theorem Flattens.exists_property? (h : c.Flattens chain) {d : Descriptor} (hd : d ∈ chain)
    (ht : d.Declares name t) : ∃ u, c.property? name = some u := by
  rw [h.property, ← Option.isSome_iff_exists, List.findSome?_isSome_iff]
  exact ⟨d, hd, Option.isSome_iff_exists.mpr ht.exists_type?⟩

theorem Flattens.exists_wildcard (h : c.Flattens chain) {d : Descriptor} (hd : d ∈ chain)
    (ht : d.wildcard = some t) : ∃ u, c.wildcard = some u := by
  rw [h.wildcard, ← Option.isSome_iff_exists, List.findSome?_isSome_iff]
  exact ⟨d, hd, Option.isSome_iff_exists.mpr ⟨t, ht⟩⟩

theorem nodup_keys_dispatch_link (d : Descriptor) (above : List Descriptor) :
    (Entries.keys (link d above).dispatch).Nodup := by
  rw [dispatch_link]
  exact Entries.nodup_keys_ofList _

/-- A class lists all that is called for on its chain, each under its own name. -/
theorem Flattens.mem_dispatch_iff (h : c.Flattens chain) (hkeys : (Entries.keys c.dispatch).Nodup) :
    (name, a) ∈ c.dispatch ↔ name = a.name ∧ ∃ d ∈ chain, d.CallsFor a := by
  have hlisted : ∀ {b}, Entries.get? name c.dispatch = some b →
      name = b.name ∧ ∃ d ∈ chain, d.CallsFor b := by
    intro b hb
    rw [h.accessor] at hb
    obtain ⟨d, hd, hb⟩ := List.exists_of_findSome?_eq_some hb
    rw [Descriptor.accessor?, List.findRev?_eq_find?_reverse] at hb
    obtain ⟨s, hfind, rfl⟩ := Option.map_eq_some_iff.mp hb
    have hs : s ∈ d.signatures := List.mem_reverse.mp (List.mem_of_find?_eq_some hfind)
    have hname : s.accessor.name = name := by simpa using List.find?_some hfind
    exact ⟨hname.symm, d, hd, Descriptor.exists_signature_iff.mp ⟨s, hs, rfl⟩⟩
  constructor
  · exact fun hmem => hlisted (Entries.get?_of_mem hkeys hmem)
  · rintro ⟨rfl, d, hd, ha⟩
    obtain ⟨s, hs, rfl⟩ := Descriptor.exists_signature_iff.mpr ha
    -- something is listed under the name, and nothing else on the chain has that name
    have hkey := (h.accessorNames s.accessor.name).mpr ⟨d, hd, s, hs, rfl⟩
    obtain ⟨b, hb⟩ : ∃ b, Entries.get? s.accessor.name c.dispatch = some b := by
      rw [← Option.isSome_iff_exists]
      exact Entries.contains_iff.mpr hkey
    obtain ⟨hname, e, -, hcalls⟩ := hlisted hb
    obtain rfl := ha.eq_of_name hcalls hname
    exact Entries.mem_of_get? hb

/-- What is called for on the chain is called for by the class, or left behind. -/
theorem Flattens.exists_callsFor_iff (h : c.Flattens chain) :
    (∃ d ∈ chain, d.CallsFor a) ↔ c.CallsFor a ∨ c.LeftBehind chain a := by
  constructor
  · rintro ⟨d, hd, hcalls⟩
    cases hcalls with
    | get ht =>
      obtain ⟨u, hu⟩ := h.exists_property? hd ht
      exact Or.inl (.get hu)
    | set ht =>
      obtain ⟨u, hu⟩ := h.exists_property? hd ht
      exact Or.inl (.set hu)
    | @add name element ht =>
      -- the property is there, but it may have been declared again as something else
      by_cases harray : ∃ e, c.property? name = some (.arrayOf e)
      · obtain ⟨e, he⟩ := harray
        exact Or.inl (.add he)
      · exact Or.inr (.add hd ht fun e he => harray ⟨e, he⟩)
    | @append t ht =>
      -- some wildcard is in effect, maybe with elements of the same name
      obtain ⟨u, hu⟩ := h.exists_wildcard hd ht
      by_cases hname : t.element.elementName = u.element.elementName
      · rw [hname]
        exact Or.inl (.append hu)
      · exact Or.inr (.append hd ht hu hname)
  · rintro (hcalls | hleft)
    · cases hcalls with
      | get ht =>
        obtain ⟨d, hd, ht⟩ := h.declares_of_property? ht
        exact ⟨d, hd, .get ht⟩
      | set ht =>
        obtain ⟨d, hd, ht⟩ := h.declares_of_property? ht
        exact ⟨d, hd, .set ht⟩
      | add ht =>
        obtain ⟨d, hd, ht⟩ := h.declares_of_property? ht
        exact ⟨d, hd, .add ht⟩
      | append ht =>
        rw [h.wildcard] at ht
        obtain ⟨d, hd, ht⟩ := List.exists_of_findSome?_eq_some ht
        exact ⟨d, hd, .append ht⟩
    · cases hleft with
      | add hd ht _ => exact ⟨_, hd, .add ht⟩
      | append hd ht _ _ => exact ⟨_, hd, .append ht⟩

theorem LeftBehind.not_callsFor (h : c.LeftBehind chain a) : ¬ c.CallsFor a := by
  intro hcalls
  cases h with
  | add _ _ hnot =>
    cases hcalls with
    | add ht => exact hnot _ ht
  | @append d t u _ _ hu hname =>
    generalize htarget : t.element.elementName = target at hcalls hname
    cases hcalls with
    | append hu' =>
      obtain rfl := Option.some.inj (hu.symm.trans hu')
      exact hname rfl

end Class

/-! ### Registries -/

namespace Registry

theorem exists_descriptors {options : Options} {schema : Json} {r : Registry}
    (h : ofSchema options schema = .ok r) :
    ∃ ds, schema.compileSchema options = .ok ds ∧ link ds = .ok r := by
  unfold ofSchema at h
  split at h
  · next ds hds => exact ⟨ds, hds, h⟩
  · cases h

/-- **What the classes of a schema list.**  A class lists, each under its own name, the accessors
that its properties and its wildcard call for, and those that its chain has left behind.  The two
never coincide, so it lists just what it calls for exactly if nothing is left behind. -/
theorem listed_accessors {options : Options} {schema : Json} {r : Registry}
    (hr : ofSchema options schema = .ok r) {c : Class} (hc : c ∈ r.classes) :
    ∃ ds chain, schema.compileSchema options = .ok ds ∧ ParentChain ds c.descriptor chain ∧
      (Entries.keys c.dispatch).Nodup ∧
      (∀ name a, (name, a) ∈ c.dispatch ↔
        name = a.name ∧ (c.CallsFor a ∨ c.LeftBehind chain a)) ∧
      (∀ a, c.LeftBehind chain a → ¬ c.CallsFor a) ∧
      ((∀ name a, (name, a) ∈ c.dispatch ↔ name = a.name ∧ c.CallsFor a) ↔
        ∀ a, ¬ c.LeftBehind chain a) := by
  obtain ⟨ds, hds, hlink⟩ := exists_descriptors hr
  obtain ⟨above, hclass, hchain, -⟩ := exists_chain_of_mem hlink hc
  have hflattens : c.Flattens (c.descriptor :: above) := by
    rw [hclass, descriptor_link]
    exact Class.flattens_link _ _
  have hkeys : (Entries.keys c.dispatch).Nodup := by
    rw [hclass]
    exact Class.nodup_keys_dispatch_link _ _
  have hlists : ∀ name a, (name, a) ∈ c.dispatch ↔
      name = a.name ∧ (c.CallsFor a ∨ c.LeftBehind (c.descriptor :: above) a) := by
    intro name a
    rw [hflattens.mem_dispatch_iff hkeys, hflattens.exists_callsFor_iff]
  refine ⟨ds, c.descriptor :: above, hds, hchain, hkeys, hlists, fun a => (·.not_callsFor), ?_⟩
  constructor
  · intro hexact a hleft
    have hmem := (hlists a.name a).mpr ⟨rfl, Or.inr hleft⟩
    exact hleft.not_callsFor ((hexact a.name a).mp hmem).2
  · intro hnone name a
    rw [hlists, or_iff_left (hnone a)]

end Registry

/-! ### A type that declares everything anew -/

/-- A type with a property that holds strings in an array, and the same for its wildcard. -/
def broad : Descriptor where
  name := ⟨"broad", by decide⟩
  namespacePath := none
  qualified := "Broad"
  parent := none
  properties := [(⟨"items", by decide⟩, .arrayOf (.primitive .string))]
  wildcard := some (.arrayOf (.primitive .string))

/-- The same property holds a single string, and the wildcard holds integers. -/
def narrow : Descriptor where
  name := ⟨"narrow", by decide⟩
  namespacePath := none
  qualified := "Narrow"
  parent := some ⟨broad.name, "Broad"⟩
  properties := [(⟨"items", by decide⟩, .primitive .string)]
  wildcard := some (.arrayOf (.primitive .int))

/-- The two types as a schema. -/
def narrowing : Json :=
  .obj [("broad", .obj [("items", .str "internal:array[internal:string]"),
      ("_any", .str "array[internal:string]")]),
    ("narrow", .obj [("_parent", .str "broad"), ("items", .str "internal:string"),
      ("_any", .str "array[internal:int]")])]

theorem ofSchema_narrowing : Registry.ofSchema {} narrowing =
    .ok ⟨[Class.link broad [], Class.link narrow [broad]]⟩ := by
  have hcompile : narrowing.compileSchema {} = .ok [broad, narrow] := by with_unfolding_all rfl
  rw [Registry.ofSchema, hcompile]
  with_unfolding_all rfl

/-- The adder of the property and the appender of strings stay, and nothing calls for them. -/
theorem narrow_keeps_accessors :
    Registry.ofSchema {} narrowing = .ok ⟨[Class.link broad [], Class.link narrow [broad]]⟩ ∧
    ("addItems", ⟨.add, "items"⟩) ∈ (Class.link narrow [broad]).dispatch ∧
    ¬ (Class.link narrow [broad]).CallsFor ⟨.add, "items"⟩ ∧
    ("appendString", ⟨.append, "string"⟩) ∈ (Class.link narrow [broad]).dispatch ∧
    ¬ (Class.link narrow [broad]).CallsFor ⟨.append, "string"⟩ := by
  refine ⟨ofSchema_narrowing, by decide, ?_, by decide, ?_⟩
  · intro h
    cases h with
    | add h => cases h
  · intro h
    generalize htarget : "string" = target at h
    cases h with
    | append h =>
      obtain rfl := Option.some.inj h
      exact absurd htarget (by decide)

theorem narrow_lists_what_is_left :
    Registry.ofSchema {} narrowing = .ok ⟨[Class.link broad [], Class.link narrow [broad]]⟩ ∧
    ∃ ds chain, narrowing.compileSchema {} = .ok ds ∧ ParentChain ds narrow chain ∧
      ∀ name a, (name, a) ∈ (Class.link narrow [broad]).dispatch ↔
        name = a.name ∧ ((Class.link narrow [broad]).CallsFor a ∨
          (Class.link narrow [broad]).LeftBehind chain a) := by
  have hmem : Class.link narrow [broad] ∈ [Class.link broad [], Class.link narrow [broad]] := by
    simp
  obtain ⟨ds, chain, hds, hchain, -, hlists, -⟩ :=
    Registry.listed_accessors ofSchema_narrowing hmem
  exact ⟨ofSchema_narrowing, ds, chain, hds, hchain, hlists⟩

end ClassSchema
