/-
What a class has in common with the classes above it.

* `ParentChain.exists_suffix` — the chain of a type goes on, from every type on it, as the chain of
  that type;
* `isSuffix_of_isA` — so the chain of a class ends with that of every class which it is one of;
* `inheritance_extends` — a class has all the properties and all the accessors of those above it.

Design notes: a name may lead to an accessor in two ways, through the table of the class or through
the name itself, and the ways may differ from class to class.  Both grow with the chain and with the
wildcards on it, and they agree wherever both are open (`accessor?_eq_some_iff`).
-/
import ClassSchema.Proofs.AccessorName

namespace ClassSchema

variable {ds : List Descriptor}

/-! ### Chains of chains -/

/-- The chain of a type goes on, from every type on it, as the chain of that type. -/
theorem ParentChain.exists_suffix {d e : Descriptor} {chain : List Descriptor}
    (h : ParentChain ds d chain) (he : e ∈ chain) :
    ∃ tail, ParentChain ds e tail ∧ tail <:+ chain := by
  induction h with
  | root hnone =>
    obtain rfl := List.mem_singleton.mp he
    exact ⟨_, .root hnone, List.suffix_rfl⟩
  | child hp hdeclared hchain ih =>
    rcases List.mem_cons.mp he with rfl | he
    · exact ⟨_, .child hp hdeclared hchain, List.suffix_rfl⟩
    · obtain ⟨tail, htail, hsuffix⟩ := ih he
      exact ⟨tail, htail, hsuffix.trans (List.suffix_cons _ _)⟩

/-- Whatever stands on a chain counts for its name. -/
theorem ParentChain.declared?_of_mem {d e : Descriptor} {chain : List Descriptor}
    (h : ParentChain ds d chain) (hd : declared? ds d.name = some d) (he : e ∈ chain) :
    declared? ds e.name = some e := by
  induction h with
  | root hnone =>
    obtain rfl := List.mem_singleton.mp he
    exact hd
  | child hp hdeclared hchain ih =>
    rcases List.mem_cons.mp he with rfl | he
    · exact hd
    · refine ih ?_ he
      rw [name_of_declared? hdeclared]
      exact hdeclared

namespace Registry

/-- The chain of a class ends with that of every class which it is one of. -/
theorem isSuffix_of_isA {c a : Class} {chain above : List Descriptor}
    (hchain : ParentChain ds c.descriptor chain) (hc : declared? ds c.name = some c.descriptor)
    (hflattens : c.Flattens chain) (habove : ParentChain ds a.descriptor above)
    (ha : declared? ds a.name = some a.descriptor) (h : c.isA a.name.text = true) :
    above <:+ chain := by
  obtain ⟨d, hd, hname⟩ := (hflattens.isA_iff _).mp h
  have hcounts : declared? ds a.name = some d := by
    rw [← Ident.text_injective hname]
    exact hchain.declared?_of_mem hc hd
  obtain rfl := Option.some.inj (ha.symm.trans hcounts)
  obtain ⟨tail, htail, hsuffix⟩ := hchain.exists_suffix hd
  rw [← htail.unique habove] at hsuffix
  exact hsuffix

end Registry

/-! ### What is inherited -/

namespace Class.Flattens

variable {c a : Class} {chain above : List Descriptor}

theorem exists_property?_of_isSuffix (hc : c.Flattens chain) (ha : a.Flattens above)
    (h : above <:+ chain) {name : String} {t : SlotType} (ht : a.property? name = some t) :
    ∃ u, c.property? name = some u := by
  obtain ⟨d, hd, hdeclares⟩ := ha.declares_of_property? ht
  exact hc.exists_property? (h.subset hd) hdeclares

theorem isOpen_of_isSuffix (hc : c.Flattens chain) (ha : a.Flattens above) (h : above <:+ chain)
    (hopen : a.isOpen = true) : c.isOpen = true := by
  obtain ⟨t, ht⟩ := Option.isSome_iff_exists.mp hopen
  rw [ha.wildcard] at ht
  obtain ⟨d, hd, hwildcard⟩ := List.exists_of_findSome?_eq_some ht
  exact Option.isSome_iff_exists.mpr (hc.exists_wildcard (h.subset hd) hwildcard)

end Class.Flattens

/-- **Inheritance only extends.**  Let a class be one of another, in the sense of `isA`.  Then it
has every property of the other, it is open if the other is, and whatever accessor the other finds
under a name, the class finds the very same, be it listed or read off the name. -/
theorem Registry.inheritance_extends {r : Registry} (hr : link ds = .ok r) {c a : Class}
    (hc : c ∈ r.classes) (ha : a ∈ r.classes) (h : c.isA a.name.text = true) :
    (∀ name, (∃ t, a.hasProperty? name = some t) → ∃ t, c.hasProperty? name = some t) ∧
    (a.isOpen = true → c.isOpen = true) ∧
    ∀ name accessor, a.accessor? name = some accessor → c.accessor? name = some accessor := by
  obtain ⟨chain, hchain, hcounts, hflattens, hkeys⟩ := exists_flattens hr hc
  obtain ⟨above, habove, hcounts', hflattens', hkeys'⟩ := exists_flattens hr ha
  have hsuffix := isSuffix_of_isA hchain hcounts hflattens habove hcounts' h
  have hopen := hflattens.isOpen_of_isSuffix hflattens' hsuffix
  refine ⟨?_, hopen, ?_⟩
  · intro name hname
    rw [Class.exists_hasProperty?_iff] at hname ⊢
    refine hname.imp (fun ⟨t, ht⟩ => ?_) hopen
    exact hflattens.exists_property?_of_isSuffix hflattens' hsuffix ht
  · intro name accessor haccessor
    rw [hflattens'.accessor?_eq_some_iff hkeys'] at haccessor
    rw [hflattens.accessor?_eq_some_iff hkeys]
    rcases haccessor with ⟨hname, d, hd, hcalls⟩ | ⟨ho, hname⟩
    · exact Or.inl ⟨hname, d, hsuffix.subset hd, hcalls⟩
    · exact Or.inr ⟨hopen ho, hname⟩

/-! ### A name that is listed below and read off above -/

/-- An open type without properties. -/
def meadow : Descriptor where
  name := ⟨"meadow", by decide⟩
  namespacePath := none
  qualified := "Meadow"
  parent := none
  properties := []
  wildcard := some (.primitive .int)

/-- Declares a property that the type above it knows by name alone. -/
def garden : Descriptor where
  name := ⟨"garden", by decide⟩
  namespacePath := none
  qualified := "Garden"
  parent := some ⟨meadow.name, "Meadow"⟩
  properties := [(⟨"flower_bed", by decide⟩, .primitive .string)]
  wildcard := none

/-- The getter that one class lists is the one that the other reads off the name, and the spelling
that no class lists is read off by both. -/
theorem garden_finds_flower_bed :
    Registry.link [garden, meadow] = .ok ⟨[Class.link garden [meadow], Class.link meadow []]⟩ ∧
    (Class.link garden [meadow]).isA "meadow" = true ∧
    "getFlowerBed" ∈ Entries.keys (Class.link garden [meadow]).dispatch ∧
    "getFlowerBed" ∉ Entries.keys (Class.link meadow []).dispatch ∧
    (Class.link meadow []).accessor? "getFlowerBed" = some ⟨.get, "flower_bed"⟩ ∧
    (Class.link garden [meadow]).accessor? "getFlowerBed" = some ⟨.get, "flower_bed"⟩ ∧
    (Class.link meadow []).accessor? "getFlower_bed" = some ⟨.get, "flower_bed"⟩ ∧
    (Class.link garden [meadow]).accessor? "getFlower_bed" = some ⟨.get, "flower_bed"⟩ := by
  have hlink : Registry.link [garden, meadow] =
      .ok ⟨[Class.link garden [meadow], Class.link meadow []]⟩ := by
    with_unfolding_all rfl
  have hisA : (Class.link garden [meadow]).isA "meadow" = true := by decide
  have habove : Class.link meadow [] ∈ [Class.link garden [meadow], Class.link meadow []] := by simp
  have hextends :=
    (Registry.inheritance_extends hlink List.mem_cons_self habove hisA).2.2
  have hlisted : (Class.link meadow []).accessor? "getFlowerBed" = some ⟨.get, "flower_bed"⟩ := by
    decide
  have hspelled : (Class.link meadow []).accessor? "getFlower_bed" = some ⟨.get, "flower_bed"⟩ := by
    decide
  exact ⟨hlink, hisA, by decide, by decide, hlisted, hextends _ _ hlisted, hspelled,
    hextends _ _ hspelled⟩

end ClassSchema
