/-
What a linked class holds, read off the chain of its parents.

* `Class.Flattens` — a class says of every name what the nearest type on a chain says of it;
* `flattens_link` — linking along a chain flattens the chain;
* `linked_class_flattens_chain` — so it is with every class of a registry, and its chain.

Design notes: a table that a class takes over and adds to is the list of all that was ever put into
it, root first (`table_link`).  From there on the order of keys and the value
at a key are those of any such list.
-/
import ClassSchema.Proofs.Linking

namespace ClassSchema

namespace Descriptor

/-- The type that a descriptor gives a property, if it declares the property. -/
def type? (d : Descriptor) (name : String) : Option SlotType :=
  (d.properties.findRev? (·.1.text = name)).map Prod.snd

/-- The accessor that a descriptor brings along under a name. -/
def accessor? (d : Descriptor) (name : String) : Option Accessor :=
  (d.signatures.findRev? (·.accessor.name = name)).map Signature.accessor

end Descriptor

namespace Class

/-- A class says of every name what the nearest type on a chain says of it.  Properties stand where
they were first declared, from the root on, and an explicit property anywhere on the chain goes
before every wildcard. -/
structure Flattens (c : Class) (chain : List Descriptor) : Prop where
  isA_iff : ∀ name, c.isA name = true ↔ ∃ d ∈ chain, d.name.text = name
  propertyNames : Entries.keys c.properties =
    (chain.reverse.flatMap fun d => d.properties.map (·.1.text)).eraseDups
  property : ∀ name, c.property? name = chain.findSome? (·.type? name)
  wildcard : c.wildcard = chain.findSome? (·.wildcard)
  accessorNames : ∀ name, name ∈ Entries.keys c.dispatch ↔
    ∃ d ∈ chain, ∃ s ∈ d.signatures, s.accessor.name = name
  accessor : ∀ name, Entries.get? name c.dispatch = chain.findSome? (·.accessor? name)
  hasProperty : ∀ name, c.hasProperty? name =
    (chain.findSome? (·.type? name)).or (chain.findSome? (·.wildcard))

/-- A name stands for a property exactly if it is explicit or the class is open. -/
theorem exists_hasProperty?_iff {c : Class} {name : String} :
    (∃ t, c.hasProperty? name = some t) ↔
      (∃ t, c.property? name = some t) ∨ c.isOpen = true := by
  unfold hasProperty? isOpen
  rcases c.property? name with _ | t
  · simp [Option.isSome_iff_exists]
  · simp

/-! ### Tables along a chain -/

theorem lineage_link (d : Descriptor) (above : List Descriptor) :
    (link d above).lineage = (d :: above).map Descriptor.name := by
  induction above generalizing d with
  | nil => rfl
  | cons parent above ih => rw [link, extend, ih parent]; rfl

theorem wildcard_link (d : Descriptor) (above : List Descriptor) :
    (link d above).wildcard = (d :: above).findSome? (·.wildcard) := by
  induction above generalizing d with
  | nil =>
    rcases hd : d.wildcard with _ | t
    · simp [link, root, hd]
    · simp [link, root, hd]
  | cons parent above ih =>
    rw [link, extend, ih parent]
    rcases hd : d.wildcard with _ | t
    · simp [hd]
    · simp [hd]

/-- A table that every class takes over from its parent and adds its own entries to holds all that
the chain puts there, root first. -/
theorem table_link {α : Type} {table : Class → List (String × α)}
    {own : Descriptor → List (String × α)} (hroot : ∀ d, table (root d) = Entries.ofList (own d))
    (hextend : ∀ c d, table (extend c d) = Entries.putAll (table c) (own d))
    (d : Descriptor) (above : List Descriptor) :
    table (link d above) = Entries.ofList ((d :: above).reverse.flatMap own) := by
  induction above generalizing d with
  | nil =>
    rw [show link d [] = root d from rfl, hroot]
    simp
  | cons parent above ih =>
    rw [show link d (parent :: above) = (link parent above).extend d from rfl, hextend, ih parent]
    -- what a class adds itself comes behind all that is on the chain of its parent
    have hflat : (d :: parent :: above).reverse.flatMap own =
        (parent :: above).reverse.flatMap own ++ own d := by
      rw [List.reverse_cons, List.flatMap_append, List.flatMap_singleton]
    rw [hflat, Entries.ofList, Entries.ofList, Entries.putAll_append]

theorem properties_link (d : Descriptor) (above : List Descriptor) :
    (link d above).properties = Entries.ofList ((d :: above).reverse.flatMap ownProperties) :=
  table_link (fun _ => rfl) (fun _ _ => rfl) d above

theorem dispatch_link (d : Descriptor) (above : List Descriptor) :
    (link d above).dispatch = Entries.ofList ((d :: above).reverse.flatMap ownDispatch) :=
  table_link (fun _ => rfl) (fun _ _ => rfl) d above

/-! ### Linking flattens -/

theorem property?_link (d : Descriptor) (above : List Descriptor) (name : String) :
    (link d above).property? name = (d :: above).findSome? (·.type? name) := by
  rw [property?, properties_link, Entries.get?_ofList, Entries.last?_flatMap_reverse]
  congr 1
  funext e
  exact Entries.last?_map name (fun p : Ident × SlotType => p.1.text) Prod.snd e.properties

theorem get?_dispatch_link (d : Descriptor) (above : List Descriptor) (name : String) :
    Entries.get? name (link d above).dispatch = (d :: above).findSome? (·.accessor? name) := by
  rw [dispatch_link, Entries.get?_ofList, Entries.last?_flatMap_reverse]
  congr 1
  funext e
  exact Entries.last?_map name (fun s : Signature => s.accessor.name) Signature.accessor
    e.signatures

theorem keys_properties_link (d : Descriptor) (above : List Descriptor) :
    Entries.keys (link d above).properties =
      ((d :: above).reverse.flatMap fun e => e.properties.map (·.1.text)).eraseDups := by
  rw [properties_link, Entries.keys_ofList, Entries.keys, List.map_flatMap]
  congr 2
  funext e
  simp [ownProperties]

theorem mem_keys_dispatch_link (d : Descriptor) (above : List Descriptor) (name : String) :
    name ∈ Entries.keys (link d above).dispatch ↔
      ∃ e ∈ d :: above, ∃ s ∈ e.signatures, s.accessor.name = name := by
  rw [dispatch_link, Entries.keys_ofList, List.mem_eraseDups, Entries.keys, List.map_flatMap]
  simp only [List.mem_flatMap, List.mem_reverse, ownDispatch, List.mem_map, Prod.exists]
  constructor
  · rintro ⟨e, he, _, a, ⟨s, hs, hpair⟩, rfl⟩
    exact ⟨e, he, s, hs, (Prod.mk.inj hpair).1⟩
  · rintro ⟨e, he, s, hs, rfl⟩
    exact ⟨e, he, s.accessor.name, s.accessor, ⟨s, hs, rfl⟩, rfl⟩

/-- Linking along a chain flattens the chain. -/
theorem flattens_link (d : Descriptor) (above : List Descriptor) :
    (link d above).Flattens (d :: above) where
  isA_iff name := by
    simp only [isA, lineage_link, List.any_map, List.any_eq_true, Function.comp_apply,
      decide_eq_true_eq]
  propertyNames := keys_properties_link d above
  property := property?_link d above
  wildcard := wildcard_link d above
  accessorNames := mem_keys_dispatch_link d above
  accessor := get?_dispatch_link d above
  hasProperty name := by
    rw [hasProperty?, property?_link, wildcard_link]
    exact Option.orElse_eq_or

/-- What an explicit property is called is a name. -/
theorem Flattens.exists_ident {c : Class} {chain : List Descriptor} (h : c.Flattens chain)
    {name : String} {t : SlotType} (ht : c.property? name = some t) :
    ∃ x : Ident, x.text = name := by
  rw [h.property] at ht
  obtain ⟨d, -, hd⟩ := List.exists_of_findSome?_eq_some ht
  simp only [Descriptor.type?, List.findRev?_eq_find?_reverse, Option.map_eq_some_iff] at hd
  obtain ⟨⟨x, t'⟩, hfind, -⟩ := hd
  exact ⟨x, by simpa using List.find?_some hfind⟩

end Class

theorem Registry.exists_ident {ds : List Descriptor} {r : Registry} (hr : link ds = .ok r)
    {c : Class} (hc : c ∈ r.classes) {name : String} {t : SlotType}
    (ht : c.property? name = some t) : ∃ x : Ident, x.text = name := by
  obtain ⟨above, hlink, -, -⟩ := exists_chain_of_mem hr hc
  rw [hlink] at ht
  exact (Class.flattens_link c.descriptor above).exists_ident ht

/-- **Linking equals walking up the parents.**  In every list of descriptors that links, a class has
exactly one chain of parents, which begins with the descriptor that counts for its name, and it
flattens that chain. -/
theorem linked_class_flattens_chain {ds : List Descriptor} {r : Registry}
    (hr : Registry.link ds = .ok r) {c : Class} (hc : c ∈ r.classes) :
    declared? ds c.name = some c.descriptor ∧
    ∃ chain, ParentChain ds c.descriptor chain ∧
      (∀ other, ParentChain ds c.descriptor other → other = chain) ∧ c.Flattens chain := by
  obtain ⟨above, hlink, hchain, hcounts⟩ := Registry.exists_chain_of_mem hr hc
  refine ⟨hcounts, c.descriptor :: above, hchain, fun other => hchain.unique, ?_⟩
  rw [hlink, Registry.descriptor_link]
  exact Class.flattens_link c.descriptor above

/-! ### A line of three types -/

/-- The root of the line: open, with two properties. -/
def plain : Descriptor where
  name := ⟨"plain", by decide⟩
  namespacePath := none
  qualified := "Plain"
  parent := none
  properties :=
    [(⟨"first", by decide⟩, .primitive .string), (⟨"second", by decide⟩, .primitive .int)]
  wildcard := some (.primitive .array)

/-- Declares the second property again, as an array. -/
def listed : Descriptor where
  name := ⟨"listed", by decide⟩
  namespacePath := none
  qualified := "Listed"
  parent := some ⟨plain.name, "Plain"⟩
  properties := [(⟨"third", by decide⟩, .primitive .float),
    (⟨"second", by decide⟩, .arrayOf (.primitive .int))]
  wildcard := none

/-- Declares the first property again, and another wildcard. -/
def counted : Descriptor where
  name := ⟨"counted", by decide⟩
  namespacePath := none
  qualified := "Counted"
  parent := some ⟨listed.name, "Listed"⟩
  properties := [(⟨"fourth", by decide⟩, .primitive .boolean),
    (⟨"first", by decide⟩, .primitive .int)]
  wildcard := some (.arrayOf (.primitive .string))

theorem counted_flattens_line :
    Registry.link [counted, plain, listed] = .ok ⟨[Class.link counted [listed, plain],
      Class.link plain [], Class.link listed [plain]]⟩ ∧
    declared? [counted, plain, listed] counted.name = some counted ∧
    ∃ chain, ParentChain [counted, plain, listed] counted chain ∧
      (∀ other, ParentChain [counted, plain, listed] counted other → other = chain) ∧
      (Class.link counted [listed, plain]).Flattens chain := by
  have hlink : Registry.link [counted, plain, listed] = .ok ⟨[Class.link counted [listed, plain],
      Class.link plain [], Class.link listed [plain]]⟩ := by
    with_unfolding_all rfl
  exact ⟨hlink, linked_class_flattens_chain hlink List.mem_cons_self⟩

example : Entries.keys (Class.link counted [listed, plain]).properties =
    ["first", "second", "third", "fourth"] := by decide

end ClassSchema
