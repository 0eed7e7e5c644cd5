/-
YAML trees and what stands in them.

* `Tree.tree_induction` — induction over trees;
* `Tree.Within`, `Tree.EveryMapping` — trees in a tree, and what holds of all mappings;
* `Tree.Apart` — no key of a mapping comes twice.

Design notes: keys are not looked into, since a tree in which a key has parts is never read as
anything else.
-/
import ClassSchema.Yaml.Tree

namespace ClassSchema.Yaml.Tree

/-- Induction over trees: what holds of leaves, and of a tree if it holds of all items, values of
keys or what is tagged, holds of every tree. -/
@[elab_as_elim]
theorem tree_induction {P : Tree → Prop} (null : P .null) (bool : ∀ b, P (.bool b))
    (num : ∀ n, P (.num n)) (str : ∀ s, P (.str s))
    (seq : ∀ items, (∀ i ∈ items, P i) → P (.seq items))
    (map : ∀ pairs, (∀ p ∈ pairs, P p.2) → P (.map pairs))
    (tagged : ∀ tag t, P t → P (.tagged tag t)) (t : Tree) : P t := by
  refine @Tree.rec P (fun items => ∀ i ∈ items, P i) (fun pairs => ∀ p ∈ pairs, P p.2)
    (fun p => P p.2) null bool num str seq map tagged ?_ ?_ ?_ ?_ ?_ t
  · exact fun _ hi => absurd hi List.not_mem_nil
  · exact fun _ _ hj hrest => List.forall_mem_cons.mpr ⟨hj, hrest⟩
  · exact fun _ hp => absurd hp List.not_mem_nil
  · exact fun _ _ hp hrest => List.forall_mem_cons.mpr ⟨hp, hrest⟩
  · exact fun _ _ _ hv => hv

/-- The first tree stands somewhere in the second, or it is the second.  Keys are not looked
into. -/
inductive Within : Tree → Tree → Prop where
  | refl (t : Tree) : Within t t
  | item {s i : Tree} {items : List Tree} : i ∈ items → Within s i → Within s (.seq items)
  | value {s : Tree} {p : Tree × Tree} {pairs : List (Tree × Tree)} : p ∈ pairs → Within s p.2 →
      Within s (.map pairs)
  | content {s t : Tree} {tag : String} : Within s t → Within s (.tagged tag t)

/-- All mappings in the tree have the property. -/
def EveryMapping (R : List (Tree × Tree) → Prop) (t : Tree) : Prop :=
  ∀ pairs, (map pairs).Within t → R pairs

section EveryMapping

variable {R : List (Tree × Tree) → Prop}

theorem everyMapping_seq_iff {items : List Tree} :
    EveryMapping R (seq items) ↔ ∀ i ∈ items, EveryMapping R i := by
  constructor
  · exact fun h i hi pairs hpairs => h pairs (.item hi hpairs)
  · intro h pairs hpairs
    cases hpairs with
    | item hi hpairs => exact h _ hi pairs hpairs

theorem everyMapping_map_iff {pairs : List (Tree × Tree)} :
    EveryMapping R (map pairs) ↔ R pairs ∧ ∀ p ∈ pairs, EveryMapping R p.2 := by
  constructor
  · exact fun h => ⟨h pairs (.refl _), fun p hp inner hinner => h inner (.value hp hinner)⟩
  · rintro ⟨hself, hvalues⟩ inner hinner
    cases hinner with
    | refl => exact hself
    | value hp hinner => exact hvalues _ hp inner hinner

theorem everyMapping_tagged_iff {tag : String} {t : Tree} :
    EveryMapping R (tagged tag t) ↔ EveryMapping R t := by
  constructor
  · exact fun h pairs hpairs => h pairs (.content hpairs)
  · intro h pairs hpairs
    cases hpairs with
    | content hpairs => exact h pairs hpairs

end EveryMapping

/-- No key comes twice. -/
def Apart (pairs : List (Tree × Tree)) : Prop := pairs.Pairwise fun p q => p.1.same q.1 = false

end ClassSchema.Yaml.Tree
