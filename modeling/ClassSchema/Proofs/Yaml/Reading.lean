/-
Trees that are read from texts.

* `Yields` — whatever a computation ends with has the property;
* `expand?_yields` — no mapping in the tree of a node has a key twice, aliases followed;
* `apart_of_parse?` — so none in the tree of a text has.

Design notes: nodes are expanded under a counter of aliases, which decides whether there is a tree
but not what it is like.  So nothing is said about the counter.
-/
import Mathlib.Tactic.SplitIfs
import ClassSchema.Proofs.Yaml.Tree
import ClassSchema.Yaml.Expansion

open ClassSchema.Yaml.Tree (Apart EveryMapping)

namespace ClassSchema.Yaml

/-! ### Computations with a counter -/

section Yields

variable {α β : Type}

/-- Whatever the computation ends with, wherever it starts, has the property. -/
def Yields (P : α → Prop) (m : StateT Nat Option α) : Prop :=
  ∀ left a left', m.run left = some (a, left') → P a

theorem Yields.pure {P : α → Prop} {a : α} (h : P a) : Yields P (Pure.pure a) := by
  rintro left a' left' hrun
  obtain ⟨rfl, -⟩ := Prod.mk.inj (Option.some.inj hrun)
  exact h

theorem Yields.failure {P : α → Prop} : Yields P failure := by
  rintro left a left' hrun
  cases hrun

theorem Yields.lift {P : α → Prop} {r : Option α} (h : ∀ a, r = some a → P a) :
    Yields P (StateT.lift r) := by
  rintro left a left' hrun
  obtain ⟨a', ha', hrun⟩ := Option.bind_eq_some_iff.mp hrun
  obtain ⟨rfl, -⟩ := Prod.mk.inj (Option.some.inj hrun)
  exact h _ ha'

theorem Yields.bind {P : α → Prop} {Q : β → Prop} {m : StateT Nat Option α}
    {f : α → StateT Nat Option β} (hm : Yields P m) (hf : ∀ a, P a → Yields Q (f a)) :
    Yields Q (m >>= f) := by
  rintro left b left' hrun
  rw [StateT.run_bind] at hrun
  obtain ⟨⟨a, middle⟩, ha, hrun⟩ := Option.bind_eq_some_iff.mp hrun
  exact hf a (hm _ _ _ ha) _ _ _ hrun

theorem Yields.true (m : StateT Nat Option α) : Yields (fun _ => True) m := fun _ _ _ _ => trivial

/-- Where a list is gone through, every result has the property. -/
theorem Yields.mapM {P : β → Prop} {f : α → StateT Nat Option β} {l : List α}
    (h : ∀ a ∈ l, Yields P (f a)) : Yields (fun bs => ∀ b ∈ bs, P b) (l.mapM f) := by
  induction l with
  | nil =>
    rw [List.mapM_nil]
    exact .pure fun _ hb => absurd hb List.not_mem_nil
  | cons a rest ih =>
    rw [List.mapM_cons]
    refine (h a List.mem_cons_self).bind fun b hb => ?_
    refine (ih fun a ha => h a (List.mem_cons_of_mem _ ha)).bind fun bs hbs => ?_
    exact .pure (List.forall_mem_cons.mpr ⟨hb, hbs⟩)

end Yields

/-! ### Scalars -/

/-- Is the tree a null, a boolean, a number or a text? -/
def Tree.isLeaf : Tree → Bool
  | .null | .bool _ | .num _ | .str _ => true
  | _ => false

theorem Tree.everyMapping_of_isLeaf {R : List (Tree × Tree) → Prop} {t : Tree}
    (h : t.isLeaf = true) : EveryMapping R t := by
  rintro pairs hpairs
  cases hpairs with
  | refl | item _ _ | value _ _ | content _ => cases h

theorem isLeaf_of_ofInteger? {n : Int} {t : Tree} (h : ofInteger? n = some t) :
    t.isLeaf = true := by
  unfold ofInteger? at h
  split at h
  · obtain rfl := Option.some.inj h
    rfl
  · cases h

theorem isLeaf_of_ofPlain? {s : String} {t : Tree} (h : ofPlain? s = some t) :
    t.isLeaf = true := by
  unfold ofPlain? at h
  split at h
  · obtain rfl := Option.some.inj h
    rfl
  · split at h
    · obtain rfl := Option.some.inj h
      rfl
    · split at h
      · exact isLeaf_of_ofInteger? h
      · split at h
        · obtain rfl := Option.some.inj h
          rfl
        · split at h <;> obtain rfl := Option.some.inj h <;> rfl

theorem isLeaf_of_ofTagged? {tag : Tag} {s : String} {t : Tree} (h : ofTagged? tag s = some t) :
    t.isLeaf = true := by
  unfold ofTagged? at h
  split_ifs at h
  · obtain ⟨b, -, rfl⟩ := Option.map_eq_some_iff.mp h
    rfl
  · obtain ⟨n, -, hn⟩ := Option.bind_eq_some_iff.mp h
    exact isLeaf_of_ofInteger? hn
  · obtain ⟨x, -, rfl⟩ := Option.map_eq_some_iff.mp h
    rfl
  · obtain rfl := Option.some.inj h
    rfl
  · obtain rfl := Option.some.inj h
    rfl

namespace Node

/-! ### Nodes -/

/-- No key comes twice in any mapping of what a scalar stands for, since there is none. -/
theorem apart_of_scalarTree? {tag : Option Tag} {text : String} {style : Style} {t : Tree}
    (h : scalarTree? tag text style = some t) : EveryMapping Apart t := by
  have huntagged : ∀ {u : Tree}, (if style = .plain then ofPlain? text else some (.str text)) =
      some u → u.isLeaf = true := by
    intro u hu
    split at hu
    · exact isLeaf_of_ofPlain? hu
    · obtain rfl := Option.some.inj hu
      rfl
  unfold scalarTree? at h
  dsimp only at h
  split at h
  · exact Tree.everyMapping_of_isLeaf (huntagged h)
  · split at h
    · obtain ⟨u, hu, rfl⟩ := Option.map_eq_some_iff.mp h
      exact Tree.everyMapping_tagged_iff.mpr (Tree.everyMapping_of_isLeaf (huntagged hu))
    · split at h
      · exact Tree.everyMapping_of_isLeaf (huntagged h)
      · exact Tree.everyMapping_of_isLeaf (isLeaf_of_ofTagged? h)

theorem apart_underTag {tag : Option Tag} {t : Tree} (h : EveryMapping Apart t) :
    EveryMapping Apart (underTag tag t) := by
  unfold underTag
  split
  · exact Tree.everyMapping_tagged_iff.mpr h
  · exact h

theorem apart_of_distinct {pairs : List (Tree × Tree)} (h : mapTree?.distinct pairs = true) :
    Apart pairs := by
  induction pairs with
  | nil => exact List.Pairwise.nil
  | cons p rest ih =>
    rw [show p = (p.1, p.2) from rfl, mapTree?.distinct, Bool.and_eq_true, Bool.not_eq_true',
      List.any_eq_false] at h
    refine List.Pairwise.cons (fun q hq => ?_) (ih h.2)
    exact Bool.eq_false_iff.mpr (h.1 q hq)

theorem apart_of_mapTree? {pairs : List (Tree × Tree)} {t : Tree}
    (hvalues : ∀ p ∈ pairs, EveryMapping Apart p.2) (h : mapTree? pairs = some t) :
    EveryMapping Apart t := by
  unfold mapTree? at h
  split at h
  · next hdistinct =>
    obtain rfl := Option.some.inj h
    exact Tree.everyMapping_map_iff.mpr ⟨apart_of_distinct hdistinct, hvalues⟩
  · cases h

/-- No key comes twice in any mapping in the tree of a node. -/
theorem expand?_yields (targets : List (Nat × Node Nat)) (depth : Nat) (node : Node Nat) :
    Yields (EveryMapping Apart) (expand? targets depth node) := by
  induction depth generalizing node with
  | zero =>
    rw [expand?]
    refine (Yields.true (follow? targets node)).bind fun node _ => ?_
    cases node with
    | scalar _ tag text style => exact .lift fun t ht => apart_of_scalarTree? ht
    | sequence _ tag items => exact .failure
    | mapping _ tag pairs => exact .failure
    | aliasOf n => exact .failure
  | succ depth ih =>
    rw [expand?]
    refine (Yields.true (follow? targets node)).bind fun node _ => ?_
    cases node with
    | scalar _ tag text style => exact .lift fun t ht => apart_of_scalarTree? ht
    | sequence _ tag items =>
      refine (Yields.mapM fun i _ => ih i).bind fun items' hitems => ?_
      exact .pure (apart_underTag (Tree.everyMapping_seq_iff.mpr hitems))
    | mapping _ tag pairs =>
      have hpair : ∀ p ∈ pairs, Yields (fun q : Tree × Tree => EveryMapping Apart q.2) (do
          let k ← expand? targets depth p.1
          let v ← expand? targets depth p.2
          pure (k, v)) := fun p _ =>
        (Yields.true _).bind fun k _ => (ih p.2).bind fun v hv => .pure hv
      refine (Yields.mapM hpair).bind fun pairs' hpairs => ?_
      refine (Yields.lift fun t ht => apart_of_mapTree? hpairs ht).bind fun t ht => ?_
      exact .pure (apart_underTag ht)
    | aliasOf n => exact .failure

end Node

/-- **No key comes twice in any mapping in the tree of a text.** -/
theorem Tree.apart_of_parse? {s : String} {t : Tree} (h : Tree.parse? s = some t) :
    EveryMapping Apart t := by
  obtain ⟨node, -, h⟩ := Option.bind_eq_some_iff.mp h
  cases node with
  | none =>
    obtain rfl := Option.some.inj h
    exact Tree.everyMapping_of_isLeaf rfl
  | some node =>
    obtain ⟨⟨u, left⟩, hrun, rfl⟩ := Option.map_eq_some_iff.mp h
    exact Node.expand?_yields _ _ _ _ _ _ hrun

end ClassSchema.Yaml
