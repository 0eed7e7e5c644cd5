/-
The check for cycles.

* `climb_eq_none`, `climb_eq_some` — a climb that finds nothing ends, and what it finds is the cycle
  that it runs into;
* `leads_of_extends`, `leads_parentNames` — the parents by name are those that the descriptors give;
* `acyclic_of_checkInheritance`, `isCycle_of_checkInheritance` — the check passes only where there
  is no cycle, and reports one where it fails;
* `length_walk_le` — no walk into a cycle is longer than the list of descriptors, but for its end;
* `check_finds_first_cycle` — which cycle is reported, and that one is whenever there is one.

Design notes: the check looks up parents in a table of names, without regard to what else a
descriptor says, and stops at the first name that it meets again.  What it has met so far is a walk
without repetition, so the part of it from that name on is a cycle.
-/
import ClassSchema.Compilation
import ClassSchema.Proofs.Entries
import ClassSchema.Proofs.ParentChain

namespace ClassSchema

namespace Inheritance

/-- One name has the other for its parent. -/
def Leads (parents : List (Ident × Ident)) (x y : Ident) : Prop := Entries.get? x parents = some y

variable {parents : List (Ident × Ident)}

/-- A climb that finds no cycle ends, whatever way it takes. -/
theorem climb_eq_none {way : List Ident} {x : Ident} (h : climb parents way x = none) :
    Acc (Function.swap (Leads parents)) x := by
  fun_induction climb parents way x with
  | case1 way x hnone =>
    refine ⟨x, fun y hy => ?_⟩
    have hleads : Leads parents x y := hy
    rw [Leads, hnone] at hleads
    cases hleads
  | case2 => cases h
  | case3 way x p hp hnew ih =>
    refine ⟨x, fun y hy => ?_⟩
    obtain rfl := Option.some.inj (hp.symm.trans hy)
    exact ih h

/-- What a climb finds is the cycle that the way up runs into, without what has led there. -/
theorem climb_eq_some {way : List Ident} {x start : Ident} {chain : List Ident}
    (hway : way.IsChain (Leads parents)) (hnodup : way.Nodup) (hlast : way.getLast? = some x)
    (hfirst : way.head? = some start) (h : climb parents way x = some chain) :
    ∃ tail, RunsInto (Leads parents) start tail chain := by
  fun_induction climb parents way x with
  | case1 => cases h
  | case2 way x p hp hmem =>
    obtain rfl := Option.some.inj h
    have hbegins : (way ++ [p]).head? = some start := by rw [List.head?_append, hfirst]; rfl
    exact ⟨_, runsInto_of_loop hbegins (isChain_concat hway hlast hp) hnodup hmem⟩
  | case3 way x p hp hnew ih =>
    have hbegins : (way ++ [p]).head? = some start := by rw [List.head?_append, hfirst]; rfl
    exact ih (isChain_concat hway hlast hp) (nodup_concat hnodup hnew) List.getLast?_concat hbegins
      h

/-! ### Parents by name -/

/-- The parent of the descriptor that counts for a name is the one found by that name. -/
theorem leads_of_extends {ds : List Descriptor} {x y : Ident} (h : Extends ds x y) :
    Leads (parentNames ds) x y := by
  obtain ⟨d, p, hd, hp, rfl⟩ := h
  rw [Leads, parentNames, Entries.get?_ofList]
  induction ds using List.reverseRecOn with
  | nil => cases hd
  | append_singleton ds e ih =>
    rw [declared?_concat] at hd
    rw [List.filterMap_append, Entries.last?_append]
    by_cases he : e.name = x
    · rw [if_pos he] at hd
      obtain rfl := Option.some.inj hd
      simp [Entries.last?, hp, he]
    · rw [if_neg he] at hd
      have hnone : Entries.last? x ([e].filterMap fun d => d.parent.map fun p => (d.name, p.name)) =
          none := by
        rcases hparent : e.parent with _ | q
        · simp [Entries.last?, hparent]
        · simp [Entries.last?, hparent, he]
      rw [hnone, ih hd, Option.none_or]

theorem keys_parents_sublist (ds : List Descriptor) :
    (Entries.keys (ds.filterMap fun d => d.parent.map fun p => (d.name, p.name))).Sublist
      (ds.map Descriptor.name) := by
  induction ds with
  | nil => exact .slnil
  | cons d ds ih =>
    rcases hd : d.parent with _ | p
    · simpa [hd] using ih.cons d.name
    · simpa [hd, Entries.keys] using ih

/-- Where no name is repeated, nothing else is found. -/
theorem leads_parentNames {ds : List Descriptor} (hds : (ds.map Descriptor.name).Nodup) :
    Leads (parentNames ds) = Extends ds := by
  funext x y
  refine propext ⟨?_, leads_of_extends⟩
  intro h
  have hkeys := hds.sublist (keys_parents_sublist ds)
  rw [Leads, parentNames, Entries.get?_ofList, Entries.last?_eq_some_iff hkeys] at h
  obtain ⟨d, hd, hparent⟩ := List.mem_filterMap.mp h
  obtain ⟨p, hp, hpair⟩ := Option.map_eq_some_iff.mp hparent
  obtain ⟨rfl, rfl⟩ := Prod.mk.inj hpair
  exact ⟨d, p, declared?_of_mem hds hd, hp, rfl⟩

end Inheritance

namespace Document

open Inheritance

/-- **Where the check passes there is no cycle.** -/
theorem acyclic_of_checkInheritance {ds : List Descriptor} (h : checkInheritance ds = .ok ()) :
    Acyclic (Extends ds) := by
  unfold checkInheritance at h
  split at h
  · cases h
  · next hnone =>
    intro x hx
    -- a name on a cycle has a parent, so it is listed, and the climb from it has found nothing
    obtain ⟨y, ⟨d, p, hd, -, -⟩, -⟩ := Relation.TransGen.head'_iff.mp hx
    obtain rfl := name_of_declared? hd
    have hclimb := List.findSome?_eq_none_iff.mp hnone d (mem_of_declared? hd)
    have hleads := Relation.TransGen.mono (fun _ _ => leads_of_extends) _ _ hx
    exact not_transGen_of_acc (climb_eq_none hclimb) hleads

/-- Where the check fails, a way up has run into a cycle, and those from before have ended. -/
theorem runsInto_of_checkInheritance {ds : List Descriptor} (hds : (ds.map Descriptor.name).Nodup)
    {e : SchemaError} (h : checkInheritance ds = .error e) :
    ∃ before d after tail chain, e = .inheritanceCycle chain ∧ ds = before ++ d :: after ∧
      (∀ b ∈ before, Acc (Function.swap (Extends ds)) b.name) ∧
      RunsInto (Extends ds) d.name tail chain := by
  unfold checkInheritance at h
  split at h
  · next chain hsome =>
    obtain ⟨before, d, after, hsplit, hd, hbefore⟩ := List.findSome?_eq_some_iff.mp hsome
    obtain ⟨tail, hruns⟩ := climb_eq_some (.singleton d.name) (by simp) rfl rfl hd
    rw [leads_parentNames hds] at hruns
    refine ⟨before, d, after, tail, chain, (Except.error.inj h).symm, hsplit, ?_, hruns⟩
    intro b hb
    rw [← leads_parentNames hds]
    exact climb_eq_none (hbefore b hb)
  · cases h

/-- **Where the check fails it reports a cycle.** -/
theorem isCycle_of_checkInheritance {ds : List Descriptor} (hds : (ds.map Descriptor.name).Nodup)
    {e : SchemaError} (h : checkInheritance ds = .error e) :
    ∃ chain, e = .inheritanceCycle chain ∧ IsCycle (Extends ds) chain := by
  obtain ⟨before, d, after, tail, chain, he, -, -, hruns⟩ := runsInto_of_checkInheritance hds h
  exact ⟨chain, he, hruns.around⟩

theorem checkInheritance_eq_ok_iff {ds : List Descriptor} (hds : (ds.map Descriptor.name).Nodup) :
    checkInheritance ds = .ok () ↔ Acyclic (Extends ds) := by
  refine ⟨acyclic_of_checkInheritance, fun h => ?_⟩
  rcases hcheck : checkInheritance ds with e | ⟨⟩
  · obtain ⟨chain, -, hcycle⟩ := isCycle_of_checkInheritance hds hcheck
    exact absurd h hcycle.not_acyclic
  · rfl

/-! ### How far a way up goes -/

/-- Who has a parent is listed. -/
theorem mem_names_of_extends {ds : List Descriptor} {x y : Ident} (h : Extends ds x y) :
    x ∈ ds.map Descriptor.name := by
  obtain ⟨d, p, hd, -, -⟩ := h
  exact declared?_isSome_iff.mp ⟨d, hd⟩

/-- Every step but the last is at a name that is listed and that comes only once, so there are no
more steps than descriptors. -/
theorem length_walk_le {ds : List Descriptor} {x : Ident} {tail cycle : List Ident}
    (h : RunsInto (Extends ds) x tail cycle) : (tail ++ cycle).length ≤ ds.length + 1 := by
  obtain ⟨z, way, rfl, hnodup, -⟩ := h.around
  have hlisted : ∀ y ∈ tail ++ z :: way, y ∈ ds.map Descriptor.name := by
    intro y hy
    have hsteps : ((tail ++ z :: way) ++ [z]).IsChain (Extends ds) := by simpa using h.steps
    obtain ⟨y', hy'⟩ := exists_step_of_mem hsteps hy
    exact mem_names_of_extends hy'
  have hdistinct : (tail ++ z :: way).Nodup := by
    refine List.nodup_append.mpr ⟨h.nodup, hnodup, ?_⟩
    rintro a ha b hb rfl
    exact h.apart a ha (List.mem_append_left [z] hb)
  have hbound := hdistinct.length_le_of_subset hlisted
  simp only [List.length_append, List.length_cons, List.length_map, List.length_nil] at hbound ⊢
  omega

/-- **What the check for cycles finds.**  It passes exactly if there is no cycle.  Otherwise it
reports one: the cycle that the way up from a descriptor runs into, without the names that lead to
it, where the ways up from all descriptors before have ended. -/
theorem check_finds_first_cycle {ds : List Descriptor} (hds : (ds.map Descriptor.name).Nodup) :
    (checkInheritance ds = .ok () ↔ Acyclic (Extends ds)) ∧
    ((∃ e, checkInheritance ds = .error e) ↔ ¬ Acyclic (Extends ds)) ∧
    ∀ e, checkInheritance ds = .error e →
      ∃ before d after tail chain, e = .inheritanceCycle chain ∧ ds = before ++ d :: after ∧
        (∀ b ∈ before, ∀ tail cycle, ¬ RunsInto (Extends ds) b.name tail cycle) ∧
        RunsInto (Extends ds) d.name tail chain ∧ (tail ++ chain).length ≤ ds.length + 1 := by
  refine ⟨checkInheritance_eq_ok_iff hds, ?fails, ?report⟩
  case fails =>
    rw [← checkInheritance_eq_ok_iff hds]
    rcases checkInheritance ds with e | ⟨⟩
    · simp
    · simp
  case report =>
    intro e he
    obtain ⟨before, d, after, tail, chain, hchain, hsplit, hends, hruns⟩ :=
      runsInto_of_checkInheritance hds he
    exact ⟨before, d, after, tail, chain, hchain, hsplit, fun b hb _ _ h => h.not_acc (hends b hb),
      hruns, length_walk_le hruns⟩

end Document

/-! ### A name that only leads to a cycle -/

/-- Extends a type that is on a cycle, and is on none itself. -/
def ivy : Descriptor where
  name := ⟨"ivy", by decide⟩
  namespacePath := none
  qualified := "Ivy"
  parent := some ⟨⟨"oak", by decide⟩, "Oak"⟩
  properties := []
  wildcard := none

def oak : Descriptor where
  name := ⟨"oak", by decide⟩
  namespacePath := none
  qualified := "Oak"
  parent := some ⟨⟨"moss", by decide⟩, "Moss"⟩
  properties := []
  wildcard := none

def moss : Descriptor where
  name := ⟨"moss", by decide⟩
  namespacePath := none
  qualified := "Moss"
  parent := some ⟨⟨"oak", by decide⟩, "Oak"⟩
  properties := []
  wildcard := none

theorem check_finds_oak_and_moss :
    ([ivy, oak, moss].map Descriptor.name).Nodup ∧
    Document.checkInheritance [ivy, oak, moss] =
      .error (.inheritanceCycle [oak.name, moss.name, oak.name]) ∧
    ∃ d tail, RunsInto (Extends [ivy, oak, moss]) d tail [oak.name, moss.name, oak.name] := by
  have hnodup : ([ivy, oak, moss].map Descriptor.name).Nodup := by decide
  have hcheck : Document.checkInheritance [ivy, oak, moss] =
      .error (.inheritanceCycle [oak.name, moss.name, oak.name]) := by with_unfolding_all rfl
  obtain ⟨before, d, after, tail, chain, he, -, -, hruns, -⟩ :=
    (Document.check_finds_first_cycle hnodup).2.2 _ hcheck
  obtain rfl := SchemaError.inheritanceCycle.inj he
  exact ⟨hnodup, hcheck, d.name, tail, hruns⟩

end ClassSchema
