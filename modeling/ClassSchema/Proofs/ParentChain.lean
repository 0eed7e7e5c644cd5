/-
Chains of parents in a list of descriptors.

* `declared?` — the descriptor that counts for a name, which is the last one;
* `ParentChain` — a descriptor, its parent, and so on to one that has none;
* `ParentChain.unique` — a descriptor has at most one chain;
* `Extends` — the relation between a name and that of its parent;
* `Acyclic`, `IsCycle` — relations without a cycle, and the cycles of others;
* `not_transGen_of_acc` — a name from which every way up ends is on no cycle;
* `transGen_of_loop` — a walk that comes back to where it has been goes along a cycle;
* `RunsInto` — a walk that runs into a cycle, with what leads to the cycle and the cycle itself;
* `runsInto_of_loop` — so does a walk without repetition that goes on to one of its own names;
* `ParentChain.acc` — every way up from the foot of a chain ends.
-/
import Mathlib.Data.List.Chain
import Mathlib.Data.List.Nodup
import Mathlib.Data.List.TakeWhile
import Mathlib.Logic.Relation
import ClassSchema.Descriptor

namespace ClassSchema

/-- The descriptor that counts for a name: the last one that has it. -/
def declared? (ds : List Descriptor) (x : Ident) : Option Descriptor := ds.findRev? (·.name = x)

theorem name_of_declared? {ds : List Descriptor} {x : Ident} {d : Descriptor}
    (h : declared? ds x = some d) : d.name = x := by
  rw [declared?, List.findRev?_eq_find?_reverse] at h
  simpa using List.find?_some h

theorem declared?_concat (ds : List Descriptor) (d : Descriptor) (x : Ident) :
    declared? (ds ++ [d]) x = if d.name = x then some d else declared? ds x := by
  by_cases hd : d.name = x
  · simp [declared?, hd]
  · simp [declared?, hd]

theorem mem_of_declared? {ds : List Descriptor} {x : Ident} {d : Descriptor}
    (h : declared? ds x = some d) : d ∈ ds := by
  rw [declared?, List.findRev?_eq_find?_reverse] at h
  exact List.mem_reverse.mp (List.mem_of_find?_eq_some h)

/-- Where no name is repeated, every descriptor counts. -/
theorem declared?_of_mem {ds : List Descriptor} (hds : (ds.map Descriptor.name).Nodup)
    {d : Descriptor} (hd : d ∈ ds) : declared? ds d.name = some d := by
  rcases h : declared? ds d.name with _ | e
  · rw [declared?, List.findRev?_eq_find?_reverse, List.find?_eq_none] at h
    exact absurd (decide_eq_true rfl) (h d (List.mem_reverse.mpr hd))
  · rw [List.inj_on_of_nodup_map hds (mem_of_declared? h) hd (name_of_declared? h)]

/-- A descriptor, the one that counts for the name of its parent, and so on to the root. -/
inductive ParentChain (ds : List Descriptor) : Descriptor → List Descriptor → Prop where
  | root {d : Descriptor} : d.parent = none → ParentChain ds d [d]
  | child {d e : Descriptor} {p : ClassRef} {chain : List Descriptor} : d.parent = some p →
      declared? ds p.name = some e → ParentChain ds e chain → ParentChain ds d (d :: chain)

variable {ds : List Descriptor}

/-- A descriptor has at most one chain. -/
theorem ParentChain.unique {d : Descriptor} {chain other : List Descriptor}
    (h : ParentChain ds d chain) (h' : ParentChain ds d other) : other = chain := by
  induction h generalizing other with
  | root hnone =>
    cases h' with
    | root _ => rfl
    | child hp _ _ => rw [hnone] at hp; cases hp
  | @child d e p chain hp he _ ih =>
    cases h' with
    | root hnone => rw [hnone] at hp; cases hp
    | @child _ e' p' chain' hp' he' hchain' =>
      obtain rfl : p' = p := Option.some.inj (hp'.symm.trans hp)
      obtain rfl : e' = e := Option.some.inj (he'.symm.trans he)
      rw [ih hchain']

/-! ### Cycles -/

/-- The descriptor that counts for a name has a parent of the other name. -/
def Extends (ds : List Descriptor) (x y : Ident) : Prop :=
  ∃ d p, declared? ds x = some d ∧ d.parent = some p ∧ p.name = y

/-- No name is above itself. -/
def Acyclic (r : Ident → Ident → Prop) : Prop := ∀ x, ¬ Relation.TransGen r x x

/-- A walk that comes back to where it began, and to no other name twice. -/
def IsCycle (r : Ident → Ident → Prop) (chain : List Ident) : Prop :=
  ∃ x way, chain = x :: way ++ [x] ∧ (x :: way).Nodup ∧ chain.IsChain r

/-- A name from which every way up ends is on no cycle. -/
theorem not_transGen_of_acc {r : Ident → Ident → Prop} {x : Ident}
    (h : Acc (Function.swap r) x) : ¬ Relation.TransGen r x x := by
  induction h with
  | intro x _ ih =>
    intro hx
    -- the first step of a cycle reaches a name that is on the same cycle
    obtain ⟨y, hxy, hyx⟩ := Relation.TransGen.head'_iff.mp hx
    exact ih y hxy (Relation.TransGen.tail' hyx hxy)

/-- A walk leads from its first name to its last. -/
theorem transGen_of_isChain {r : Ident → Ident → Prop} {x y : Ident} {way : List Ident}
    (h : (x :: way ++ [y]).IsChain r) : Relation.TransGen r x y := by
  induction way generalizing x with
  | nil => exact .single (List.isChain_pair.mp h)
  | cons z way ih =>
    obtain ⟨hxz, hrest⟩ := List.isChain_cons_cons.mp h
    exact .head hxz (ih hrest)

/-- A walk that comes back to where it has been goes along a cycle. -/
theorem transGen_of_loop {r : Ident → Ident → Prop} {x : Ident} {way : List Ident}
    (h : (way ++ [x]).IsChain r) (hx : x ∈ way) : Relation.TransGen r x x := by
  obtain ⟨before, after, rfl⟩ := List.append_of_mem hx
  rw [List.append_assoc] at h
  exact transGen_of_isChain h.right_of_append

/-- A walk goes on with a step from its last name. -/
theorem isChain_concat {r : Ident → Ident → Prop} {way : List Ident} {x y : Ident}
    (hway : way.IsChain r) (hlast : way.getLast? = some x) (h : r x y) :
    (way ++ [y]).IsChain r := by
  refine hway.append (.singleton y) ?_
  rw [hlast]
  simpa using h

/-- A walk without repetition keeps so with a new name. -/
theorem nodup_concat {way : List Ident} {x : Ident} (hnodup : way.Nodup) (hnew : x ∉ way) :
    (way ++ [x]).Nodup := by
  rw [← List.concat_eq_append]
  exact hnodup.concat hnew

/-- Every name on a walk but the last is one from which a step leads on. -/
theorem exists_step_of_mem {r : Ident → Ident → Prop} {walk : List Ident} {y z : Ident}
    (h : (walk ++ [z]).IsChain r) (hy : y ∈ walk) : ∃ y', r y y' := by
  obtain ⟨before, after, rfl⟩ := List.append_of_mem hy
  rw [List.append_assoc] at h
  rcases after with _ | ⟨a, after⟩
  · exact ⟨z, List.isChain_pair.mp h.right_of_append⟩
  · exact ⟨a, (List.isChain_cons_cons.mp h.right_of_append).1⟩

theorem IsCycle.not_acyclic {r : Ident → Ident → Prop} {chain : List Ident} (h : IsCycle r chain) :
    ¬ Acyclic r := by
  obtain ⟨x, way, rfl, -, hchain⟩ := h
  exact fun hacyclic => hacyclic x (transGen_of_isChain hchain)

/-- A walk without repetition goes on to one of its own names: from there on it is a cycle. -/
theorem isCycle_dropWhile {r : Ident → Ident → Prop} {way : List Ident} {p : Ident}
    (hway : (way ++ [p]).IsChain r) (hnodup : way.Nodup) (hp : p ∈ way) :
    IsCycle r (way.dropWhile (· ≠ p) ++ [p]) := by
  obtain ⟨before, after, rfl⟩ := List.append_of_mem hp
  obtain ⟨-, hafter, hdisjoint⟩ := List.nodup_append.mp hnodup
  have hdrop : (before ++ p :: after).dropWhile (· ≠ p) = p :: after := by
    rw [List.dropWhile_append_of_pos]
    · simp
    · intro a ha
      simpa using hdisjoint a ha p List.mem_cons_self
  rw [List.append_assoc] at hway
  rw [hdrop]
  exact ⟨p, after, rfl, hafter, hway.right_of_append⟩

/-- The walk up from a name runs into a cycle: first along a tail of names that are not on it, none
of them twice, and then once around. -/
structure RunsInto (r : Ident → Ident → Prop) (x : Ident) (tail cycle : List Ident) : Prop where
  begins : (tail ++ cycle).head? = some x
  steps : (tail ++ cycle).IsChain r
  around : IsCycle r cycle
  nodup : tail.Nodup
  apart : ∀ y ∈ tail, y ∉ cycle

/-- A walk without repetition that goes on to one of its own names has run into a cycle. -/
theorem runsInto_of_loop {r : Ident → Ident → Prop} {x p : Ident} {way : List Ident}
    (hbegins : (way ++ [p]).head? = some x) (hway : (way ++ [p]).IsChain r) (hnodup : way.Nodup)
    (hp : p ∈ way) : RunsInto r x (way.takeWhile (· ≠ p)) (way.dropWhile (· ≠ p) ++ [p]) := by
  have hwalk : way.takeWhile (· ≠ p) ++ (way.dropWhile (· ≠ p) ++ [p]) = way ++ [p] := by
    rw [← List.append_assoc, List.takeWhile_append_dropWhile]
  have hparts : (way.takeWhile (· ≠ p) ++ way.dropWhile (· ≠ p)).Nodup := by
    rwa [List.takeWhile_append_dropWhile]
  obtain ⟨htail, -, hdisjoint⟩ := List.nodup_append.mp hparts
  refine ⟨by rwa [hwalk], by rwa [hwalk], isCycle_dropWhile hway hnodup hp, htail, ?_⟩
  intro y hy hcycle
  rcases List.mem_append.mp hcycle with hdrop | hlast
  · exact hdisjoint y hy y hdrop rfl
  · have hne : y ≠ p := by simpa using List.mem_takeWhile_imp hy
    exact hne (List.mem_singleton.mp hlast)

/-- From a name on a walk every way up ends if it does from where the walk begins. -/
theorem acc_of_mem_walk {r : Ident → Ident → Prop} {walk : List Ident} (h : walk.IsChain r)
    {x y : Ident} (hx : walk.head? = some x) (hacc : Acc (Function.swap r) x) (hy : y ∈ walk) :
    Acc (Function.swap r) y := by
  induction walk generalizing x with
  | nil => cases hy
  | cons a rest ih =>
    obtain rfl := Option.some.inj hx
    rcases List.mem_cons.mp hy with rfl | hy
    · exact hacc
    · rcases rest with _ | ⟨b, rest⟩
      · cases hy
      · obtain ⟨hab, hrest⟩ := List.isChain_cons_cons.mp h
        exact ih hrest rfl (hacc.inv hab) hy

namespace RunsInto

variable {r : Ident → Ident → Prop} {x : Ident} {tail cycle : List Ident}

/-- From where a walk begins that runs into a cycle not every way up ends. -/
theorem not_acc (h : RunsInto r x tail cycle) : ¬ Acc (Function.swap r) x := by
  intro hacc
  obtain ⟨z, way, rfl, -, hcycle⟩ := h.around
  have hz : z ∈ tail ++ (z :: way ++ [z]) := by simp
  exact not_transGen_of_acc (acc_of_mem_walk h.steps h.begins hacc hz) (transGen_of_isChain hcycle)

/-- The tail is empty exactly if the walk begins on the cycle. -/
theorem tail_eq_nil_iff (h : RunsInto r x tail cycle) : tail = [] ↔ x ∈ cycle := by
  rcases tail with _ | ⟨y, tail⟩
  · simpa using List.mem_of_mem_head? h.begins
  · obtain rfl : y = x := Option.some.inj h.begins
    simpa using h.apart y List.mem_cons_self

/-- The whole walk is a cycle exactly if it begins on the cycle. -/
theorem isCycle_iff (h : RunsInto r x tail cycle) : IsCycle r (tail ++ cycle) ↔ x ∈ cycle := by
  rw [← h.tail_eq_nil_iff]
  constructor
  · rintro ⟨y, way, hwalk, -, -⟩
    -- a walk that ends where it begins begins on the cycle, since it ends there
    rw [h.tail_eq_nil_iff]
    obtain ⟨z, way', rfl, -, -⟩ := h.around
    have hbegins := h.begins
    rw [hwalk] at hbegins
    obtain rfl : y = x := Option.some.inj hbegins
    have hends : (tail ++ z :: way') ++ [z] = (y :: way) ++ [y] := by simpa using hwalk
    obtain rfl : z = y := List.head_eq_of_cons_eq (List.append_inj_right' hends rfl)
    simp
  · rintro rfl
    exact h.around

end RunsInto

theorem declared?_isSome_iff {x : Ident} :
    (∃ d, declared? ds x = some d) ↔ x ∈ ds.map Descriptor.name := by
  constructor
  · rintro ⟨d, hd⟩
    rw [← name_of_declared? hd]
    exact List.mem_map_of_mem (mem_of_declared? hd)
  · intro hx
    obtain ⟨d, hd, rfl⟩ := List.mem_map.mp hx
    rw [← Option.isSome_iff_exists, declared?, List.findRev?_eq_find?_reverse, List.find?_isSome]
    exact ⟨d, List.mem_reverse.mpr hd, by simp⟩

theorem ParentChain.mem_of_parent {d : Descriptor} {chain : List Descriptor}
    (h : ParentChain ds d chain) {p : ClassRef} (hp : d.parent = some p) :
    p.name ∈ ds.map Descriptor.name := by
  cases h with
  | root hnone => rw [hnone] at hp; cases hp
  | @child _ e p' _ hp' he _ =>
    obtain rfl := Option.some.inj (hp'.symm.trans hp)
    exact declared?_isSome_iff.mp ⟨e, he⟩

/-- Every way up from the foot of a chain ends. -/
theorem ParentChain.acc {d : Descriptor} {chain : List Descriptor} (h : ParentChain ds d chain)
    (hd : declared? ds d.name = some d) : Acc (Function.swap (Extends ds)) d.name := by
  induction h with
  | @root d hnone =>
    refine ⟨_, ?_⟩
    rintro y ⟨e, p, he, hp, -⟩
    obtain rfl := Option.some.inj (he.symm.trans hd)
    rw [hnone] at hp
    cases hp
  | @child d e p chain hp he _ ih =>
    refine ⟨_, ?_⟩
    rintro y ⟨d', p', hd', hp', rfl⟩
    obtain rfl := Option.some.inj (hd'.symm.trans hd)
    obtain rfl := Option.some.inj (hp'.symm.trans hp)
    have hname := name_of_declared? he
    rw [← hname] at he ⊢
    exact ih he

end ClassSchema
