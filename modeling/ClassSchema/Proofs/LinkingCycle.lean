/-
The cycles that linking reports.

* `Linking.runsInto_of_linkClass` — one climb that is refused for a cycle has run into it;
* `Linking.linkAll_eq_error` — a run is refused for the first climb that is;
* `cycle_report_is_way_up` — what is reported is the whole way up from the first name whose way up
  runs into a cycle, so it is a cycle exactly if that name is on it.

Design notes: the names on the way are all there is when a name is met again, and the report is made
of all of them.  The check of a single schema cuts off what leads to the cycle; here it stays.
-/
import ClassSchema.Proofs.CycleCheck
import ClassSchema.Proofs.Linking
import ClassSchema.Proofs.Outcome

namespace ClassSchema

variable {ds : List Descriptor}

namespace Linking

theorem finish_ne_schema (l : Linking) (x : Ident) (parent : Option Class) (e : SchemaError) :
    l.finish x parent ≠ .error (.schema e) := by
  unfold finish
  split
  · intro h; cases h
  · intro h; cases h

/-- **One climb that is refused for a cycle** has run into it, and reports all of its way. -/
theorem runsInto_of_linkClass {l : Linking} {way : List Ident} {x start : Ident} (hl : Sound ds l)
    (hway : (way ++ [x]).IsChain (Extends ds)) (hnodup : way.Nodup)
    (hstart : (way ++ [x]).head? = some start) {chain : List Ident}
    (h : l.linkClass way x = .error (.schema (.inheritanceCycle chain))) :
    ∃ tail cycle, chain = tail ++ cycle ∧ RunsInto (Extends ds) start tail cycle := by
  fun_induction linkClass l way x with
  | case1 => cases h
  | case2 way x hnew hmem =>
    cases h
    refine ⟨way.takeWhile (· ≠ x), way.dropWhile (· ≠ x) ++ [x], ?_,
      runsInto_of_loop hstart hway hnodup hmem⟩
    rw [← List.append_assoc, List.takeWhile_append_dropWhile]
  | case3 way x hnew hmem hparent => exact (finish_ne_schema _ _ _ _ h).elim
  | case4 way x hnew hmem p hparent hknows c' l' hrec ih => exact (finish_ne_schema _ _ _ _ h).elim
  | case5 way x hnew hmem p hparent hknows e hrec ih =>
    cases h
    have hbegins : (way ++ [x] ++ [p]).head? = some start := by
      rw [List.head?_append, hstart]
      rfl
    have hup := isChain_concat hway List.getLast?_concat (hl.extends_of_parent? hparent)
    exact ih hup (nodup_concat hnodup hmem) hbegins hrec
  | case6 => cases h

/-- A run is refused for the first climb that is. -/
theorem linkAll_eq_error {l : Linking} {names : List Ident} {e : StoreError}
    (h : l.linkAll names = .error e) :
    ∃ before x after l', names = before ++ x :: after ∧ l.linkAll before = .ok l' ∧
      l'.linkClass [] x = .error e := by
  induction names generalizing l with
  | nil => cases h
  | cons x rest ih =>
    rcases hx : l.linkClass [] x with e' | ⟨c, l'⟩
    · have hrun : l.linkAll (x :: rest) = .error e' := by rw [linkAll, hx]; rfl
      obtain rfl := Except.error.inj (hrun.symm.trans h)
      exact ⟨[], x, rest, l, rfl, rfl, hx⟩
    · have hrun : ∀ more, l.linkAll (x :: more) = l'.linkAll more := fun more => by
        rw [linkAll, hx]; rfl
      rw [hrun] at h
      obtain ⟨before, y, after, l'', rfl, hbefore, hy⟩ := ih h
      exact ⟨x :: before, y, after, l'', rfl, by rw [hrun, hbefore], hy⟩

/-- From a name that has become a class every way up ends. -/
theorem Sound.acc_of_linked {l : Linking} (hl : Sound ds l) {x : Ident} {c : Class}
    (h : Entries.get? x l.linked = some c) : Acc (Function.swap (Extends ds)) x := by
  obtain ⟨d, above, hd, -, hchain⟩ := hl.linked h
  obtain rfl := name_of_declared? hd
  exact hchain.acc hd

end Linking

namespace Registry

/-- **What linking reports of a cycle** is the whole way up from a name: the first one in the list
whose way up runs into a cycle.  Each name is followed by that of its parent, and no name comes
twice but the last, which has come once before.  From there on the report is a cycle; as a whole it
is one, with the same name at its two ends, exactly if the name that it begins with is on that
cycle. -/
theorem cycle_report_is_way_up {chain : List Ident}
    (h : link ds = .error (.schema (.inheritanceCycle chain))) :
    ∃ before x after tail cycle, ds.map Descriptor.name = before ++ x :: after ∧
      (∀ y ∈ before, ∀ tail cycle, ¬ RunsInto (Extends ds) y tail cycle) ∧
      chain = tail ++ cycle ∧ RunsInto (Extends ds) x tail cycle ∧ 2 ≤ chain.length ∧
      (IsCycle (Extends ds) chain ↔ x ∈ cycle) := by
  have hrun : (Linking.start ds).linkAll (ds.map Descriptor.name) =
      .error (.schema (.inheritanceCycle chain)) := by
    rw [link] at h
    exact Except.map_eq_error_iff.mp h
  obtain ⟨before, x, after, l, hnames, hbefore, hx⟩ := Linking.linkAll_eq_error hrun
  have hlisted : ∀ y ∈ before, y ∈ ds.map Descriptor.name := fun y hy => by
    rw [hnames]
    exact List.mem_append_left _ hy
  rcases Linking.linkAll_spec Linking.sound_start hlisted with
    ⟨l', hl', hsound, hall, -⟩ | ⟨e, he, -⟩
  · obtain rfl := Except.ok.inj (hl'.symm.trans hbefore)
    obtain ⟨tail, cycle, rfl, hruns⟩ :=
      Linking.runsInto_of_linkClass hsound (.singleton x) List.nodup_nil rfl hx
    refine ⟨before, x, after, tail, cycle, hnames, ?_, rfl, hruns, ?_, hruns.isCycle_iff⟩
    · intro y hy tail' cycle' hruns'
      obtain ⟨c, hc⟩ := hall y hy
      exact hruns'.not_acc (hsound.acc_of_linked hc)
    · obtain ⟨z, way, rfl, -, -⟩ := hruns.around
      simp
      omega
  · rw [he] at hbefore; cases hbefore

/-! ### A name that only leads to a cycle -/

/-- The schema of the ivy and the oak, where the moss has no parent. -/
def upland : Json :=
  .obj [("ivy", .obj [("_parent", .str "oak")]), ("oak", .obj [("_parent", .str "moss")]),
    ("moss", .obj [])]

/-- The schema of the moss, where the oak has no parent. -/
def lowland : Json := .obj [("moss", .obj [("_parent", .str "oak")]), ("oak", .obj [])]

theorem link_ivy : link [ivy, oak, moss] =
    .error (.schema (.inheritanceCycle [ivy.name, oak.name, moss.name, oak.name])) := by
  with_unfolding_all rfl

/-- The report of the three begins with the ivy, which is on no cycle. -/
theorem ivy_runs_into_cycle :
    link [ivy, oak, moss] =
      .error (.schema (.inheritanceCycle [ivy.name, oak.name, moss.name, oak.name])) ∧
    ∃ x tail cycle, [ivy.name, oak.name, moss.name, oak.name] = tail ++ cycle ∧
      RunsInto (Extends [ivy, oak, moss]) x tail cycle := by
  obtain ⟨before, x, after, tail, cycle, -, -, hchain, hruns, -⟩ := cycle_report_is_way_up link_ivy
  exact ⟨link_ivy, x, tail, cycle, hchain, hruns⟩

/-- The three are compiled from two schemas, and what is reported of them neither begins and ends
with the same name nor is a cycle. -/
theorem ivy_reported_in_front_of_cycle :
    ∃ first second, upland.compileSchema {} = .ok first ∧ lowland.compileSchema {} = .ok second ∧
      ivy ∈ first ∧ oak ∈ first ∧ moss ∈ second ∧
      ∃ chain, link [ivy, oak, moss] = .error (.schema (.inheritanceCycle chain)) ∧
        chain.head? ≠ chain.getLast? ∧ ¬ IsCycle (Extends [ivy, oak, moss]) chain := by
  have hfirst : ∃ bare, upland.compileSchema {} = .ok [ivy, oak, bare] :=
    ⟨_, by with_unfolding_all rfl⟩
  have hsecond : ∃ bare, lowland.compileSchema {} = .ok [moss, bare] :=
    ⟨_, by with_unfolding_all rfl⟩
  obtain ⟨bare, hfirst⟩ := hfirst
  obtain ⟨bare', hsecond⟩ := hsecond
  refine ⟨_, _, hfirst, hsecond, by simp, by simp, by simp, _, link_ivy, by decide, ?_⟩
  rintro ⟨x, way, hchain, -, -⟩
  have hbegins := congrArg List.head? hchain
  have hends := congrArg List.getLast? hchain
  rw [List.getLast?_append_of_ne_nil _ (List.cons_ne_nil x [])] at hends
  have hivy : ivy.name = x := Option.some.inj hbegins
  have hoak : oak.name = x := Option.some.inj hends
  exact absurd (hivy.trans hoak.symm) (by decide)

end Registry
end ClassSchema
