/-
Linking, whatever descriptors it is given.

* `Linking.Sound` — what linking keeps true of the descriptors that wait and the classes that are
  there;
* `Linking.Defect` — the two ways in which descriptors do not link;
* `linkClass_spec` — what one climb through the parents of a name does;
* `linkAll_spec` — what a run over many names does;
* `link_outcome` — which descriptors link, what they link to, and why the others do not;
* `exists_chain_of_mem` — every class of a registry is linked along its chain.

Design notes: a name on the way up is not linked before its parent is.  So while the parent links,
whatever else becomes a class, the descriptor of the name keeps waiting (`Linked.spares`), and it is
still there when its turn comes.
-/
import ClassSchema.Proofs.Entries
import ClassSchema.Proofs.ParentChain
import ClassSchema.Registry

namespace ClassSchema

variable {ds : List Descriptor}

theorem Registry.descriptor_link (d : Descriptor) (above : List Descriptor) :
    (Class.link d above).descriptor = d := by
  cases above with
  | nil => rfl
  | cons parent above => rfl

namespace Linking

/-- A descriptor that counts for its name either waits or has become the class that its chain of
parents makes, and nothing else waits or is a class. -/
structure Sound (ds : List Descriptor) (l : Linking) : Prop where
  pending : ∀ {x d}, Entries.get? x l.pending = some d → declared? ds x = some d
  waits : ∀ {x d}, declared? ds x = some d → Entries.get? x l.linked = none →
    Entries.get? x l.pending = some d
  linked : ∀ {x c}, Entries.get? x l.linked = some c → ∃ d above, declared? ds x = some d ∧
    c = Class.link d above ∧ ParentChain ds d (d :: above)

/-- Why descriptors do not link. -/
inductive Defect (ds : List Descriptor) : StoreError → Prop where
  /-- A parent is not listed. -/
  | orphan {x y : Ident} : Extends ds x y → y ∉ ds.map Descriptor.name →
      Defect ds (.missingParent x y)
  /-- A way up comes back to where it has been. -/
  | loop {way : List Ident} {x : Ident} : (way ++ [x]).IsChain (Extends ds) → x ∈ way →
      Defect ds (.schema (.inheritanceCycle (way ++ [x])))

/-- A name has become a class.  Nothing on the way to it has, and what was a class still is. -/
structure Linked (ds : List Descriptor) (l : Linking) (way : List Ident) (x : Ident) (c : Class)
    (after : Linking) : Prop where
  sound : Sound ds after
  here : Entries.get? x after.linked = some c
  stays : ∀ {y c'}, Entries.get? y l.linked = some c' → Entries.get? y after.linked = some c'
  spares : ∀ {y}, y ∈ way → Entries.get? y l.linked = none → Entries.get? y after.linked = none

/-! ### One name -/

theorem get?_start (x : Ident) : Entries.get? x (start ds).pending = declared? ds x := by
  have hlast := Entries.last?_map x Descriptor.name id ds
  rw [Option.map_id] at hlast
  rw [start, Entries.get?_ofList]
  exact hlast

theorem sound_start : Sound ds (start ds) where
  pending h := by rwa [get?_start] at h
  waits h _ := by rwa [get?_start]
  linked h := by cases h

/-- What is known is listed. -/
theorem Sound.mem_of_knows {l : Linking} (hl : Sound ds l) {x : Ident} (h : l.knows x = true) :
    x ∈ ds.map Descriptor.name := by
  rw [← declared?_isSome_iff]
  simp only [knows, Bool.or_eq_true, Entries.contains, Option.isSome_iff_exists] at h
  rcases h with ⟨d, hd⟩ | ⟨c, hc⟩
  · exact ⟨d, hl.pending hd⟩
  · obtain ⟨d, -, hd, -⟩ := hl.linked hc
    exact ⟨d, hd⟩

theorem Sound.knows_of_mem {l : Linking} (hl : Sound ds l) {x : Ident}
    (h : x ∈ ds.map Descriptor.name) : l.knows x = true := by
  obtain ⟨d, hd⟩ := declared?_isSome_iff.mpr h
  rcases hc : Entries.get? x l.linked with _ | c
  · simp [knows, Entries.contains, hl.waits hd hc]
  · simp [knows, Entries.contains, hc]

/-- A descriptor that waits becomes the class that its chain makes. -/
theorem linked_finish {l : Linking} (hl : Sound ds l) {way : List Ident} {x : Ident} (hx : x ∉ way)
    (hnew : Entries.get? x l.linked = none) {d : Descriptor} (hd : declared? ds x = some d)
    (parent : Option Class) {above : List Descriptor}
    (hunder : Class.under parent d = Class.link d above)
    (hchain : ParentChain ds d (d :: above)) :
    ∃ c after, l.finish x parent = .ok (c, after) ∧ Linked ds l way x c after := by
  have hwaits := hl.waits hd hnew
  refine ⟨Class.under parent d,
    ⟨Entries.remove x l.pending, Entries.put x (Class.under parent d) l.linked⟩, ?_, ?_⟩
  · rw [finish, hwaits]
  · refine ⟨⟨?_, ?_, ?_⟩, Entries.get?_put_self _ _ _, ?_, ?_⟩
    · intro y e he
      rw [Entries.get?_remove] at he
      split at he
      · cases he
      · exact hl.pending he
    · intro y e he hy
      rw [Entries.get?_put] at hy
      split at hy
      · cases hy
      · next hne => rw [Entries.get?_remove, if_neg hne]; exact hl.waits he hy
    · intro y c hc
      rw [Entries.get?_put] at hc
      split at hc
      · next heq =>
        obtain rfl := Option.some.inj hc
        exact ⟨d, above, heq ▸ hd, hunder, hchain⟩
      · exact hl.linked hc
    · intro y c hc
      have hne : x ≠ y := by
        rintro rfl
        rw [hnew] at hc
        cases hc
      rw [Entries.get?_put_of_ne hne]
      exact hc
    · intro y hy hnone
      have hne : x ≠ y := fun h => hx (h ▸ hy)
      rw [Entries.get?_put_of_ne hne]
      exact hnone

theorem Sound.extends_of_parent? {l : Linking} (hl : Sound ds l) {x p : Ident}
    (h : l.parent? x = some p) : Extends ds x p := by
  obtain ⟨d, hd, hp⟩ := Option.bind_eq_some_iff.mp h
  obtain ⟨r, hr, rfl⟩ := Option.map_eq_some_iff.mp hp
  exact ⟨d, r, hl.pending hd, hr, rfl⟩

/-- **What one climb does.**  The name has become a class, or the descriptors have a defect. -/
theorem linkClass_spec {l : Linking} {way : List Ident} {x : Ident} (hl : Sound ds l)
    (hx : x ∈ ds.map Descriptor.name) (hway : (way ++ [x]).IsChain (Extends ds)) :
    (∃ c after, l.linkClass way x = .ok (c, after) ∧ Linked ds l way x c after) ∨
      ∃ e, l.linkClass way x = .error e ∧ Defect ds e := by
  obtain ⟨d, hd⟩ := declared?_isSome_iff.mpr hx
  fun_induction linkClass l way x generalizing d with
  | case1 way x c hc => exact Or.inl ⟨c, l, rfl, hl, hc, id, fun _ h => h⟩
  | case2 way x hnew hmem => exact Or.inr ⟨_, rfl, .loop hway hmem⟩
  | case3 way x hnew hmem hparent =>
    have hnone : d.parent = none := by
      simpa [parent?, hl.waits hd hnew] using hparent
    exact Or.inl (linked_finish hl hmem hnew hd none rfl (.root hnone))
  | case4 way x hnew hmem p hparent hknows c' l' hrec ih =>
    have hp := hl.extends_of_parent? hparent
    have hlisted := hl.mem_of_knows hknows
    obtain ⟨e, he⟩ := declared?_isSome_iff.mpr hlisted
    rcases ih hlisted (isChain_concat hway List.getLast?_concat hp) e he with
      ⟨c, after, hok, hlinked⟩ | ⟨e, herr, -⟩
    · obtain ⟨rfl, rfl⟩ := Prod.mk.inj (Except.ok.inj (hrec.symm.trans hok))
      obtain ⟨e', above, he', rfl, hchain⟩ := hlinked.sound.linked hlinked.here
      obtain ⟨d', r, hd', hr, rfl⟩ := hp
      obtain rfl := Option.some.inj (hd'.symm.trans hd)
      -- the name was on the way of its parent, so it has not become a class meanwhile
      have hstill := hlinked.spares (List.mem_append_right way List.mem_cons_self) hnew
      obtain ⟨c, last, hfinish, hdone⟩ :=
        linked_finish hlinked.sound hmem hstill hd (some (Class.link e' above)) rfl
          (.child hr he' hchain)
      refine Or.inl ⟨c, last, hfinish, hdone.sound, hdone.here, ?_, ?_⟩
      · exact fun hy => hdone.stays (hlinked.stays hy)
      · exact fun hy hnone => hdone.spares hy (hlinked.spares (List.mem_append_left _ hy) hnone)
    · rw [hrec] at herr; cases herr
  | case5 way x hnew hmem p hparent hknows e hrec ih =>
    have hlisted := hl.mem_of_knows hknows
    obtain ⟨d', hd'⟩ := declared?_isSome_iff.mpr hlisted
    have hup := isChain_concat hway List.getLast?_concat (hl.extends_of_parent? hparent)
    rcases ih hlisted hup d' hd' with ⟨c, after, hok, -⟩ | ⟨e', herr, hdefect⟩
    · rw [hrec] at hok; cases hok
    · obtain rfl := Except.error.inj (hrec.symm.trans herr)
      exact Or.inr ⟨e, rfl, hdefect⟩
  | case6 way x hnew hmem p hparent hknows =>
    have hp := hl.extends_of_parent? hparent
    exact Or.inr ⟨_, rfl, .orphan hp fun h => hknows (hl.knows_of_mem h)⟩

/-! ### Many names -/

/-- **What a run does.**  All names have become classes, or the descriptors have a defect. -/
theorem linkAll_spec {l : Linking} (hl : Sound ds l) {names : List Ident}
    (hnames : ∀ x ∈ names, x ∈ ds.map Descriptor.name) :
    (∃ after, l.linkAll names = .ok after ∧ Sound ds after ∧
        (∀ x ∈ names, ∃ c, Entries.get? x after.linked = some c) ∧
        ∀ y c, Entries.get? y l.linked = some c → Entries.get? y after.linked = some c) ∨
      ∃ e, l.linkAll names = .error e ∧ Defect ds e := by
  induction names generalizing l with
  | nil => exact Or.inl ⟨l, rfl, hl, fun x hx => absurd hx List.not_mem_nil, fun _ _ h => h⟩
  | cons x rest ih =>
    have hx := hnames x List.mem_cons_self
    have hrest := fun y hy => hnames y (List.mem_cons_of_mem x hy)
    have hstart : ([] ++ [x]).IsChain (Extends ds) := .singleton x
    rcases linkClass_spec hl hx hstart with ⟨c, l', hok, hlinked⟩ | ⟨e, he, hd⟩
    · have hrun : l.linkAll (x :: rest) = l'.linkAll rest := by rw [linkAll, hok]; rfl
      rw [hrun]
      rcases ih hlinked.sound hrest with ⟨after, hafter, hsound, hall, hstays⟩ | hdefect
      · refine Or.inl ⟨after, hafter, hsound, ?_, fun y c hy => hstays y c (hlinked.stays hy)⟩
        intro y hy
        rcases List.mem_cons.mp hy with rfl | hy
        · exact ⟨c, hstays y c hlinked.here⟩
        · exact hall y hy
      · exact Or.inr hdefect
    · have hrun : l.linkAll (x :: rest) = .error e := by rw [linkAll, he]; rfl
      exact Or.inr ⟨e, hrun, hd⟩

/-- The classes of names that are linked bear these names. -/
theorem Sound.name_of_linked {l : Linking} (hl : Sound ds l) {x : Ident} {c : Class}
    (h : Entries.get? x l.linked = some c) : c.name = x := by
  obtain ⟨d, above, hd, rfl, -⟩ := hl.linked h
  rw [Class.name, Registry.descriptor_link, name_of_declared? hd]

theorem Sound.map_name_classes {l : Linking} (hl : Sound ds l) {names : List Ident}
    (hall : ∀ x ∈ names, ∃ c, Entries.get? x l.linked = some c) :
    (l.classes names).map Class.name = names.eraseDups := by
  have hall' : ∀ x ∈ names.eraseDups, ∃ c, Entries.get? x l.linked = some c :=
    fun x hx => hall x (List.mem_eraseDups.mp hx)
  rw [classes]
  generalize names.eraseDups = distinct at hall'
  induction distinct with
  | nil => rfl
  | cons x rest ih =>
    obtain ⟨c, hc⟩ := hall' x List.mem_cons_self
    have hrest := ih fun y hy => hall' y (List.mem_cons_of_mem x hy)
    rw [List.filterMap_cons, hc]
    rw [List.map_cons, hl.name_of_linked hc, hrest]

end Linking

/-! ### Registries -/

namespace Registry

open Linking (Defect)

/-- Descriptors link, or have a defect. -/
theorem link_spec (ds : List Descriptor) :
    (∃ l : Linking, link ds = .ok ⟨l.classes (ds.map Descriptor.name)⟩ ∧ l.Sound ds ∧
        ∀ x ∈ ds.map Descriptor.name, ∃ c, Entries.get? x l.linked = some c) ∨
      ∃ e, link ds = .error e ∧ Defect ds e := by
  rcases Linking.linkAll_spec Linking.sound_start fun x (hx : x ∈ ds.map Descriptor.name) => hx with
    ⟨l, hl, hsound, hall, -⟩ | ⟨e, he, hd⟩
  · exact Or.inl ⟨l, by rw [link, hl]; rfl, hsound, hall⟩
  · exact Or.inr ⟨e, by rw [link, he]; rfl, hd⟩

/-- Every class of a registry is linked along the chain of its descriptor, which is the one that
counts for its name. -/
theorem exists_chain_of_mem {r : Registry} (hr : link ds = .ok r) {c : Class}
    (hc : c ∈ r.classes) :
    ∃ above, c = Class.link c.descriptor above ∧
      ParentChain ds c.descriptor (c.descriptor :: above) ∧
      declared? ds c.name = some c.descriptor := by
  rcases link_spec ds with ⟨l, hl, hsound, -⟩ | ⟨e, he, -⟩
  · obtain rfl := Except.ok.inj (hl.symm.trans hr)
    obtain ⟨x, -, hx⟩ := List.mem_filterMap.mp hc
    obtain ⟨d, above, hd, rfl, hchain⟩ := hsound.linked hx
    rw [Class.name, Registry.descriptor_link, name_of_declared? hd]
    exact ⟨above, rfl, hchain, hd⟩
  · rw [he] at hr; cases hr

theorem link_isOk_iff (ds : List Descriptor) :
    (∃ r, link ds = .ok r) ↔
      (∀ x y, Extends ds x y → y ∈ ds.map Descriptor.name) ∧ Acyclic (Extends ds) := by
  rcases link_spec ds with ⟨l, hl, hsound, hall⟩ | ⟨e, he, hdefect⟩
  · -- every name that counts has become a class, along a chain
    have hchain : ∀ x d, declared? ds x = some d → ∃ chain, ParentChain ds d chain := by
      intro x d hd
      obtain ⟨c, hc⟩ := hall x (declared?_isSome_iff.mp ⟨d, hd⟩)
      obtain ⟨d', above, hd', -, hchain⟩ := hsound.linked hc
      obtain rfl := Option.some.inj (hd'.symm.trans hd)
      exact ⟨_, hchain⟩
    refine ⟨fun _ => ⟨?_, ?_⟩, fun _ => ⟨_, hl⟩⟩
    · rintro x y ⟨d, p, hd, hp, rfl⟩
      obtain ⟨chain, hchain⟩ := hchain x d hd
      exact hchain.mem_of_parent hp
    · intro x hx
      obtain ⟨y, ⟨d, p, hd, -, -⟩, -⟩ := Relation.TransGen.head'_iff.mp hx
      obtain ⟨chain, hchain⟩ := hchain x d hd
      obtain rfl := name_of_declared? hd
      exact not_transGen_of_acc (hchain.acc hd) hx
  · constructor
    · rintro ⟨r, hr⟩
      rw [he] at hr; cases hr
    · rintro ⟨hlisted, hacyclic⟩
      cases hdefect with
      | orphan hxy hy => exact absurd (hlisted _ _ hxy) hy
      | loop hway hx => exact absurd (transGen_of_loop hway hx) (hacyclic _)

theorem map_name_classes {r : Registry} (hr : link ds = .ok r) :
    r.classes.map Class.name = (ds.map Descriptor.name).eraseDups := by
  rcases link_spec ds with ⟨l, hl, hsound, hall⟩ | ⟨e, he, -⟩
  · obtain rfl := Except.ok.inj (hl.symm.trans hr)
    exact hsound.map_name_classes hall
  · rw [he] at hr; cases hr

/-- **What becomes of any list of descriptors.**  They link exactly if every parent is listed and no
type is above itself, where of the descriptors with one name the last one counts.  What they link to
is one class for every name, in the order in which the names first occur, each made along the chain
of the descriptor that counts.  If they do not link, the error is a parent that is not listed or a
way up that comes back to where it has been, and never a class that is not known. -/
theorem link_outcome (ds : List Descriptor) :
    ((∃ r, link ds = .ok r) ↔
      (∀ x y, Extends ds x y → y ∈ ds.map Descriptor.name) ∧ Acyclic (Extends ds)) ∧
    (∀ r, link ds = .ok r →
      r.classes.map Class.name = (ds.map Descriptor.name).eraseDups ∧
      ∀ c ∈ r.classes, declared? ds c.name = some c.descriptor ∧
        ∃ above, ParentChain ds c.descriptor (c.descriptor :: above) ∧
          c = Class.link c.descriptor above) ∧
    ∀ e, link ds = .error e →
      ((∃ x y, Extends ds x y ∧ y ∉ ds.map Descriptor.name ∧ e = .missingParent x y) ∨
        ∃ way x, (way ++ [x]).IsChain (Extends ds) ∧ x ∈ way ∧
          e = .schema (.inheritanceCycle (way ++ [x]))) ∧
      ∀ name, e ≠ .unknownClass name := by
  refine ⟨link_isOk_iff ds, ?_, ?_⟩
  · intro r hr
    refine ⟨map_name_classes hr, ?_⟩
    intro c hc
    obtain ⟨above, hlink, hchain, hcounts⟩ := exists_chain_of_mem hr hc
    exact ⟨hcounts, above, hchain, hlink⟩
  · intro e he
    rcases link_spec ds with ⟨l, hl, -⟩ | ⟨e', he', hdefect⟩
    · rw [hl] at he; cases he
    · obtain rfl := Except.error.inj (he'.symm.trans he)
      cases hdefect with
      | @orphan x y hxy hy => exact ⟨Or.inl ⟨x, y, hxy, hy, rfl⟩, fun _ h => by cases h⟩
      | @loop way x hway hx => exact ⟨Or.inr ⟨way, x, hway, hx, rfl⟩, fun _ h => by cases h⟩

end Registry
end ClassSchema
