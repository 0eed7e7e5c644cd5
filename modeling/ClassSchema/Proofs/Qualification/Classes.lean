/-
Linking without namespaces.

* `Class.bare`, `Registry.bare` — a class, or a registry, without namespaces;
* `Class.under_bare` — a class without namespaces is made of descriptors without namespaces;
* `Linking.linkClass_bare` — linking goes the same way, whatever the namespaces;
* `Registry.link_bare` — descriptors without namespaces link to the registry without namespaces, or
  fail for the same reason.
-/
import ClassSchema.Proofs.Qualification.Descriptors
import ClassSchema.Registry

namespace ClassSchema

/-! ### Classes -/

namespace Class

/-- A class without namespaces. -/
def bare (c : Class) : Class where
  descriptor := c.descriptor.bare
  lineage := c.lineage
  properties := Entries.mapValues SlotType.bare c.properties
  wildcard := c.wildcard.map SlotType.bare
  dispatch := c.dispatch

theorem ownProperties_bare (d : Descriptor) :
    ownProperties d.bare = Entries.mapValues SlotType.bare (ownProperties d) := by
  simp [ownProperties, Descriptor.bare, Entries.mapValues]

/-- The names of accessors are made of property names and schema names. -/
theorem ownDispatch_bare (d : Descriptor) : ownDispatch d.bare = ownDispatch d := by
  rw [ownDispatch, ownDispatch, Descriptor.signatures_bare, List.map_map]
  rfl

theorem root_bare (d : Descriptor) : root d.bare = (root d).bare := by
  rw [root, ownProperties_bare, ownDispatch_bare, Entries.ofList_mapValues]
  rfl

theorem extend_bare (parent : Class) (d : Descriptor) :
    parent.bare.extend d.bare = (parent.extend d).bare := by
  have hwildcard : (d.bare.wildcard <|> parent.bare.wildcard) =
      (d.wildcard <|> parent.wildcard).map SlotType.bare := by
    rcases hd : d.wildcard with _ | t
    · simp [Descriptor.bare, bare, hd]
    · simp [Descriptor.bare, hd]
  rw [extend, ownProperties_bare, ownDispatch_bare, hwildcard]
  rw [show parent.bare.properties = Entries.mapValues SlotType.bare parent.properties from rfl,
    Entries.putAll_mapValues]
  rfl

theorem under_bare (parent : Option Class) (d : Descriptor) :
    under (parent.map bare) d.bare = (under parent d).bare := by
  rcases parent with _ | p
  · exact root_bare d
  · exact extend_bare p d

/-! What is asked of a class -/

@[simp] theorem property?_bare (c : Class) (name : String) :
    c.bare.property? name = (c.property? name).map SlotType.bare :=
  Entries.get?_mapValues SlotType.bare name c.properties

@[simp] theorem isOpen_bare (c : Class) : c.bare.isOpen = c.isOpen := by
  simp [isOpen, bare]

theorem hasProperty?_bare (c : Class) (name : String) :
    c.bare.hasProperty? name = (c.hasProperty? name).map SlotType.bare := by
  rw [hasProperty?, hasProperty?, property?_bare]
  rcases c.property? name with _ | t
  · rfl
  · rfl

@[simp] theorem accessor?_bare (c : Class) (name : String) :
    c.bare.accessor? name = c.accessor? name := by
  rw [accessor?, accessor?, isOpen_bare]
  rfl

end Class

/-! ### Linking -/

namespace Linking

/-- How far linking has come, without namespaces. -/
def bare (l : Linking) : Linking :=
  ⟨Entries.mapValues Descriptor.bare l.pending, Entries.mapValues Class.bare l.linked⟩

/-- A class and how far linking has come, both without namespaces. -/
def bareStep (step : Class × Linking) : Class × Linking := (step.1.bare, step.2.bare)

theorem start_bare (ds : List Descriptor) : start (ds.map Descriptor.bare) = (start ds).bare := by
  have hpairs : (ds.map Descriptor.bare).map (fun d => (d.name, d)) =
      Entries.mapValues Descriptor.bare (ds.map fun d => (d.name, d)) := by
    rw [Entries.mapValues, List.map_map, List.map_map]
    rfl
  rw [start, hpairs, Entries.ofList_mapValues]
  rfl

@[simp] theorem knows_bare (l : Linking) (x : Ident) : l.bare.knows x = l.knows x := by
  simp [knows, bare]

@[simp] theorem parent?_bare (l : Linking) (x : Ident) : l.bare.parent? x = l.parent? x := by
  rw [parent?, parent?, bare, Entries.get?_mapValues]
  rcases Entries.get? x l.pending with _ | d
  · rfl
  · rcases hd : d.parent with _ | p
    · simp [Descriptor.bare, hd]
    · simp [Descriptor.bare, ClassRef.bare, hd]

theorem finish_bare (l : Linking) (x : Ident) (parent : Option Class) :
    l.bare.finish x (parent.map Class.bare) = (l.finish x parent).map bareStep := by
  rw [finish, finish, bare, Entries.get?_mapValues]
  rcases Entries.get? x l.pending with _ | d
  · rfl
  · show Except.ok (Class.under _ d.bare, _) = Except.ok _
    rw [Class.under_bare, Entries.remove_mapValues, Entries.put_mapValues]
    rfl

theorem get?_linked_bare (l : Linking) (x : Ident) :
    Entries.get? x l.bare.linked = (Entries.get? x l.linked).map Class.bare :=
  Entries.get?_mapValues Class.bare x l.linked

/-- A step of linking, without what the search needs in order to end. -/
theorem linkClass_eq (l : Linking) (way : List Ident) (x : Ident) :
    l.linkClass way x =
      match Entries.get? x l.linked with
      | some c => .ok (c, l)
      | none =>
        if x ∈ way then .error (.schema (.inheritanceCycle (way ++ [x])))
        else
          match l.parent? x with
          | none => l.finish x none
          | some p =>
            if l.knows p then do
              let (parent, l) ← l.linkClass (way ++ [x]) p
              l.finish x (some parent)
            else .error (.missingParent x p) := by
  rw [linkClass]
  rcases Entries.get? x l.linked with _ | c
  · by_cases hmem : x ∈ way
    · simp only [dif_pos hmem, if_pos hmem]
    · simp only [dif_neg hmem, if_neg hmem]
      split
      · next hp => rw [hp]
      · next p hp =>
        rw [hp]
        dsimp only
        rcases l.linkClass (way ++ [x]) p with e | ⟨parent, l'⟩
        · rfl
        · rfl
  · rfl

/-- Linking goes the same way, whatever the namespaces. -/
theorem linkClass_bare (l : Linking) (way : List Ident) (x : Ident) :
    l.bare.linkClass way x = (l.linkClass way x).map bareStep := by
  fun_induction l.linkClass way x with
  | case1 way x c hc =>
    rw [linkClass_eq, get?_linked_bare, hc]
    rfl
  | case2 way x hnew hmem =>
    rw [linkClass_eq, get?_linked_bare, hnew]
    exact if_pos hmem
  | case3 way x hnew hmem hparent =>
    rw [linkClass_eq, get?_linked_bare, hnew, parent?_bare, hparent, ← finish_bare]
    exact if_neg hmem
  | case4 way x hnew hmem p hparent hknows parent l' hrec ih =>
    -- the parent links without namespaces too, and the class is made of what that leaves
    rw [hrec] at ih
    rw [linkClass_eq, get?_linked_bare, hnew, parent?_bare, hparent]
    simp only [Option.map_none, if_neg hmem, knows_bare, if_pos hknows, ih]
    exact finish_bare l' x (some parent)
  | case5 way x hnew hmem p hparent hknows e hrec ih =>
    rw [hrec] at ih
    rw [linkClass_eq, get?_linked_bare, hnew, parent?_bare, hparent]
    simp only [Option.map_none, if_neg hmem, knows_bare, if_pos hknows, ih]
    rfl
  | case6 way x hnew hmem p hparent hknows =>
    rw [linkClass_eq, get?_linked_bare, hnew, parent?_bare, hparent]
    simp only [Option.map_none, if_neg hmem, knows_bare, if_neg hknows]
    rfl

theorem linkAll_bare (l : Linking) (names : List Ident) :
    l.bare.linkAll names = (l.linkAll names).map bare := by
  induction names generalizing l with
  | nil => rfl
  | cons x rest ih =>
    rw [linkAll, linkAll, linkClass_bare]
    rcases l.linkClass [] x with e | ⟨c, l'⟩
    · rfl
    · exact ih l'

theorem classes_bare (l : Linking) (names : List Ident) :
    l.bare.classes names = (l.classes names).map Class.bare := by
  simp only [classes, get?_linked_bare, List.map_filterMap]

end Linking

/-! ### Registries -/

namespace Registry

/-- A registry without namespaces. -/
def bare (r : Registry) : Registry := ⟨r.classes.map Class.bare⟩

/-- Descriptors without namespaces link to the registry without namespaces, or fail for the same
reason. -/
theorem link_bare (ds : List Descriptor) :
    link (ds.map Descriptor.bare) = (link ds).map bare := by
  have hnames : (ds.map Descriptor.bare).map Descriptor.name = ds.map Descriptor.name := by
    rw [List.map_map]
    rfl
  rw [link, link, hnames, Linking.start_bare, Linking.linkAll_bare]
  rcases (Linking.start ds).linkAll (ds.map Descriptor.name) with e | l
  · rfl
  · show Except.ok (Registry.mk _) = Except.ok (Registry.mk _)
    rw [Linking.classes_bare]

theorem class?_bare (r : Registry) (name : String) :
    r.bare.class? name = (r.class? name).map Class.bare := by
  rw [class?, class?, bare, List.find?_map]
  rfl

end Registry
end ClassSchema
