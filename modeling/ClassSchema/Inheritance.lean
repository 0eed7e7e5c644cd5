/-
Who inherits from whom.

* `Inheritance.parentNames` — the parents of types, by name;
* `Inheritance.climb` — the cycle that the way up from a type runs into;
* `Inheritance.cycle?` — the first cycle that a way up runs into.

Every step reaches a parent that has not been met before, and of those there are ever fewer, so the
way ends: at a type without a parent, at one that is not listed, or at one that has been met.
-/
import ClassSchema.Descriptor

namespace ClassSchema.Inheritance

/-- The parents of types, by name. -/
def parentNames (ds : List Descriptor) : List (Ident × Ident) :=
  Entries.ofList (ds.filterMap fun d => d.parent.map fun p => (d.name, p.name))

/-- The elements whose names have not been met. -/
def unmet {α : Type} (name : α → Ident) (l : List α) (met : List Ident) : List α :=
  l.filter fun a => name a ∉ met

theorem length_unmet_lt {α : Type} {name : α → Ident} {l : List α} {met : List Ident} {a : α}
    (ha : a ∈ l) (hnew : name a ∉ met) :
    (unmet name l (met ++ [name a])).length < (unmet name l met).length := by
  have hstep : unmet name l (met ++ [name a]) =
      (unmet name l met).filter fun b => name b ≠ name a := by
    rw [unmet, unmet, List.filter_filter]
    congr 1
    funext b
    by_cases hb : name b = name a
    · simp [hb]
    · simp [hb]
  rw [hstep, List.length_filter_lt_length_iff_exists]
  exact ⟨a, List.mem_filter.mpr ⟨ha, decide_eq_true hnew⟩, by simp⟩

/-- The cycle that the way up from a type runs into, given the names on the way so far: the names
along it, the first of them repeated at the end. -/
def climb (parents : List (Ident × Ident)) (way : List Ident) (x : Ident) : Option (List Ident) :=
  match _ : Entries.get? x parents with
  | none => none
  | some p =>
    if _ : p ∈ way then some (way.dropWhile (· ≠ p) ++ [p])
    else climb parents (way ++ [p]) p
termination_by (unmet Prod.snd parents way).length
decreasing_by
  rename_i hp hnew
  exact length_unmet_lt (Entries.mem_of_get? hp) hnew

/-- The first cycle that the way up from a type runs into. -/
def cycle? (ds : List Descriptor) : Option (List Ident) :=
  let parents := parentNames ds
  ds.findSome? fun d => climb parents [d.name] d.name

end ClassSchema.Inheritance
