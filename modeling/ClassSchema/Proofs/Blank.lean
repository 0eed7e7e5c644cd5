/-
Trimming.

* `Blanks` — texts of nothing but blanks;
* `exists_trim` — a text is its trimmed form with blanks around it;
* `trim_padded`, `trim_trim` — blanks around a text are trimmed away, all of them at once;
* `trim_eq_self` — a text that neither begins nor ends with a blank is trimmed already.
-/
import Mathlib.Data.List.TakeWhile
import ClassSchema.Text.Blank

namespace ClassSchema.Text

/-- The text has nothing but blanks. -/
def Blanks (s : List Char) : Prop := ∀ c ∈ s, isBlank c = true

theorem blanks_nil : Blanks [] := fun _ hc => absurd hc List.not_mem_nil

theorem Blanks.append {s s' : List Char} (h : Blanks s) (h' : Blanks s') : Blanks (s ++ s') :=
  fun c hc => (List.mem_append.mp hc).elim (h c) (h' c)

theorem blanks_takeWhile (s : List Char) : Blanks (s.takeWhile isBlank) := by
  intro c hc
  exact List.mem_takeWhile_imp hc

theorem trimLeft_append_of_blanks {left : List Char} (hl : Blanks left) (s : List Char) :
    trimLeft (left ++ s) = trimLeft s :=
  List.dropWhile_append_of_pos hl

theorem trimRight_append_of_blanks (s : List Char) {right : List Char} (hr : Blanks right) :
    trimRight (s ++ right) = trimRight s := by
  have hr' : ∀ c ∈ right.reverse, isBlank c = true := fun c hc => hr c (List.mem_reverse.mp hc)
  rw [trimRight, List.reverse_append, List.dropWhile_append_of_pos hr', trimRight]

/-- Blanks around a text are trimmed away. -/
theorem trim_padded {left right : List Char} (hl : Blanks left) (s : List Char)
    (hr : Blanks right) : trim (left ++ s ++ right) = trim s := by
  rw [trim, List.append_assoc, trimLeft_append_of_blanks hl]
  by_cases hs : Blanks s
  · rw [trim, trimLeft, trimLeft, List.dropWhile_eq_nil_iff.mpr (hs.append hr),
      List.dropWhile_eq_nil_iff.mpr hs]
  · have hne : s.dropWhile isBlank ≠ [] := fun h => hs (List.dropWhile_eq_nil_iff.mp h)
    have hsplit : trimLeft (s ++ right) = trimLeft s ++ right := by
      rw [trimLeft, List.dropWhile_append, if_neg (by simpa using hne), trimLeft]
    rw [hsplit, trimRight_append_of_blanks _ hr, trim]

/-- A text is its trimmed form with blanks around it. -/
theorem exists_trim (s : List Char) :
    ∃ left right, Blanks left ∧ Blanks right ∧ s = left ++ trim s ++ right := by
  refine ⟨s.takeWhile isBlank, ((trimLeft s).reverse.takeWhile isBlank).reverse,
    blanks_takeWhile s, ?_, ?_⟩
  · exact fun c hc => blanks_takeWhile _ c (List.mem_reverse.mp hc)
  · rw [List.append_assoc, trim, trimRight, ← List.reverse_append, List.takeWhile_append_dropWhile,
      List.reverse_reverse, trimLeft, List.takeWhile_append_dropWhile]

/-- A trimmed text has nothing left to trim. -/
theorem trim_trim (s : List Char) : trim (trim s) = trim s := by
  obtain ⟨left, right, hl, hr, hs⟩ := exists_trim s
  have hpadded := trim_padded hl (trim s) hr
  rw [← hs] at hpadded
  exact hpadded.symm

theorem trim_eq_nil_iff {s : List Char} : trim s = [] ↔ Blanks s := by
  constructor
  · intro h
    obtain ⟨left, right, hl, hr, hs⟩ := exists_trim s
    rw [h, List.append_nil] at hs
    rw [hs]
    exact hl.append hr
  · intro h
    have hempty := trim_padded h [] blanks_nil
    rwa [List.append_nil, List.append_nil] at hempty

/-- A text that neither begins nor ends with a blank is trimmed already. -/
theorem trim_eq_self {c d : Char} {s : List Char} (hc : isBlank c = false)
    (hd : isBlank d = false) : trim (c :: s ++ [d]) = c :: s ++ [d] := by
  have hleft : trimLeft (c :: s ++ [d]) = c :: s ++ [d] := by
    simp [trimLeft, hc]
  rw [trim, hleft, trimRight, List.reverse_append]
  simp [hd]

theorem trim_eq_self_of_forall {s : List Char} (hs : ∀ c ∈ s, isBlank c = false) : trim s = s := by
  have hdrop : ∀ t : List Char, (∀ c ∈ t, isBlank c = false) → t.dropWhile isBlank = t := by
    intro t ht
    cases t with
    | nil => rfl
    | cons c t => rw [List.dropWhile_cons, ht c List.mem_cons_self]; rfl
  rw [trim, trimLeft, hdrop s hs, trimRight, hdrop _ fun c hc => hs c (List.mem_reverse.mp hc),
    List.reverse_reverse]

end ClassSchema.Text
