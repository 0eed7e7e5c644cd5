/-
The shape of names.

* `identDefect?_eq_none_iff` — what it takes to be a name;
* `Ident.parse_eq_ok_iff`, `Ident.parse_eq_error_iff` — a name is read from its text alone, and a
  text is refused for its first defect;
* `Ident.isIdentChar_of_mem`, `Ident.exists_head_of_mem_words` — the characters of a name, and how
  its words begin;
* `Ident.exists_head` — a name begins with a lower-case letter.
-/
import Mathlib.Logic.Function.Basic
import ClassSchema.Ident

namespace ClassSchema

/-- The first word of a text that does not begin with an underscore begins as the text does. -/
theorem Text.words_cons {c : Char} (hc : c ≠ '_') (s : List Char) :
    ∃ w ws, words (c :: s) = (c :: w) :: ws := by
  rcases hs : s.splitOn '_' with _ | ⟨w, ws⟩
  · exact absurd hs (List.splitOn_ne_nil '_' s)
  · refine ⟨w, ws, ?_⟩
    have hc' : (c == '_') = false := by simpa using hc
    rw [words, List.splitOn_cons_eq_if_modifyHead, hs]
    simp [hc']

/-- The words of a text hold its characters but for the underscores. -/
theorem Text.mem_of_mem_words {s w : List Char} (hw : w ∈ words s) {c : Char} (hc : c ∈ w) :
    c ∈ s ∧ c ≠ '_' := by
  induction s generalizing w with
  | nil =>
    obtain rfl : w = [] := by simpa [words] using hw
    cases hc
  | cons a s ih =>
    rw [words, List.splitOn_cons_eq_if_modifyHead] at hw
    by_cases ha : a = '_'
    · rw [if_pos (by simpa using ha)] at hw
      rcases List.mem_cons.mp hw with rfl | hw
      · cases hc
      · exact ⟨List.mem_cons_of_mem a (ih hw hc).1, (ih hw hc).2⟩
    · rw [if_neg (by simpa using ha)] at hw
      rcases hs : s.splitOn '_' with _ | ⟨v, vs⟩
      · exact absurd hs (List.splitOn_ne_nil '_' s)
      · rw [hs, List.modifyHead_cons] at hw
        rcases List.mem_cons.mp hw with rfl | hw
        · rcases List.mem_cons.mp hc with rfl | hc
          · exact ⟨List.mem_cons_self, ha⟩
          · have hv : v ∈ words s := by rw [words, hs]; exact List.mem_cons_self
            exact ⟨List.mem_cons_of_mem a (ih hv hc).1, (ih hv hc).2⟩
        · have hw' : w ∈ words s := by rw [words, hs]; exact List.mem_cons_of_mem v hw
          exact ⟨List.mem_cons_of_mem a (ih hw' hc).1, (ih hw' hc).2⟩

theorem Text.isDigit_of_isLower {c : Char} (h : c.isLower = true) : c.isDigit = false := by
  obtain ⟨ha, -⟩ := Bool.and_eq_true_iff.mp h
  have hlow : 'a'.val.toNat ≤ c.val.toNat := UInt32.le_iff_toNat_le.mp (of_decide_eq_true ha)
  refine Bool.and_eq_false_iff.mpr (Or.inr (decide_eq_false fun h9 => ?_))
  have hhigh : c.val.toNat ≤ '9'.val.toNat := UInt32.le_iff_toNat_le.mp h9
  have hgap : '9'.val.toNat < 'a'.val.toNat := by decide
  omega

/-- What it takes to be a name. -/
theorem identDefect?_eq_none_iff {s : String} :
    identDefect? s = none ↔ s ≠ "" ∧ (∀ c ∈ s.toList, isIdentChar c = true) ∧
      ∀ w ∈ Text.words s.toList, segmentDefect? w = none := by
  unfold identDefect?
  by_cases hempty : s = ""
  · simp [hempty]
  · rw [if_neg (by simpa using hempty)]
    rcases hfind : s.toList.find? fun c => !isIdentChar c with _ | c
    · have hchars : ∀ c ∈ s.toList, isIdentChar c = true := by
        intro c hc
        simpa using List.find?_eq_none.mp hfind c hc
      simpa [hempty, hchars] using fun _ => hchars
    · have hbad : isIdentChar c = false := by simpa using List.find?_some hfind
      have hmem := List.mem_of_find?_eq_some hfind
      simp only [reduceCtorEq, ne_eq, false_iff, not_and]
      intro _ hchars
      rw [hchars c hmem] at hbad
      cases hbad

namespace Ident

theorem text_injective : Function.Injective text := by
  rintro ⟨s, hs⟩ ⟨t, ht⟩ rfl
  rfl

theorem parse_eq_ok_iff {s : String} {x : Ident} : parse s = .ok x ↔ x.text = s := by
  unfold parse
  split
  · next e he =>
    refine iff_of_false nofun ?_
    rintro rfl
    rw [x.valid] at he
    cases he
  · next hvalid =>
    constructor
    · intro h
      rw [← Except.ok.inj h]
    · rintro rfl
      rfl

theorem parse_eq_error_iff {s : String} {e : IdentError} :
    parse s = .error e ↔ identDefect? s = some e := by
  unfold parse
  split
  · next e' he =>
    rw [he, Except.error.injEq, Option.some.injEq]
  · next hvalid =>
    refine iff_of_false nofun fun h => ?_
    rw [h] at hvalid
    cases hvalid

theorem isIdentChar_of_mem (x : Ident) {c : Char} (hc : c ∈ x.text.toList) :
    isIdentChar c = true :=
  (identDefect?_eq_none_iff.mp x.valid).2.1 c hc

/-- Every word of a name begins with a lower-case letter. -/
theorem exists_head_of_mem_words (x : Ident) {w : List Char} (hw : w ∈ Text.words x.text.toList) :
    ∃ c s, w = c :: s ∧ c.isLower = true := by
  have hdefect := (identDefect?_eq_none_iff.mp x.valid).2.2 w hw
  rcases w with _ | ⟨c, s⟩
  · cases hdefect
  · refine ⟨c, s, rfl, ?_⟩
    have hdigit : c.isDigit = false := by
      simpa [segmentDefect?] using hdefect
    obtain ⟨hmem, hscore⟩ := Text.mem_of_mem_words hw List.mem_cons_self
    have hchar := x.isIdentChar_of_mem hmem
    simpa [isIdentChar, hdigit, hscore] using hchar

/-- A name begins with a lower-case letter. -/
theorem exists_head (x : Ident) : ∃ c s, x.text.toList = c :: s ∧ c.isLower = true := by
  have hnil : [] ∉ Text.words x.text.toList := by
    intro hmem
    obtain ⟨c, s, hnil, -⟩ := x.exists_head_of_mem_words hmem
    cases hnil
  rcases htext : x.text.toList with _ | ⟨c, s⟩
  · rw [htext] at hnil
    exact absurd List.mem_cons_self hnil
  · -- an underscore in front would leave the first word empty
    have hc : c ≠ '_' := by
      rintro rfl
      simp [htext, Text.words, List.splitOn_cons_eq_if_modifyHead] at hnil
    obtain ⟨w, ws, hwords⟩ := Text.words_cons hc s
    have hmem : c :: w ∈ Text.words x.text.toList := by
      rw [htext, hwords]
      exact List.mem_cons_self
    obtain ⟨c', w', hword, hlower⟩ := x.exists_head_of_mem_words hmem
    obtain ⟨rfl, -⟩ := List.cons.inj hword
    exact ⟨c, s, rfl, hlower⟩

end Ident
end ClassSchema
