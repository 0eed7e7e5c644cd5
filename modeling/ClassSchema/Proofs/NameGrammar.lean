/-
The grammar of names.

* `Text.Segments` — every word of the text is a segment;
* `Text.Continues` — the text may stand behind the first letter of a segment;
* `segments_cons_iff`, `continues_cons_iff`, `continues_score_iff` — both, character by character;
* `identDefect?_eq_none_iff_segments` — a text is a name exactly if every word of it is a segment.

Design notes: a text is split at its underscores first, and each word is looked at on its own.  Read
from left to right the grammar has two states, before a segment and within one, and a text is told
apart by what its first character does to the state.
-/
import ClassSchema.Proofs.Naming

namespace ClassSchema

namespace Text

/-! ### Words -/

theorem words_score (s : List Char) : words ('_' :: s) = [] :: words s := by
  rw [words, List.splitOn_cons_eq_if_modifyHead, if_pos (beq_self_eq_true '_')]
  rfl

theorem words_cons_of_ne {c : Char} (hc : c ≠ '_') (s : List Char) :
    words (c :: s) = (words s).modifyHead (c :: ·) := by
  rw [words, List.splitOn_cons_eq_if_modifyHead, if_neg (by simpa using hc)]
  rfl

theorem exists_words (s : List Char) : ∃ w ws, words s = w :: ws :=
  List.exists_cons_of_ne_nil (List.splitOn_ne_nil '_' s)

/-- But for the underscores the characters of a text are those of its words. -/
theorem exists_mem_words {s : List Char} {c : Char} (hc : c ∈ s) (hscore : c ≠ '_') :
    ∃ w ∈ words s, c ∈ w := by
  induction s with
  | nil => exact absurd hc List.not_mem_nil
  | cons a s ih =>
    by_cases ha : a = '_'
    · have hmem : c ∈ s := (List.mem_cons.mp hc).resolve_left fun h => hscore (h.trans ha)
      obtain ⟨w, hw, hcw⟩ := ih hmem
      rw [ha, words_score]
      exact ⟨w, List.mem_cons_of_mem _ hw, hcw⟩
    · obtain ⟨w, ws, hwords⟩ := exists_words s
      rw [words_cons_of_ne ha, hwords, List.modifyHead_cons]
      rcases List.mem_cons.mp hc with rfl | hmem
      · exact ⟨c :: w, List.mem_cons_self, List.mem_cons_self⟩
      · obtain ⟨v, hv, hcv⟩ := ih hmem
        rw [hwords] at hv
        rcases List.mem_cons.mp hv with rfl | hv
        · exact ⟨a :: v, List.mem_cons_self, List.mem_cons_of_mem a hcv⟩
        · exact ⟨v, List.mem_cons_of_mem _ hv, hcv⟩

/-! ### Before a segment and within one -/

/-- Every word of the text is a segment. -/
def Segments (s : List Char) : Prop := ∀ w ∈ words s, Segment w

/-- The text may stand behind the first letter of a segment: it goes on with the segment, and every
word that follows is one. -/
def Continues (s : List Char) : Prop :=
  ∃ w ws, words s = w :: ws ∧ (∀ a ∈ w, IsPlain a) ∧ ∀ v ∈ ws, Segment v

theorem not_segments_nil : ¬ Segments [] := fun h => h [] List.mem_cons_self

theorem segments_cons_iff {c : Char} {s : List Char} :
    Segments (c :: s) ↔ c.isLower = true ∧ Continues s := by
  by_cases hc : c = '_'
  · -- the word in front of the underscore is empty
    subst hc
    rw [Segments, words_score]
    exact iff_of_false (fun h => h [] List.mem_cons_self) fun h => absurd h.1 (by decide)
  · obtain ⟨w, ws, hwords⟩ := exists_words s
    rw [Segments, words_cons_of_ne hc, hwords, List.modifyHead_cons, List.forall_mem_cons]
    constructor
    · rintro ⟨⟨hlower, hplain⟩, hws⟩
      exact ⟨hlower, w, ws, hwords, hplain, hws⟩
    · rintro ⟨hlower, w', ws', hwords', hplain, hws⟩
      obtain ⟨rfl, rfl⟩ := List.cons.inj (hwords.symm.trans hwords')
      exact ⟨⟨hlower, hplain⟩, hws⟩

theorem continues_nil : Continues [] :=
  ⟨[], [], rfl, fun _ ha => absurd ha List.not_mem_nil, fun _ hv => absurd hv List.not_mem_nil⟩

theorem continues_score_iff {s : List Char} : Continues ('_' :: s) ↔ Segments s := by
  rw [Continues, words_score]
  constructor
  · rintro ⟨w, ws, hwords, -, hws⟩
    obtain ⟨-, rfl⟩ := List.cons.inj hwords
    exact hws
  · intro h
    exact ⟨[], words s, rfl, fun _ ha => absurd ha List.not_mem_nil, h⟩

theorem continues_cons_iff {c : Char} (hc : c ≠ '_') {s : List Char} :
    Continues (c :: s) ↔ IsPlain c ∧ Continues s := by
  obtain ⟨w, ws, hwords⟩ := exists_words s
  rw [Continues, Continues, words_cons_of_ne hc, hwords, List.modifyHead_cons]
  constructor
  · rintro ⟨w', ws', hwords', hplain, hws⟩
    obtain ⟨rfl, rfl⟩ := List.cons.inj hwords'
    obtain ⟨hc, hw⟩ := List.forall_mem_cons.mp hplain
    exact ⟨hc, w, ws, rfl, hw, hws⟩
  · rintro ⟨hc, w', ws', hwords', hplain, hws⟩
    obtain ⟨rfl, rfl⟩ := List.cons.inj hwords'
    exact ⟨c :: w, ws, rfl, List.forall_mem_cons.mpr ⟨hc, hplain⟩, hws⟩

theorem IsPlain.ne_score {c : Char} (h : IsPlain c) : c ≠ '_' := by
  rintro rfl
  exact h.elim (by decide) (by decide)

end Text

/-! ### Names -/

/-- A text is a name exactly if every word of it is a segment. -/
theorem identDefect?_eq_none_iff_segments {s : String} :
    identDefect? s = none ↔ Text.Segments s.toList := by
  constructor
  · exact fun h w hw => Ident.segment_of_mem_words ⟨s, h⟩ hw
  · intro h
    refine identDefect?_eq_none_iff.mpr ⟨?_, fun c hc => ?_, fun w hw => ?_⟩
    · rintro rfl
      exact Text.not_segments_nil h
    · by_cases hscore : c = '_'
      · simp [isIdentChar, hscore]
      · obtain ⟨w, hw, hcw⟩ := Text.exists_mem_words hc hscore
        have hplain : Text.IsPlain c := (h w hw).isPlain hcw
        rcases hplain with hlower | hdigit
        · simp [isIdentChar, hlower]
        · simp [isIdentChar, hdigit]
    · rcases w with _ | ⟨c, t⟩
      · exact (h [] hw).elim
      · have hlower : c.isLower = true := (h (c :: t) hw).1
        simp [segmentDefect?, Text.isDigit_of_isLower hlower]

theorem Ident.segments (x : Ident) : Text.Segments x.text.toList :=
  identDefect?_eq_none_iff_segments.mp x.valid

end ClassSchema
