/-
Names in Pascal case, and what they are the names of.

* `Text.Segment` — the words that names are made of;
* `Text.decamelize_joinWords` — such words, capitalised and run together, come apart again;
* `Ident.className_injective` — so two names never have the same class name;
* `Accessor.name_injective` — and two accessors of named targets never have the same name.

Design notes: Pascal case goes by the case tables of all of Unicode, while the way back knows the
capital letters of ASCII alone.  For the words of names both are the same simple thing, since these
hold nothing but lower-case letters and digits of ASCII.
-/
import Mathlib
import ClassSchema.Accessor
import ClassSchema.Proofs.Ident
import ClassSchema.SlotType

namespace ClassSchema

namespace Text

/-! ### Words of names -/

/-- A lower-case letter or a digit. -/
def IsPlain (c : Char) : Prop := c.isLower = true ∨ c.isDigit = true

/-- A lower-case letter, with lower-case letters and digits behind it. -/
def Segment : List Char → Prop
  | [] => False
  | c :: s => c.isLower = true ∧ ∀ a ∈ s, IsPlain a

theorem IsPlain.toNat_lt {c : Char} (h : IsPlain c) : c.toNat < 0x80 := by
  rcases h with h | h
  · obtain ⟨-, hz⟩ := Bool.and_eq_true_iff.mp h
    have hle := UInt32.le_iff_toNat_le.mp (of_decide_eq_true hz)
    exact lt_of_le_of_lt hle (by decide)
  · obtain ⟨-, h9⟩ := Bool.and_eq_true_iff.mp h
    have hle := UInt32.le_iff_toNat_le.mp (of_decide_eq_true h9)
    exact lt_of_le_of_lt hle (by decide)

theorem IsPlain.isUpper_eq_false {c : Char} (h : IsPlain c) : c.isUpper = false := by
  rcases h with h | h
  · exact Bool.eq_false_iff.mpr (Char.not_isUpper_of_isLower h)
  · refine Bool.eq_false_iff.mpr fun hup => ?_
    obtain ⟨-, h9⟩ := Bool.and_eq_true_iff.mp h
    obtain ⟨hA, -⟩ := of_decide_eq_true hup
    have hle := UInt32.le_iff_toNat_le.mp (of_decide_eq_true h9)
    have hge := UInt32.le_iff_toNat_le.mp hA
    have hgap : '9'.val.toNat < 'A'.val.toNat := by decide
    omega

theorem lowerChar_of_isPlain {c : Char} (h : IsPlain c) : lowerChar c = [c] := by
  rw [lowerChar, if_pos h.toNat_lt]
  rw [Char.toLower_eq_of_not_isUpper (by rw [h.isUpper_eq_false]; decide)]

theorem lowerAfter_eq_self {s : List Char} (hs : ∀ a ∈ s, IsPlain a) (before : List Char) :
    lowerAfter before s = s := by
  induction s generalizing before with
  | nil => rfl
  | cons c s ih =>
    have hc := hs c List.mem_cons_self
    have hsigma : c ≠ 'Σ' := by
      rintro rfl
      exact absurd hc.toNat_lt (by decide)
    rw [lowerAfter, if_neg hsigma, lowerChar_of_isPlain hc]
    rw [ih fun a ha => hs a (List.mem_cons_of_mem c ha)]
    rfl

theorem Segment.isPlain {w : List Char} (h : Segment w) {a : Char} (ha : a ∈ w) : IsPlain a := by
  rcases w with _ | ⟨c, s⟩
  · exact h.elim
  · rcases List.mem_cons.mp ha with rfl | ha
    · exact Or.inl h.1
    · exact h.2 a ha

/-- Of a word of a name the first letter alone changes. -/
theorem capitalWord_of_segment {c : Char} {s : List Char} (h : Segment (c :: s)) :
    capitalWord (c :: s) = c.toUpper :: s := by
  have hall : ∀ a ∈ c :: s, IsPlain a := fun a => h.isPlain
  have hlt := (hall c List.mem_cons_self).toNat_lt
  rw [capitalWord, lower, lowerAfter_eq_self hall, capitalise, upperChar, if_pos hlt]
  rfl

/-! ### There and back -/

/-- A capital letter, and only such a letter, begins a new word. -/
def openWord (c : Char) : List Char := if c.isUpper then ['_', c.toLower] else [c]

theorem flatMap_openWord_of_isPlain {s : List Char} (hs : ∀ a ∈ s, IsPlain a) :
    s.flatMap openWord = s := by
  induction s with
  | nil => rfl
  | cons c s ih =>
    have hc := (hs c List.mem_cons_self).isUpper_eq_false
    rw [List.flatMap_cons, openWord, hc, ih fun a ha => hs a (List.mem_cons_of_mem c ha)]
    rfl

theorem toLower_toUpper {c : Char} (hc : c.isLower = true) : c.toUpper.toLower = c := by
  rw [Char.toLower_toUpper_eq_toLower]
  exact Char.toLower_eq_of_not_isUpper (Char.not_isUpper_of_isLower hc)

theorem isUpper_toUpper {c : Char} (hc : c.isLower = true) : c.toUpper.isUpper = true := by
  rw [Char.isUpper_toUpper_eq_isAlpha, Char.isAlpha, hc, Bool.or_true]

/-- A word that was capitalised comes back behind an underscore. -/
theorem flatMap_openWord_capitalWord {w : List Char} (h : Segment w) :
    (capitalWord w).flatMap openWord = '_' :: w := by
  rcases w with _ | ⟨c, s⟩
  · exact h.elim
  · rw [capitalWord_of_segment h, List.flatMap_cons, openWord, isUpper_toUpper h.1]
    rw [flatMap_openWord_of_isPlain h.2, if_pos rfl, toLower_toUpper h.1]
    rfl

theorem intercalate_cons (glue w : List Char) (ws : List (List Char)) :
    glue.intercalate (w :: ws) = w ++ ws.flatMap (glue ++ ·) := by
  induction ws generalizing w with
  | nil => simp
  | cons v ws ih =>
    rw [List.intercalate_cons_cons, ih v, List.flatMap_cons, List.append_assoc, List.append_assoc]

/-- Words that are capitalised and run together come apart again. -/
theorem decamelize_joinWords {s : List Char} (h : ∀ w ∈ words s, Segment w) :
    decamelize (joinWords [] s) = s := by
  have hsplit : ['_'].intercalate (words s) = s := List.intercalate_splitOn '_'
  rcases hwords : words s with _ | ⟨w, ws⟩
  · exact absurd hwords (List.splitOn_ne_nil '_' s)
  · rw [hwords] at h hsplit
    -- every word but the first brings its underscore back with its capital letter
    have hrest : ((ws.map capitalWord).flatMap ([] ++ ·)).flatMap openWord =
        ws.flatMap (['_'] ++ ·) := by
      rw [List.flatMap_map, List.flatMap_assoc]
      refine List.flatMap_congr fun v hv => ?_
      exact flatMap_openWord_capitalWord (h v (List.mem_cons_of_mem w hv))
    rcases w with _ | ⟨c, t⟩
    · exact (h [] List.mem_cons_self).elim
    · have hw := h (c :: t) List.mem_cons_self
      rw [joinWords, hwords, List.map_cons, intercalate_cons, capitalWord_of_segment hw]
      calc decamelize (c.toUpper :: t ++ (ws.map capitalWord).flatMap ([] ++ ·))
          = c.toUpper.toLower :: (t ++ (ws.map capitalWord).flatMap ([] ++ ·)).flatMap openWord :=
            rfl
        _ = c :: (t ++ ws.flatMap (['_'] ++ ·)) := by
            rw [toLower_toUpper hw.1, List.flatMap_append, flatMap_openWord_of_isPlain hw.2, hrest]
        _ = s := by rw [← hsplit, intercalate_cons]; rfl

/-- What is made of such words begins with a capital letter. -/
theorem exists_head_joinWords {s : List Char} (h : ∀ w ∈ words s, Segment w) :
    ∃ c t, joinWords [] s = c :: t ∧ c.isUpper = true := by
  rcases hwords : words s with _ | ⟨w, ws⟩
  · exact absurd hwords (List.splitOn_ne_nil '_' s)
  · rw [hwords] at h
    rcases w with _ | ⟨c, t⟩
    · exact (h [] List.mem_cons_self).elim
    · have hw := h (c :: t) List.mem_cons_self
      rw [joinWords, hwords, List.map_cons, intercalate_cons, capitalWord_of_segment hw]
      exact ⟨c.toUpper, _, rfl, isUpper_toUpper hw.1⟩

end Text

/-! ### Class names -/

namespace Ident

theorem segment_of_mem_words (x : Ident) {w : List Char} (hw : w ∈ Text.words x.text.toList) :
    Text.Segment w := by
  obtain ⟨c, s, rfl, hc⟩ := x.exists_head_of_mem_words hw
  refine ⟨hc, fun a ha => ?_⟩
  obtain ⟨hmem, hscore⟩ := Text.mem_of_mem_words hw (List.mem_cons_of_mem c ha)
  simpa [Text.IsPlain, isIdentChar, hscore] using x.isIdentChar_of_mem hmem

theorem toList_className (x : Ident) : x.className.toList = Text.joinWords [] x.text.toList :=
  String.toList_ofList

/-- A name is read off its class name. -/
theorem decamelize_className (x : Ident) : decamelize x.className = x.text := by
  rw [decamelize, toList_className, Text.decamelize_joinWords fun _ => x.segment_of_mem_words]
  exact String.ofList_toList

theorem className_injective : Function.Injective className := by
  intro x y h
  apply text_injective
  rw [← decamelize_className x, h, decamelize_className]

end Ident

/-! ### Names of accessors -/

theorem Verb.word_injective : Function.Injective word := by
  intro v w h
  cases v <;> cases w <;> first | rfl | exact absurd h (by decide)

namespace Accessor

/-- The word for the verb is all that stands in front of the first capital letter. -/
theorem takeWhile_isLower_name (v : Verb) (x : Ident) :
    (name ⟨v, x.text⟩).toList.takeWhile Char.isLower = v.word.toList := by
  have hword : v.word.toList.all Char.isLower = true := by cases v <;> rfl
  obtain ⟨c, t, hname, hc⟩ := Text.exists_head_joinWords fun _ => x.segment_of_mem_words
  have hstop : c.isLower = false := Bool.eq_false_iff.mpr (Char.not_isLower_of_isUpper hc)
  rw [show name ⟨v, x.text⟩ = v.word ++ x.className from rfl, String.toList_append,
    x.toList_className, hname, List.takeWhile_append_of_pos (List.all_eq_true.mp hword),
    List.takeWhile_cons_of_neg (by rw [hstop]; decide), List.append_nil]

/-- Accessors of named targets are told apart by their names. -/
theorem name_injective {v w : Verb} {x y : Ident} (h : name ⟨v, x.text⟩ = name ⟨w, y.text⟩) :
    v = w ∧ x = y := by
  have hverb : v = w := by
    apply Verb.word_injective
    apply String.toList_injective
    rw [← takeWhile_isLower_name v x, h, takeWhile_isLower_name]
  subst hverb
  have hclass : x.className = y.className := String.append_right_inj _ |>.mp h
  exact ⟨rfl, Ident.className_injective hclass⟩

end Accessor
end ClassSchema
