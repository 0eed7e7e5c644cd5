/-
The grammar of type tokens.

* `TypeToken.Layer` — a text that brackets another one as the elements of an array;
* `Scope.Spells` — which tokens write which types;
* `TypeToken.Innermost` — what is left of a token when all its layers are taken off;
* `resolveToken_eq_ok_iff` — a token resolves to the type that it spells, and to no other;
* `resolveToken_eq_error_iff` — a token that spells nothing is reported as its innermost part.

Design notes: resolution looks for a marker first and for brackets behind it.  No name begins with a
marker and none has a bracket, so the three kinds of tokens never get into each other's way.
-/
import Mathlib.Data.List.Basic
import ClassSchema.Proofs.Blank
import ClassSchema.Proofs.Ident
import ClassSchema.Proofs.Outcome
import ClassSchema.Scope

namespace ClassSchema

namespace TypeToken

/-- The two spellings of the marker. -/
def markers : List (List Char) := [longMarker, shortMarker]

/-- A text around another in the brackets of an array, marked or not. -/
inductive Layer : List Char → List Char → Prop where
  | bare {inner : List Char} : Layer ("array[".toList ++ inner ++ [']']) inner
  | marked {m inner : List Char} : m ∈ markers →
      Layer (m ++ ("array[".toList ++ inner ++ [']'])) inner

/-- What is left of a token when its layers are taken off, each with the blanks around it. -/
inductive Innermost : List Char → List Char → Prop where
  | layer {s inner core : List Char} : Layer (Text.trim s) inner → ¬ Text.Blanks inner →
      Innermost inner core → Innermost s core
  | core {s : List Char} : (∀ inner, Layer (Text.trim s) inner → Text.Blanks inner) →
      Innermost s (Text.trim s)

end TypeToken

open TypeToken in
/-- A token spells a type.  Blanks around it say nothing. -/
inductive Scope.Spells (scope : Scope) : List Char → SlotType → Prop where
  | padded {left s right : List Char} {t : SlotType} : Text.Blanks left → Text.Blanks right →
      Spells scope s t → Spells scope (left ++ s ++ right) t
  | primitive {m : List Char} (p : Primitive) : m ∈ markers →
      Spells scope (m ++ p.spelling.toList) (.primitive p)
  | array {s inner : List Char} {t : SlotType} : Layer s inner → Spells scope inner t →
      Spells scope s (.arrayOf t)
  | reference {x : Ident} : x ∈ scope.declared →
      Spells scope x.text.toList (.reference (scope.home.refer x))

namespace TypeToken

/-! ### Taking off a layer -/

theorem marked?_eq_some_iff {s word : List Char} :
    marked? s = some word ↔ ∃ m ∈ markers, s = m ++ word := by
  unfold marked?
  rcases hlong : longMarker.isPrefixOf? s with _ | w
  · simp only [markers, List.mem_cons, List.not_mem_nil, or_false, exists_eq_or_imp,
      exists_eq_left]
    have hne : s ≠ longMarker ++ word := by
      rintro rfl
      rw [List.isPrefixOf?_eq_some_iff_append_eq.mpr rfl] at hlong
      cases hlong
    rw [List.isPrefixOf?_eq_some_iff_append_eq, eq_comm]
    simp [hne]
  · obtain rfl := List.isPrefixOf?_eq_some_iff_append_eq.mp hlong
    constructor
    · intro h
      obtain rfl := Option.some.inj h
      exact ⟨longMarker, List.mem_cons_self, rfl⟩
    · rintro ⟨m, hm, hs⟩
      rcases List.mem_cons.mp hm with rfl | hm
      · rw [List.append_cancel_left hs]
      · obtain rfl := List.mem_singleton.mp hm
        cases hs

theorem elementToken?_eq_some_iff {s inner : List Char} :
    elementToken? s = some inner ↔
      s = "array[".toList ++ inner ++ [']'] ∧ ¬ Text.Blanks inner := by
  simp only [elementToken?, Option.bind_eq_bind, Option.bind_eq_some_iff,
    List.isPrefixOf?_eq_some_iff_append_eq, List.isSuffixOf?_eq_some_iff_append_eq,
    List.append_assoc]
  rw [← Text.trim_eq_nil_iff, ← List.isEmpty_iff]
  constructor
  · rintro ⟨opened, rfl, i, rfl, hi⟩
    split at hi
    · cases hi
    · next hblank =>
      obtain rfl := Option.some.inj hi
      exact ⟨rfl, hblank⟩
  · rintro ⟨rfl, hblank⟩
    exact ⟨inner ++ [']'], rfl, inner, rfl, if_neg hblank⟩

/-- The layer that is taken off is the one that is there, unless it holds nothing but blanks. -/
theorem inner?_eq_some_iff {s inner : List Char} :
    inner? s = some inner ↔ Layer s inner ∧ ¬ Text.Blanks inner := by
  rw [inner?, elementToken?_eq_some_iff, unmarked]
  refine and_congr_left fun _ => ⟨?_, ?_⟩
  · intro h
    rcases hmarked : marked? s with _ | word
    · rw [hmarked, Option.getD_none] at h
      rw [h]
      exact .bare
    · obtain ⟨m, hm, rfl⟩ := marked?_eq_some_iff.mp hmarked
      rw [hmarked, Option.getD_some] at h
      rw [h]
      exact .marked hm
  · intro h
    cases h with
    | bare =>
      have hnone : marked? ("array[".toList ++ inner ++ [']']) = none := rfl
      rw [hnone, Option.getD_none]
    | marked hm => rw [marked?_eq_some_iff.mpr ⟨_, hm, rfl⟩, Option.getD_some]

theorem Layer.mem_bracket {s inner : List Char} (h : Layer s inner) : ']' ∈ s := by
  cases h with
  | bare => simp
  | marked _ => simp

/-- A layer neither begins nor ends with a blank. -/
theorem Layer.trim {s inner : List Char} (h : Layer s inner) : Text.trim s = s := by
  cases h with
  | bare => exact Text.trim_eq_self (c := 'a') (s := "rray[".toList ++ inner) rfl rfl
  | @marked m _ hm =>
    rcases List.mem_cons.mp hm with rfl | hm
    · exact Text.trim_eq_self (c := 'i') (s := "nternal:array[".toList ++ inner) rfl rfl
    · obtain rfl := List.mem_singleton.mp hm
      exact Text.trim_eq_self (c := '_') (s := "array[".toList ++ inner) rfl rfl

theorem inner?_eq_none {s : List Char} (h : ']' ∉ s) : inner? s = none := by
  rcases hinner : inner? s with _ | inner
  · rfl
  · exact absurd (inner?_eq_some_iff.mp hinner).1.mem_bracket h

/-- What is left is the same however the layers are taken off. -/
theorem Innermost.unique {s core other : List Char} (h : Innermost s core)
    (h' : Innermost s other) : other = core := by
  induction h generalizing other with
  | layer hlayer hblank _ ih =>
    have hinner := inner?_eq_some_iff.mpr ⟨hlayer, hblank⟩
    cases h' with
    | layer hlayer' hblank' hother =>
      obtain rfl := Option.some.inj (hinner.symm.trans (inner?_eq_some_iff.mpr ⟨hlayer', hblank'⟩))
      exact ih hother
    | core hnone => exact absurd (hnone _ hlayer) hblank
  | core hnone =>
    cases h' with
    | layer hlayer' hblank' _ => exact absurd (hnone _ hlayer') hblank'
    | core _ => rfl

end TypeToken

/-! ### Words that are no layers -/

theorem Primitive.ofSpelling?_eq_some_iff {s : String} {p : Primitive} :
    ofSpelling? s = some p ↔ s = p.spelling := by
  constructor
  · intro h
    unfold ofSpelling? at h
    split_ifs at h <;> (obtain rfl := Option.some.inj h; assumption)
  · rintro rfl
    cases p <;> rfl

theorem isBlank_of_isIdentChar {c : Char} (h : isIdentChar c = true) : Text.isBlank c = false := by
  have hrange : (97 ≤ c.toNat ∧ c.toNat ≤ 122) ∨ (48 ≤ c.toNat ∧ c.toNat ≤ 57) ∨ c.toNat = 95 := by
    have hlower : c.isLower = (decide (c.val ≥ 97) && decide (c.val ≤ 122)) := rfl
    simp only [isIdentChar, hlower, Char.isDigit, Bool.or_eq_true, Bool.and_eq_true,
      decide_eq_true_eq, UInt32.le_iff_toNat_le] at h
    rcases h with (h | h) | rfl
    · exact Or.inl h
    · exact Or.inr (Or.inl h)
    · exact Or.inr (Or.inr rfl)
  simp only [Text.isBlank, Text.inRanges, Text.blankRanges, List.any_cons, List.any_nil,
    Bool.or_false, Bool.or_eq_false_iff, Bool.and_eq_false_iff, decide_eq_false_iff_not]
  omega

namespace Scope

open TypeToken

variable {scope : Scope} {s : List Char} {t : SlotType}

theorem reference?_eq_some_iff {name : String} {r : ClassRef} :
    scope.reference? name = some r ↔
      ∃ x ∈ scope.declared, x.text = name ∧ r = scope.home.refer x := by
  rw [reference?, Option.map_eq_some_iff]
  constructor
  · rintro ⟨x, hx, rfl⟩
    exact ⟨x, List.mem_of_find?_eq_some hx, by simpa using List.find?_some hx, rfl⟩
  · rintro ⟨x, hx, rfl, rfl⟩
    rcases hfind : scope.declared.find? (·.text = x.text) with _ | y
    · exact absurd (decide_eq_true rfl) (List.find?_eq_none.mp hfind x hx)
    · have hy : y.text = x.text := by simpa using List.find?_some hfind
      exact ⟨y, hfind, by rw [Ident.text_injective hy]⟩

theorem marked?_ident (x : Ident) : marked? x.text.toList = none := by
  rcases hmarked : marked? x.text.toList with _ | word
  · rfl
  · obtain ⟨m, hm, hx⟩ := marked?_eq_some_iff.mp hmarked
    rcases List.mem_cons.mp hm with rfl | hm
    · have hcolon : ':' ∈ x.text.toList := by
        rw [hx]
        exact List.mem_append_left word (by decide)
      exact absurd (x.isIdentChar_of_mem hcolon) (by decide)
    · obtain rfl := List.mem_singleton.mp hm
      obtain ⟨c, s, hhead, hc⟩ := x.exists_head
      rw [hhead] at hx
      obtain ⟨rfl, -⟩ := List.cons.inj hx
      exact absurd hc (by decide)

/-- The tokens that stand for types without layers. -/
theorem leaf?_eq_some_iff : scope.leaf? s = some t ↔
    (∃ m ∈ markers, ∃ p : Primitive, s = m ++ p.spelling.toList ∧ t = .primitive p) ∨
      ∃ x ∈ scope.declared, s = x.text.toList ∧ t = .reference (scope.home.refer x) := by
  unfold leaf?
  -- a marked word is a kind or nothing: no name begins with a marker
  rcases hmarked : marked? s with _ | word
  · simp only [Option.map_eq_some_iff, reference?_eq_some_iff]
    constructor
    · rintro ⟨r, ⟨x, hx, hs, rfl⟩, rfl⟩
      exact Or.inr ⟨x, hx, by rw [hs, String.toList_ofList], rfl⟩
    · rintro (⟨m, hm, p, rfl, -⟩ | ⟨x, hx, rfl, rfl⟩)
      · rw [marked?_eq_some_iff.mpr ⟨m, hm, rfl⟩] at hmarked
        cases hmarked
      · exact ⟨_, ⟨x, hx, String.ofList_toList.symm, rfl⟩, rfl⟩
  · simp only [Option.map_eq_some_iff, Primitive.ofSpelling?_eq_some_iff]
    constructor
    · rintro ⟨p, hp, rfl⟩
      obtain ⟨m, hm, rfl⟩ := marked?_eq_some_iff.mp hmarked
      exact Or.inl ⟨m, hm, p, by rw [← hp, String.toList_ofList], rfl⟩
    · rintro (⟨m, hm, p, rfl, rfl⟩ | ⟨x, hx, rfl, -⟩)
      · rw [marked?_eq_some_iff.mpr ⟨m, hm, rfl⟩] at hmarked
        obtain rfl := Option.some.inj hmarked
        exact ⟨p, String.ofList_toList, rfl⟩
      · rw [marked?_ident] at hmarked
        cases hmarked

/-! ### Resolution -/

theorem resolveToken_of_inner? {inner : List Char} (h : inner? (Text.trim s) = some inner) :
    scope.resolveToken s = (scope.resolveToken inner).map .arrayOf := by
  rw [resolveToken]
  split
  · next inner' h' => rw [Option.some.inj (h.symm.trans h')]
  · next h' => rw [h] at h'; cases h'

theorem resolveToken_of_leaf? (h : inner? (Text.trim s) = none)
    (hleaf : scope.leaf? (Text.trim s) = some t) : scope.resolveToken s = .ok t := by
  rw [resolveToken]
  split
  · next h' => rw [h] at h'; cases h'
  · rw [hleaf]

/-- Resolution looks at the trimmed token only. -/
theorem resolveToken_congr {s' : List Char} (h : Text.trim s = Text.trim s') :
    scope.resolveToken s = scope.resolveToken s' := by
  rw [resolveToken, resolveToken.eq_1 scope s', h]

theorem Spells.not_blanks (h : scope.Spells s t) : ¬ Text.Blanks s := by
  -- whatever a token spells, it has a character that is no blank
  induction h with
  | padded _ _ _ ih => exact fun hall => ih fun c hc => hall c (by simp [hc])
  | @primitive m p hm =>
    obtain ⟨c, hc, hblank⟩ : ∃ c ∈ p.spelling.toList, Text.isBlank c = false := by
      cases p <;> exact ⟨_, List.mem_cons_self, rfl⟩
    intro hall
    rw [hall c (List.mem_append_right m hc)] at hblank
    cases hblank
  | array hlayer _ _ =>
    intro hall
    have hbracket := hall ']' hlayer.mem_bracket
    cases hbracket
  | @reference x hx =>
    obtain ⟨c, s, hhead, hc⟩ := x.exists_head
    intro hall
    have hmem : c ∈ x.text.toList := by rw [hhead]; exact List.mem_cons_self
    have hblank := isBlank_of_isIdentChar (x.isIdentChar_of_mem hmem)
    rw [hall c hmem] at hblank
    cases hblank

/-- A token resolves to every type that it spells. -/
theorem resolveToken_of_spells (h : scope.Spells s t) : scope.resolveToken s = .ok t := by
  induction h with
  | padded hleft hright _ ih => rw [resolveToken_congr (Text.trim_padded hleft _ hright), ih]
  | @primitive m p hm =>
    have hplain : Text.trim (m ++ p.spelling.toList) = m ++ p.spelling.toList ∧
        ']' ∉ m ++ p.spelling.toList := by
      rcases List.mem_cons.mp hm with rfl | hm
      · cases p <;> decide
      · obtain rfl := List.mem_singleton.mp hm
        cases p <;> decide
    refine resolveToken_of_leaf? ?_ ?_
    · rw [hplain.1]; exact inner?_eq_none hplain.2
    · rw [hplain.1]; exact leaf?_eq_some_iff.mpr (Or.inl ⟨m, hm, p, rfl, rfl⟩)
  | array hlayer hinner ih =>
    -- brackets around blanks would not be taken off, but blanks spell nothing
    have hpeeled := inner?_eq_some_iff.mpr ⟨hlayer, hinner.not_blanks⟩
    rw [← hlayer.trim] at hpeeled
    rw [resolveToken_of_inner? hpeeled, ih]
    rfl
  | @reference x hx =>
    have htrim : Text.trim x.text.toList = x.text.toList :=
      Text.trim_eq_self_of_forall fun c hc => isBlank_of_isIdentChar (x.isIdentChar_of_mem hc)
    have hbracket : ']' ∉ x.text.toList := fun h => absurd (x.isIdentChar_of_mem h) (by decide)
    refine resolveToken_of_leaf? ?_ ?_
    · rw [htrim]; exact inner?_eq_none hbracket
    · rw [htrim]; exact leaf?_eq_some_iff.mpr (Or.inr ⟨x, hx, rfl, rfl⟩)

theorem spells_of_trim (h : scope.Spells (Text.trim s) t) : scope.Spells s t := by
  obtain ⟨left, right, hleft, hright, hs⟩ := Text.exists_trim s
  rw [hs]
  exact .padded hleft hright h

/-- A token spells the type that it resolves to. -/
theorem spells_of_resolveToken (h : scope.resolveToken s = .ok t) : scope.Spells s t := by
  fun_induction resolveToken scope s generalizing t with
  | case1 s inner hinner ih =>
    obtain ⟨t', hrest, rfl⟩ := Except.map_eq_ok_iff.mp h
    exact spells_of_trim (.array (inner?_eq_some_iff.mp hinner).1 (ih hrest))
  | case2 s hinner t' hleaf =>
    obtain rfl := Except.ok.inj h
    rcases leaf?_eq_some_iff.mp hleaf with ⟨m, hm, p, hs, rfl⟩ | ⟨x, hx, hs, rfl⟩
    · exact spells_of_trim (by rw [hs]; exact .primitive p hm)
    · exact spells_of_trim (by rw [hs]; exact .reference hx)
  | case3 => cases h

/-- A token that does not resolve is reported as what is left without its layers. -/
theorem innermost_of_resolveToken {e : String} (h : scope.resolveToken s = .error e) :
    Innermost s e.toList := by
  fun_induction resolveToken scope s generalizing e with
  | case1 s inner hinner ih =>
    obtain ⟨hlayer, hblank⟩ := inner?_eq_some_iff.mp hinner
    exact .layer hlayer hblank (ih (Except.map_eq_error_iff.mp h))
  | case2 => cases h
  | case3 s hinner hleaf =>
    obtain rfl := Except.error.inj h
    rw [String.toList_ofList]
    refine .core fun inner hlayer => ?_
    by_contra hblank
    rw [inner?_eq_some_iff.mpr ⟨hlayer, hblank⟩] at hinner
    cases hinner

/-- **A token resolves to the type that it spells, and to no other.** -/
theorem resolveToken_eq_ok_iff : scope.resolveToken s = .ok t ↔ scope.Spells s t :=
  ⟨spells_of_resolveToken, resolveToken_of_spells⟩

/-- **A token that spells no type is reported as its innermost part.** -/
theorem resolveToken_eq_error_iff {e : String} : scope.resolveToken s = .error e ↔
    (∀ t, ¬ scope.Spells s t) ∧ Innermost s e.toList := by
  constructor
  · intro h
    refine ⟨fun t ht => ?_, innermost_of_resolveToken h⟩
    rw [resolveToken_of_spells ht] at h
    cases h
  · rintro ⟨hnone, hcore⟩
    rcases h : scope.resolveToken s with e' | t
    · rw [String.toList_injective ((innermost_of_resolveToken h).unique hcore)]
    · exact absurd (spells_of_resolveToken h) (hnone t)

end Scope
end ClassSchema
