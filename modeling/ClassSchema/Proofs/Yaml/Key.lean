/-
The keys of mappings as texts.

* `sameNumber_of_numberText_eq` — no two numbers are written alike;
* `head_numberText` — and none is written like a boolean;
* `Tree.same_or_text` — so two keys that are written alike are one key, or one of them is a text and
  the other is none.

Design notes: behind its sign an integer has digits and nothing else, a finite floating-point number
begins with a digit and has a point or an exponent as well, and what is not finite begins with a
point.
-/
import ClassSchema.Decimal.Reading
import ClassSchema.Proofs.Decimal.Finite
import ClassSchema.Proofs.Decimal.Layout
import ClassSchema.Yaml.AsJson

namespace ClassSchema.Yaml

open Decimal (AreDigits Layout takeSign)

/-- The character behind the sign, if there is a sign, and else the first one. -/
def head? (s : List Char) : Option Char := (takeSign s).2.head?

theorem head?_of_digit {c : Char} (hc : c.isDigit = true) (s : List Char) :
    head? (c :: s) = some c := by
  unfold head? takeSign
  split
  · next heq => exact absurd ((List.cons.inj heq).1 ▸ hc) (by decide)
  · next heq => exact absurd ((List.cons.inj heq).1 ▸ hc) (by decide)
  · rfl

/-! ### Integers -/

/-- An integer is written as digits, behind a sign if it is negative. -/
theorem toString_cases (n : ℤ) :
    ∃ ds, AreDigits ds ∧ ds ≠ [] ∧
      ((toString n).toList = ds ∨ (toString n).toList = '-' :: ds) := by
  cases n with
  | ofNat n =>
    exact ⟨Nat.toDigits 10 n, Decimal.areDigits_toDigits n, Nat.toDigits_ne_nil,
      Or.inl Nat.toList_repr⟩
  | negSucc n =>
    refine ⟨Nat.toDigits 10 (n + 1), Decimal.areDigits_toDigits _, Nat.toDigits_ne_nil, Or.inr ?_⟩
    show ("-" ++ Nat.repr (n + 1)).toList = _
    rw [String.toList_append, Nat.toList_repr]
    rfl

theorem head_toString (n : ℤ) : ∃ c, head? (toString n).toList = some c ∧ c.isDigit = true := by
  obtain ⟨ds, hds, hne, htext⟩ := toString_cases n
  obtain ⟨c, rest, rfl⟩ := List.exists_cons_of_ne_nil hne
  have hc := hds c List.mem_cons_self
  rcases htext with htext | htext
  · rw [htext]
    exact ⟨c, head?_of_digit hc rest, hc⟩
  · rw [htext]
    exact ⟨c, rfl, hc⟩

theorem notMem_toString (n : ℤ) {c : Char} (hdigit : c.isDigit = false) (hsign : c ≠ '-') :
    c ∉ (toString n).toList := by
  obtain ⟨ds, hds, -, htext⟩ := toString_cases n
  rcases htext with htext | htext
  · rw [htext]
    exact hds.notMem hdigit
  · rw [htext]
    exact fun hmem => (List.mem_cons.mp hmem).elim hsign (hds.notMem hdigit)

/-! ### Floating-point numbers -/

theorem head_render (l : Layout) (x : Float) :
    ∃ c, head? (l.render x).toList = some c ∧ c.isDigit = true := by
  obtain ⟨s, htext, hwrites⟩ := l.render_eq x
  obtain ⟨c, rest, rfl, hc⟩ := hwrites.exists_digit
  refine ⟨c, ?_, hc⟩
  rw [htext, String.toList_ofList, Layout.sign]
  split
  · exact head?_of_digit hc rest
  · rfl

theorem exists_mark_render (l : Layout) (x : Float) :
    '.' ∈ (l.render x).toList ∨ 'e' ∈ (l.render x).toList := by
  obtain ⟨s, htext, hwrites⟩ := l.render_eq x
  rw [htext, String.toList_ofList]
  exact hwrites.exists_mark.imp (List.mem_append_right _) (List.mem_append_right _)

/-- What is written for a number that is not finite. -/
def nonFiniteText (x : Float) : String :=
  if x.isNaN then ".nan" else if x < 0 then "-.inf" else ".inf"

theorem head_nonFiniteText (x : Float) : head? (nonFiniteText x).toList = some '.' := by
  unfold nonFiniteText
  split
  · decide
  · split
    · decide
    · decide

theorem mark_mem_nonFiniteText (x : Float) : '.' ∈ (nonFiniteText x).toList := by
  unfold nonFiniteText
  split
  · decide
  · split
    · decide
    · decide

theorem isNaN_of_isFinite {x : Float} (h : x.isFinite = true) : x.isNaN = false := by
  have hfinite : x.toModel.unpack.isFinite = true := h
  show x.toModel.unpack.isNaN = false
  cases hx : x.toModel.unpack with
  | notANumber =>
    rw [hx] at hfinite
    cases hfinite
  | _ => rfl

theorem numberText_of_isFinite {x : Float} (h : x.isFinite = true) :
    numberText (.float x) = numberLayout.render x := by
  rw [numberText, isNaN_of_isFinite h, if_neg Bool.false_ne_true, if_pos h]

theorem numberText_of_not_isFinite {x : Float} (h : x.isFinite = false) :
    numberText (.float x) = nonFiniteText x := by
  rw [numberText, nonFiniteText, h, if_neg Bool.false_ne_true]

/-- A floating-point number has a point or an exponent. -/
theorem exists_mark_numberText (x : Float) :
    '.' ∈ (numberText (.float x)).toList ∨ 'e' ∈ (numberText (.float x)).toList := by
  cases hfinite : x.isFinite with
  | true =>
    rw [numberText_of_isFinite hfinite]
    exact exists_mark_render numberLayout x
  | false =>
    rw [numberText_of_not_isFinite hfinite]
    exact Or.inl (mark_mem_nonFiniteText x)

theorem render_ne_nonFiniteText (l : Layout) (x y : Float) : l.render x ≠ nonFiniteText y := by
  intro h
  obtain ⟨c, hhead, hc⟩ := head_render l x
  rw [h, head_nonFiniteText] at hhead
  rw [← Option.some.inj hhead] at hc
  exact absurd hc (by decide)

/-- Of numbers that are not finite, one text stands for all that are one key. -/
theorem sameNumber_of_nonFiniteText_eq {x y : Float} (hx : x.isFinite = false)
    (hy : y.isFinite = false) (h : nonFiniteText x = nonFiniteText y) :
    sameNumber (.float x) (.float y) = true := by
  rw [sameNumber, Bool.or_eq_true, Bool.and_eq_true]
  cases hxnan : x.isNaN with
  | true =>
    cases hynan : y.isNaN with
    | true => exact Or.inl ⟨rfl, rfl⟩
    | false =>
      rw [nonFiniteText, hxnan, if_pos rfl, nonFiniteText, hynan, if_neg Bool.false_ne_true] at h
      split at h <;> exact absurd h (by decide)
  | false =>
    cases hynan : y.isNaN with
    | true =>
      rw [nonFiniteText, hxnan, if_neg Bool.false_ne_true, nonFiniteText, hynan, if_pos rfl] at h
      split at h <;> exact absurd h (by decide)
    | false =>
      refine Or.inr (Decimal.beq_of_infinite hx hxnan hy hynan ?_)
      rw [nonFiniteText, hxnan, if_neg Bool.false_ne_true, nonFiniteText, hynan,
        if_neg Bool.false_ne_true] at h
      split at h
      · next hxneg =>
        split at h
        · next hyneg => exact iff_of_true hxneg hyneg
        · exact absurd h (by decide)
      · next hxpos =>
        split at h
        · exact absurd h (by decide)
        · next hypos => exact iff_of_false hxpos hypos

/-! ### Numbers -/

/-- **No two numbers are written alike.** -/
theorem sameNumber_of_numberText_eq : ∀ {m n : Number}, numberText m = numberText n →
    sameNumber m n = true
  | .int m, .int n, h => beq_iff_eq.mpr (Int.repr_injective h)
  | .int m, .float y, h => by
    have hmark := exists_mark_numberText y
    rw [← h, numberText] at hmark
    exact (hmark.elim (notMem_toString m (by decide) (by decide))
      (notMem_toString m (by decide) (by decide))).elim
  | .float x, .int n, h => by
    have hmark := exists_mark_numberText x
    rw [h, numberText] at hmark
    exact (hmark.elim (notMem_toString n (by decide) (by decide))
      (notMem_toString n (by decide) (by decide))).elim
  | .float x, .float y, h => by
    cases hx : x.isFinite with
    | true =>
      cases hy : y.isFinite with
      | true =>
        rw [numberText_of_isFinite hx, numberText_of_isFinite hy] at h
        obtain rfl := numberLayout.render_injective h
        rw [sameNumber, Decimal.beq_self_of_isFinite hx, Bool.or_true]
      | false =>
        rw [numberText_of_isFinite hx, numberText_of_not_isFinite hy] at h
        exact absurd h (render_ne_nonFiniteText numberLayout x y)
    | false =>
      cases hy : y.isFinite with
      | true =>
        rw [numberText_of_not_isFinite hx, numberText_of_isFinite hy] at h
        exact absurd h.symm (render_ne_nonFiniteText numberLayout y x)
      | false =>
        rw [numberText_of_not_isFinite hx, numberText_of_not_isFinite hy] at h
        exact sameNumber_of_nonFiniteText_eq hx hy h

/-- Behind its sign a number begins with a digit or a point. -/
theorem head_numberText (n : Number) :
    ∃ c, head? (numberText n).toList = some c ∧ (c.isDigit = true ∨ c = '.') := by
  cases n with
  | int n =>
    obtain ⟨c, hhead, hc⟩ := head_toString n
    exact ⟨c, hhead, Or.inl hc⟩
  | float x =>
    cases hx : x.isFinite with
    | true =>
      obtain ⟨c, hhead, hc⟩ := head_render numberLayout x
      rw [numberText_of_isFinite hx]
      exact ⟨c, hhead, Or.inl hc⟩
    | false =>
      rw [numberText_of_not_isFinite hx]
      exact ⟨'.', head_nonFiniteText x, Or.inr rfl⟩

/-- No number is written like a boolean. -/
theorem numberText_ne_bool (n : Number) (b : Bool) :
    numberText n ≠ if b then "true" else "false" := by
  intro h
  obtain ⟨c, hhead, hc⟩ := head_numberText n
  rw [h] at hhead
  cases b with
  | true =>
    obtain rfl : 't' = c := Option.some.inj hhead
    exact absurd hc (by decide)
  | false =>
    obtain rfl : 'f' = c := Option.some.inj hhead
    exact absurd hc (by decide)

/-! ### Keys -/

namespace Tree

/-- Is the key a text? -/
def IsText (k : Tree) : Prop := ∃ s, k = str s

/-- A text is a key for itself, and numbers and booleans are keys for what writes them. -/
theorem toKey_eq_ok_iff {k : Tree} {s : String} :
    k.toKey = .ok s ↔ k = str s ∨ (∃ n, k = num n ∧ numberText n = s) ∨
      ∃ b, k = bool b ∧ (if b then "true" else "false") = s := by
  constructor
  · intro h
    cases k with
    | str t => exact Or.inl (congrArg str (Except.ok.inj h))
    | num n => exact Or.inr (Or.inl ⟨n, rfl, Except.ok.inj h⟩)
    | bool b => exact Or.inr (Or.inr ⟨b, rfl, Except.ok.inj h⟩)
    | _ => cases h
  · rintro (rfl | ⟨n, rfl, rfl⟩ | ⟨b, rfl, rfl⟩) <;> rfl

/-- Keys that are written alike are one key, or one of them is a text and the other is none. -/
theorem same_or_text {k k' : Tree} {s : String} (hk : k.toKey = .ok s) (hk' : k'.toKey = .ok s) :
    k.same k' = true ∨ (k = str s ∧ ¬ k'.IsText) ∨ (k' = str s ∧ ¬ k.IsText) := by
  have hnum : ∀ n, ¬ (num n).IsText := by rintro n ⟨_, ⟨⟩⟩
  have hbool : ∀ b, ¬ (bool b).IsText := by rintro b ⟨_, ⟨⟩⟩
  have hbools : ∀ b b' : Bool,
      (if b then "true" else "false") = (if b' then "true" else "false") → b = b' := by decide
  rcases toKey_eq_ok_iff.mp hk with rfl | ⟨n, rfl, hn⟩ | ⟨b, rfl, hb⟩
  · rcases toKey_eq_ok_iff.mp hk' with rfl | ⟨n, rfl, -⟩ | ⟨b, rfl, -⟩
    · exact Or.inl (by rw [same, beq_self_eq_true])
    · exact Or.inr (Or.inl ⟨rfl, hnum n⟩)
    · exact Or.inr (Or.inl ⟨rfl, hbool b⟩)
  · rcases toKey_eq_ok_iff.mp hk' with rfl | ⟨n', rfl, hn'⟩ | ⟨b, rfl, hb⟩
    · exact Or.inr (Or.inr ⟨rfl, hnum n⟩)
    · exact Or.inl (sameNumber_of_numberText_eq (hn.trans hn'.symm))
    · exact absurd (hn.trans hb.symm) (numberText_ne_bool n b)
  · rcases toKey_eq_ok_iff.mp hk' with rfl | ⟨n, rfl, hn⟩ | ⟨b', rfl, hb'⟩
    · exact Or.inr (Or.inr ⟨rfl, hbool b⟩)
    · exact absurd (hn.trans hb.symm) (numberText_ne_bool n b)
    · rw [hbools b b' (hb.trans hb'.symm), same, beq_self_eq_true]
      exact Or.inl rfl

end Tree
end ClassSchema.Yaml
