/-
The layers around a token.

* `TypeToken.Around` — the two sides of a text that lies in so many layers;
* `resolveToken_around` — layers make arrays of what they are around, and say nothing else;
* `Innermost.exists_around`, `Spells.exists_around` — a token is its innermost part in layers, and
  one that spells a type is the name of a kind or of a declared type in layers;
* `TypeToken.Starts`, `TypeToken.Stops` — the places where a token may begin and end;
* `Around.blank_left`, `Around.mark_left`, `Around.mem_right` — what stands where in the layers.

Design notes: a layer holds just one token, so the layers of a token are a text on its left and a
text on its right.  Where in a token a character stands is then a question about three texts one
after the other, and no longer one about how the token was read.
-/
import Mathlib.Logic.Function.Iterate
import ClassSchema.Proofs.TypeToken

namespace ClassSchema

namespace TypeToken

/-- The two sides of a text that lies in so many layers, each with blanks around it. -/
inductive Around : Nat → List Char → List Char → Prop where
  | blanks {left right : List Char} : Text.Blanks left → Text.Blanks right → Around 0 left right
  | layer {n : Nat} {before m left right after : List Char} : Text.Blanks before →
      m ∈ [] :: markers → Around n left right → Text.Blanks after →
      Around (n + 1) (before ++ (m ++ ("array[".toList ++ left))) (right ++ (']' :: after))

theorem layer_iff {s inner : List Char} :
    Layer s inner ↔ ∃ m ∈ [] :: markers, s = m ++ ("array[".toList ++ inner ++ [']']) := by
  constructor
  · intro h
    cases h with
    | bare => exact ⟨[], List.mem_cons_self, rfl⟩
    | marked hm => exact ⟨_, List.mem_cons_of_mem _ hm, rfl⟩
  · rintro ⟨m, hm, rfl⟩
    rcases List.mem_cons.mp hm with rfl | hm
    · exact .bare
    · exact .marked hm

theorem Around.pad {n : Nat} {left right before after : List Char} (h : Around n left right)
    (hb : Text.Blanks before) (ha : Text.Blanks after) :
    Around n (before ++ left) (right ++ after) := by
  cases h with
  | blanks hl hr => exact .blanks (hb.append hl) (hr.append ha)
  | @layer _ _ _ _ right _ hl hm h hr =>
    rw [← List.append_assoc before, List.append_assoc right, List.cons_append]
    exact .layer (hb.append hl) hm h (hr.append ha)

/-- One layer more. -/
theorem Around.wrap {n : Nat} {s inner left text right : List Char} (hlayer : Layer s inner)
    (h : Around n left right) (hinner : inner = left ++ text ++ right) :
    ∃ left' right', Around (n + 1) left' right' ∧ s = left' ++ text ++ right' := by
  obtain ⟨m, hm, rfl⟩ := layer_iff.mp hlayer
  exact ⟨_, _, .layer Text.blanks_nil hm h Text.blanks_nil, by simp [hinner]⟩

theorem Around.of_trim {n : Nat} {s left text right : List Char} (h : Around n left right)
    (hs : Text.trim s = left ++ text ++ right) :
    ∃ left' right', Around n left' right' ∧ s = left' ++ text ++ right' := by
  obtain ⟨before, after, hb, ha, hpad⟩ := Text.exists_trim s
  refine ⟨_, _, h.pad hb ha, ?_⟩
  rw [hpad, hs]
  simp

/-! ### What layers make of a token -/

/-- A token is its innermost part in layers. -/
theorem Innermost.exists_around {s core : List Char} (h : Innermost s core) :
    ∃ n left right, Around n left right ∧ s = left ++ core ++ right ∧
      (n = 0 ∨ ¬ Text.Blanks core) := by
  induction h with
  | layer hlayer hblank _ ih =>
    obtain ⟨n, left, right, haround, hinner, hcore⟩ := ih
    obtain ⟨left', right', haround', htrim⟩ := haround.wrap hlayer hinner
    obtain ⟨left'', right'', haround'', hs⟩ := haround'.of_trim htrim
    refine ⟨n + 1, left'', right'', haround'', hs, Or.inr ?_⟩
    rcases hcore with rfl | hcore
    · -- in blanks alone a blank text would be blank altogether
      intro hall
      cases haround with
      | blanks hl hr => exact hblank (hinner ▸ (hl.append hall).append hr)
    · exact hcore
  | @core s _ =>
    obtain ⟨before, after, hb, ha, hs⟩ := Text.exists_trim s
    exact ⟨0, before, after, .blanks hb ha, hs, Or.inl rfl⟩

theorem Innermost.trim_eq {s core : List Char} (h : Innermost s core) : Text.trim core = core := by
  induction h with
  | layer _ _ _ ih => exact ih
  | core _ => exact Text.trim_trim _

end TypeToken

namespace Scope

open TypeToken

variable {scope : Scope}

/-- Layers make arrays of what they are around, whatever their markers and their blanks. -/
theorem resolveToken_around {n : Nat} {left right : List Char} (h : Around n left right)
    {s : List Char} (hs : n = 0 ∨ ¬ Text.Blanks s) :
    scope.resolveToken (left ++ s ++ right) =
      (scope.resolveToken s).map (SlotType.arrayOf^[n]) := by
  induction h with
  | blanks hl hr =>
    rw [resolveToken_congr (Text.trim_padded hl s hr)]
    rcases scope.resolveToken s with e | t
    · rfl
    · rfl
  | @layer n before m left right after hb hm haround ha ih =>
    have hne : ¬ Text.Blanks s := hs.resolve_left (Nat.succ_ne_zero n)
    have hinner : ¬ Text.Blanks (left ++ s ++ right) := fun hall =>
      hne fun c hc => hall c (by simp [hc])
    have hlayer : Layer (m ++ ("array[".toList ++ (left ++ s ++ right) ++ [']'])) _ :=
      layer_iff.mpr ⟨m, hm, rfl⟩
    have hpeeled := inner?_eq_some_iff.mpr ⟨hlayer, hinner⟩
    rw [← hlayer.trim] at hpeeled
    calc scope.resolveToken
          (before ++ (m ++ ("array[".toList ++ left)) ++ s ++ (right ++ ']' :: after))
        = scope.resolveToken
            (before ++ (m ++ ("array[".toList ++ (left ++ s ++ right) ++ [']'])) ++ after) := by
          simp
      _ = scope.resolveToken (m ++ ("array[".toList ++ (left ++ s ++ right) ++ [']'])) :=
          resolveToken_congr (Text.trim_padded hb _ ha)
      _ = (scope.resolveToken (left ++ s ++ right)).map .arrayOf := resolveToken_of_inner? hpeeled
      _ = (scope.resolveToken s).map (SlotType.arrayOf^[n + 1]) := by
          rw [ih (Or.inr hne), Function.iterate_succ']
          rcases scope.resolveToken s with e | t
          · rfl
          · rfl

/-- What spells a type is the name of a kind or of a declared type in layers. -/
theorem Spells.exists_around {s : List Char} {t : SlotType} (h : scope.Spells s t) :
    ∃ n left leaf right base, Around n left right ∧ s = left ++ leaf ++ right ∧
      scope.leaf? leaf = some base ∧ t = SlotType.arrayOf^[n] base := by
  have hbare : Around 0 [] [] := .blanks Text.blanks_nil Text.blanks_nil
  induction h with
  | padded hl hr _ ih =>
    obtain ⟨n, left, leaf, right, base, haround, rfl, hleaf, rfl⟩ := ih
    exact ⟨n, _, leaf, _, base, haround.pad hl hr, by simp, hleaf, rfl⟩
  | @primitive m p hm =>
    exact ⟨0, [], _, [], _, hbare, (List.append_nil _).symm,
      leaf?_eq_some_iff.mpr (Or.inl ⟨m, hm, p, rfl, rfl⟩), rfl⟩
  | array hlayer _ ih =>
    obtain ⟨n, left, leaf, right, base, haround, hinner, hleaf, rfl⟩ := ih
    obtain ⟨left', right', haround', hs⟩ := haround.wrap hlayer hinner
    exact ⟨n + 1, left', leaf, right', base, haround', hs, hleaf,
      (Function.iterate_succ_apply' _ _ _).symm⟩
  | @reference x hx =>
    exact ⟨0, [], _, [], _, hbare, (List.append_nil _).symm,
      leaf?_eq_some_iff.mpr (Or.inr ⟨x, hx, rfl, rfl⟩), rfl⟩

end Scope

/-! ### Places in a token -/

namespace TypeToken

/-- A token may begin behind the text: at the very beginning or behind an opening bracket, but for
blanks. -/
def Starts (s : List Char) : Prop :=
  ∃ outer blanks, s = outer ++ blanks ∧ Text.Blanks blanks ∧
    (outer = [] ∨ "array[".toList <:+ outer)

/-- A token may end before the text: at the very end or before a closing bracket, but for blanks. -/
def Stops (s : List Char) : Prop :=
  ∃ blanks outer, s = blanks ++ outer ∧ Text.Blanks blanks ∧ (outer = [] ∨ [']'] <+: outer)

/-- The characters that markers end with. -/
def marks : List Char := [':', '_']

variable {n : Nat} {left right before after s : List Char} {c : Char}

theorem mem_marks_iff : c ∈ marks ↔ c = ':' ∨ c = '_' := by simp [marks]

theorem isBlank_of_mem_marks (hc : c ∈ marks) : Text.isBlank c = false := by
  rcases mem_marks_iff.mp hc with rfl | rfl
  · rfl
  · rfl

/-- A character of a text stands in one of its two parts. -/
theorem exists_split (h : left ++ right = before ++ c :: after) :
    (∃ u, left = before ++ c :: u ∧ after = u ++ right) ∨
      ∃ v, before = left ++ v ∧ right = v ++ c :: after := by
  rcases List.append_eq_append_iff.mp h with ⟨v, hbefore, hright⟩ | ⟨u, hleft, hc⟩
  · exact Or.inr ⟨v, hbefore, hright⟩
  · rcases u with _ | ⟨d, u⟩
    · exact Or.inr ⟨[], by simpa using hleft.symm, hc.symm⟩
    · obtain ⟨rfl, rfl⟩ := List.cons.inj hc
      exact Or.inl ⟨u, hleft, rfl⟩

theorem Starts.of_blanks (h : Text.Blanks s) : Starts s := ⟨[], s, rfl, h, Or.inl rfl⟩

theorem Stops.of_blanks (h : Text.Blanks s) : Stops s :=
  ⟨s, [], (List.append_nil s).symm, h, Or.inl rfl⟩

theorem Starts.inside (h : Starts s) (outside : List Char) :
    Starts (outside ++ ("array[".toList ++ s)) := by
  obtain ⟨outer, blanks, rfl, hb, houter⟩ := h
  refine ⟨outside ++ ("array[".toList ++ outer), blanks, by simp, hb, Or.inr ?_⟩
  rcases houter with rfl | ⟨o, rfl⟩
  · exact ⟨outside, by simp⟩
  · exact ⟨outside ++ ("array[".toList ++ o), by simp⟩

theorem Stops.inside (h : Stops s) (outside : List Char) : Stops (s ++ ']' :: outside) := by
  obtain ⟨blanks, outer, rfl, hb, houter⟩ := h
  refine ⟨blanks, outer ++ ']' :: outside, by simp, hb, Or.inr ?_⟩
  rcases houter with rfl | ⟨o, rfl⟩
  · exact ⟨outside, rfl⟩
  · exact ⟨o ++ ']' :: outside, by simp⟩

theorem Around.starts (h : Around n left right) : Starts left := by
  induction h with
  | blanks hl _ => exact .of_blanks hl
  | @layer _ before m _ _ _ _ _ _ _ ih =>
    rw [← List.append_assoc]
    exact ih.inside (before ++ m)

theorem Around.stops (h : Around n left right) : Stops right := by
  induction h with
  | blanks _ hr => exact .of_blanks hr
  | layer _ _ _ _ ih => exact ih.inside _

/-- There is no blank in a marker. -/
theorem isBlank_of_mem_markers {m : List Char} (hm : m ∈ [] :: markers) (hc : c ∈ m) :
    Text.isBlank c = false := by
  have hall : ([] :: markers).flatten.all (fun c => !Text.isBlank c) = true := rfl
  simpa using List.all_eq_true.mp hall c (List.mem_flatten.mpr ⟨m, hm, hc⟩)

/-- There is neither a blank nor a mark in the opening of an array. -/
theorem plain_of_mem_array (hc : c ∈ "array[".toList) : Text.isBlank c = false ∧ c ∉ marks := by
  have hall : "array[".toList.all (fun c => !Text.isBlank c && !marks.contains c) = true := rfl
  simpa using List.all_eq_true.mp hall c hc

/-- The mark of a marker is its last character. -/
theorem eq_nil_of_mark {m u v : List Char} (hm : m ∈ [] :: markers) (hsplit : m = u ++ c :: v)
    (hc : c ∈ marks) : v = [] := by
  have hall : (([] :: markers).flatMap List.dropLast).all (fun c => !marks.contains c) = true := rfl
  by_contra hv
  have hmem : c ∈ m.dropLast := by
    rw [hsplit, List.dropLast_append_of_ne_nil (List.cons_ne_nil c v),
      List.dropLast_cons_of_ne_nil hv]
    exact List.mem_append_right u List.mem_cons_self
  have hnot : c ∉ marks := by
    simpa using List.all_eq_true.mp hall c (List.mem_flatMap.mpr ⟨m, hm, hmem⟩)
  exact hnot hc

/-- A character on the left of a layer stands in its blanks, in its marker, in its opening or on the
left of what is inside. -/
theorem exists_split_layer {pad m inner : List Char}
    (h : pad ++ (m ++ ("array[".toList ++ inner)) = before ++ c :: after) :
    (∃ u, pad = before ++ c :: u) ∨
      (∃ u v, before = pad ++ u ∧ m = u ++ c :: v ∧ after = v ++ ("array[".toList ++ inner)) ∨
      c ∈ "array[".toList ∨
      ∃ w, before = pad ++ m ++ ("array[".toList ++ w) ∧ inner = w ++ c :: after := by
  rcases exists_split h with ⟨u, hpad, -⟩ | ⟨u, rfl, hmarker⟩
  · exact Or.inl ⟨u, hpad⟩
  rcases exists_split hmarker with ⟨v, hm, hafter⟩ | ⟨v, rfl, harray⟩
  · exact Or.inr (Or.inl ⟨u, v, rfl, hm, hafter⟩)
  rcases exists_split harray with ⟨w, hw, -⟩ | ⟨w, rfl, hinner⟩
  · exact Or.inr (Or.inr (Or.inl (by rw [hw]; simp)))
  · exact Or.inr (Or.inr (Or.inr ⟨w, by simp, hinner⟩))

/-- Blanks on the left of a token stand where tokens begin. -/
theorem Around.blank_left (h : Around n left right) (hleft : left = before ++ c :: after)
    (hc : Text.isBlank c = true) : Starts before := by
  induction h generalizing before after with
  | blanks hl _ => exact .of_blanks fun a ha => hl a (by simp [hleft, ha])
  | @layer _ pad m _ _ _ hpad hm _ _ ih =>
    rcases exists_split_layer hleft with ⟨u, rfl⟩ | ⟨u, v, -, rfl, -⟩ | harray | ⟨w, rfl, hinner⟩
    · exact .of_blanks fun a ha => hpad a (by simp [ha])
    · rw [isBlank_of_mem_markers hm (by simp)] at hc
      cases hc
    · rw [(plain_of_mem_array harray).1] at hc
      cases hc
    · exact (ih hinner).inside (pad ++ m)

theorem Around.mem_right (h : Around n left right) (hc : c ∈ right) :
    Text.isBlank c = true ∨ c = ']' := by
  induction h with
  | blanks _ hr => exact Or.inl (hr c hc)
  | layer _ _ _ ha ih =>
    rcases List.mem_append.mp hc with hc | hc
    · exact ih hc
    · rcases List.mem_cons.mp hc with rfl | hc
      · exact Or.inr rfl
      · exact Or.inl (ha c hc)

/-- Blanks on the right of a token stand where tokens end. -/
theorem Around.blank_right (h : Around n left right) (hright : right = before ++ c :: after)
    (hc : Text.isBlank c = true) : Stops after := by
  induction h generalizing before after with
  | blanks _ hr => exact .of_blanks fun a ha => hr a (by simp [hright, ha])
  | @layer _ _ _ _ inner pad _ _ _ hpad ih =>
    rcases exists_split hright with ⟨u, hinner, rfl⟩ | ⟨u, -, hright⟩
    · exact (ih hinner).inside pad
    · rcases u with _ | ⟨d, u⟩
      · obtain ⟨rfl, -⟩ := List.cons.inj hright
        cases hc
      · obtain ⟨-, rfl⟩ := List.cons.inj hright
        exact .of_blanks fun a ha => hpad a (by simp [ha])

/-- The marks on the left of a token are those of markers in front of arrays. -/
theorem Around.mark_left (h : Around n left right) (hleft : left = before ++ c :: after)
    (hc : c ∈ marks) :
    ∃ outer, ∃ m ∈ markers, before ++ [c] = outer ++ m ∧ Starts outer ∧
      "array[".toList <+: after := by
  have hblank := isBlank_of_mem_marks hc
  induction h generalizing before after with
  | blanks hl _ =>
    rw [hl c (by simp [hleft])] at hblank
    cases hblank
  | @layer _ pad m _ _ _ hpad hm _ _ ih =>
    rcases exists_split_layer hleft with ⟨u, rfl⟩ | ⟨u, v, rfl, hsplit, rfl⟩ | harray |
      ⟨w, rfl, hinner⟩
    · rw [hpad c (by simp)] at hblank
      cases hblank
    · obtain rfl := eq_nil_of_mark hm hsplit hc
      have hmarker : m ∈ markers := by
        rcases List.mem_cons.mp hm with rfl | hm
        · simp at hsplit
        · exact hm
      exact ⟨pad, m, hmarker, by simp [hsplit], .of_blanks hpad, List.prefix_append _ _⟩
    · exact absurd hc (plain_of_mem_array harray).2
    · obtain ⟨outer, m', hm', heq, hstarts, hnext⟩ := ih hinner
      refine ⟨pad ++ m ++ ("array[".toList ++ outer), m', hm', ?_, hstarts.inside (pad ++ m), hnext⟩
      simp [heq]

end TypeToken
end ClassSchema
