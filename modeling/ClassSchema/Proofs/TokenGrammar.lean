/-
Which tokens write which types.

* `Scope.Spells.blank_place` — blanks in a token stand where a token begins or ends;
* `Scope.Spells.marker_place` — markers in a token stand in front of a built-in kind or an array,
  where a token begins, or are letters of a declared name;
* `Scope.exists_spelling_iff` — the types that can be written are those over the declared names;
* `resolves_what_it_spells` — a token resolves to just the type that it spells.

Design notes: the rules for single places follow from the grammar, but they cannot be read off it,
since they speak of characters and not of how a token was put together.  A token is cut up into its
layers and what they are around, and each of the three parts has its own characters.
-/
import ClassSchema.Proofs.References
import ClassSchema.Proofs.TokenLayers

namespace ClassSchema

namespace TypeToken

/-- A marker may stand between the texts: where a token begins, and directly in front of a built-in
kind that is the whole token, or of the bracket of an array. -/
def Marks (before after : List Char) : Prop :=
  Starts before ∧
    ((∃ (p : Primitive) (rest : List Char), after = p.spelling.toList ++ rest ∧ Stops rest) ∨
      "array[".toList <+: after)

end TypeToken

/-- The word for a kind has lower-case letters only. -/
theorem Primitive.isLower_of_mem (p : Primitive) {c : Char} (hc : c ∈ p.spelling.toList) :
    c.isLower = true := by
  have hall : p.spelling.toList.all Char.isLower = true := by cases p <;> rfl
  exact List.all_eq_true.mp hall c hc

theorem isIdentChar_of_isLower {c : Char} (h : c.isLower = true) : isIdentChar c = true := by
  simp [isIdentChar, h]

namespace Scope

open TypeToken

variable {scope : Scope} {s before after : List Char} {t : SlotType} {c : Char}

/-- A part of a declared name that is a whole token stands between the texts. -/
def NameAround (scope : Scope) (before part after : List Char) : Prop :=
  ∃ x ∈ scope.declared, ∃ outer start rest tail, before = outer ++ start ∧ after = rest ++ tail ∧
    x.text.toList = start ++ part ++ rest ∧ Starts outer ∧ Stops tail

/-! ### Blanks -/

/-- There is no blank in the name of a kind or of a declared type. -/
theorem isBlank_of_leaf? (h : scope.leaf? s = some t) (hc : c ∈ s) : Text.isBlank c = false := by
  rcases leaf?_eq_some_iff.mp h with ⟨m, hm, p, rfl, -⟩ | ⟨x, -, rfl, -⟩
  · rcases List.mem_append.mp hc with hc | hc
    · exact isBlank_of_mem_markers (List.mem_cons_of_mem _ hm) hc
    · exact isBlank_of_isIdentChar (isIdentChar_of_isLower (p.isLower_of_mem hc))
  · exact isBlank_of_isIdentChar (x.isIdentChar_of_mem hc)

/-- Blanks in a token stand where a token begins or ends. -/
theorem Spells.blank_place (h : scope.Spells s t) (hs : s = before ++ c :: after)
    (hc : Text.isBlank c = true) : Starts before ∨ Stops after := by
  obtain ⟨n, left, leaf, right, base, haround, rfl, hleaf, -⟩ := h.exists_around
  rw [List.append_assoc] at hs
  rcases exists_split hs with ⟨u, hleft, -⟩ | ⟨u, -, hinside⟩
  · exact Or.inl (haround.blank_left hleft hc)
  · rcases exists_split hinside with ⟨v, rfl, -⟩ | ⟨v, -, hright⟩
    · rw [isBlank_of_leaf? hleaf (by simp)] at hc
      cases hc
    · exact Or.inr (haround.blank_right hright hc)

/-! ### Markers -/

/-- The marks in the name of a kind, or of a declared type, inside layers. -/
theorem mark_place_of_leaf? {n : Nat} {left right : List Char} (haround : Around n left right)
    (hleaf : scope.leaf? (before ++ c :: after) = some t) (hc : c ∈ marks) :
    (∃ outer, ∃ m ∈ markers, left ++ before ++ [c] = outer ++ m ∧ Marks outer (after ++ right)) ∨
      scope.NameAround (left ++ before) [c] (after ++ right) := by
  rcases leaf?_eq_some_iff.mp hleaf with ⟨m, hm, p, hword, -⟩ | ⟨x, hx, hname, -⟩
  · rcases exists_split hword.symm with ⟨u, hsplit, rfl⟩ | ⟨u, -, hspelling⟩
    · obtain rfl := eq_nil_of_mark (List.mem_cons_of_mem _ hm) hsplit hc
      refine Or.inl ⟨left, m, hm, by simp [hsplit], haround.starts, Or.inl ⟨p, right, ?_, ?_⟩⟩
      · simp
      · exact haround.stops
    · -- a kind is spelled without marks
      have hlower : c.isLower = true := p.isLower_of_mem (by rw [hspelling]; simp)
      rcases mem_marks_iff.mp hc with rfl | rfl
      · cases hlower
      · cases hlower
  · refine Or.inr ⟨x, hx, left, before, after, right, rfl, rfl, ?_, haround.starts, haround.stops⟩
    simp [← hname]

/-- The marks in a token are those of markers in their place, or letters of a declared name. -/
theorem Spells.mark_place (h : scope.Spells s t) (hs : s = before ++ c :: after) (hc : c ∈ marks) :
    (∃ outer, ∃ m ∈ markers, before ++ [c] = outer ++ m ∧ Marks outer after) ∨
      scope.NameAround before [c] after := by
  obtain ⟨n, left, leaf, right, base, haround, rfl, hleaf, -⟩ := h.exists_around
  rw [List.append_assoc] at hs
  rcases exists_split hs with ⟨u, hleft, rfl⟩ | ⟨u, rfl, hinside⟩
  · obtain ⟨outer, m, hm, heq, hstarts, harray⟩ := haround.mark_left hleft hc
    exact Or.inl ⟨outer, m, hm, heq, hstarts, Or.inr (harray.trans (List.prefix_append _ _))⟩
  · rcases exists_split hinside with ⟨v, rfl, rfl⟩ | ⟨v, -, hright⟩
    · exact mark_place_of_leaf? haround hleaf hc
    · -- behind what the layers are around there are blanks and brackets only
      have hmem : c ∈ right := by rw [hright]; simp
      rcases haround.mem_right hmem with hblank | rfl
      · rw [isBlank_of_mem_marks hc] at hblank
        cases hblank
      · rcases mem_marks_iff.mp hc with hcolon | hscore
        · cases hcolon
        · cases hscore

/-- No marker ends as the other one does. -/
theorem marker_of_mark {m m' outer start : List Char} (hm : m ∈ markers) (hm' : m' ∈ markers)
    (h : start ++ m = outer ++ m') : start = outer := by
  have hne : ∀ m ∈ markers, m ≠ [] := by decide
  have hinj : ∀ m ∈ markers, ∀ m' ∈ markers, m.getLast? = m'.getLast? → m = m' := by decide
  have hlast : m.getLast? = m'.getLast? := by
    rw [← List.getLast?_append_of_ne_nil start (hne m hm), h,
      List.getLast?_append_of_ne_nil outer (hne m' hm')]
  obtain rfl := hinj m hm m' hm' hlast
  exact List.append_cancel_right h

/-- Markers in a token stand in their place, or are letters of a declared name. -/
theorem Spells.marker_place (h : scope.Spells s t) {m : List Char} (hm : m ∈ markers)
    (hs : s = before ++ m ++ after) :
    Marks before after ∨ scope.NameAround before m after := by
  rcases List.mem_cons.mp hm with rfl | hshort
  · have hsplit : s = (before ++ "internal".toList) ++ ':' :: after := by
      rw [hs, show longMarker = "internal".toList ++ [':'] from rfl]
      simp
    rcases h.mark_place hsplit List.mem_cons_self with ⟨outer, m', hm', heq, hmarks⟩ |
      ⟨x, -, -, start, rest, -, -, -, htext, -⟩
    · rw [List.append_assoc] at heq
      obtain rfl := marker_of_mark hm hm' heq
      exact Or.inl hmarks
    · have hcolon : isIdentChar ':' = true := x.isIdentChar_of_mem (by rw [htext]; simp)
      exact absurd hcolon (by decide)
  · obtain rfl := List.mem_singleton.mp hshort
    have hsplit : s = before ++ '_' :: after := by simp [hs, shortMarker]
    rcases h.mark_place hsplit (by decide) with ⟨outer, m', hm', heq, hmarks⟩ | hname
    · obtain rfl := marker_of_mark hm hm' heq
      exact Or.inl hmarks
    · exact Or.inr hname

/-! ### Types that can be written -/

theorem exists_spelling (h : ∀ r, t.Refers r → scope.Offers r) : ∃ s, scope.Spells s t := by
  induction t with
  | primitive p => exact ⟨_, .primitive (m := longMarker) p List.mem_cons_self⟩
  | arrayOf t ih =>
    obtain ⟨s, hs⟩ := ih fun r hr => h r (.arrayOf hr)
    exact ⟨_, .array .bare hs⟩
  | reference r =>
    obtain ⟨x, hx, rfl⟩ := h r (.reference r)
    exact ⟨_, .reference hx⟩

/-- The types that can be written are those over the declared names. -/
theorem exists_spelling_iff : (∃ s, scope.Spells s t) ↔ ∀ r, t.Refers r → scope.Offers r :=
  ⟨fun ⟨_, hs⟩ _ hr => hs.offers hr, exists_spelling⟩

/-- **A token resolves to just the type that it spells.**  So every type over the declared names can
be written, and no other; no token writes two types; and where a token resolves, blanks stand only
where it or one inside it begins or ends, and markers only directly in front of a kind or an array,
where a token begins.  (Underscores may be letters of a declared name.) -/
theorem resolves_what_it_spells (scope : Scope) :
    (∀ token t, scope.resolve token = .ok t ↔ scope.Spells token.toList t) ∧
    (∀ t, (∃ token, scope.resolve token = .ok t) ↔ ∀ r, t.Refers r → scope.Offers r) ∧
    (∀ s t u, scope.Spells s t → scope.Spells s u → u = t) ∧
    ∀ token t, scope.resolve token = .ok t →
      (∀ before c after, token.toList = before ++ c :: after → Text.isBlank c = true →
        Starts before ∨ Stops after) ∧
      ∀ m ∈ markers, ∀ before after, token.toList = before ++ m ++ after →
        Marks before after ∨ scope.NameAround before m after := by
  have hspells : ∀ token t, scope.resolve token = .ok t ↔ scope.Spells token.toList t :=
    fun _ _ => resolveToken_eq_ok_iff
  refine ⟨hspells, ?writable, ?unique, ?places⟩
  case writable =>
    intro t
    rw [← exists_spelling_iff]
    constructor
    · rintro ⟨token, ht⟩
      exact ⟨token.toList, (hspells token t).mp ht⟩
    · rintro ⟨s, hs⟩
      refine ⟨String.ofList s, (hspells _ t).mpr ?_⟩
      rwa [String.toList_ofList]
  case unique =>
    intro s t u ht hu
    have hok := (resolveToken_of_spells hu).symm.trans (resolveToken_of_spells ht)
    exact Except.ok.inj hok
  case places =>
    intro token t ht
    have hs := (hspells token t).mp ht
    exact ⟨fun _ _ _ => hs.blank_place, fun _ hm _ _ => hs.marker_place hm⟩

/-- A single type, in a namespace. -/
def hedge : Scope := ⟨[⟨"rose_bush", by decide⟩], ⟨some "garden", "::"⟩⟩

/-- Two layers with one marker each, blanks where tokens begin and end, and a name with an
underscore. -/
theorem hedge_resolves_nested_token :
    hedge.resolve " _array[ internal:array[rose_bush ]]" =
      .ok (.arrayOf (.arrayOf (.reference ⟨⟨"rose_bush", by decide⟩, "garden::RoseBush"⟩))) := by
  have hblank : Text.Blanks [' '] := List.all_eq_true.mp rfl
  have hname := @Spells.padded hedge [] _ [' '] _ Text.blanks_nil hblank
    (.reference (x := ⟨"rose_bush", by decide⟩) List.mem_cons_self)
  have hinner := @Spells.padded hedge [' '] _ [] _ hblank Text.blanks_nil
    (.array (.marked (m := longMarker) List.mem_cons_self) hname)
  have houter := @Spells.padded hedge [' '] _ [] _ hblank Text.blanks_nil
    (.array (.marked (m := shortMarker) (by decide)) hinner)
  exact ((resolves_what_it_spells hedge).1 _ _).mpr houter

end Scope
end ClassSchema
