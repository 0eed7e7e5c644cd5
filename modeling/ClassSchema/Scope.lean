/-
The types that a schema may name, and what type tokens stand for among them.

* `Scope` — the declared types and the namespace of their classes;
* `Scope.reference?` — the declared type that a name is for;
* `Scope.resolve` — the type of a slot that a token writes.

A token is a built-in kind behind a marker, the name of a declared type, or `array[` and `]` around
the token of the elements, with or without a marker in front.  The marker is `internal:` or an
underscore.  Blanks around a token say nothing.  A token that writes no type is reported as the
innermost token that fails.
-/
import ClassSchema.SlotType
import ClassSchema.Text.Blank

namespace ClassSchema

/-! ### The layers of a token -/

namespace TypeToken

/-- The marker in front of built-in kinds. -/
def longMarker : List Char := "internal:".toList

/-- The short form of the marker. -/
def shortMarker : List Char := ['_']

/-- What follows a marker, if one is there. -/
def marked? (s : List Char) : Option (List Char) :=
  match longMarker.isPrefixOf? s with
  | some word => some word
  | none => shortMarker.isPrefixOf? s

/-- The text without its marker. -/
def unmarked (s : List Char) : List Char := (marked? s).getD s

/-- The token between the brackets of an array, if it is more than blanks. -/
def elementToken? (s : List Char) : Option (List Char) := do
  let opened ← "array[".toList.isPrefixOf? s
  let inner ← [']'].isSuffixOf? opened
  if (Text.trim inner).isEmpty then none else some inner

/-- The token of the elements of an array, marked or not. -/
def inner? (s : List Char) : Option (List Char) := elementToken? (unmarked s)

theorem length_of_isPrefixOf? {p s t : List Char} (h : p.isPrefixOf? s = some t) :
    s.length = p.length + t.length := by
  induction p generalizing s with
  | nil =>
    obtain rfl : s = t := Option.some.inj h
    simp
  | cons a p ih =>
    cases s with
    | nil => cases h
    | cons b s =>
      have hstep : (a :: p).isPrefixOf? (b :: s) = if a == b then p.isPrefixOf? s else none := rfl
      rw [hstep] at h
      split at h
      · have := ih h; simp only [List.length_cons]; omega
      · simp at h

theorem length_unmarked_le (s : List Char) : (unmarked s).length ≤ s.length := by
  cases h : marked? s with
  | none => simp [unmarked, h]
  | some t =>
    have : t.length ≤ s.length := by
      unfold marked? at h
      split at h
      · next h' => have := length_of_isPrefixOf? h'; cases h; omega
      · have := length_of_isPrefixOf? h; omega
    simpa [unmarked, h] using this

theorem length_elementToken? {s t : List Char} (h : elementToken? s = some t) :
    t.length < s.length := by
  simp only [elementToken?, Option.bind_eq_bind, Option.bind_eq_some_iff] at h
  obtain ⟨opened, ho, inner, hi, ht⟩ := h
  split at ht
  · simp at ht
  · obtain rfl : inner = t := by simpa using ht
    obtain ⟨r, hr, rfl⟩ := Option.map_eq_some_iff.mp hi
    have h₁ := length_of_isPrefixOf? ho
    have h₂ := length_of_isPrefixOf? hr
    simp only [List.length_reverse] at h₂ ⊢
    simp only [List.length_cons, List.length_nil] at h₂
    omega

theorem length_trim_le (s : List Char) : (Text.trim s).length ≤ s.length := by
  have hd : ∀ t : List Char, (t.dropWhile Text.isBlank).length ≤ t.length := fun t =>
    (List.dropWhile_sublist _).length_le
  unfold Text.trim Text.trimLeft Text.trimRight
  have h₁ := hd s
  have h₂ := hd (s.dropWhile Text.isBlank).reverse
  simp only [List.length_reverse] at h₂ ⊢
  omega

/-- The inner token is shorter. -/
theorem length_inner? {s t : List Char} (h : inner? (Text.trim s) = some t) :
    t.length < s.length := by
  have h₁ := length_elementToken? h
  have h₂ := length_unmarked_le (Text.trim s)
  have h₃ := length_trim_le s
  omega

end TypeToken

/-! ### Resolution -/

/-- The types that a schema may name. -/
structure Scope where
  declared : List Ident
  home : Namespace

namespace Scope

/-- Is the text the name of a declared type? -/
def declares (scope : Scope) (s : String) : Bool := scope.declared.any (·.text = s)

/-- The declared type that a name is for. -/
def reference? (scope : Scope) (s : String) : Option ClassRef :=
  (scope.declared.find? (·.text = s)).map scope.home.refer

/-- What a token without layers writes. -/
def leaf? (scope : Scope) (s : List Char) : Option SlotType :=
  match TypeToken.marked? s with
  | some word => (Primitive.ofSpelling? (String.ofList word)).map .primitive
  | none => (scope.reference? (String.ofList s)).map .reference

/-- What a token writes, or the innermost token that fails. -/
def resolveToken (scope : Scope) (s : List Char) : Except String SlotType :=
  match _ : TypeToken.inner? (Text.trim s) with
  | some inner => (scope.resolveToken inner).map .arrayOf
  | none =>
    match scope.leaf? (Text.trim s) with
    | some t => .ok t
    | none => .error (String.ofList (Text.trim s))
termination_by s.length
decreasing_by exact TypeToken.length_inner? (by assumption)

/-- What a token writes, or the innermost token that fails. -/
def resolve (scope : Scope) (token : String) : Except String SlotType :=
  scope.resolveToken token.toList

end Scope
end ClassSchema
