/-
What is reported of a token that writes no type.

* `Scope.resolveFor_eq_error_iff` — the owner is named together with the part that fails;
* `Scope.resolveToken_reported` — the part that fails is also what is reported of itself;
* `failing_token_is_innermost` — what is reported is what is left when all layers are taken off.

Design notes: a token fails at an unknown kind behind a marker, at a name that is not declared, or
at brackets around nothing, and each time another slice of it is reported.  All three are the
innermost part, which is found without a look at the declared names.
-/
import ClassSchema.Compilation
import ClassSchema.Proofs.TokenLayers

namespace ClassSchema

namespace Scope

open TypeToken

variable {scope : Scope} {owner token : String}

/-- The owner is named together with the part that fails. -/
theorem resolveFor_eq_error_iff {e : SchemaError} : scope.resolveFor owner token = .error e ↔
    ∃ part, scope.resolveToken token.toList = .error part ∧ e = .unknownType part owner := by
  unfold resolveFor resolve
  rcases scope.resolveToken token.toList with part | t
  · constructor
    · intro h
      exact ⟨part, rfl, (Except.error.inj h).symm⟩
    · rintro ⟨part', h, rfl⟩
      rw [Except.error.inj h]
  · constructor
    · intro h; cases h
    · rintro ⟨part, h, -⟩; cases h

/-- The part that fails is also what is reported of itself, since the layers around it make no
difference. -/
theorem resolveToken_reported {s : List Char} {part : String}
    (h : scope.resolveToken s = .error part) :
    scope.resolveToken part.toList = .error part ∧
      ∃ n left right, Around n left right ∧ s = left ++ part.toList ++ right ∧
        (n = 0 ∨ ¬ Text.Blanks part.toList) := by
  obtain ⟨n, left, right, haround, rfl, hpart⟩ := (innermost_of_resolveToken h).exists_around
  rw [resolveToken_around haround hpart] at h
  exact ⟨Except.map_eq_error_iff.mp h, n, left, right, haround, rfl, hpart⟩

/-- **A token that writes no type is reported as its innermost part.**  That is the one text that is
left when blanks are trimmed and layers are taken off as long as there is one that holds more than
blanks.  It is trimmed, and it keeps a marker of its own, as nothing but the layers stands around
it.  The same is reported in any other layers of the same number, whatever their markers and
blanks. -/
theorem failing_token_is_innermost {e : SchemaError} (h : scope.resolveFor owner token = .error e) :
    ∃ core, e = .unknownType core owner ∧
      (∀ part, Innermost token.toList part ↔ part = core.toList) ∧
      Text.trim core.toList = core.toList ∧
      ∃ n left right, Around n left right ∧ token.toList = left ++ core.toList ++ right ∧
        ∀ left' right', Around n left' right' →
          scope.resolveFor owner (String.ofList (left' ++ core.toList ++ right')) = .error e := by
  obtain ⟨core, hcore, rfl⟩ := resolveFor_eq_error_iff.mp h
  have hinnermost := innermost_of_resolveToken hcore
  obtain ⟨hself, n, left, right, haround, htoken, hne⟩ := resolveToken_reported hcore
  refine ⟨core, rfl, ?innermost, hinnermost.trim_eq, n, left, right, haround, htoken, ?layers⟩
  case innermost =>
    intro part
    constructor
    · exact hinnermost.unique
    · rintro rfl
      exact hinnermost
  case layers =>
    intro left' right' haround'
    refine resolveFor_eq_error_iff.mpr ⟨core, ?_, rfl⟩
    rw [String.toList_ofList, resolveToken_around haround' hne, hself]
    rfl

/-- A kind that does not exist, in two layers: it is reported with its marker. -/
theorem decimal_is_innermost :
    (⟨[], ⟨none, "."⟩⟩ : Scope).resolveFor "meadow" " array[ _array[ _decimal] ]" =
      .error (.unknownType "_decimal" "meadow") ∧
    Innermost " array[ _array[ _decimal] ]".toList "_decimal".toList := by
  have hfails : (⟨[], ⟨none, "."⟩⟩ : Scope).resolveFor "meadow" " array[ _array[ _decimal] ]" =
      .error (.unknownType "_decimal" "meadow") := by with_unfolding_all rfl
  obtain ⟨core, herror, hinnermost, -⟩ := failing_token_is_innermost hfails
  obtain ⟨rfl, -⟩ := SchemaError.unknownType.inj herror
  exact ⟨hfails, (hinnermost _).mpr rfl⟩

end Scope
end ClassSchema
