/-
Why a text is no name.

* `Text.Pieces` — a text cut at its underscores, and `pieces_iff`, that there is one such cut;
* `nil_mem_words_iff` — a piece is empty where an underscore stands at an end or beside another;
* `Text.FirstStray`, `Text.FirstFlawed` — the first character that no name holds, and the first
  piece that is no segment;
* `IdentError.Explains` — the error that a text which is no name calls for;
* `identDefect?_eq_some_iff` — just that one is found;
* `Ident.parse_outcome` — so a text is a name, or what is wrong with it first is told.

Design notes: a text is gone over twice, for its characters and then for how its pieces begin.  The
second time first characters are enough, since a piece that holds nothing but lower-case letters and
digits is a segment unless it is empty or begins with a digit.  `FirstFlawed` asks for segments
instead, and so knows nothing of what the first pass has left over for the second.
-/
import ClassSchema.Proofs.NameGrammar

namespace ClassSchema

namespace Text

/-! ### Pieces -/

/-- The text is made of the pieces, with single underscores between them and none inside. -/
structure Pieces (s : List Char) (ws : List (List Char)) : Prop where
  ne_nil : ws ≠ []
  score_not_mem : ∀ w ∈ ws, '_' ∉ w
  eq_intercalate : s = ['_'].intercalate ws

theorem pieces_words (s : List Char) : Pieces s (words s) where
  ne_nil := List.splitOn_ne_nil '_' s
  score_not_mem := fun _ hw hscore => (mem_of_mem_words hw hscore).2 rfl
  eq_intercalate := (List.intercalate_splitOn '_').symm

/-- A text is cut at its underscores in one way only. -/
theorem pieces_iff {s : List Char} {ws : List (List Char)} : Pieces s ws ↔ words s = ws := by
  constructor
  · rintro ⟨hne, hscore, rfl⟩
    exact List.splitOn_intercalate '_' hscore hne
  · rintro rfl
    exact pieces_words s

/-- Every word of a text is a segment exactly if the text is segments with underscores between
them. -/
theorem segments_iff_exists {s : List Char} :
    Segments s ↔ ∃ ws, ws ≠ [] ∧ (∀ w ∈ ws, Segment w) ∧ s = ['_'].intercalate ws := by
  constructor
  · intro h
    exact ⟨words s, (pieces_words s).ne_nil, h, (pieces_words s).eq_intercalate⟩
  · rintro ⟨ws, hne, hws, hs⟩
    have hscore : ∀ w ∈ ws, '_' ∉ w := fun w hw hmem => ((hws w hw).isPlain hmem).ne_score rfl
    rw [Segments, pieces_iff.mp ⟨hne, hscore, hs⟩]
    exact hws

theorem intercalate_append {ws vs : List (List Char)} (hws : ws ≠ []) (hvs : vs ≠ []) :
    ['_'].intercalate (ws ++ vs) = ['_'].intercalate ws ++ '_' :: ['_'].intercalate vs := by
  obtain ⟨w, ws, rfl⟩ := List.exists_cons_of_ne_nil hws
  obtain ⟨v, vs, rfl⟩ := List.exists_cons_of_ne_nil hvs
  rw [List.cons_append, intercalate_cons, intercalate_cons, intercalate_cons, List.flatMap_append,
    List.append_assoc]
  rfl

theorem words_append_score (s t : List Char) : words (s ++ '_' :: t) = words s ++ words t :=
  List.splitOn_append_cons_self s t

/-- Some piece is empty exactly if an underscore begins or ends the text or stands beside
another. -/
theorem nil_mem_words_iff {s : List Char} (hs : s ≠ []) :
    [] ∈ words s ↔
      (∃ t, s = '_' :: t) ∨ (∃ t, s = t ++ ['_']) ∨ ∃ t u, s = t ++ '_' :: '_' :: u := by
  constructor
  · intro hmem
    obtain ⟨front, back, hwords⟩ := List.append_of_mem hmem
    have htext := (pieces_iff.mpr hwords).eq_intercalate
    -- the empty piece ends the text, or an underscore stands right behind it
    have hback : ['_'].intercalate ([] :: back) = [] ∨
        ∃ u, ['_'].intercalate ([] :: back) = '_' :: u := by
      rcases back with _ | ⟨v, back⟩
      · exact Or.inl rfl
      · exact Or.inr ⟨_, List.intercalate_cons_cons ..⟩
    rcases front with _ | ⟨w, front⟩
    · rcases hback with hend | ⟨u, hu⟩
      · exact absurd (htext.trans hend) hs
      · exact Or.inl ⟨u, htext.trans hu⟩
    · rw [intercalate_append (List.cons_ne_nil w front) (List.cons_ne_nil [] back)] at htext
      rcases hback with hend | ⟨u, hu⟩
      · rw [hend] at htext
        exact Or.inr (Or.inl ⟨_, htext⟩)
      · rw [hu] at htext
        exact Or.inr (Or.inr ⟨_, u, htext⟩)
  · rintro (⟨t, rfl⟩ | ⟨t, rfl⟩ | ⟨t, u, rfl⟩)
    · rw [words_score]
      exact List.mem_cons_self
    · rw [words_append_score]
      exact List.mem_append_right _ List.mem_cons_self
    · rw [words_append_score, words_score]
      exact List.mem_append_right _ List.mem_cons_self

/-! ### The first character that will not do -/

/-- A lower-case letter, a digit or the underscore. -/
def IsNameChar (c : Char) : Prop := IsPlain c ∨ c = '_'

/-- The first character of the text that no name holds. -/
def FirstStray (s : List Char) (c : Char) : Prop :=
  ∃ front back, s = front ++ c :: back ∧ (∀ a ∈ front, IsNameChar a) ∧ ¬ IsNameChar c

theorem isIdentChar_iff {c : Char} : isIdentChar c = true ↔ IsNameChar c := by
  simp [isIdentChar, IsNameChar, IsPlain]

theorem find?_eq_some_iff_firstStray {s : List Char} {c : Char} :
    (s.find? fun a => !isIdentChar a) = some c ↔ FirstStray s c := by
  simp only [List.find?_eq_some_iff_append, FirstStray, ← isIdentChar_iff, Bool.not_not,
    Bool.not_eq_true', Bool.not_eq_true]
  constructor
  · rintro ⟨hc, front, back, hs, hfront⟩
    exact ⟨front, back, hs, hfront, hc⟩
  · rintro ⟨front, back, hs, hfront, hc⟩
    exact ⟨hc, front, back, hs, hfront⟩

theorem find?_eq_none_iff_isNameChar {s : List Char} :
    (s.find? fun a => !isIdentChar a) = none ↔ ∀ c ∈ s, IsNameChar c := by
  simp only [List.find?_eq_none, Bool.not_eq_true', Bool.not_eq_false, isIdentChar_iff]

/-- Where the characters are those of names, so are the pieces made of them. -/
theorem isPlain_of_mem_words {s w : List Char} (hs : ∀ c ∈ s, IsNameChar c) (hw : w ∈ words s) :
    ∀ a ∈ w, IsPlain a := by
  intro a ha
  obtain ⟨hmem, hscore⟩ := mem_of_mem_words hw ha
  exact (hs a hmem).resolve_right hscore

/-! ### The first piece that will not do -/

/-- The first piece of the text that is no segment. -/
def FirstFlawed (s w : List Char) : Prop :=
  ∃ front back, Pieces s (front ++ w :: back) ∧ (∀ v ∈ front, Segment v) ∧ ¬ Segment w

theorem FirstFlawed.mem_words {s w : List Char} (h : FirstFlawed s w) : w ∈ words s := by
  obtain ⟨front, back, hpieces, -⟩ := h
  rw [pieces_iff.mp hpieces]
  exact List.mem_append_right front List.mem_cons_self

/-- A piece of lower-case letters and digits is a segment unless it is empty or begins with a
digit. -/
theorem segmentDefect?_eq_none_iff {w : List Char} (hw : ∀ a ∈ w, IsPlain a) :
    segmentDefect? w = none ↔ Segment w := by
  rcases w with _ | ⟨c, s⟩
  · exact iff_of_false (by simp [segmentDefect?]) id
  · obtain ⟨hc, hs⟩ := List.forall_mem_cons.mp hw
    rcases hc with hlower | hdigit
    · exact iff_of_true (by simp [segmentDefect?, isDigit_of_isLower hlower]) ⟨hlower, hs⟩
    · refine iff_of_false (by simp [segmentDefect?, hdigit]) fun h => ?_
      rw [isDigit_of_isLower h.1] at hdigit
      cases hdigit

theorem findSome?_eq_some_iff_firstFlawed {s : List Char} (hs : ∀ c ∈ s, IsNameChar c)
    {error : String → IdentError} : (words s).findSome? segmentDefect? = some error ↔
      ∃ w, FirstFlawed s w ∧ segmentDefect? w = some error := by
  have hnone : ∀ w ∈ words s, segmentDefect? w = none ↔ Segment w := fun w hw =>
    segmentDefect?_eq_none_iff (isPlain_of_mem_words hs hw)
  simp only [List.findSome?_eq_some_iff, FirstFlawed, pieces_iff]
  constructor
  · rintro ⟨front, w, back, hwords, hw, hfront⟩
    rw [hwords] at hnone
    refine ⟨w, ⟨front, back, hwords, fun v hv => ?_, ?_⟩, hw⟩
    · exact (hnone v (List.mem_append_left _ hv)).mp (hfront v hv)
    · rw [← hnone w (List.mem_append_right _ List.mem_cons_self), hw]
      exact Option.some_ne_none error
  · rintro ⟨w, ⟨front, back, hwords, hfront, -⟩, hw⟩
    rw [hwords] at hnone
    refine ⟨front, w, back, hwords, hw, fun v hv => ?_⟩
    exact (hnone v (List.mem_append_left _ hv)).mpr (hfront v hv)

end Text

/-! ### The error that a text calls for -/

/-- The error that a text which is no name calls for.  Characters come before pieces, and of either
the one that stands furthest to the left. -/
inductive IdentError.Explains (s : String) : IdentError → Prop where
  | empty : s = "" → Explains s .empty
  | invalidCharacter {c : Char} : Text.FirstStray s.toList c →
      Explains s (.invalidCharacter s c)
  | emptySegment : s ≠ "" → (∀ c ∈ s.toList, Text.IsNameChar c) →
      Text.FirstFlawed s.toList [] → Explains s (.emptySegment s)
  | leadingDigit {d : Char} {t : List Char} : (∀ c ∈ s.toList, Text.IsNameChar c) →
      d.isDigit = true → Text.FirstFlawed s.toList (d :: t) → Explains s (.leadingDigit s)

namespace IdentError

theorem Explains.of_firstFlawed {s : String} {w : List Char} {error : String → IdentError}
    (hne : s ≠ "") (hs : ∀ c ∈ s.toList, Text.IsNameChar c)
    (hflawed : Text.FirstFlawed s.toList w) (hw : segmentDefect? w = some error) :
    Explains s (error s) := by
  rcases w with _ | ⟨d, t⟩
  · rw [← Option.some.inj hw]
    exact .emptySegment hne hs hflawed
  · obtain ⟨hdigit, herror⟩ := Option.ite_none_right_eq_some.mp hw
    rw [← Option.some.inj herror]
    exact .leadingDigit hs hdigit hflawed

end IdentError

theorem identDefect?_of_firstStray {s : String} {c : Char} (h : Text.FirstStray s.toList c) :
    identDefect? s = some (.invalidCharacter s c) := by
  have hne : s ≠ "" := by
    rintro rfl
    obtain ⟨front, back, hnil, -⟩ := h
    exact List.append_ne_nil_of_right_ne_nil front (List.cons_ne_nil c back) hnil.symm
  rw [identDefect?, if_neg (by simpa using hne), Text.find?_eq_some_iff_firstStray.mpr h]

theorem identDefect?_of_isNameChar {s : String} (hne : s ≠ "")
    (hs : ∀ c ∈ s.toList, Text.IsNameChar c) :
    identDefect? s =
      ((Text.words s.toList).findSome? segmentDefect?).map fun error => error s := by
  rw [identDefect?, if_neg (by simpa using hne), Text.find?_eq_none_iff_isNameChar.mpr hs]

/-- **What is found** is the error that the text calls for. -/
theorem identDefect?_eq_some_iff {s : String} {e : IdentError} :
    identDefect? s = some e ↔ e.Explains s := by
  constructor
  · intro h
    by_cases hempty : s = ""
    · subst hempty
      obtain rfl := Option.some.inj h
      exact .empty rfl
    · rcases hfind : s.toList.find? fun a => !isIdentChar a with _ | c
      · have hs := Text.find?_eq_none_iff_isNameChar.mp hfind
        rw [identDefect?_of_isNameChar hempty hs, Option.map_eq_some_iff] at h
        obtain ⟨error, hfound, rfl⟩ := h
        obtain ⟨w, hflawed, hw⟩ := (Text.findSome?_eq_some_iff_firstFlawed hs).mp hfound
        exact .of_firstFlawed hempty hs hflawed hw
      · have hstray := Text.find?_eq_some_iff_firstStray.mp hfind
        rw [identDefect?_of_firstStray hstray] at h
        obtain rfl := Option.some.inj h
        exact .invalidCharacter hstray
  · intro h
    cases h with
    | empty hs =>
      rw [hs]
      rfl
    | invalidCharacter hstray => exact identDefect?_of_firstStray hstray
    | emptySegment hne hs hflawed =>
      have hfound := (Text.findSome?_eq_some_iff_firstFlawed hs).mpr ⟨[], hflawed, rfl⟩
      rw [identDefect?_of_isNameChar hne hs, hfound]
      rfl
    | @leadingDigit d t hs hdigit hflawed =>
      have hfound := (Text.findSome?_eq_some_iff_firstFlawed hs).mpr
        ⟨d :: t, hflawed, if_pos hdigit⟩
      have hne : s ≠ "" := by
        -- an empty text has no piece but an empty one
        rintro rfl
        exact List.cons_ne_nil d t (List.mem_singleton.mp hflawed.mem_words)
      rw [identDefect?_of_isNameChar hne hs, hfound]
      rfl

namespace Ident

/-- A text that is told of an empty segment has an underscore in front, at its end or beside
another. -/
theorem scores_of_emptySegment {s t : String} (h : parse s = .error (.emptySegment t)) :
    (∃ u, s.toList = '_' :: u) ∨ (∃ u, s.toList = u ++ ['_']) ∨
      ∃ u v, s.toList = u ++ '_' :: '_' :: v := by
  cases identDefect?_eq_some_iff.mp (parse_eq_error_iff.mp h) with
  | emptySegment hne hs hflawed =>
    have hnil : s.toList ≠ [] := fun hnil => hne (String.toList_eq_nil_iff.mp hnil)
    exact (Text.nil_mem_words_iff hnil).mp hflawed.mem_words

/-- **A text is a name, or what is wrong with it first is told.**  It is a name exactly if it is one
or more segments with single underscores between them.  Otherwise it is empty; or the first of its
characters that is no lower-case letter, digit or underscore is told; or, where there is no such
character, that the first piece between underscores which is no segment is empty, or begins with a
digit. -/
theorem parse_outcome (s : String) :
    (∀ x, parse s = .ok x ↔ x.text = s) ∧
    ((∃ x, parse s = .ok x) ↔ ∃ ws : List (List Char),
      ws ≠ [] ∧ (∀ w ∈ ws, Text.Segment w) ∧ s.toList = ['_'].intercalate ws) ∧
    ∀ e, parse s = .error e ↔ e.Explains s := by
  refine ⟨fun x => parse_eq_ok_iff, ?accepted, fun e => ?refused⟩
  case accepted =>
    rw [← Text.segments_iff_exists, ← identDefect?_eq_none_iff_segments]
    constructor
    · rintro ⟨x, hx⟩
      rw [← parse_eq_ok_iff.mp hx]
      exact x.valid
    · exact fun hvalid => ⟨⟨s, hvalid⟩, parse_eq_ok_iff.mpr rfl⟩
  case refused => rw [parse_eq_error_iff, identDefect?_eq_some_iff]

/-- A text with both kinds of flawed pieces is told of the one on the left, and of neither where a
character will not do. -/
theorem leftmost_flaw_is_told :
    parse "a_9__b" = .error (.leadingDigit "a_9__b") ∧
    parse "a__9_b" = .error (.emptySegment "a__9_b") ∧
    parse "_9-" = .error (.invalidCharacter "_9-" '-') := by
  have hdigit : Text.Pieces "a_9__b".toList ([['a']] ++ ['9'] :: [[], ['b']]) :=
    Text.pieces_iff.mpr rfl
  have hempty : Text.Pieces "a__9_b".toList ([['a']] ++ [] :: [['9'], ['b']]) :=
    Text.pieces_iff.mpr rfl
  refine ⟨?_, ?_, ?_⟩
  · refine ((parse_outcome "a_9__b").2.2 _).mpr (.leadingDigit ?_ rfl ⟨_, _, hdigit, ?_, ?_⟩)
    all_goals simp [Text.IsNameChar, Text.IsPlain, Text.Segment]
  · refine ((parse_outcome "a__9_b").2.2 _).mpr (.emptySegment ?_ ?_ ⟨_, _, hempty, ?_, ?_⟩)
    all_goals simp [Text.IsNameChar, Text.IsPlain, Text.Segment]
  · refine ((parse_outcome "_9-").2.2 _).mpr (.invalidCharacter ⟨['_', '9'], [], rfl, ?_, ?_⟩)
    all_goals simp [Text.IsNameChar, Text.IsPlain]

end Ident
end ClassSchema
