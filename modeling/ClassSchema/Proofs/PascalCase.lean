/-
Names and their two spellings, one for one.

* `Text.InPascalCase` — words run together, each a capital letter with lower-case letters and digits
  behind it;
* `inPascalCase_joinWords`, `exists_joinWords_eq` — the names in Pascal case are just these texts;
* `Ident.decamelize_camelCase` — a name is read off its camel case, too;
* `Ident.naming_is_bijective` — Pascal case is a bijection, so no two names of a schema share the
  name of a class or of a member.

Design notes: the way back need not be followed letter by letter a second time.  A text of such
words is the Pascal case of the name whose segments are the words with small letters in front, and
from there `decamelize_joinWords` leads back.
-/
import ClassSchema.Proofs.Document
import ClassSchema.Proofs.NameGrammar

namespace ClassSchema

namespace Text

/-- A capital letter, with lower-case letters and digits behind it. -/
def CapitalWord : List Char → Prop
  | [] => False
  | c :: s => c.isUpper = true ∧ ∀ a ∈ s, IsPlain a

/-- One or more such words run together. -/
def InPascalCase (s : List Char) : Prop :=
  s ≠ [] ∧ ∃ ws : List (List Char), (∀ w ∈ ws, CapitalWord w) ∧ s = ws.flatten

/-! ### Words -/

theorem toNat_lt_of_isUpper {c : Char} (h : c.isUpper = true) : c.toNat < 0x80 := by
  obtain ⟨-, hZ⟩ := of_decide_eq_true h
  exact lt_of_le_of_lt (UInt32.le_iff_toNat_le.mp hZ) (by decide)

theorem isLower_toLower {c : Char} (h : c.isUpper = true) : c.toLower.isLower = true := by
  rw [Char.isLower_toLower_eq_isAlpha, Char.isAlpha, h, Bool.true_or]

theorem toUpper_toLower {c : Char} (h : c.isUpper = true) : c.toLower.toUpper = c := by
  rw [Char.toUpper_toLower_eq_toUpper]
  exact Char.toUpper_eq_of_not_isLower (Char.not_isLower_of_isUpper h)

theorem uncapitalise_of_isUpper {c : Char} (h : c.isUpper = true) (s : List Char) :
    uncapitalise (c :: s) = c.toLower :: s := by
  rw [uncapitalise, lowerChar, if_pos (toNat_lt_of_isUpper h)]
  rfl

theorem CapitalWord.segment_uncapitalise {w : List Char} (h : CapitalWord w) :
    Segment (uncapitalise w) := by
  rcases w with _ | ⟨c, s⟩
  · exact h.elim
  · rw [uncapitalise_of_isUpper h.1]
    exact ⟨isLower_toLower h.1, h.2⟩

theorem CapitalWord.capitalWord_uncapitalise {w : List Char} (h : CapitalWord w) :
    capitalWord (uncapitalise w) = w := by
  have hsegment := h.segment_uncapitalise
  rcases w with _ | ⟨c, s⟩
  · exact h.elim
  · rw [uncapitalise_of_isUpper h.1] at hsegment ⊢
    rw [capitalWord_of_segment hsegment, toUpper_toLower h.1]

theorem Segment.capitalWord {w : List Char} (h : Segment w) : CapitalWord (capitalWord w) := by
  rcases w with _ | ⟨c, s⟩
  · exact h.elim
  · rw [capitalWord_of_segment h]
    exact ⟨isUpper_toUpper h.1, h.2⟩

/-! ### Texts of words -/

theorem joinWords_nil_eq (s : List Char) :
    joinWords [] s = ((words s).map capitalWord).flatten := by
  obtain ⟨w, ws, hwords⟩ := exists_words s
  rw [joinWords, hwords, List.map_cons, intercalate_cons, List.flatten_cons, List.flatMap_def]
  simp only [List.nil_append, List.map_id']

theorem inPascalCase_joinWords {s : List Char} (h : Segments s) :
    InPascalCase (joinWords [] s) := by
  refine ⟨?_, _, ?_, joinWords_nil_eq s⟩
  · obtain ⟨c, t, hjoin, -⟩ := exists_head_joinWords h
    rw [hjoin]
    exact List.cons_ne_nil c t
  · exact List.forall_mem_map.mpr fun w hw => (h w hw).capitalWord

theorem InPascalCase.isAlphanum {s : List Char} (h : InPascalCase s) {c : Char} (hc : c ∈ s) :
    c.isAlphanum = true := by
  obtain ⟨-, ws, hcapital, rfl⟩ := h
  obtain ⟨w, hw, hcw⟩ := List.mem_flatten.mp hc
  have hword := hcapital w hw
  rcases w with _ | ⟨a, t⟩
  · exact hword.elim
  · rcases List.mem_cons.mp hcw with rfl | hct
    · simp [Char.isAlphanum, Char.isAlpha, hword.1]
    · rcases hword.2 c hct with hlower | hdigit
      · simp [Char.isAlphanum, Char.isAlpha, hlower]
      · simp [Char.isAlphanum, hdigit]

/-- A text in Pascal case is made of the words with small letters in front. -/
theorem exists_joinWords_eq {s : List Char} (h : InPascalCase s) :
    ∃ t, Segments t ∧ joinWords [] t = s := by
  obtain ⟨hne, ws, hcapital, rfl⟩ := h
  have hsegments : ∀ v ∈ ws.map uncapitalise, Segment v :=
    List.forall_mem_map.mpr fun w hw => (hcapital w hw).segment_uncapitalise
  have hwords : words (['_'].intercalate (ws.map uncapitalise)) = ws.map uncapitalise := by
    -- no word has an underscore, so the text is split where the words were put together
    refine List.splitOn_intercalate '_' (fun v hv hscore => ?_) ?_
    · exact ((hsegments v hv).isPlain hscore).ne_score rfl
    · rintro hnil
      rw [List.map_eq_nil_iff.mp hnil] at hne
      exact hne rfl
  refine ⟨['_'].intercalate (ws.map uncapitalise), ?_, ?_⟩
  · rw [Segments, hwords]
    exact hsegments
  · rw [joinWords_nil_eq, hwords, List.map_map]
    have hsame : ∀ w ∈ ws, (capitalWord ∘ uncapitalise) w = id w := fun w hw =>
      (hcapital w hw).capitalWord_uncapitalise
    rw [List.map_congr_left hsame, List.map_id]

end Text

/-! ### Names -/

namespace Ident

theorem inPascalCase_className (x : Ident) : Text.InPascalCase x.className.toList := by
  rw [toList_className]
  exact Text.inPascalCase_joinWords x.segments

theorem exists_className_eq {s : String} (h : Text.InPascalCase s.toList) :
    ∃ x : Ident, x.className = s := by
  obtain ⟨t, ht, hjoin⟩ := Text.exists_joinWords_eq h
  have hvalid : identDefect? (String.ofList t) = none := by
    rw [identDefect?_eq_none_iff_segments, String.toList_ofList]
    exact ht
  refine ⟨⟨String.ofList t, hvalid⟩, String.toList_injective ?_⟩
  rw [toList_className, String.toList_ofList, hjoin]

/-- A name is read off its camel case. -/
theorem decamelize_camelCase (x : Ident) : decamelize (camelCase x.text) = x.text := by
  obtain ⟨c, t, hclass, hc⟩ := Text.exists_head_joinWords x.segments
  rw [← x.toList_className] at hclass
  have hcamel : (camelCase x.text).toList = c.toLower :: t := by
    rw [camelCase, String.toList_ofList, show (pascalCase x.text).toList = c :: t from hclass,
      Text.uncapitalise_of_isUpper hc]
  have hsmall : c.toLower.toLower = c.toLower :=
    Char.toLower_eq_of_not_isUpper (Char.not_isUpper_of_isLower (Text.isLower_toLower hc))
  -- the first letter is put in lower case once more
  have hback : Text.decamelize (c.toLower :: t) = Text.decamelize (c :: t) := by
    rw [Text.decamelize, Text.decamelize, hsmall]
  rw [decamelize, hcamel, hback, ← hclass]
  exact x.decamelize_className

theorem camelCase_injective : Function.Injective fun x : Ident => camelCase x.text := by
  intro x y h
  apply text_injective
  rw [← decamelize_camelCase x, show camelCase x.text = camelCase y.text from h,
    decamelize_camelCase]

theorem bijOn_className :
    Set.BijOn className Set.univ {s : String | Text.InPascalCase s.toList} := by
  refine ⟨fun x _ => x.inPascalCase_className, className_injective.injOn, fun s hs => ?_⟩
  obtain ⟨x, hx⟩ := exists_className_eq hs
  exact ⟨x, Set.mem_univ x, hx⟩

/-- **Naming is bijective.**  A name is read off its Pascal case and its camel case; a text of words
that begin with capital letters is read as a name, of which it is the Pascal case.  So Pascal case
is a bijection between names and such texts.  No two names have one class name or one member name,
and in a schema, where no object repeats a key, neither have two types, nor two properties of one
type. -/
theorem naming_is_bijective :
    (∀ x : Ident, decamelize (pascalCase x.text) = x.text ∧
      decamelize (camelCase x.text) = x.text) ∧
    (∀ s : String, Text.InPascalCase s.toList →
      identDefect? (decamelize s) = none ∧ pascalCase (decamelize s) = s) ∧
    Set.BijOn (fun x : Ident => pascalCase x.text) Set.univ
      {s : String | Text.InPascalCase s.toList} ∧
    (∀ x y : Ident,
      pascalCase x.text = pascalCase y.text ∨ camelCase x.text = camelCase y.text → x = y) ∧
    ∀ (schema : Json) (doc : Document), schema.Keyed → Document.ofJson schema = .ok doc →
      (doc.types.map fun d => pascalCase d.name.text).Nodup ∧
      (doc.types.map fun d => camelCase d.name.text).Nodup ∧
      ∀ d ∈ doc.types,
        (d.properties.map fun p => pascalCase p.1.text).Nodup ∧
        (d.properties.map fun p => camelCase p.1.text).Nodup := by
  refine ⟨fun x => ⟨x.decamelize_className, x.decamelize_camelCase⟩, fun s hs => ?_,
    bijOn_className, fun x y h => ?_, fun schema doc hkeyed hdoc => ?_⟩
  · obtain ⟨x, rfl⟩ := exists_className_eq hs
    rw [x.decamelize_className]
    exact ⟨x.valid, rfl⟩
  · exact h.elim (fun h => className_injective h) fun h => camelCase_injective h
  · have htypes := Document.nodup_typeNames hkeyed hdoc
    refine ⟨?_, ?_, fun d hd => ?_⟩
    · have hnodup := htypes.map className_injective
      rwa [Document.typeNames, List.map_map] at hnodup
    · have hnodup := htypes.map camelCase_injective
      rwa [Document.typeNames, List.map_map] at hnodup
    · have hproperties := Document.nodup_properties hkeyed hdoc hd
      have hpascal := hproperties.map className_injective
      have hcamel := hproperties.map camelCase_injective
      rw [List.map_map] at hpascal hcamel
      exact ⟨hpascal, hcamel⟩

/-- Words of a single letter, and one with a digit. -/
theorem single_letters_are_words :
    Text.InPascalCase "ABc9D".toList ∧ identDefect? (decamelize "ABc9D") = none ∧
      decamelize "ABc9D" = "a_bc9_d" ∧ pascalCase "a_bc9_d" = "ABc9D" := by
  have hwords : Text.InPascalCase "ABc9D".toList := by
    refine ⟨by decide, [['A'], ['B', 'c', '9'], ['D']], ?_, rfl⟩
    simp [Text.CapitalWord, Text.IsPlain]
  have hname : decamelize "ABc9D" = "a_bc9_d" := by decide
  obtain ⟨hvalid, hback⟩ := naming_is_bijective.2.1 "ABc9D" hwords
  rw [hname] at hback
  exact ⟨hwords, hvalid, hname, hback⟩

end Ident
end ClassSchema
