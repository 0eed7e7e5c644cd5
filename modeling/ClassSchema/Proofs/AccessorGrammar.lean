/-
Which names are for accessors.

* `Text.Group` — a capital letter, or an underscore and a lower-case letter, with lower-case letters
  and digits behind it;
* `Text.Suffix` — such groups one after the other, the first of them with a capital letter;
* `Text.Follows` — what may stand behind the first letter of a suffix, letter by letter;
* `continues_flatMap_iff` — such texts are those that go on with a name once their capital letters
  are put in lower case;
* `Accessor.ofName?_eq_some_iff` — the names that are read are a verb and a suffix;
* `Accessor.read_names_are_verbs_with_suffixes` — and what is read is the name that the suffix
  spells.

Design notes: a suffix is turned into a text with underscores before it is looked at, and a capital
letter and an underscore may both begin a word there.  `Follows` is the grammar of suffixes before
that step, as `Text.Continues` is that of names after it, and the step takes one to the other.
-/
import ClassSchema.Proofs.AccessorName
import ClassSchema.Proofs.PascalCase

namespace ClassSchema

namespace Text

/-! ### Suffixes -/

/-- A capital letter, or an underscore and a lower-case letter, with lower-case letters and digits
behind it. -/
def Group (g : List Char) : Prop := CapitalWord g ∨ ∃ w, Segment w ∧ g = '_' :: w

/-- A word with a capital letter in front, and any number of groups behind it. -/
def Suffix (r : List Char) : Prop :=
  ∃ (w : List Char) (gs : List (List Char)), CapitalWord w ∧ (∀ g ∈ gs, Group g) ∧
    r = w ++ gs.flatten

/-- What may stand behind the first letter of a suffix, letter by letter. -/
inductive Follows : List Char → Prop where
  | nil : Follows []
  | plain {a : Char} {s : List Char} : IsPlain a → Follows s → Follows (a :: s)
  | capital {c : Char} {s : List Char} : c.isUpper = true → Follows s → Follows (c :: s)
  | score {c : Char} {s : List Char} : c.isLower = true → Follows s → Follows ('_' :: c :: s)

theorem Follows.append {s : List Char} (h : Follows s) {w : List Char}
    (hw : ∀ a ∈ w, IsPlain a) : Follows (w ++ s) := by
  induction w with
  | nil => exact h
  | cons a w ih =>
    obtain ⟨ha, hw⟩ := List.forall_mem_cons.mp hw
    exact .plain ha (ih hw)

theorem follows_flatten {gs : List (List Char)} (h : ∀ g ∈ gs, Group g) : Follows gs.flatten := by
  induction gs with
  | nil => exact .nil
  | cons g gs ih =>
    obtain ⟨hg, hgs⟩ := List.forall_mem_cons.mp h
    rw [List.flatten_cons]
    rcases hg with hcapital | ⟨w, hw, rfl⟩
    · rcases g with _ | ⟨c, s⟩
      · exact hcapital.elim
      · exact .capital hcapital.1 ((ih hgs).append hcapital.2)
    · rcases w with _ | ⟨c, s⟩
      · exact hw.elim
      · exact .score hw.1 ((ih hgs).append hw.2)

/-- Letters that follow are some of the first word, and groups behind them. -/
theorem Follows.exists_groups {s : List Char} (h : Follows s) :
    ∃ (w : List Char) (gs : List (List Char)), (∀ a ∈ w, IsPlain a) ∧ (∀ g ∈ gs, Group g) ∧
      s = w ++ gs.flatten := by
  induction h with
  | nil => exact ⟨[], [], by simp, by simp, rfl⟩
  | @plain a s ha _ ih =>
    obtain ⟨w, gs, hw, hgs, rfl⟩ := ih
    exact ⟨a :: w, gs, List.forall_mem_cons.mpr ⟨ha, hw⟩, hgs, rfl⟩
  | @capital c s hc _ ih =>
    obtain ⟨w, gs, hw, hgs, rfl⟩ := ih
    exact ⟨[], (c :: w) :: gs, by simp, List.forall_mem_cons.mpr ⟨Or.inl ⟨hc, hw⟩, hgs⟩, rfl⟩
  | @score c s hc _ ih =>
    obtain ⟨w, gs, hw, hgs, rfl⟩ := ih
    have hgroup : Group ('_' :: c :: w) := Or.inr ⟨c :: w, ⟨hc, hw⟩, rfl⟩
    exact ⟨[], ('_' :: c :: w) :: gs, by simp, List.forall_mem_cons.mpr ⟨hgroup, hgs⟩, rfl⟩

theorem suffix_cons_iff {c : Char} {s : List Char} :
    Suffix (c :: s) ↔ c.isUpper = true ∧ Follows s := by
  constructor
  · rintro ⟨w, gs, hw, hgs, hr⟩
    rcases w with _ | ⟨a, t⟩
    · exact hw.elim
    · obtain ⟨rfl, rfl⟩ := List.cons.inj hr
      exact ⟨hw.1, (follows_flatten hgs).append hw.2⟩
  · rintro ⟨hc, hs⟩
    obtain ⟨w, gs, hw, hgs, rfl⟩ := hs.exists_groups
    exact ⟨c :: w, gs, ⟨hc, hw⟩, hgs, rfl⟩

/-! ### Suffixes and names -/

theorem openWord_of_isUpper {c : Char} (h : c.isUpper = true) : openWord c = ['_', c.toLower] := by
  rw [openWord, if_pos h]

theorem openWord_of_isPlain {c : Char} (h : IsPlain c) : openWord c = [c] := by
  rw [openWord, h.isUpper_eq_false]
  rfl

theorem Follows.continues {s : List Char} (h : Follows s) : Continues (s.flatMap openWord) := by
  induction h with
  | nil => exact continues_nil
  | plain ha _ ih =>
    rw [List.flatMap_cons, openWord_of_isPlain ha]
    exact (continues_cons_iff ha.ne_score).mpr ⟨ha, ih⟩
  | capital hc _ ih =>
    rw [List.flatMap_cons, openWord_of_isUpper hc]
    exact continues_score_iff.mpr (segments_cons_iff.mpr ⟨isLower_toLower hc, ih⟩)
  | @score c s hc _ ih =>
    rw [List.flatMap_cons, List.flatMap_cons, openWord_of_isPlain (Or.inl hc)]
    exact continues_score_iff.mpr (segments_cons_iff.mpr ⟨hc, ih⟩)

/-- Behind an underscore only a lower-case letter will do: another underscore, or the one that a
capital letter brings, would leave a word empty. -/
theorem exists_lower_of_segments {s : List Char} (h : Segments (s.flatMap openWord)) :
    ∃ c t, s = c :: t ∧ c.isLower = true ∧ Continues (t.flatMap openWord) := by
  rcases s with _ | ⟨c, t⟩
  · exact absurd h not_segments_nil
  · by_cases hc : c.isUpper = true
    · rw [List.flatMap_cons, openWord_of_isUpper hc] at h
      exact absurd (segments_cons_iff.mp h).1 (by decide)
    · rw [List.flatMap_cons, openWord, if_neg hc] at h
      obtain ⟨hlower, hrest⟩ := segments_cons_iff.mp h
      exact ⟨c, t, rfl, hlower, hrest⟩

theorem follows_of_continues : ∀ s : List Char, Continues (s.flatMap openWord) → Follows s
  | [], _ => .nil
  | c :: s, h => by
    by_cases hc : c.isUpper = true
    · rw [List.flatMap_cons, openWord_of_isUpper hc] at h
      have hsegments := continues_score_iff.mp h
      exact .capital hc (follows_of_continues s (segments_cons_iff.mp hsegments).2)
    · rw [List.flatMap_cons, openWord, if_neg hc] at h
      by_cases hscore : c = '_'
      · subst hscore
        obtain ⟨d, t, rfl, hlower, hrest⟩ := exists_lower_of_segments (continues_score_iff.mp h)
        exact .score hlower (follows_of_continues t hrest)
      · obtain ⟨hplain, hrest⟩ := (continues_cons_iff hscore).mp h
        exact .plain hplain (follows_of_continues s hrest)
termination_by s => s.length

theorem continues_flatMap_iff {s : List Char} : Continues (s.flatMap openWord) ↔ Follows s :=
  ⟨follows_of_continues s, Follows.continues⟩

end Text

/-- A text that begins with a capital letter spells a name exactly if it is a suffix. -/
theorem identDefect?_decamelize {c : Char} (hc : c.isUpper = true) (s : List Char) :
    identDefect? (decamelize (String.ofList (c :: s))) = none ↔ Text.Suffix (c :: s) := by
  rw [identDefect?_eq_none_iff_segments, decamelize, String.toList_ofList, String.toList_ofList]
  rw [show Text.decamelize (c :: s) = c.toLower :: s.flatMap Text.openWord from rfl]
  rw [Text.segments_cons_iff, Text.continues_flatMap_iff, Text.suffix_cons_iff]
  simp only [Text.isLower_toLower hc, hc]

namespace Accessor

/-! ### Names that are read -/

theorem suffix?_eq_some_iff {v : Verb} {name suffix : String} :
    suffix? v name = some suffix ↔
      ∃ c s, name.toList = v.word.toList ++ c :: s ∧ c.isUpper = true ∧
        suffix = String.ofList (c :: s) := by
  unfold suffix?
  rcases hrest : v.word.toList.isPrefixOf? name.toList with _ | rest
  · refine iff_of_false (by simp) ?_
    rintro ⟨c, s, hname, -⟩
    have hsome := List.isPrefixOf?_eq_some_iff_append_eq.mpr hname.symm
    cases hrest.symm.trans hsome
  · have hname := List.isPrefixOf?_eq_some_iff_append_eq.mp hrest
    rcases rest with _ | ⟨c, s⟩
    · refine iff_of_false (by simp) ?_
      rintro ⟨c, s, hcons, -⟩
      exact absurd (List.append_cancel_left (hname.trans hcons)) (by simp)
    · constructor
      · intro h
        dsimp only at h
        by_cases hc : c.isUpper = true
        · rw [if_pos hc] at h
          exact ⟨c, s, hname.symm, hc, (Option.some.inj h).symm⟩
        · rw [if_neg hc] at h
          cases h
      · rintro ⟨c', s', hcons, hc, rfl⟩
        obtain ⟨rfl, rfl⟩ := List.cons.inj (List.append_cancel_left (hname.trans hcons))
        exact if_pos hc

theorem ofText?_eq_some_iff {s : String} {x : Ident} : Ident.ofText? s = some x ↔ x.text = s := by
  constructor
  · intro h
    unfold Ident.ofText? at h
    rcases hparse : Ident.parse s with e | y
    · rw [hparse] at h
      cases h
    · rw [hparse] at h
      obtain rfl := Option.some.inj h
      exact Ident.parse_eq_ok_iff.mp hparse
  · rintro rfl
    exact ofText?_text x

theorem ofNameBy?_eq_some_iff {v : Verb} {name : String} {a : Accessor} :
    ofNameBy? v name = some a ↔
      a.verb = v ∧ ∃ c s, name.toList = v.word.toList ++ c :: s ∧ Text.Suffix (c :: s) ∧
        a.target = String.ofList (c.toLower :: s.flatMap Text.openWord) := by
  simp only [ofNameBy?, Option.bind_eq_bind, Option.bind_eq_some_iff, suffix?_eq_some_iff,
    ofText?_eq_some_iff]
  constructor
  · rintro ⟨suffix, ⟨c, s, hname, hc, rfl⟩, x, hx, ha⟩
    obtain rfl := Option.some.inj ha
    refine ⟨rfl, c, s, hname, ?_, ?_⟩
    · rw [← identDefect?_decamelize hc, ← hx]
      exact x.valid
    · rw [hx, decamelize, String.toList_ofList]
      rfl
  · rintro ⟨rfl, c, s, hname, hsuffix, htarget⟩
    have hc := (Text.suffix_cons_iff.mp hsuffix).1
    have hvalid := (identDefect?_decamelize hc s).mpr hsuffix
    have hback : decamelize (String.ofList (c :: s)) = a.target := by
      rw [decamelize, String.toList_ofList, htarget]
      rfl
    refine ⟨_, ⟨c, s, hname, hc, rfl⟩, ⟨_, hvalid⟩, rfl, ?_⟩
    exact congrArg (fun target => some (Accessor.mk a.verb target)) hback

/-- No name begins with two verbs. -/
theorem ofNameBy?_eq_none {v w : Verb} (h : w ≠ v) {name : String} {s : List Char}
    (hname : name.toList = v.word.toList ++ s) : ofNameBy? w name = none := by
  rw [ofNameBy?, suffix?, hname, isPrefixOf?_word h]
  rfl

theorem ofName?_eq_some_iff {name : String} {a : Accessor} :
    ofName? name = some a ↔
      a.verb ≠ .append ∧ ∃ c s, name.toList = a.verb.word.toList ++ c :: s ∧
        Text.Suffix (c :: s) ∧ a.target = String.ofList (c.toLower :: s.flatMap Text.openWord) := by
  constructor
  · intro h
    obtain ⟨v, hv, h⟩ := List.exists_of_findSome?_eq_some h
    obtain ⟨rfl, hsuffix⟩ := ofNameBy?_eq_some_iff.mp h
    refine ⟨?_, hsuffix⟩
    rintro hverb
    rw [hverb] at hv
    exact absurd hv (by decide)
  · rintro ⟨hverb, c, s, hname, hsuffix⟩
    have hfound : ofNameBy? a.verb name = some a :=
      ofNameBy?_eq_some_iff.mpr ⟨rfl, c, s, hname, hsuffix⟩
    have hothers : ∀ w, w ≠ a.verb → ofNameBy? w name = none := fun w hw =>
      ofNameBy?_eq_none hw hname
    -- verbs are tried one after the other, and only that of the name takes anything off it
    rw [ofName?, List.findSome?_cons, List.findSome?_cons, List.findSome?_cons]
    obtain ⟨v, target⟩ := a
    cases v with
    | get => rw [hfound]
    | set => rw [hothers .get Verb.noConfusion, hfound]
    | add => rw [hothers .get Verb.noConfusion, hothers .set Verb.noConfusion, hfound]
    | append => exact absurd rfl hverb

/-- **Which names are read, and as what.**  A name is for an accessor exactly if it is `get`, `set`
or `add` and a suffix: a capital letter with lower-case letters and digits behind it, and then any
number of groups that begin with a capital letter, or with an underscore and a lower-case letter.
The accessor has that verb, and applies to the name that the suffix spells: its first letter in
lower case, and every later capital letter in lower case behind an underscore. -/
theorem read_names_are_verbs_with_suffixes (name : String) :
    ((∃ a, ofName? name = some a) ↔
      ∃ word ∈ ["get", "set", "add"], ∃ r : String, name = word ++ r ∧ Text.Suffix r.toList) ∧
    (∀ a, ofName? name = some a ↔
      a.verb ≠ .append ∧ ∃ c s, name.toList = a.verb.word.toList ++ c :: s ∧
        Text.Suffix (c :: s) ∧ a.target = String.ofList (c.toLower :: s.flatMap Text.openWord)) ∧
    ∀ a, ofName? name = some a → identDefect? a.target = none := by
  refine ⟨?_, fun a => ofName?_eq_some_iff, fun a ha => ?_⟩
  · constructor
    · rintro ⟨⟨v, target⟩, ha⟩
      obtain ⟨hverb, c, s, hname, hsuffix, -⟩ := ofName?_eq_some_iff.mp ha
      refine ⟨v.word, ?_, String.ofList (c :: s), ?_, by rwa [String.toList_ofList]⟩
      · cases v with
        | append => exact absurd rfl hverb
        | _ => decide
      · apply String.toList_injective
        rw [hname, String.toList_append, String.toList_ofList]
    · rintro ⟨word, hword, r, rfl, hsuffix⟩
      obtain ⟨v, hv, rfl⟩ : ∃ v : Verb, v ≠ .append ∧ v.word = word := by
        simp only [List.mem_cons, List.not_mem_nil, or_false] at hword
        rcases hword with rfl | rfl | rfl
        · exact ⟨.get, by decide, rfl⟩
        · exact ⟨.set, by decide, rfl⟩
        · exact ⟨.add, by decide, rfl⟩
      rcases hr : r.toList with _ | ⟨c, s⟩
      · rw [hr] at hsuffix
        obtain ⟨w, gs, hw, -, hnil⟩ := hsuffix
        rw [(List.append_eq_nil_iff.mp hnil.symm).1] at hw
        exact hw.elim
      · refine ⟨⟨v, _⟩, ofName?_eq_some_iff.mpr ⟨hv, c, s, ?_, hr ▸ hsuffix, rfl⟩⟩
        rw [String.toList_append, hr]
  · obtain ⟨-, c, s, -, hsuffix, htarget⟩ := ofName?_eq_some_iff.mp ha
    have hc := (Text.suffix_cons_iff.mp hsuffix).1
    have hvalid := (identDefect?_decamelize hc s).mpr hsuffix
    rw [decamelize, String.toList_ofList] at hvalid
    rw [htarget]
    exact hvalid

/-- An underscore of its own, and a digit behind a capital letter. -/
theorem reads_word_behind_underscore :
    Text.Suffix "A1_bcD".toList ∧ ofName? "setA1_bcD" = some ⟨.set, "a1_bc_d"⟩ ∧
      identDefect? "a1_bc_d" = none := by
  have hsuffix : Text.Suffix "A1_bcD".toList := by
    refine ⟨['A', '1'], [['_', 'b', 'c'], ['D']], by simp [Text.CapitalWord, Text.IsPlain], ?_, rfl⟩
    simp [Text.Group, Text.CapitalWord, Text.Segment, Text.IsPlain]
  obtain ⟨-, hread, hvalid⟩ := read_names_are_verbs_with_suffixes "setA1_bcD"
  have hname := (hread ⟨.set, "a1_bc_d"⟩).mpr ⟨by decide, 'A', _, rfl, hsuffix, by decide⟩
  exact ⟨hsuffix, hname, hvalid _ hname⟩

end Accessor
end ClassSchema
