/-
Types of slots as JSON trees, and back.

* `Json.Tagged` — a tree says which sort of type it is, and holds what there is to say about it;
* `Json.Spells` — the types that trees spell;
* `SlotType.spells_of_read?` — a tree is read as a type that it spells, in its place or kept;
* `SlotType.ofJson?_eq_some_iff` — once kept, it is read as the type that it spells, and as no
  other;
* `SlotType.ofTree?_toJson` — what a type is written as is read in its place;
* `Raw.Outermost`, `Raw.Means` — what is written beside what it means, a tree by its outermost form
  and members one by one;
* `SlotType.ofRaw?_eq_ofTree?` — a text is read as the tree that it means is read in its place;
* `written_types_are_read_back` — what a type is written as is read as that type, in every way.

Design notes: the writer puts every type in one form, and the readers take many.  So what is spelled
is described for all trees first, with one case for each sort of type.  A tree that is read in its
place is taken less often than one that was kept, but never as anything else.
-/
import ClassSchema.Proofs.AccessorGrammar
import ClassSchema.Proofs.References
import ClassSchema.Proofs.TypeToken
import ClassSchema.SlotType.Reading

namespace ClassSchema

/-! ### What trees spell -/

namespace Json

open SlotType (Shape)

/-- The tree gives a sort of type and what it holds: as the two items of an array, or as members of
an object that both stand there once, whatever else stands beside them. -/
inductive Tagged : Json → Shape → Json → Prop where
  | items {first content : Json} {shape : Shape} : Shape.ofFirst? first = some shape →
      Tagged (arr [first, content]) shape content
  | members {members : List (String × Json)} {kind content : Json} {word : String}
      {shape : Shape} : Entries.only? "kind" members = some kind → kind.word? = some word →
      Shape.ofWord? word = some shape → Entries.only? "of" members = some content →
      Tagged (obj members) shape content

/-- The tree gives the name and the qualified name of a declared type. -/
inductive SpellsRef : Json → ClassRef → Prop where
  | items (r : ClassRef) : SpellsRef (arr [str r.name.text, str r.qualified]) r
  | members {members : List (String × Json)} {r : ClassRef} :
      Entries.only? "name" members = some (str r.name.text) →
      Entries.only? "qualified" members = some (str r.qualified) → SpellsRef (obj members) r

/-- The type that the tree spells. -/
inductive Spells : Json → SlotType → Prop where
  | primitive {j content : Json} {p : Primitive} : Tagged j .primitive content →
      content.word? = some p.spelling → Spells j (.primitive p)
  | arrayOf {j content : Json} {t : SlotType} : Tagged j .arrayOf content → Spells content t →
      Spells j (.arrayOf t)
  | reference {j content : Json} {r : ClassRef} : Tagged j .reference content →
      SpellsRef content r → Spells j (.reference r)

/-- The tree gives a declared type that name, itself or behind any number of arrays. -/
inductive Names : Json → String → Prop where
  | items {j qualified : Json} {s : String} : Tagged j .reference (arr [str s, qualified]) →
      Names j s
  | members {j : Json} {members : List (String × Json)} {s : String} :
      Tagged j .reference (obj members) → Entries.only? "name" members = some (str s) → Names j s
  | arrayOf {j content : Json} {s : String} : Tagged j .arrayOf content → Names content s →
      Names j s

/-- A tree gives one sort of type, and holds one tree for it. -/
theorem Tagged.unique {j content content' : Json} {shape shape' : Shape}
    (h : j.Tagged shape content) (h' : j.Tagged shape' content') :
    shape = shape' ∧ content = content' := by
  cases h with
  | items hshape =>
    cases h' with
    | items hshape' => exact ⟨Option.some.inj (hshape.symm.trans hshape'), rfl⟩
  | members hkind hword hshape hcontent =>
    cases h' with
    | members hkind' hword' hshape' hcontent' =>
      obtain rfl := Option.some.inj (hkind.symm.trans hkind')
      obtain rfl := Option.some.inj (hword.symm.trans hword')
      exact ⟨Option.some.inj (hshape.symm.trans hshape'),
        Option.some.inj (hcontent.symm.trans hcontent')⟩

/-- The names that a tree gives are those of the declared types in what it spells. -/
theorem Spells.names_iff {j : Json} {t : SlotType} (h : j.Spells t) {s : String} :
    j.Names s ↔ ∃ r, t.Refers r ∧ r.name.text = s := by
  induction h with
  | primitive htagged _ =>
    constructor
    · intro hs
      -- each way to give a name asks for another sort of type
      cases hs with
      | items hother => cases (htagged.unique hother).1
      | members hother _ => cases (htagged.unique hother).1
      | arrayOf hother _ => cases (htagged.unique hother).1
    · rintro ⟨r, hr, -⟩
      cases hr
  | arrayOf htagged _ ih =>
    constructor
    · intro hs
      cases hs with
      | items hother => cases (htagged.unique hother).1
      | members hother _ => cases (htagged.unique hother).1
      | arrayOf hother hs =>
        obtain ⟨-, rfl⟩ := htagged.unique hother
        obtain ⟨r, hr, hname⟩ := ih.mp hs
        exact ⟨r, .arrayOf hr, hname⟩
    · rintro ⟨r, hr, hname⟩
      cases hr with
      | arrayOf hr => exact .arrayOf htagged (ih.mpr ⟨r, hr, hname⟩)
  | @reference j content r htagged hspells =>
    constructor
    · intro hs
      refine ⟨r, .reference r, ?_⟩
      cases hs with
      | items hother =>
        obtain ⟨-, rfl⟩ := htagged.unique hother
        cases hspells with
        | items => rfl
      | members hother hname =>
        obtain ⟨-, rfl⟩ := htagged.unique hother
        cases hspells with
        | members hname' _ =>
          cases hname.symm.trans hname'
          rfl
      | arrayOf hother _ => cases (htagged.unique hother).1
    · rintro ⟨r', hr, rfl⟩
      cases hr with
      | reference =>
        cases hspells with
        | items => exact .items htagged
        | members hname _ => exact .members htagged hname

theorem text?_eq_some_iff {j : Json} {s : String} : j.text? = some s ↔ j = str s := by
  cases j with
  | str s' => simp [text?]
  | _ => simp [text?]

end Json

theorem ClassRef.ofParts?_eq_some_iff {name qualified : Json} {r : ClassRef} :
    ofParts? name qualified = some r ↔ name = .str r.name.text ∧ qualified = .str r.qualified := by
  simp only [ofParts?, Option.bind_eq_bind, Option.bind_eq_some_iff, Json.text?_eq_some_iff,
    Accessor.ofText?_eq_some_iff]
  constructor
  · rintro ⟨_, rfl, x, rfl, q, rfl, hr⟩
    obtain rfl := Option.some.inj hr
    exact ⟨rfl, rfl⟩
  · rintro ⟨rfl, rfl⟩
    exact ⟨_, rfl, _, rfl, _, rfl, rfl⟩

theorem ClassRef.ofJson?_eq_some_iff {j : Json} {r : ClassRef} :
    ofJson? j = some r ↔ j.SpellsRef r := by
  constructor
  · intro h
    unfold ofJson? at h
    split at h
    · obtain ⟨rfl, rfl⟩ := ofParts?_eq_some_iff.mp h
      exact .items r
    · obtain ⟨name, hname, h⟩ := Option.bind_eq_some_iff.mp h
      obtain ⟨qualified, hqualified, h⟩ := Option.bind_eq_some_iff.mp h
      obtain ⟨rfl, rfl⟩ := ofParts?_eq_some_iff.mp h
      exact .members hname hqualified
    · cases h
  · intro h
    cases h with
    | items => exact ofParts?_eq_some_iff.mpr ⟨rfl, rfl⟩
    | members hname hqualified =>
      simp only [ofJson?, Option.bind_eq_bind, hname, hqualified, Option.bind_some]
      exact ofParts?_eq_some_iff.mpr ⟨rfl, rfl⟩

namespace SlotType

/-! ### Reading a tree -/

section Reading

variable {how : Manner}

/-- A word in its place is one where it is kept. -/
theorem Manner.word?_kept {j : Json} {word : String} (h : how.word? j = some word) :
    j.word? = some word := by
  cases how with
  | kept => exact h
  | inPlace =>
    have hplain : j.plainWord? = some word := h
    unfold Json.plainWord? at hplain
    split at hplain
    · exact hplain
    · exact hplain
    · cases hplain

theorem Manner.first?_kept {j : Json} {shape : Shape} (h : how.first? j = some shape) :
    Shape.ofFirst? j = some shape := by
  cases how with
  | kept => exact h
  | inPlace =>
    obtain ⟨word, hword, hshape⟩ := Option.bind_eq_some_iff.mp h
    obtain rfl := Json.text?_eq_some_iff.mp hword
    exact hshape

/-- What the reader takes from the members is what the member named `of` is read as. -/
theorem readMembers?_of_only? {members : List (String × Json)} {content : Json}
    (h : Entries.only? "of" members = some content) :
    readMembers? how members = read? how content := by
  induction members with
  | nil => cases h
  | cons e rest ih =>
    rw [readMembers?]
    unfold Entries.only? at h
    by_cases he : e.1 = "of"
    · rw [if_pos he] at h ⊢
      split at h
      · cases h
      · rw [Option.some.inj h]
    · rw [if_neg he] at h ⊢
      exact ih h

/-- A tree is read by what it holds, as its sort of type asks for. -/
theorem exists_tagged_of_read? {j : Json} {t : SlotType} (h : read? how j = some t) :
    ∃ shape content how', j.Tagged shape content ∧
      ofContent? how' content (read? how' content) shape = some t := by
  cases j with
  | arr items =>
    rw [read?] at h
    rcases items with _ | ⟨first, rest⟩
    · rw [readItems?] at h
      cases h
    · rw [readItems?] at h
      obtain ⟨shape, hshape, h⟩ := Option.bind_eq_some_iff.mp h
      rcases rest with _ | ⟨content, _ | ⟨extra, rest⟩⟩
      · rw [readLast?] at h
        cases h
      · rw [readLast?] at h
        exact ⟨shape, content, how, .items (Manner.first?_kept hshape), h⟩
      · rw [readLast?] at h
        cases h
  | obj members =>
    rw [read?] at h
    obtain ⟨kind, hkind, h⟩ := Option.bind_eq_some_iff.mp h
    obtain ⟨shape, hshape, h⟩ := Option.bind_eq_some_iff.mp h
    obtain ⟨word, hword, hshape⟩ := Option.bind_eq_some_iff.mp hshape
    obtain ⟨content, hcontent, h⟩ := Option.bind_eq_some_iff.mp h
    dsimp only at h
    rw [readMembers?_of_only? hcontent] at h
    exact ⟨shape, content, how.within members,
      .members hkind (Manner.word?_kept hword) hshape hcontent, h⟩
  | _ => simp [read?] at h

theorem ofContent?_eq_some_iff {content : Json} {whole : Option SlotType} {shape : Shape}
    {t : SlotType} : ofContent? how content whole shape = some t ↔
      (shape = .primitive ∧ ∃ p, how.word? content = some p.spelling ∧ t = .primitive p) ∨
      (shape = .arrayOf ∧ ∃ u, whole = some u ∧ t = .arrayOf u) ∨
      (shape = .reference ∧ ∃ r, content.SpellsRef r ∧ t = .reference r) := by
  cases shape with
  | primitive =>
    simp only [ofContent?, Option.map_eq_some_iff, Option.bind_eq_some_iff,
      Primitive.ofSpelling?_eq_some_iff]
    constructor
    · rintro ⟨p, ⟨word, hword, rfl⟩, rfl⟩
      exact Or.inl ⟨trivial, p, hword, rfl⟩
    · rintro (⟨-, p, hword, rfl⟩ | ⟨⟨⟩, -⟩ | ⟨⟨⟩, -⟩)
      exact ⟨p, ⟨p.spelling, hword, rfl⟩, rfl⟩
  | arrayOf => simp [ofContent?, @eq_comm _ t]
  | reference => simp [ofContent?, ClassRef.ofJson?_eq_some_iff, @eq_comm _ t]

/-- A tree is read as a type that it spells. -/
theorem spells_of_read? {j : Json} {t : SlotType} (h : read? how j = some t) : j.Spells t := by
  -- by induction on the type, which gets smaller where the reader goes down
  induction t generalizing how j with
  | primitive p =>
    obtain ⟨shape, content, how', htagged, h⟩ := exists_tagged_of_read? h
    obtain ⟨rfl, _, hword, ⟨⟩⟩ | ⟨-, _, -, ⟨⟩⟩ | ⟨-, _, -, ⟨⟩⟩ := ofContent?_eq_some_iff.mp h
    exact .primitive htagged (Manner.word?_kept hword)
  | arrayOf t ih =>
    obtain ⟨shape, content, how', htagged, h⟩ := exists_tagged_of_read? h
    obtain ⟨-, _, -, ⟨⟩⟩ | ⟨rfl, _, ht, ⟨⟩⟩ | ⟨-, _, -, ⟨⟩⟩ := ofContent?_eq_some_iff.mp h
    exact .arrayOf htagged (ih ht)
  | reference r =>
    obtain ⟨shape, content, how', htagged, h⟩ := exists_tagged_of_read? h
    obtain ⟨-, _, -, ⟨⟩⟩ | ⟨-, _, -, ⟨⟩⟩ | ⟨rfl, _, hr, ⟨⟩⟩ := ofContent?_eq_some_iff.mp h
    exact .reference htagged hr

end Reading

/-- What a tree that was kept gives is all that is looked at. -/
theorem ofJson?_of_tagged {j content : Json} {shape : Shape} {t : SlotType}
    (htagged : j.Tagged shape content)
    (h : ofContent? .kept content (ofJson? content) shape = some t) : ofJson? j = some t := by
  cases htagged with
  | items hshape =>
    rw [ofJson?, read?, readItems?, Manner.first?, hshape, Option.bind_some, readLast?]
    exact h
  | members hkind hword hshape hcontent =>
    rw [ofJson?, read?]
    simp only [Option.bind_eq_bind, hkind, hcontent, Option.bind_some, Manner.word?, hword, hshape,
      Manner.within, readMembers?_of_only? hcontent]
    exact h

/-- **A tree that was kept is read as the type that it spells, and as no other.** -/
theorem ofJson?_eq_some_iff {j : Json} {t : SlotType} : ofJson? j = some t ↔ j.Spells t := by
  refine ⟨spells_of_read?, fun h => ?_⟩
  induction h with
  | @primitive j content p htagged hword =>
    exact ofJson?_of_tagged htagged (ofContent?_eq_some_iff.mpr (Or.inl ⟨rfl, p, hword, rfl⟩))
  | @arrayOf j content t htagged _ ih =>
    exact ofJson?_of_tagged htagged
      (ofContent?_eq_some_iff.mpr (Or.inr (Or.inl ⟨rfl, t, ih, rfl⟩)))
  | @reference j content r htagged hr =>
    exact ofJson?_of_tagged htagged
      (ofContent?_eq_some_iff.mpr (Or.inr (Or.inr ⟨rfl, r, hr, rfl⟩)))

/-- What is read in its place is read as the same where it is kept. -/
theorem ofJson?_of_ofTree? {j : Json} {t : SlotType} (h : ofTree? j = some t) :
    ofJson? j = some t := ofJson?_eq_some_iff.mpr (spells_of_read? h)

example : ofJson? (.arr [.num (.int 0), .str "int"]) = some (.primitive .int) ∧
    ofTree? (.arr [.num (.int 0), .str "int"]) = none := ⟨rfl, rfl⟩

/-- What a type is written as is read in its place as that type. -/
theorem ofTree?_toJson (t : SlotType) : ofTree? t.toJson = some t := by
  induction t with
  | primitive p => cases p <;> rfl
  | arrayOf t ih =>
    -- the writer puts `kind` first, so the elements are read where they stand
    show (ofTree? t.toJson).map arrayOf = some (.arrayOf t)
    rw [ih]
    rfl
  | reference r =>
    show (ClassRef.ofParts? (.str r.name.text) (.str r.qualified)).map reference =
      some (.reference r)
    rw [ClassRef.ofParts?_eq_some_iff.mpr ⟨rfl, rfl⟩]
    rfl

theorem ofJson?_toJson (t : SlotType) : ofJson? t.toJson = some t :=
  ofJson?_of_ofTree? t.ofTree?_toJson

theorem toJson_injective : Function.Injective toJson := by
  intro t u h
  have ht := ofTree?_toJson t
  rw [h, ofTree?_toJson u] at ht
  exact (Option.some.inj ht).symm

end SlotType

/-! ### Texts and what they mean -/

namespace Json.Raw

/-- What a tree that is written means, by its outermost form. -/
inductive Outermost : Nat → Raw → Json → Prop where
  | null {depth : Nat} : Outermost depth null .null
  | bool {depth : Nat} (b : Bool) : Outermost depth (bool b) (.bool b)
  | num {depth : Nat} (literal : Literal) (n : Number) : Outermost depth (num literal) (.num n)
  | str {depth : Nat} (s : String) : Outermost depth (str (some s)) (.str s)
  | arr {depth : Nat} {items : List Raw} {js : List Json} :
      List.Forall₂ (fun r j => r.value? depth = some j) items js →
      Outermost (depth + 1) (arr items) (.arr js)
  | obj {depth : Nat} {written : List (Option String × Raw)} {members : List (String × Json)} :
      memberValues? depth written = some members →
      Outermost (depth + 1) (obj written) (.obj members)

variable {depth : Nat} {r : Raw} {j : Json}

theorem forall₂_of_itemValues? {items : List Raw} {js : List Json}
    (h : itemValues? depth items = some js) :
    List.Forall₂ (fun r j => r.value? depth = some j) items js := by
  induction items generalizing js with
  | nil =>
    obtain rfl := Option.some.inj h
    exact .nil
  | cons r rest ih =>
    obtain ⟨j, hj, h⟩ := Option.bind_eq_some_iff.mp h
    obtain ⟨js', hrest, h⟩ := Option.bind_eq_some_iff.mp h
    obtain rfl := Option.some.inj h
    exact .cons hj (ih hrest)

theorem outermost_of_value? (h : r.value? depth = some j) : Outermost depth r j := by
  cases r with
  | null =>
    obtain rfl := Option.some.inj h
    exact .null
  | bool b =>
    obtain rfl := Option.some.inj h
    exact .bool b
  | num literal =>
    rw [value?] at h
    obtain ⟨n, -, rfl⟩ := Option.map_eq_some_iff.mp h
    exact .num literal n
  | str s =>
    rw [value?] at h
    obtain ⟨s, rfl, rfl⟩ := Option.map_eq_some_iff.mp h
    exact .str s
  | arr items =>
    obtain _ | depth := depth
    · cases h
    · rw [value?] at h
      obtain ⟨js, hjs, rfl⟩ := Option.map_eq_some_iff.mp h
      exact .arr (forall₂_of_itemValues? hjs)
  | obj written =>
    obtain _ | depth := depth
    · cases h
    · rw [value?] at h
      obtain ⟨members, hmembers, rfl⟩ := Option.map_eq_some_iff.mp h
      exact .obj hmembers

theorem text?_of_value? (h : r.value? depth = some j) : r.text? = j.text? := by
  cases outermost_of_value? h with
  | _ => rfl

theorem eq_null_of_value? (h : r.value? depth = some .null) : r = null := by
  cases outermost_of_value? h with
  | null => rfl

theorem memberValues?_cons_eq_some_iff {e : Option String × Raw}
    {rest : List (Option String × Raw)} {members : List (String × Json)} :
    memberValues? depth (e :: rest) = some members ↔
      ∃ key j members', e.1 = some key ∧ e.2.value? depth = some j ∧
        memberValues? depth rest = some members' ∧ members = (key, j) :: members' := by
  rw [memberValues?]
  simp only [Option.bind_eq_bind, Option.bind_eq_some_iff]
  constructor
  · rintro ⟨key, hkey, j, hj, members', hrest, h⟩
    exact ⟨key, j, members', hkey, hj, hrest, (Option.some.inj h).symm⟩
  · rintro ⟨key, j, members', hkey, hj, hrest, rfl⟩
    exact ⟨key, hkey, j, hj, members', hrest, rfl⟩

/-- A word in a text is the word that the tree has in that place. -/
theorem word?_of_value? (h : r.value? depth = some j) : r.word? depth = j.plainWord? := by
  cases outermost_of_value? h with
  | null | bool | num | str | arr => rfl
  | @obj d written members hmembers =>
    rcases written with _ | ⟨⟨key, r⟩, _ | ⟨e, rest⟩⟩
    · obtain rfl := Option.some.inj hmembers
      rfl
    · obtain ⟨key, a, rest, rfl, ha, hrest, rfl⟩ := memberValues?_cons_eq_some_iff.mp hmembers
      obtain rfl := Option.some.inj hrest
      by_cases hnull : a = .null
      · subst hnull
        obtain rfl := eq_null_of_value? ha
        rfl
      · have hwritten : r ≠ null := by
          rintro rfl
          exact hnull (Option.some.inj ha).symm
        simp [word?, plainWord?, hnull, hwritten]
    · obtain ⟨key, a, rest, -, -, hrest, rfl⟩ := memberValues?_cons_eq_some_iff.mp hmembers
      obtain ⟨key', a', rest, -, -, -, rfl⟩ := memberValues?_cons_eq_some_iff.mp hrest
      simp [word?, plainWord?]

/-- The members as they are written, beside what they mean. -/
def Means (depth : Nat) (written : List (String × Raw)) (members : List (String × Json)) : Prop :=
  List.Forall₂ (fun e e' => e.1 = e'.1 ∧ e.2.value? depth = some e'.2) written members

theorem exists_keyed {written : List (Option String × Raw)} {members : List (String × Json)}
    (h : memberValues? depth written = some members) :
    ∃ keyed, keyed? written = some keyed ∧ Means depth keyed members := by
  induction written generalizing members with
  | nil =>
    rw [memberValues?] at h
    obtain rfl := Option.some.inj h
    exact ⟨[], rfl, .nil⟩
  | cons e rest ih =>
    obtain ⟨key, j, members', hkey, hj, hrest, rfl⟩ := memberValues?_cons_eq_some_iff.mp h
    obtain ⟨keyed, hkeyed, hmeans⟩ := ih hrest
    refine ⟨(key, e.2) :: keyed, ?_, .cons ⟨rfl, hj⟩ hmeans⟩
    unfold keyed? at hkeyed ⊢
    rw [List.mapM_cons, hkeyed]
    show (e.1.map fun key => (key, e.2)).bind _ = _
    rw [hkey]
    rfl

namespace Means

variable {written : List (String × Raw)} {members : List (String × Json)}

theorem keys_eq (h : Means depth written members) :
    Entries.keys written = Entries.keys members := by
  induction h with
  | nil => rfl
  | cons he _ ih => exact congrArg₂ List.cons he.1 ih

theorem isSome_get? (h : Means depth written members) (key : String) :
    (Entries.get? key written).isSome = (Entries.get? key members).isSome := by
  rw [Bool.eq_iff_iff]
  show Entries.contains key written = true ↔ Entries.contains key members = true
  rw [Entries.contains_iff, Entries.contains_iff, h.keys_eq]

/-- What stands at a key once means what stands there in the tree that is meant. -/
theorem only? (h : Means depth written members) (key : String) :
    Option.Rel (fun r j => r.value? depth = some j) (Entries.only? key written)
      (Entries.only? key members) := by
  induction h with
  | nil => exact .none
  | @cons e e' rest rest' he hrest ih =>
    unfold Entries.only?
    rw [← he.1, ← isSome_get? hrest key]
    by_cases hkey : e.1 = key
    · -- the key may not come again, in neither of the lists
      rw [if_pos hkey, if_pos hkey]
      split
      · exact .none
      · exact .some he.2
    · rw [if_neg hkey, if_neg hkey]
      exact ih

end Means
end Json.Raw

open Json (Raw)

/-! ### Reading a text -/

/-- Going on alike from what means the same leads to the same. -/
theorem bind_eq_of_rel {α β γ : Type} {R : α → β → Prop} {a? : Option α} {b? : Option β}
    (h : Option.Rel R a? b?) {f : α → Option γ} {g : β → Option γ}
    (hfg : ∀ a b, b? = some b → R a b → f a = g b) : a?.bind f = b?.bind g := by
  cases h with
  | some hab => exact hfg _ _ rfl hab
  | none => rfl

variable {depth : Nat}

theorem ClassRef.ofTexts?_eq_ofParts? {name qualified : Raw} {a b : Json}
    (hname : name.value? depth = some a) (hqualified : qualified.value? depth = some b) :
    ofTexts? name qualified = ofParts? a b := by
  rw [ofTexts?, ofParts?, Raw.text?_of_value? hname, Raw.text?_of_value? hqualified]

/-- A declared type in a text is read as the tree that is meant. -/
theorem ClassRef.ofRaw?_eq_ofJson? {raw : Raw} {j : Json} (h : raw.value? depth = some j) :
    ofRaw? depth raw = ofJson? j := by
  cases Raw.outermost_of_value? h with
  | null | bool | num | str => cases depth <;> rfl
  | arr hitems =>
    rcases hitems with _ | ⟨hname, _ | ⟨hqualified, _ | ⟨-, -⟩⟩⟩
    · rfl
    · rfl
    · exact ofTexts?_eq_ofParts? hname hqualified
    · rfl
  | obj hmembers =>
    obtain ⟨keyed, hkeyed, hmeans⟩ := Raw.exists_keyed hmembers
    rw [ofRaw?, if_neg (Nat.succ_ne_zero _), ofJson?, hkeyed, Option.bind_eq_bind,
      Option.bind_some]
    refine bind_eq_of_rel (hmeans.only? "name") fun name a _ hname => ?_
    refine bind_eq_of_rel (hmeans.only? "qualified") fun qualified b _ hqualified => ?_
    exact ofTexts?_eq_ofParts? hname hqualified

namespace SlotType

/-- What a type holds is read as the tree that is meant, if its elements are. -/
theorem ofRawContent?_eq_ofContent? {content : Raw} {j : Json}
    (hcontent : content.value? depth = some j) (helement : ofRaw? depth content = ofTree? j)
    (shape : Shape) :
    ofRawContent? depth (ofRaw? depth) content shape =
      ofContent? .inPlace j (ofTree? j) shape := by
  cases shape with
  | primitive =>
    rw [ofRawContent?, Raw.word?_of_value? hcontent]
    rfl
  | arrayOf => rw [ofRawContent?, helement, ofContent?]
  | reference => rw [ofRawContent?, ClassRef.ofRaw?_eq_ofJson? hcontent, ofContent?]

/-- **A text is read as the tree that it means is read in its place.** -/
theorem ofRaw?_eq_ofTree? {raw : Raw} {j : Json} (h : raw.value? depth = some j) :
    ofRaw? depth raw = ofTree? j := by
  -- by induction on the limit, which comes closer with every bracket that is opened
  induction depth using Nat.strongRecOn generalizing raw j with
  | ind depth ih =>
    cases Raw.outermost_of_value? h with
    | null | bool | num | str => cases depth <;> rfl
    | @arr d items js hitems =>
      rcases hitems with _ | ⟨hfirst, _ | ⟨hcontent, _ | ⟨-, -⟩⟩⟩
      · rfl
      · exact (Option.bind_fun_none _).symm
      · have helement := ih d (Nat.lt_succ_self d) hcontent
        rw [ofRaw?, ofTree?, read?, readItems?, Manner.first?, Raw.text?_of_value? hfirst]
        exact congrArg _ (funext fun shape => ofRawContent?_eq_ofContent? hcontent helement shape)
      · exact (Option.bind_fun_none _).symm
    | @obj d written members hmembers =>
      obtain ⟨keyed, hkeyed, hmeans⟩ := Raw.exists_keyed hmembers
      rw [ofRaw?, ofTree?, read?, hkeyed, Option.bind_eq_bind, Option.bind_some]
      refine bind_eq_of_rel (hmeans.only? "kind") fun kind a _ hkind => ?_
      rw [Raw.word?_of_value? hkind]
      refine congrArg _ (funext fun shape => ?_)
      refine bind_eq_of_rel (hmeans.only? "of") fun content b hof hcontent => ?_
      have helement := ih d (Nat.lt_succ_self d) hcontent
      dsimp only
      rw [readMembers?_of_only? hof, contentFirst, hmeans.keys_eq, ← contentFirst, Manner.within]
      split
      · -- what stands in front of the sort of type has been kept as a tree
        rw [hcontent]
        rfl
      · exact ofRawContent?_eq_ofContent? hcontent helement shape

/-- **What a type is written as is read as that type.**  A tree that was kept is read as the type
that it spells and as no other, so no two types are written alike; the names in what is read are
those that the tree gives, and all of them are names.  A tree that is read in its place is taken for
nothing else, and neither is a text, which is read as the tree that it means. -/
theorem written_types_are_read_back :
    (∀ t : SlotType, ofJson? t.toJson = some t) ∧
    (∀ t u : SlotType, t.toJson = u.toJson → t = u) ∧
    (∀ j t, ofJson? j = some t ↔ j.Spells t) ∧
    (∀ j t, ofJson? j = some t → ∀ s,
      (j.Names s ↔ ∃ r, t.Refers r ∧ r.name.text = s) ∧ (j.Names s → Text.Segments s.toList)) ∧
    (∀ depth raw (t : SlotType), raw.value? depth = some t.toJson → ofRaw? depth raw = some t) ∧
    (∀ depth raw j t, raw.value? depth = some j → ofRaw? depth raw = some t →
      ofJson? j = some t) ∧
    (∀ t : SlotType, ofTree? t.toJson = some t) ∧
    (∀ j t, ofTree? j = some t → ofJson? j = some t) ∧
    ∀ depth raw j, raw.value? depth = some j → ofRaw? depth raw = ofTree? j := by
  refine ⟨ofJson?_toJson, fun t u h => toJson_injective h, fun _ _ => ofJson?_eq_some_iff,
    ?names, ?written, ?kept, ofTree?_toJson, fun _ _ => ofJson?_of_ofTree?,
    fun _ _ _ => ofRaw?_eq_ofTree?⟩
  case names =>
    intro j t h s
    have hiff := (ofJson?_eq_some_iff.mp h).names_iff (s := s)
    refine ⟨hiff, ?_⟩
    intro hs
    obtain ⟨r, -, rfl⟩ := hiff.mp hs
    exact r.name.segments
  case written =>
    intro depth raw t h
    rw [ofRaw?_eq_ofTree? h, ofTree?_toJson]
  case kept =>
    intro depth raw j t h hraw
    rw [ofRaw?_eq_ofTree? h] at hraw
    exact ofJson?_of_ofTree? hraw

/-- Members in another order, beside one that says nothing. -/
theorem reversed_members_are_read :
    ofJson? (.obj [("of", .obj [("qualified", .str "garden.Rose"), ("name", .str "rose")]),
      ("colour", .null), ("kind", .str "reference")]) =
      some (.reference ⟨⟨"rose", by decide⟩, "garden.Rose"⟩) :=
  (written_types_are_read_back.2.2.1 _ _).mpr
    (.reference (.members rfl rfl rfl rfl) (.members rfl rfl))

end SlotType
end ClassSchema
