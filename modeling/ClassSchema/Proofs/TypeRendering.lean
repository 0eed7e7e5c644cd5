/-
Types as documents write them, and as code does.

* `Scope.Names` — the types over the declared names of a schema;
* `bracketed_docName_iff` — what documents write for a type ends in brackets exactly if the type is
  an array with a declared type of elements;
* `docName_injective` — no two types of a schema are written alike;
* `codeOfDoc` — the text that code has, from the one that documents have;
* `Manifest.retype` — a manifest with other texts for the types in it;
* `documents_tell_code` — so manifests for code come out of manifests for documents.

Design notes: namespaces and separators may hold anything, brackets and the words for built-in kinds
among it.  What they are put in front of is the name of a class, which ends in a letter or a digit
and begins with a capital letter, so a qualified name neither ends in a bracket nor is such a word;
and within one schema all have the same in front.
-/
import ClassSchema.Manifest
import ClassSchema.Proofs.PascalCase
import ClassSchema.Proofs.TokenGrammar

namespace ClassSchema

/-! ### Qualified names -/

namespace Namespace

variable (ns : Namespace) (x : Ident)

/-- A qualified name ends in the name of the class. -/
theorem className_suffix_qualify : x.className.toList <:+ (ns.qualify x).toList := by
  unfold qualify
  split
  · split
    · exact List.suffix_rfl
    · rw [String.toList_append]
      exact List.suffix_append _ _
  · exact List.suffix_rfl

theorem exists_upper_mem_qualify : ∃ c ∈ (ns.qualify x).toList, c.isUpper = true := by
  obtain ⟨c, t, hclass, hc⟩ := Text.exists_head_joinWords x.segments
  rw [← x.toList_className] at hclass
  refine ⟨c, (ns.className_suffix_qualify x).subset ?_, hc⟩
  rw [hclass]
  exact List.mem_cons_self

/-- No qualified name is the word for a built-in kind. -/
theorem qualify_ne_spelling (p : Primitive) : ns.qualify x ≠ p.spelling := by
  intro h
  obtain ⟨c, hc, hupper⟩ := ns.exists_upper_mem_qualify x
  -- the words for built-in kinds have small letters only
  rw [h] at hc
  exact Char.not_isUpper_of_isLower (p.isLower_of_mem hc) hupper

/-- No qualified name ends in a bracket. -/
theorem not_bracket_suffix_qualify : ¬ [']'] <:+ (ns.qualify x).toList := by
  rintro ⟨before, hbracket⟩
  obtain ⟨before', hclass⟩ := ns.className_suffix_qualify x
  have hcase := x.inPascalCase_className
  -- the bracket is the last character of the name of the class
  have hlast : x.className.toList.getLast? = some ']' := by
    rw [← List.getLast?_append_of_ne_nil before' hcase.1, hclass, ← hbracket,
      List.getLast?_append_of_ne_nil before (List.cons_ne_nil _ _)]
    rfl
  have halphanum := hcase.isAlphanum (List.mem_of_getLast? hlast)
  exact absurd halphanum (by decide)

end Namespace

/-! ### Types over declared names -/

/-- All declared types in the type are types that the schema can refer to. -/
def Scope.Names (scope : Scope) (t : SlotType) : Prop := ∀ r, t.Refers r → scope.Offers r

/-- The text ends in brackets. -/
def Bracketed (s : String) : Prop := "[]".toList <:+ s.toList

instance (s : String) : Decidable (Bracketed s) := inferInstanceAs (Decidable (_ <:+ _))

/-- The text that code has for a type, from the one that documents have. -/
def codeOfDoc (s : String) : String := if Bracketed s then Primitive.array.spelling else s

theorem not_bracketed_of_not_suffix {s : String} (h : ¬ [']'] <:+ s.toList) : ¬ Bracketed s :=
  fun hs => h ((by decide : [']'] <:+ "[]".toList).trans hs)

namespace Primitive

theorem spelling_injective : Function.Injective spelling := by
  intro p q h
  cases p <;> cases q <;> first | rfl | exact absurd h (by decide)

theorem not_bracketed_spelling (p : Primitive) : ¬ Bracketed p.spelling := by
  cases p <;> decide

end Primitive

namespace SlotType

variable {scope : Scope} {t u : SlotType}

theorem bracketed_docName_arrayOf (t : SlotType) : Bracketed (arrayOf t).docName := by
  rw [Bracketed, docName, String.toList_append]
  exact List.suffix_append _ _

theorem names_of_arrayOf (h : scope.Names (.arrayOf t)) : scope.Names t :=
  fun r hr => h r (.arrayOf hr)

theorem exists_of_names_reference {r : ClassRef} (h : scope.Names (.reference r)) :
    ∃ x, r = scope.home.refer x := by
  obtain ⟨x, -, hx⟩ := h r (.reference r)
  exact ⟨x, hx⟩

/-- A type is written with brackets at the end exactly if it is an array of declared elements. -/
theorem bracketed_docName_iff (h : scope.Names t) :
    Bracketed t.docName ↔ ∃ element, t = .arrayOf element := by
  cases t with
  | primitive p => exact iff_of_false p.not_bracketed_spelling (by simp)
  | arrayOf t => exact iff_of_true t.bracketed_docName_arrayOf ⟨t, rfl⟩
  | reference r =>
    obtain ⟨x, rfl⟩ := exists_of_names_reference h
    exact iff_of_false
      (not_bracketed_of_not_suffix (scope.home.not_bracket_suffix_qualify x)) (by simp)

/-- **No two types of a schema are written alike in documents.** -/
theorem docName_injective (ht : scope.Names t) (hu : scope.Names u) (h : t.docName = u.docName) :
    t = u := by
  induction t generalizing u with
  | arrayOf t ih =>
    -- the other text ends in brackets too, so both types are arrays
    obtain ⟨u, rfl⟩ := (bracketed_docName_iff hu).mp (h ▸ t.bracketed_docName_arrayOf)
    have helements : t.docName = u.docName := String.append_left_inj _ |>.mp h
    rw [ih (names_of_arrayOf ht) (names_of_arrayOf hu) helements]
  | primitive p =>
    cases u with
    | primitive q => rw [Primitive.spelling_injective h]
    | arrayOf u =>
      have hbracketed := u.bracketed_docName_arrayOf
      rw [← h] at hbracketed
      exact absurd hbracketed p.not_bracketed_spelling
    | reference r =>
      obtain ⟨x, rfl⟩ := exists_of_names_reference hu
      exact absurd h.symm (scope.home.qualify_ne_spelling x p)
  | reference r =>
    obtain ⟨x, rfl⟩ := exists_of_names_reference ht
    cases u with
    | primitive q => exact absurd h (scope.home.qualify_ne_spelling x q)
    | arrayOf u =>
      obtain ⟨element, helement⟩ := (bracketed_docName_iff ht).mp (h ▸ u.bracketed_docName_arrayOf)
      cases helement
    | reference r' =>
      -- both are under the namespace of the schema, which can be taken off again
      obtain ⟨y, rfl⟩ := exists_of_names_reference hu
      rw [scope.home.qualify_injective h]

/-- What code has for a type is told by what documents have. -/
theorem codeName_eq (h : scope.Names t) : t.codeName = codeOfDoc t.docName := by
  cases t with
  | arrayOf t => exact (if_pos t.bracketed_docName_arrayOf).symm
  | primitive p => exact (if_neg p.not_bracketed_spelling).symm
  | reference r =>
    have hbracketed : ¬ Bracketed (reference r).docName := by
      rw [bracketed_docName_iff h]
      simp
    exact (if_neg hbracketed).symm

end SlotType

/-! ### Manifests with other texts for types -/

namespace Json

/-- The tree with another text, if it is a text. -/
def mapText (f : String → String) : Json → Json
  | str s => str (f s)
  | j => j

/-- The tree with another value for the members of one key. -/
def mapMember (key : String) (f : Json → Json) : Json → Json
  | obj members => obj (members.map fun e => (e.1, if e.1 = key then f e.2 else e.2))
  | j => j

/-- The tree with other values for all its members. -/
def mapMembers (f : Json → Json) : Json → Json
  | obj members => obj (Entries.mapValues f members)
  | j => j

/-- The tree with other items. -/
def mapItems (f : Json → Json) : Json → Json
  | arr items => arr (items.map f)
  | j => j

theorem mapText_ofText? (f : String → String) (s : Option String) :
    mapText f (ofText? s) = ofText? (s.map f) := by
  cases s with
  | none => rfl
  | some s => rfl

theorem mapText_id : mapText id = id := by
  funext j
  cases j with
  | str s => rfl
  | _ => rfl

theorem mapMember_id (key : String) : mapMember key id = id := by
  funext j
  cases j with
  | obj members => simp [mapMember]
  | _ => rfl

theorem mapMembers_id : mapMembers id = id := by
  funext j
  cases j with
  | obj members => simp [mapMembers, Entries.mapValues]
  | _ => rfl

theorem mapMembers_congr {α : Type} {l : List α} {member member' : α → String × Json}
    {f g : Json → Json}
    (h : ∀ a ∈ l, ((member a).1, f (member a).2) = ((member' a).1, g (member' a).2)) :
    mapMembers f (obj (l.map member)) = mapMembers g (obj (l.map member')) := by
  rw [mapMembers, mapMembers, Entries.mapValues, Entries.mapValues, List.map_map, List.map_map]
  exact congrArg obj (List.map_congr_left h)

theorem mapItems_id : mapItems id = id := by
  funext j
  cases j with
  | arr items => simp [mapItems]
  | _ => rfl

end Json

namespace Manifest

/-- The manifest with other texts for types: for the wildcard, for the properties and for what the
accessors take or give.  All else stays. -/
def retype (f : String → String) (manifest : Json) : Json :=
  manifest
    |> Json.mapMember "wildcard" (Json.mapText f)
    |> Json.mapMember "properties" (Json.mapMembers (Json.mapText f))
    |> Json.mapMember "accessors" (Json.mapItems (Json.mapMember "type" (Json.mapText f)))

theorem retype_id (manifest : Json) : retype id manifest = manifest := by
  simp only [retype, Json.mapText_id, Json.mapMembers_id, Json.mapItems_id, Json.mapMember_id, id]

end Manifest

namespace Descriptor

/-- A type that the manifest of the descriptor writes. -/
inductive Writes (d : Descriptor) : SlotType → Prop where
  | property {x : Ident} {t : SlotType} : (x, t) ∈ d.properties → Writes d t
  | wildcard {t : SlotType} : d.wildcard = some t → Writes d t
  | accessor {s : Signature} : s ∈ d.signatures → Writes d s.valueType

variable {d : Descriptor}

/-- Whether a manifest is for documents or for code is up to the texts for types alone. -/
theorem retype_manifest_congr {f g : String → String} {docs docs' : Bool}
    (h : ∀ t, d.Writes t → f (t.render docs) = g (t.render docs')) :
    Manifest.retype f (d.manifest docs) = Manifest.retype g (d.manifest docs') := by
  have hwildcard : Json.mapText f (.ofText? (d.wildcard.map (SlotType.render docs))) =
      Json.mapText g (.ofText? (d.wildcard.map (SlotType.render docs'))) := by
    rw [Json.mapText_ofText?, Json.mapText_ofText?, Option.map_map, Option.map_map]
    exact congrArg Json.ofText? (Option.map_congr fun t ht => h t (.wildcard ht))
  have haccessors :
      Json.mapItems (Json.mapMember "type" (Json.mapText f))
        (.arr (d.signatures.map (Signature.manifest docs))) =
      Json.mapItems (Json.mapMember "type" (Json.mapText g))
        (.arr (d.signatures.map (Signature.manifest docs'))) := by
    rw [Json.mapItems, Json.mapItems, List.map_map, List.map_map]
    refine congrArg Json.arr (List.map_congr_left ?_)
    intro s hs
    simp only [Function.comp, Signature.manifest, Json.mapMember, Json.mapText, List.map_cons,
      List.map_nil, String.reduceEq, if_true, if_false, h s.valueType (.accessor hs)]
  simp only [Manifest.retype, manifest, Json.mapMember, List.map_cons, List.map_nil,
    String.reduceEq, if_true, if_false, hwildcard, haccessors]
  -- only the properties are left
  refine congrArg (fun j => Json.obj [_, _, _, _, _, _, _, ("properties", j), _])
    (Json.mapMembers_congr ?_)
  rintro ⟨x, t⟩ hx
  show (x.text, Json.str (f (t.render docs))) = (x.text, Json.str (g (t.render docs')))
  rw [h t (.property hx)]

/-- The types that a compiled descriptor writes are types of its schema. -/
theorem Writes.names {scope : Scope} {types : List TypeDefinition} {ds : List Descriptor}
    {t : SlotType} (ht : d.Writes t) (h : Document.compileTypes scope types = .ok ds)
    (hd : d ∈ ds) : scope.Names t := by
  intro r hr
  apply (Document.offers_of_compileTypes h hd).2
  cases ht with
  | property hx => exact .property hx hr
  | wildcard hwildcard => exact .wildcard hwildcard hr
  | accessor hs => exact .accessor hs hr

/-- The manifest for code comes out of the one for documents. -/
theorem manifest_code_eq {scope : Scope} (h : ∀ t, d.Writes t → scope.Names t) :
    d.manifest false = Manifest.retype codeOfDoc (d.manifest true) := by
  rw [← Manifest.retype_id (d.manifest false)]
  exact retype_manifest_congr fun t ht => SlotType.codeName_eq (h t ht)

end Descriptor

theorem Scope.names_of_resolve {scope : Scope} {token : String} {t : SlotType}
    (h : scope.resolve token = .ok t) : scope.Names t :=
  exists_spelling_iff.mp ⟨token.toList, resolveToken_eq_ok_iff.mp h⟩

/-- **What documents have for a type tells the type.**  Whatever the namespace and the separator of
a schema are, no two types that its tokens resolve to are written alike in documents; code has
`array` for a type that ends in brackets there, and the same text for any other.  So the manifest
for code comes out of the manifest for documents, and they differ in the texts for types alone. -/
theorem documents_tell_code :
    (∀ (scope : Scope) token token' t u, scope.resolve token = .ok t →
      scope.resolve token' = .ok u → t.docName = u.docName → t = u) ∧
    (∀ (scope : Scope) token t, scope.resolve token = .ok t →
      (Bracketed t.docName → t.codeName = "array") ∧
      (¬ Bracketed t.docName → t.codeName = t.docName)) ∧
    (∀ (scope : Scope) (d : Descriptor),
      (∀ t, d.Writes t → ∃ token, scope.resolve token = .ok t) →
      d.manifest false = Manifest.retype codeOfDoc (d.manifest true)) ∧
    (∀ (doc : Document) options ds, doc.compile options = .ok ds → ∀ d ∈ ds,
      d.manifest false = Manifest.retype codeOfDoc (d.manifest true)) ∧
    ∀ (d : Descriptor) s,
      Manifest.retype (fun _ => s) (d.manifest false) =
        Manifest.retype (fun _ => s) (d.manifest true) := by
  refine ⟨?unique, ?code, ?resolved, ?compiled, ?rest⟩
  case unique =>
    intro scope token token' t u ht hu h
    exact SlotType.docName_injective (Scope.names_of_resolve ht) (Scope.names_of_resolve hu) h
  case code =>
    intro scope token t ht
    rw [SlotType.codeName_eq (Scope.names_of_resolve ht), codeOfDoc]
    exact ⟨fun h => if_pos h, fun h => if_neg h⟩
  case resolved =>
    intro scope d h
    have hnames : ∀ t, d.Writes t → scope.Names t := by
      intro t ht
      obtain ⟨token, htoken⟩ := h t ht
      exact Scope.names_of_resolve htoken
    exact Descriptor.manifest_code_eq hnames
  case compiled =>
    intro doc options ds h d hd
    have hcompile := (Document.compileTypes_of_compile h).1
    exact Descriptor.manifest_code_eq fun t ht => ht.names hcompile hd
  case rest =>
    intro d s
    exact Descriptor.retype_manifest_congr fun _ _ => rfl

/-- A schema whose namespace is the word for a kind, with brackets behind it. -/
def bracketedSchema : Scope := ⟨[⟨"int", by decide⟩], ⟨some "int", "[]"⟩⟩

/-- Brackets inside a qualified name mislead nobody. -/
theorem brackets_inside_mislead_nobody :
    ∃ t, bracketedSchema.resolve "int" = .ok t ∧ t.docName = "int[]Int" ∧
      t.codeName = "int[]Int" ∧ bracketedSchema.resolve "array[int]" = .ok (.arrayOf t) ∧
      (SlotType.arrayOf t).docName = "int[]Int[]" ∧ (SlotType.arrayOf t).codeName = "array" := by
  have hname := @Scope.Spells.reference bracketedSchema ⟨"int", by decide⟩ List.mem_cons_self
  have hint := Scope.resolveToken_eq_ok_iff.mpr hname
  have harray := Scope.resolveToken_eq_ok_iff.mpr (Scope.Spells.array .bare hname)
  have hcode := documents_tell_code.2.1 bracketedSchema
  exact ⟨_, hint, by decide, (hcode "int" _ hint).2 (by decide), harray, by decide,
    (hcode "array[int]" _ harray).1 (by decide)⟩

end ClassSchema
