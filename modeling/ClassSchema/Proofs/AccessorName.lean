/-
Accessors by their names.

* `Accessor.ofName?_name` — a name is for the accessor that has it, unless that appends;
* `Class.Flattens.accessor?_eq_some_iff` — what a class makes of a name: the accessor that its chain
  brings along under the name, or else, if the class is open, the one that the name is for;
* `Class.Flattens.accessor?_of_callsFor`, `Class.Flattens.accessor?_of_isOpen` — which accessors a
  class reaches by their names;
* `Registry.exists_flattens` — all this is so of the classes of a registry.

Design notes: a table may list under a name what the name alone would be for as well, so the two
ways of finding an accessor could contradict each other.  They do not, because every accessor of a
table stands under its own name, and from that name it is read back.
-/
import ClassSchema.Proofs.AccessorTable

namespace ClassSchema

namespace Accessor

/-! ### Names are read back -/

/-- Of the words for verbs none begins with another one. -/
theorem isPrefixOf?_word {v w : Verb} (h : w ≠ v) (s : List Char) :
    w.word.toList.isPrefixOf? (v.word.toList ++ s) = none := by
  cases v <;> cases w <;> first | rfl | exact absurd rfl h

theorem toList_name (v : Verb) (x : Ident) :
    (name ⟨v, x.text⟩).toList = v.word.toList ++ x.className.toList :=
  String.toList_append

theorem suffix?_name (v : Verb) (x : Ident) : suffix? v (name ⟨v, x.text⟩) = some x.className := by
  obtain ⟨c, s, hclass, hc⟩ := Text.exists_head_joinWords fun _ => x.segment_of_mem_words
  rw [← x.toList_className] at hclass
  have hprefix : v.word.toList.isPrefixOf? (v.word.toList ++ x.className.toList) =
      some (c :: s) := by
    rw [List.isPrefixOf?_eq_some_iff_append_eq, hclass]
  rw [suffix?, toList_name, hprefix]
  simp only [hc, if_true]
  rw [← hclass, String.ofList_toList]

theorem suffix?_name_of_ne {v w : Verb} (h : w ≠ v) (x : Ident) :
    suffix? w (name ⟨v, x.text⟩) = none := by
  rw [suffix?, toList_name, isPrefixOf?_word h]

theorem ofText?_text (x : Ident) : Ident.ofText? x.text = some x := by
  rw [Ident.ofText?, Ident.parse_eq_ok_iff.mpr rfl]
  rfl

theorem ofNameBy?_name (v w : Verb) (x : Ident) :
    ofNameBy? w (name ⟨v, x.text⟩) = if w = v then some ⟨v, x.text⟩ else none := by
  by_cases h : w = v
  · subst h
    rw [ofNameBy?, suffix?_name, if_pos rfl]
    simp only [Option.bind_eq_bind, Option.bind_some, x.decamelize_className, ofText?_text]
    rfl
  · rw [ofNameBy?, suffix?_name_of_ne h, if_neg h]
    rfl

/-- A name is for the accessor that has it.  The names of appenders are for none, since what they
append is no property. -/
theorem ofName?_name (v : Verb) (x : Ident) :
    ofName? (name ⟨v, x.text⟩) = if v = .append then none else some ⟨v, x.text⟩ := by
  simp only [ofName?, List.findSome?_cons, List.findSome?_nil, ofNameBy?_name]
  cases v <;> rfl

end Accessor

/-! ### What a class makes of a name -/

namespace Class.Flattens

variable {c : Class} {chain : List Descriptor} {name : String} {a : Accessor}

/-- **What a class makes of a name.** -/
theorem accessor?_eq_some_iff (h : c.Flattens chain) (hkeys : (Entries.keys c.dispatch).Nodup) :
    c.accessor? name = some a ↔
      (name = a.name ∧ ∃ d ∈ chain, d.CallsFor a) ∨
        (c.isOpen = true ∧ Accessor.ofName? name = some a) := by
  have hlisted : ∀ b, Entries.get? name c.dispatch = some b ↔
      name = b.name ∧ ∃ d ∈ chain, d.CallsFor b := by
    intro b
    rw [← h.mem_dispatch_iff hkeys]
    exact ⟨Entries.mem_of_get?, fun hmem => Entries.get?_of_mem hkeys hmem⟩
  rw [accessor?, ← hlisted a]
  rcases hget : Entries.get? name c.dispatch with _ | b
  · by_cases hopen : c.isOpen = true
    · simp [hopen]
    · simp [hopen]
  · -- what is listed under the name is also what the name alone would be for
    refine ⟨Or.inl, ?_⟩
    rintro (hab | ⟨-, hname⟩)
    · exact hab
    · obtain ⟨rfl, d, -, hcalls⟩ := (hlisted b).mp hget
      obtain ⟨x, hx⟩ := hcalls.exists_ident
      obtain ⟨v, target⟩ := b
      obtain rfl : x.text = target := hx
      rw [Accessor.ofName?_name] at hname
      split at hname
      · cases hname
      · exact hname

/-- A class reaches what its properties and its wildcard call for. -/
theorem accessor?_of_callsFor (h : c.Flattens chain) (hkeys : (Entries.keys c.dispatch).Nodup)
    (ha : c.CallsFor a) : c.accessor? a.name = some a :=
  (h.accessor?_eq_some_iff hkeys).mpr (Or.inl ⟨rfl, h.exists_callsFor_iff.mpr (Or.inl ha)⟩)

/-- An open class reaches every property, declared or not. -/
theorem accessor?_of_isOpen (h : c.Flattens chain) (hkeys : (Entries.keys c.dispatch).Nodup)
    (hopen : c.isOpen = true) {v : Verb} (hv : v ≠ .append) (x : Ident) :
    c.accessor? (Accessor.name ⟨v, x.text⟩) = some ⟨v, x.text⟩ := by
  refine (h.accessor?_eq_some_iff hkeys).mpr (Or.inr ⟨hopen, ?_⟩)
  rw [Accessor.ofName?_name, if_neg hv]

end Class.Flattens

/-- Every class of a registry flattens the chain of its descriptor, which is the one that counts for
its name, and lists no accessor twice. -/
theorem Registry.exists_flattens {ds : List Descriptor} {r : Registry} (hr : link ds = .ok r)
    {c : Class} (hc : c ∈ r.classes) :
    ∃ chain, ParentChain ds c.descriptor chain ∧ declared? ds c.name = some c.descriptor ∧
      c.Flattens chain ∧ (Entries.keys c.dispatch).Nodup := by
  obtain ⟨above, hclass, hchain, hcounts⟩ := exists_chain_of_mem hr hc
  refine ⟨c.descriptor :: above, hchain, hcounts, ?_, ?_⟩
  · rw [hclass, descriptor_link]
    exact Class.flattens_link _ _
  · rw [hclass]
    exact Class.nodup_keys_dispatch_link _ _

end ClassSchema
