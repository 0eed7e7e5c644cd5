/-
Keys and the texts that write them.

* `text_parse` — the key that a text writes prints as that text;
* `parse_injective` — so different texts write different keys;
* `parse_ident` — the name of a property writes a name, never an index;
* `parse_eq_index_iff` — a text writes an index exactly if it is how the index is printed;
* `Written` — the keys that some text writes: all indexes, and names that are not spelled like one;
* `nodup_map_text` — no two of these print alike.
-/
import Mathlib.Data.List.Nodup
import Mathlib.Logic.Function.Basic
import ClassSchema.Proofs.Ident
import ClassSchema.Store.Key

namespace ClassSchema.Key

/-- The key that a text writes prints as that text. -/
theorem text_parse (s : String) : (parse s).text = s := by
  unfold parse
  split
  · next n _ =>
    split
    · next h =>
      obtain ⟨hlt, hs⟩ := h
      have hn : n.toUInt64.toNat = n := by simpa using Nat.mod_eq_of_lt hlt
      rw [text, hn, hs]
    · rfl
  · rfl

theorem parse_injective : Function.Injective parse := by
  intro s t h
  rw [← text_parse s, ← text_parse t, h]

@[simp] theorem parse_inj {s t : String} : parse s = parse t ↔ s = t := parse_injective.eq_iff

/-- An index is printed in digits alone. -/
theorem isDigit_of_mem_text {i : UInt64} {c : Char} (h : c ∈ (index i).text.toList) :
    c.isDigit = true := by
  have h' : c ∈ Nat.toDigits 10 i.toNat := by rwa [← Nat.toList_repr]
  exact Nat.isDigit_of_mem_toDigits (by decide) (by decide) h'

/-- A name begins with a letter, so it is not how an index is printed. -/
theorem parse_ident (x : Ident) : parse x.text = name x.text := by
  obtain ⟨c, s, hx, hc⟩ := x.exists_head
  rcases hp : parse x.text with i | n
  · -- an index would print as the name, letter and all
    have htext : (index i).text = x.text := by rw [← hp, text_parse]
    have hdigit : c.isDigit = true := by
      apply isDigit_of_mem_text (i := i)
      rw [htext, hx]
      exact List.mem_cons_self
    simp [Text.isDigit_of_isLower hc] at hdigit
  · have htext : n = x.text := by rw [← text_parse x.text, hp, text]
    rw [htext]

/-! ### Texts of indexes -/

theorem digitValue?_of_isDigit {c : Char} (h : c.isDigit = true) :
    Decimal.digitValue? 10 c = some (c.toNat - '0'.toNat) := by
  have hlow : '0' ≤ c := of_decide_eq_true (Bool.and_eq_true_iff.mp h).1
  have hhigh : c ≤ '9' := of_decide_eq_true (Bool.and_eq_true_iff.mp h).2
  have hbound : c.toNat ≤ 57 := UInt32.le_iff_toNat_le.mp hhigh
  have hzero : '0'.toNat = 48 := rfl
  have hlt : c.toNat - '0'.toNat < 10 := by omega
  simp only [Decimal.digitValue?, hlow, hhigh, and_self, if_true, hlt]

/-- Digits are worth what they are worth one after the other. -/
theorem numeralAfter?_of_isDigit {s : List Char} (h : ∀ c ∈ s, c.isDigit = true) (acc : Nat) :
    Decimal.numeralAfter? 10 acc s = some (Nat.ofDigitChars 10 s acc) := by
  induction s generalizing acc with
  | nil => rfl
  | cons c s ih =>
    have hc := digitValue?_of_isDigit (h c List.mem_cons_self)
    have hs := ih fun a ha => h a (List.mem_cons_of_mem c ha)
    simp only [Decimal.numeralAfter?, hc, hs, Nat.ofDigitChars_cons]

theorem numeral?_toString (n : Nat) : Decimal.numeral? 10 (toString n).toList = some n := by
  have htext : (toString n).toList = Nat.toDigits 10 n := Nat.toList_repr
  have hne : (Nat.toDigits 10 n).isEmpty = false := by simp [Nat.toDigits_ne_nil]
  have hdigits : ∀ c ∈ Nat.toDigits 10 n, c.isDigit = true := by
    intro c hc
    exact Nat.isDigit_of_mem_toDigits (by decide) (by decide) hc
  rw [htext, Decimal.numeral?, hne, numeralAfter?_of_isDigit hdigits,
    Nat.ofDigitChars_ten_toDigits]
  rfl

/-- The text of an index writes the index. -/
theorem parse_toString_toNat (i : UInt64) : parse (toString i.toNat) = index i := by
  have hlt : i.toNat < UInt64.size := i.toNat_lt
  have hi : i.toNat.toUInt64 = i := UInt64.ofNat_toNat
  simp only [parse, numeral?_toString, hlt, and_self, if_true, hi]

theorem parse_eq_index_iff {s : String} {i : UInt64} :
    parse s = index i ↔ s = toString i.toNat := by
  constructor
  · intro h
    rw [← text_parse s, h, text]
  · rintro rfl
    exact parse_toString_toNat i

/-- The key is one that some text writes. -/
def Written (key : Key) : Prop := ∃ s, parse s = key

theorem written_parse (s : String) : (parse s).Written := ⟨s, rfl⟩

theorem written_index (i : UInt64) : (index i).Written := ⟨_, parse_toString_toNat i⟩

/-- Such a key is read back from the text that prints it. -/
theorem Written.parse_text {key : Key} (h : key.Written) : parse key.text = key := by
  obtain ⟨s, rfl⟩ := h
  rw [text_parse]

/-- Such keys print alike only if they are the same. -/
theorem nodup_map_text {keys : List Key} (hnodup : keys.Nodup)
    (hwritten : ∀ key ∈ keys, key.Written) : (keys.map text).Nodup := by
  refine hnodup.map_on fun k hk k' hk' htext => ?_
  rw [← (hwritten k hk).parse_text, htext, (hwritten k' hk').parse_text]

end ClassSchema.Key
