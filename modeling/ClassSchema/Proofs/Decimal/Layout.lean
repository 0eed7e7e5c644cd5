/-
The text of a floating-point number, and that it tells the number.

* `textWorth` — the rational that a text with a point or an exponent writes;
* `textWorth_place` — whatever the layout, the digits of a decimal write what they are worth;
* `Layout.render_eq` — a text is a sign and such digits;
* `Layout.render_injective` — so no two numbers have one text.

Design notes: the text is taken apart at the letter of the exponent first, then at the point, and
neither stands among digits.  Zeros that fill up to the point or stand behind it change nothing.
-/
import Mathlib
import ClassSchema.Decimal.Layout
import ClassSchema.Proofs.Decimal.Shortest

namespace ClassSchema.Decimal

open Nat (ofDigitChars)

/-! ### What texts write -/

/-- The rational that digits with a point among them, if any, write. -/
def pointWorth (s : List Char) : ℚ :=
  match s.splitOn '.' with
  | [whole] => ofDigitChars 10 whole 0
  | [whole, fraction] => ofDigitChars 10 (whole ++ fraction) 0 * 10 ^ (-(fraction.length : ℤ))
  | _ => 0

/-- The integer that digits with a sign in front of them, if any, write. -/
def signedWorth : List Char → ℤ
  | '-' :: s => -ofDigitChars 10 s 0
  | '+' :: s => ofDigitChars 10 s 0
  | s => ofDigitChars 10 s 0

/-- The rational that a text with a point or an exponent writes. -/
def textWorth (s : List Char) : ℚ :=
  match s.splitOn 'e' with
  | [mantissa] => pointWorth mantissa
  | [mantissa, power] => pointWorth mantissa * 10 ^ signedWorth power
  | _ => 0

/-- All characters are digits. -/
def AreDigits (s : List Char) : Prop := ∀ c ∈ s, c.isDigit = true

theorem areDigits_toDigits (n : ℕ) : AreDigits (Nat.toDigits 10 n) := fun _ hc =>
  Nat.isDigit_of_mem_toDigits (by decide) (by decide) hc

namespace AreDigits

variable {s t : List Char}

theorem append (hs : AreDigits s) (ht : AreDigits t) : AreDigits (s ++ t) := fun c hc =>
  (List.mem_append.mp hc).elim (hs c) (ht c)

theorem zeros (n : ℕ) : AreDigits (List.replicate n '0') := by
  intro c hc
  rw [List.eq_of_mem_replicate hc]
  decide

theorem notMem (hs : AreDigits s) {c : Char} (hc : c.isDigit = false) : c ∉ s := by
  intro hmem
  rw [hs c hmem] at hc
  cases hc

end AreDigits

/-- The text writes the rational: with a point, with an exponent, or with both. -/
inductive Writes : List Char → ℚ → Prop where
  | point {whole fraction : List Char} (hwhole : AreDigits whole) (hne : whole ≠ [])
    (hfraction : AreDigits fraction) :
    Writes (whole ++ '.' :: fraction)
      (ofDigitChars 10 (whole ++ fraction) 0 * 10 ^ (-(fraction.length : ℤ)))
  | power {whole power : List Char} (hwhole : AreDigits whole) (hne : whole ≠ [])
    (hpower : 'e' ∉ power) :
    Writes (whole ++ 'e' :: power) (ofDigitChars 10 whole 0 * 10 ^ signedWorth power)
  | both {whole fraction power : List Char} (hwhole : AreDigits whole) (hne : whole ≠ [])
    (hfraction : AreDigits fraction) (hpower : 'e' ∉ power) :
    Writes (whole ++ '.' :: fraction ++ 'e' :: power)
      (ofDigitChars 10 (whole ++ fraction) 0 * 10 ^ (-(fraction.length : ℤ)) *
        10 ^ signedWorth power)

namespace Writes

variable {s : List Char} {v : ℚ}

theorem pointWorth_point {whole fraction : List Char} (hwhole : AreDigits whole)
    (hfraction : AreDigits fraction) :
    pointWorth (whole ++ '.' :: fraction) =
      ofDigitChars 10 (whole ++ fraction) 0 * 10 ^ (-(fraction.length : ℤ)) := by
  rw [pointWorth, List.splitOn_append_cons_self_of_not_mem (hwhole.notMem (by decide)),
    List.splitOn_eq_singleton (hfraction.notMem (by decide))]

/-- A text writes one rational only. -/
theorem textWorth_eq (h : Writes s v) : textWorth s = v := by
  have hpoint : ∀ {whole fraction : List Char}, AreDigits whole → AreDigits fraction →
      'e' ∉ whole ++ '.' :: fraction := by
    intro whole fraction hwhole hfraction hmem
    rcases List.mem_append.mp hmem with hmem | hmem
    · exact hwhole.notMem (by decide) hmem
    · rcases List.mem_cons.mp hmem with heq | hmem
      · exact absurd heq (by decide)
      · exact hfraction.notMem (by decide) hmem
  cases h with
  | point hwhole hne hfraction =>
    rw [textWorth, List.splitOn_eq_singleton (hpoint hwhole hfraction)]
    exact pointWorth_point hwhole hfraction
  | @power whole power hwhole hne hpower =>
    have hsplit : whole.splitOn '.' = [whole] :=
      List.splitOn_eq_singleton (hwhole.notMem (by decide))
    rw [textWorth, List.splitOn_append_cons_self_of_not_mem (hwhole.notMem (by decide)),
      List.splitOn_eq_singleton hpower]
    dsimp only
    rw [pointWorth, hsplit]
  | both hwhole hne hfraction hpower =>
    rw [textWorth, List.splitOn_append_cons_self_of_not_mem (hpoint hwhole hfraction),
      List.splitOn_eq_singleton hpower]
    dsimp only
    rw [pointWorth_point hwhole hfraction]

/-- A text begins with a digit. -/
theorem exists_digit (h : Writes s v) : ∃ c rest, s = c :: rest ∧ c.isDigit = true := by
  cases h with
  | @point whole _ hwhole hne _ | @power whole _ hwhole hne _ | @both whole _ _ hwhole hne _ _ =>
    obtain ⟨c, rest, rfl⟩ := List.exists_cons_of_ne_nil hne
    exact ⟨c, _, rfl, hwhole c List.mem_cons_self⟩

theorem of_eq {w : ℚ} (h : Writes s v) (hv : v = w) : Writes s w := hv ▸ h

/-- A text has a point or an exponent. -/
theorem exists_mark (h : Writes s v) : '.' ∈ s ∨ 'e' ∈ s := by
  cases h with
  | point _ _ _ => exact Or.inl (by simp)
  | power _ _ _ => exact Or.inr (by simp)
  | both _ _ _ _ => exact Or.inl (by simp)

end Writes

/-! ### Digits in their place -/

/-- Zeros behind digits move the point. -/
theorem ofDigitChars_append_zeros (ds : List Char) (n : ℕ) :
    ofDigitChars 10 (ds ++ List.replicate n '0') 0 = ofDigitChars 10 ds 0 * 10 ^ n := by
  rw [Nat.ofDigitChars_append, Nat.ofDigitChars_replicate_zero, mul_comm]

/-- Zeros in front of digits are worth nothing. -/
theorem ofDigitChars_zeros_append (n : ℕ) (ds : List Char) :
    ofDigitChars 10 (List.replicate n '0' ++ ds) 0 = ofDigitChars 10 ds 0 := by
  rw [Nat.ofDigitChars_append, Nat.ofDigitChars_replicate_zero, mul_zero]

theorem signedWorth_toDigits (n : ℕ) : signedWorth (Nat.toDigits 10 n) = n := by
  have hdigits := areDigits_toDigits n
  have hworth : ofDigitChars 10 (Nat.toDigits 10 n) 0 = n := Nat.ofDigitChars_ten_toDigits
  unfold signedWorth
  split
  · next s hs => exact absurd (hs ▸ List.mem_cons_self) (hdigits.notMem (c := '-') (by decide))
  · next s hs => exact absurd (hs ▸ List.mem_cons_self) (hdigits.notMem (c := '+') (by decide))
  · rw [hworth]

/-- The exponent of a layout writes the power of ten of the leading digit. -/
theorem signedWorth_exponent (plusSign : Bool) (lead : ℤ) :
    signedWorth ((if lead < 0 then ['-'] else if plusSign then ['+'] else []) ++
      Nat.toDigits 10 lead.natAbs) = lead := by
  have hworth : ofDigitChars 10 (Nat.toDigits 10 lead.natAbs) 0 = lead.natAbs :=
    Nat.ofDigitChars_ten_toDigits
  split
  · rw [List.singleton_append, signedWorth, hworth]
    omega
  · split
    · rw [List.singleton_append, signedWorth, hworth]
      omega
    · rw [List.nil_append, signedWorth_toDigits]
      omega

section Place

variable {ds : List Char} {lead : ℤ}

/-- All digits stand behind the point. -/
theorem writes_behind_point (hds : AreDigits ds) (hlead : lead < 0) :
    Writes (['0', '.'] ++ List.replicate (-lead - 1).toNat '0' ++ ds)
      (ofDigitChars 10 ds 0 * 10 ^ (lead - ds.length + 1)) := by
  have hzero : AreDigits ['0'] := AreDigits.zeros 1
  have hwrites := Writes.point hzero (List.cons_ne_nil _ _)
    ((AreDigits.zeros (-lead - 1).toNat).append hds)
  have hzeros : ['0'] ++ (List.replicate (-lead - 1).toNat '0' ++ ds) =
      List.replicate ((-lead - 1).toNat + 1) '0' ++ ds := by
    rw [List.replicate_succ]
    rfl
  rw [hzeros, ofDigitChars_zeros_append, List.length_append, List.length_replicate] at hwrites
  refine hwrites.of_eq ?_
  congr 2
  push_cast
  omega

/-- No digit stands behind the point. -/
theorem writes_before_point (hds : AreDigits ds) (hne : ds ≠ []) (hlead : 0 ≤ lead)
    (hlength : ds.length ≤ lead.toNat + 1) :
    Writes (ds ++ List.replicate (lead.toNat + 1 - ds.length) '0' ++ '.' :: ['0'])
      (ofDigitChars 10 ds 0 * 10 ^ (lead - ds.length + 1)) := by
  have hwrites := Writes.point (hds.append (AreDigits.zeros (lead.toNat + 1 - ds.length)))
    (List.append_ne_nil_of_left_ne_nil hne _) (AreDigits.zeros 1)
  have hzeros : ofDigitChars 10 (ds ++ List.replicate (lead.toNat + 1 - ds.length) '0' ++
      List.replicate 1 '0') 0 = ofDigitChars 10 ds 0 * 10 ^ (lead.toNat + 1 - ds.length + 1) := by
    rw [List.append_assoc, ← List.replicate_add, ofDigitChars_append_zeros]
  rw [hzeros, List.length_replicate] at hwrites
  refine hwrites.of_eq ?_
  push_cast
  rw [mul_assoc, ← zpow_natCast, ← zpow_add₀ (by norm_num)]
  congr 2
  push_cast [Nat.cast_sub hlength]
  omega

/-- The point stands among the digits. -/
theorem writes_around_point (hds : AreDigits ds) (hlead : 0 ≤ lead)
    (hlength : lead.toNat + 1 < ds.length) :
    Writes (ds.take (lead.toNat + 1) ++ '.' :: ds.drop (lead.toNat + 1))
      (ofDigitChars 10 ds 0 * 10 ^ (lead - ds.length + 1)) := by
  have hwhole : AreDigits (ds.take (lead.toNat + 1)) := fun c hc => hds c (List.mem_of_mem_take hc)
  have hfraction : AreDigits (ds.drop (lead.toNat + 1)) := fun c hc =>
    hds c (List.mem_of_mem_drop hc)
  have hwrites := Writes.point hwhole
    (List.ne_nil_of_length_pos (by rw [List.length_take]; omega)) hfraction
  rw [List.take_append_drop, List.length_drop] at hwrites
  refine hwrites.of_eq ?_
  congr 2
  push_cast [Nat.cast_sub hlength.le]
  omega

/-- Whatever the layout, digits write what they are worth in their place. -/
theorem writes_place (l : Layout) (hds : AreDigits ds) (hne : ds ≠ []) (lead : ℤ) :
    Writes (l.place ds lead) (ofDigitChars 10 ds 0 * 10 ^ (lead - ds.length + 1)) := by
  unfold Layout.place
  split
  · split
    · next hlead => exact writes_behind_point hds hlead
    · next hlead =>
      rw [not_lt] at hlead
      dsimp only
      rcases Nat.lt_or_ge (lead.toNat + 1) ds.length with hlength | hlength
      · have hwhole : (ds.take (lead.toNat + 1)).length = lead.toNat + 1 :=
          List.length_take_of_le hlength.le
        have hrest : (ds.drop (lead.toNat + 1)).isEmpty = false := by
          rw [List.isEmpty_eq_false_iff, ← List.length_pos_iff, List.length_drop]
          omega
        rw [hwhole, Nat.sub_self, List.replicate_zero, List.append_nil, hrest,
          if_neg Bool.false_ne_true, List.append_assoc]
        exact writes_around_point hds hlead hlength
      · rw [List.take_of_length_le hlength, List.drop_eq_nil_of_le hlength, List.append_assoc]
        exact writes_before_point hds hne hlead hlength
  · have hpower : 'e' ∉ (if lead < 0 then ['-'] else if l.plusSign then ['+'] else []) ++
        Nat.toDigits 10 lead.natAbs := by
      intro hmem
      rcases List.mem_append.mp hmem with hmem | hmem
      · split at hmem
        · exact absurd hmem (by decide)
        · split at hmem
          · exact absurd hmem (by decide)
          · cases hmem
      · exact (areDigits_toDigits _).notMem (by decide) hmem
    have hexponent := signedWorth_exponent l.plusSign lead
    match ds, hne with
    | [d], _ =>
      have hwrites := Writes.power hds (List.cons_ne_nil d []) hpower
      rw [hexponent] at hwrites
      dsimp only
      rw [List.append_assoc, List.append_assoc]
      refine hwrites.of_eq ?_
      congr 2
      rw [List.length_singleton]
      push_cast
      omega
    | d :: d' :: rest, _ =>
      have hwhole : AreDigits [d] := fun c hc =>
        hds c (List.mem_cons.mpr (.inl (List.mem_singleton.mp hc)))
      have hfraction : AreDigits (d' :: rest) := fun c hc => hds c (List.mem_cons_of_mem d hc)
      have hwrites := Writes.both hwhole (List.cons_ne_nil d []) hfraction hpower
      rw [hexponent, mul_assoc, ← zpow_add₀ (by norm_num)] at hwrites
      dsimp only
      rw [List.append_assoc, List.append_assoc]
      refine hwrites.of_eq ?_
      rw [List.singleton_append]
      congr 2
      rw [List.length_cons, List.length_cons, List.length_cons]
      push_cast
      omega

end Place

/-! ### Texts of numbers -/

namespace Layout

variable {l : Layout} {x y : Float}

/-- The sign of a number as its text shows it. -/
def sign (x : Float) : List Char := if x.toBits >>> 63 = 0 then [] else ['-']

/-- What a number is worth without its sign. -/
def worth (x : Float) : ℚ :=
  if x.toBits.toNat % 2 ^ 63 = 0 then 0 else (Binary.ofBits x.toBits).shortest.worth

theorem shiftLeft_one_eq_zero_iff (bits : UInt64) : bits <<< 1 = 0 ↔ bits.toNat % 2 ^ 63 = 0 := by
  rw [← UInt64.toNat_inj, UInt64.toNat_shiftLeft, show (1 : UInt64).toNat % 64 = 1 from rfl,
    Nat.shiftLeft_eq, UInt64.toNat_zero]
  omega

theorem shiftRight_eq_zero_iff (bits : UInt64) : bits >>> 63 = 0 ↔ bits.toNat / 2 ^ 63 = 0 := by
  rw [← UInt64.toNat_inj, UInt64.toNat_shiftRight, show (63 : UInt64).toNat % 64 = 63 from rfl,
    Nat.shiftRight_eq_div_pow, UInt64.toNat_zero]

/-- The text of a number is its sign, and digits that write what it is worth. -/
theorem render_eq (l : Layout) (x : Float) :
    ∃ s, l.render x = String.ofList (sign x ++ s) ∧ Writes s (worth x) := by
  unfold render worth
  dsimp only
  rw [← sign]
  simp only [shiftLeft_one_eq_zero_iff]
  split
  · refine ⟨['0', '.', '0'], rfl, ?_⟩
    have hzero : ofDigitChars 10 (List.replicate 1 '0' ++ List.replicate 1 '0') 0 = 0 := by decide
    refine (Writes.point (AreDigits.zeros 1) (List.cons_ne_nil _ _) (AreDigits.zeros 1)).of_eq ?_
    rw [hzero, Nat.cast_zero, zero_mul]
  · refine ⟨_, rfl, ?_⟩
    have hwrites := writes_place l (areDigits_toDigits (Binary.ofBits x.toBits).shortest.digits)
      Nat.toDigits_ne_nil ((Binary.ofBits x.toBits).shortest.exponent +
        (Nat.toDigits 10 (Binary.ofBits x.toBits).shortest.digits).length - 1)
    refine hwrites.of_eq ?_
    rw [Nat.ofDigitChars_ten_toDigits, Scaled.worth]
    congr 2
    omega

/-- What a number is worth tells its bits but for the sign. -/
theorem magnitude_eq_of_worth_eq (h : worth x = worth y) :
    x.toBits.toNat % 2 ^ 63 = y.toBits.toNat % 2 ^ 63 := by
  unfold worth at h
  split at h
  · next hx =>
    split at h
    · next hy => rw [hx, hy]
    · next hy => exact absurd h (Binary.worth_shortest_pos (Nat.pos_of_ne_zero hy)).ne
  · next hx =>
    split at h
    · next hy => exact absurd h (Binary.worth_shortest_pos (Nat.pos_of_ne_zero hx)).ne'
    · next hy =>
      exact Binary.eq_of_worth_shortest (Nat.pos_of_ne_zero hx) (Nat.pos_of_ne_zero hy) h

/-- The sign of a number tells the bit that is left. -/
theorem signBit_eq_of_sign_eq (h : sign x = sign y) :
    x.toBits.toNat / 2 ^ 63 = y.toBits.toNat / 2 ^ 63 := by
  have hx := UInt64.toNat_lt x.toBits
  have hy := UInt64.toNat_lt y.toBits
  unfold sign at h
  simp only [shiftRight_eq_zero_iff] at h
  split at h
  · split at h
    · omega
    · cases h
  · split at h
    · cases h
    · omega

/-- A sign and a text that begins with a digit are told apart. -/
theorem sign_append_inj {c d : Char} {s t : List Char} (hc : c.isDigit = true)
    (hd : d.isDigit = true) (h : sign x ++ c :: s = sign y ++ d :: t) :
    sign x = sign y ∧ c :: s = d :: t := by
  have hsign : ∀ z, sign z = [] ∨ sign z = ['-'] := by
    intro z
    unfold sign
    split
    · exact Or.inl rfl
    · exact Or.inr rfl
  have hminus : '-'.isDigit = false := by decide
  rcases hsign x with hx | hx <;> rcases hsign y with hy | hy <;> rw [hx, hy] at h ⊢
  · exact ⟨rfl, h⟩
  · rw [(List.cons.inj h).1, hminus] at hc
    cases hc
  · rw [← (List.cons.inj h).1, hminus] at hd
    cases hd
  · exact ⟨rfl, (List.cons.inj h).2⟩

/-- No two numbers have one text. -/
theorem render_injective (l : Layout) : Function.Injective l.render := by
  intro x y h
  obtain ⟨s, hx, hs⟩ := l.render_eq x
  obtain ⟨t, hy, ht⟩ := l.render_eq y
  obtain ⟨c, s', rfl, hc⟩ := hs.exists_digit
  obtain ⟨d, t', rfl, hd⟩ := ht.exists_digit
  rw [hx, hy] at h
  obtain ⟨hsign, htext⟩ := sign_append_inj hc hd (String.ofList_injective h)
  have hworth : worth x = worth y := by rw [← hs.textWorth_eq, htext, ht.textWorth_eq]
  have hmagnitude := magnitude_eq_of_worth_eq hworth
  have hbit := signBit_eq_of_sign_eq hsign
  have hbits : x.toBits = y.toBits := UInt64.toNat_inj.mp (by omega)
  cases x with
  | ofModel x =>
    cases y with
    | ofModel y =>
      cases x
      cases y
      cases hbits
      rfl

end Layout

end ClassSchema.Decimal
