import Relational.Json.Number
import Relational.Proofs.Binary64.Shortest
import Relational.Proofs.Json.Numeral
import Relational.Proofs.Text.Number

/-!
# Floating-point numbers as numerals

The numeral of a finite number can be written, and it is read as some number.

It need not be the same number, because the reader rounds more than once.  What the
reader must not do is to overflow.  The decimal that is written lies below the midpoint
before the greatest number, unless it stands for that number, and so far even the double
rounding stays finite.
-/

namespace Relational

namespace Numeral

open Binary64

/-- The number that a numeral spells, up to its sign. -/
def magnitude (n : Numeral) : ℚ :=
  Nat.ofDigitChars 10 (n.whole ++ n.fraction) 0 * 10 ^ (n.exponentValue - n.fraction.length)

/-! ## Numerals of decimals -/

section

variable {d : Decimal}

theorem isWellFormed_ofDecimal (negative : Bool) (h : d.IsSignificant) :
    (ofDecimal negative d).IsWellFormed := by
  simp only [ofDecimal]
  split
  · constructor
    case nonempty => exact h.positional_whole.1
    case whole => exact h.positional_whole.2.1
    case leading => exact h.positional_whole.2.2
    case fraction =>
      dsimp only
      split
      · simp [Char.isDigit]
      · exact h.positional_fraction
    case exponent => exact nofun
  · obtain ⟨c, digits, hdigits⟩ := List.exists_cons_of_ne_nil h.nonempty
    constructor
    case nonempty => simp [hdigits]
    case whole => exact fun c hc => h.digits c (List.mem_of_mem_take hc)
    case leading =>
      intro hhead
      have hleading := h.leading
      rw [hdigits] at hhead hleading
      exact absurd hhead hleading
    case fraction => exact fun c hc => h.digits c (List.mem_of_mem_drop hc)
    case exponent =>
      intro sign digits hexponent
      obtain ⟨-, rfl⟩ := Prod.mk.inj (Option.some.inj hexponent)
      exact ⟨Nat.toDigits_ne_nil, fun _ hc => Text.isDigit_of_mem_toDigits hc⟩

theorem length_whole_ofDecimal_le (negative : Bool) (d : Decimal) :
    (ofDecimal negative d).whole.length ≤ 16 := by
  simp only [ofDecimal]
  split
  · next hpower => exact Decimal.length_positional_whole_le (by decide) (by omega)
  · exact Nat.le_trans (List.length_take_le 1 d.digits) (by decide)

/-- A fraction of a single zero changes nothing. -/
theorem magnitude_zero_fraction (negative : Bool) (whole : List Char) :
    magnitude ⟨negative, whole, ['0'], none⟩ = magnitude ⟨negative, whole, [], none⟩ := by
  unfold magnitude
  rw [Nat.ofDigitChars_append]
  simp only [exponentValue, Nat.ofDigitChars_cons, Nat.ofDigitChars_nil, List.append_nil]
  norm_num
  ring

theorem magnitude_ofDecimal (negative : Bool) (h : d.IsSignificant) :
    (ofDecimal negative d).magnitude = d.value := by
  simp only [ofDecimal]
  split
  · rw [← d.value_positional]
    split
    · next hempty =>
        rw [magnitude_zero_fraction, hempty]
        simp [magnitude, exponentValue]
    · simp [magnitude, exponentValue]
  · have hlength : 1 ≤ d.digits.length := List.length_pos_of_ne_nil h.nonempty
    have hexponent : exponentValue ⟨negative, d.digits.take 1, d.digits.drop 1,
        some (if d.point - 1 < 0 then ExponentSign.minus else .plus,
          Nat.toDigits 10 (d.point - 1).natAbs)⟩ = d.point - 1 := by
      unfold exponentValue
      by_cases hnegative : d.point - 1 < 0
      · simp only [if_pos hnegative, Nat.ofDigitChars_ten_toDigits]
        omega
      · simp only [if_neg hnegative, Nat.ofDigitChars_ten_toDigits]
        omega
    unfold magnitude Decimal.value
    rw [hexponent, List.take_append_drop, List.length_drop]
    congr 2
    omega

end

/-! ## Leading digits -/

section

variable {significand rest : Nat} {cs : List Char}

/-- Digits that fit are all appended. -/
theorem accumulate_of_lt (h : Nat.ofDigitChars 10 cs significand < 2 ^ 64) :
    accumulate significand cs = (Nat.ofDigitChars 10 cs significand, []) := by
  induction cs generalizing significand with
  | nil => rfl
  | cons c cs ih =>
      rw [Nat.ofDigitChars_cons, Nat.mul_comm] at h ⊢
      have hle : significand * 10 + (c.toNat - '0'.toNat) ≤
          Nat.ofDigitChars 10 cs (significand * 10 + (c.toNat - '0'.toNat)) := by
        rw [Nat.ofDigitChars_eq_ofDigitChars_zero]
        have hpower : 0 < 10 ^ cs.length := by positivity
        nlinarith
      have hfits : significand * 10 + (c.toNat - '0'.toNat) < UInt64.size :=
        Nat.lt_of_le_of_lt hle h
      simp only [accumulate]
      rw [if_pos hfits, ih h]

/-- The digits that no longer fit are worth at least a power of ten each. -/
theorem accumulate_mul_pow_le (significand : Nat) (cs : List Char) :
    (accumulate significand cs).1 * 10 ^ (accumulate significand cs).2.length ≤
      Nat.ofDigitChars 10 cs significand := by
  induction cs generalizing significand with
  | nil => simp [accumulate]
  | cons c cs ih =>
      simp only [accumulate]
      split
      · rw [Nat.ofDigitChars_cons, Nat.mul_comm 10 significand]
        exact ih _
      · rw [Nat.ofDigitChars_eq_ofDigitChars_zero, Nat.mul_comm]
        exact Nat.le_add_right _ _

theorem accumulate_lt (cs : List Char) (h : significand < 2 ^ 64) :
    (accumulate significand cs).1 < 2 ^ 64 := by
  induction cs generalizing significand with
  | nil => exact h
  | cons c cs ih =>
      simp only [accumulate]
      split
      · next hnext => exact ih hnext
      · exact h

end

/-! ## Scaling -/

/-- The midpoint of the two greatest finite numbers. -/
def lastMidpoint : Nat := (2 ^ 54 - 3) * 2 ^ 970

/-- What is past the last midpoint is rounded to the greatest number, or overflows. -/
theorem nearestPattern_past_lastMidpoint :
    nearestPattern (lastMidpoint + 1) 1 = infinityBits - 1 := by decide +kernel

theorem ten_pow_le_ten_pow {i j : Nat} (h : i ≤ j) : 10 ^ i ≤ 10 ^ j :=
  Nat.pow_le_pow_right (by decide) h

theorem lastMidpoint_bounds :
    10 ^ 308 ≤ lastMidpoint + 1 ∧ lastMidpoint < 10 ^ (308 + 1) ∧
      lastMidpoint ≤ 10 ^ (288 + 1) * 2 ^ 64 := by
  decide +kernel

theorem lastMidpoint_lt_ten_pow {k : Nat} (h : 308 + 1 ≤ k) : lastMidpoint < 10 ^ k :=
  Nat.lt_of_lt_of_le lastMidpoint_bounds.2.1 (ten_pow_le_ten_pow h)

theorem lastMidpoint_div_le {k : Nat} (h : 288 + 1 ≤ k) : lastMidpoint / 10 ^ k ≤ 2 ^ 64 :=
  Nat.div_le_of_le_mul
    (Nat.le_trans lastMidpoint_bounds.2.2 (Nat.mul_le_mul_right _ (ten_pow_le_ten_pow h)))

/-- Up to this power of ten, no significand of 64 bits reaches the last midpoint. -/
theorem isFinite_mul_powerOfTen :
    ((ofRatio false (2 ^ 64) 1).mul (powerOfTen 288)).isFinite = true := by decide +kernel

/-- For the powers after it, the greatest significands below the last midpoint. -/
theorem isFinite_mul_powerOfTen_past : ∀ k < 309, 288 < k →
    ((ofRatio false (lastMidpoint / 10 ^ k) 1).mul (powerOfTen k)).isFinite = true := by
  decide +kernel

/-- The greatest power of ten that is read is finite, and so is all that is below it. -/
theorem isFinite_ten_pow : (ofRatio false (10 ^ 308) 1).isFinite = true := by
  refine isFinite_ofRatio_of_le lastMidpoint_bounds.1 ?_
  rw [isFinite_iff, pattern_ofRatio, nearestPattern_past_lastMidpoint]
  decide

theorem powerOfTen_units_le {k k' : Nat} (h : k ≤ k') (hlast : k' ≤ 308) :
    (powerOfTen k).units ≤ (powerOfTen k').units :=
  units_ofRatio_le (ten_pow_le_ten_pow h)
    (isFinite_ofRatio_of_le (ten_pow_le_ten_pow hlast) isFinite_ten_pow)

theorem isFinite_significand {significand : Nat} (h : significand ≤ 2 ^ 64) :
    (ofRatio false significand 1).isFinite = true := by
  have hpower : 2 ^ 64 ≤ 10 ^ 20 := by decide
  exact isFinite_ofRatio_of_le (h.trans (hpower.trans (ten_pow_le_ten_pow (by decide))))
    isFinite_ten_pow

section

variable {significand : Nat}

/-- Multiplying does not overflow as long as the exact product is below the last
midpoint. -/
theorem isFinite_mul_of_le_lastMidpoint {k : Nat} (hfits : significand < 2 ^ 64) (hk : k ≤ 308)
    (h : significand * 10 ^ k ≤ lastMidpoint) :
    ((ofRatio false significand 1).mul (powerOfTen k)).isFinite = true := by
  rcases Nat.lt_or_ge 288 k with hpast | hearly
  · have hle : significand ≤ lastMidpoint / 10 ^ k :=
      (Nat.le_div_iff_mul_le (by positivity)).mpr h
    exact isFinite_mul_of_le
      (units_ofRatio_le hle (isFinite_significand (lastMidpoint_div_le hpast))) le_rfl
      (isFinite_mul_powerOfTen_past k (by omega) hpast)
  · exact isFinite_mul_of_le (units_ofRatio_le hfits.le (isFinite_significand le_rfl))
      (powerOfTen_units_le hearly (by decide)) isFinite_mul_powerOfTen

theorem scale_natCast_isSome {k : Nat} (hfits : significand < 2 ^ 64)
    (h : significand * 10 ^ k ≤ lastMidpoint) : (scale significand k).isSome = true := by
  unfold scale
  dsimp only
  split
  · rfl
  · next hzero =>
      have hpositive : 0 < significand := by
        rw [Nat.pos_iff_ne_zero]
        rintro rfl
        exact hzero (isZero_iff.mpr (by rw [pattern_ofRatio, nearestPattern_zero]))
      have hk : k ≤ 308 := by
        by_contra hgreater
        have hproduct : 10 ^ k ≤ significand * 10 ^ k := Nat.le_mul_of_pos_left _ hpositive
        have hlast := lastMidpoint_lt_ten_pow (Nat.lt_of_not_le hgreater)
        omega
      rw [if_neg (by omega), if_pos (by omega), Int.toNat_natCast,
        Option.filter_some, if_pos (isFinite_mul_of_le_lastMidpoint hfits hk h)]
      rfl

/-- A quotient never overflows. -/
theorem scale_negSucc_isSome (significand k : Nat) :
    (scale significand (.negSucc k)).isSome = true := by
  unfold scale
  dsimp only
  split
  · rfl
  · rw [if_neg (by omega), if_neg (by omega)]
    split
    · rfl
    · split <;> rfl

end

/-- If the whole digits fit, then so does the significand, and with its power of ten it is not
greater than the number that the numeral spells. -/
theorem leading_le_magnitude {n : Numeral} (h : Nat.ofDigitChars 10 n.whole 0 < 2 ^ 64) :
    n.leading.1 < 2 ^ 64 ∧
      (n.leading.1 * 10 ^ (n.leading.2 + n.exponentValue) : ℚ) ≤ n.magnitude := by
  have hfits := accumulate_lt n.fraction h
  have hdigits := accumulate_mul_pow_le (Nat.ofDigitChars 10 n.whole 0) n.fraction
  rcases hfraction : accumulate (Nat.ofDigitChars 10 n.whole 0) n.fraction with
    ⟨significand, dropped⟩
  rw [hfraction] at hfits hdigits
  rw [← Nat.ofDigitChars_append] at hdigits
  have hleading : n.leading = (significand, (dropped.length : Int) - n.fraction.length) := by
    simp [leading, accumulate_of_lt h, hfraction]
  rw [hleading]
  refine ⟨hfits, ?_⟩
  have hpower : (10 : ℚ) ^ ((dropped.length : Int) - n.fraction.length + n.exponentValue) =
      10 ^ dropped.length * 10 ^ (n.exponentValue - n.fraction.length) := by
    rw [← zpow_natCast, ← zpow_add₀ (by norm_num)]
    congr 1
    omega
  calc (significand * 10 ^ ((dropped.length : Int) - n.fraction.length + n.exponentValue) : ℚ)
      = significand * 10 ^ dropped.length * 10 ^ (n.exponentValue - n.fraction.length) := by
        rw [hpower, mul_assoc]
    _ ≤ n.magnitude := by
        refine mul_le_mul_of_nonneg_right ?_ (by positivity)
        exact_mod_cast hdigits

/-- A well-formed numeral of few whole digits is read as a number if it spells one that is
not past the last midpoint. -/
theorem toBinary64?_isSome_of_magnitude {n : Numeral} (h : n.IsWellFormed)
    (hlength : n.whole.length ≤ 16) (hmagnitude : n.magnitude < lastMidpoint + 1) :
    n.toBinary64?.isSome = true := by
  have hwhole : Nat.ofDigitChars 10 n.whole 0 < 2 ^ 64 :=
    calc Nat.ofDigitChars 10 n.whole 0 < 10 ^ n.whole.length := Text.ofDigitChars_lt h.whole
      _ ≤ 10 ^ 16 := ten_pow_le_ten_pow hlength
      _ < 2 ^ 64 := by decide
  obtain ⟨hfits, hle⟩ := leading_le_magnitude hwhole
  have hlt := hle.trans_lt hmagnitude
  unfold toBinary64?
  dsimp only
  rw [Option.isSome_map]
  cases hexponent : n.leading.2 + n.exponentValue with
  | negSucc k => exact scale_negSucc_isSome n.leading.1 k
  | ofNat k =>
      refine scale_natCast_isSome hfits ?_
      rw [hexponent, Int.ofNat_eq_natCast, zpow_natCast] at hlt
      have hnatural : n.leading.1 * 10 ^ k < lastMidpoint + 1 := by exact_mod_cast hlt
      exact Nat.lt_add_one_iff.mp hnatural

end Numeral

/-! ## Finite numbers -/

namespace Binary64

open Numeral

variable {x : Binary64} {n : Nat} {shift : Int}

/-- What reads back as a number other than the greatest is not past the last midpoint. -/
theorem lt_of_readsBack (h : x.readsBack n shift = true)
    (hpattern : x.pattern < infinityBits - 1) : (n * 10 ^ (-shift) : ℚ) < lastMidpoint + 1 := by
  obtain ⟨num, den, hden, hquotient, hnearest⟩ := exists_quotient_of_readsBack h
  by_contra hle
  rw [not_lt, hquotient] at hle
  have hgreatest : infinityBits - 1 ≤ x.pattern := by
    rw [← nearestPattern_past_lastMidpoint, ← hnearest]
    refine nearestPattern_le_of_div_le Nat.one_pos hden ?_
    rwa [Nat.cast_one, div_one, Nat.cast_succ]
  omega

theorem isWellFormed_ofBinary64 (h : x.isFinite = true) : (ofBinary64 x).IsWellFormed := by
  unfold ofBinary64
  split
  · constructor <;> simp [Char.isDigit]
  · next hzero =>
      exact isWellFormed_ofDecimal _ (isSignificant_shortest .even h (eq_false_of_ne_true hzero))

/-- The greatest number of either sign is read. -/
theorem toBinary64?_greatest_isSome : ∀ negative,
    (ofBinary64 (signed negative (infinityBits - 1))).toBinary64?.isSome = true := by
  decide +kernel

/-- Every finite number is written as a numeral that is read as some number. -/
theorem toBinary64?_ofBinary64_isSome (h : x.isFinite = true) :
    (ofBinary64 x).toBinary64?.isSome = true := by
  by_cases hgreatest : x.pattern = infinityBits - 1
  · have hsigned := toBinary64?_greatest_isSome x.isNegative
    rwa [← hgreatest, signed_pattern] at hsigned
  · have hpattern : x.pattern < infinityBits - 1 := by
      have hfinite := isFinite_iff.mp h
      omega
    refine toBinary64?_isSome_of_magnitude (isWellFormed_ofBinary64 h) ?_ ?_
    · unfold ofBinary64
      split
      · exact Nat.le_of_ble_eq_true rfl
      · exact length_whole_ofDecimal_le _ _
    · unfold ofBinary64
      split
      · have hnothing : magnitude ⟨x.isNegative, ['0'], ['0'], none⟩ = 0 := by
          simp [magnitude, Nat.ofDigitChars_cons]
        rw [hnothing]
        exact Nat.cast_add_one_pos lastMidpoint
      · next hzero =>
          obtain ⟨n, shift, hshortest, hback⟩ := exists_decimalOf_shortest .even h
          have hsignificant := isSignificant_shortest .even h (eq_false_of_ne_true hzero)
          rw [magnitude_ofDecimal _ hsignificant, hshortest, value_decimalOf]
          exact lt_of_readsBack hback hpattern

end Binary64

end Relational
