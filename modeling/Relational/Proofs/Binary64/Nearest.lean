import Mathlib.Data.Nat.Log
import Mathlib.Tactic.Linarith
import Mathlib.Tactic.Positivity
import Mathlib.Tactic.Ring
import Relational.Binary64.Basic

/-!
# Nearest numbers

Rounding to the nearest pattern respects the order of quotients, and leaves alone what
needs no rounding.

Within one binade this is rounding to the nearest integer.  A greater quotient in a
later binade has a greater pattern because no binade rounds past the first pattern of
the next one.
-/

namespace Relational.Binary64

/-! ## Signs and patterns -/

theorem signed_eq (negative : Bool) (pattern : Nat) :
    signed negative pattern = ⟨UInt64.ofNat (if negative then 2 ^ 63 + pattern else pattern)⟩ := rfl

theorem isNegative_iff {x : Binary64} : x.isNegative = true ↔ 2 ^ 63 ≤ x.bits.toNat :=
  decide_eq_true_iff

theorem pattern_eq (x : Binary64) : x.pattern = x.bits.toNat % 2 ^ 63 := rfl

theorem pattern_signed {negative : Bool} {pattern : Nat} (h : pattern < 2 ^ 63) :
    (signed negative pattern).pattern = pattern := by
  rw [signed_eq, pattern_eq]
  cases negative with
  | false =>
      simp only [Bool.false_eq_true, if_false, UInt64.toNat_ofNat']
      omega
  | true =>
      simp only [if_true, UInt64.toNat_ofNat']
      omega

theorem signed_pattern (x : Binary64) : signed x.isNegative x.pattern = x := by
  have hbits := x.bits.toNat_lt
  have hsame : (if x.isNegative then 2 ^ 63 + x.pattern else x.pattern) = x.bits.toNat := by
    rw [pattern_eq]
    split
    · next h =>
        rw [isNegative_iff] at h
        omega
    · next h =>
        rw [isNegative_iff] at h
        omega
  rw [signed_eq, hsame, UInt64.ofNat_toNat]

theorem isFinite_iff {x : Binary64} : x.isFinite = true ↔ x.pattern < infinityBits := by
  unfold isFinite
  exact decide_eq_true_iff

theorem isZero_iff {x : Binary64} : x.isZero = true ↔ x.pattern = 0 := by
  unfold isZero
  exact beq_iff_eq

/-! ## Rounding to integers -/

section

variable {num den num' den' : Nat}

theorem div_le_div_of_mul_le (hden : 0 < den) (hden' : 0 < den')
    (h : num * den' ≤ num' * den) : num / den ≤ num' / den' := by
  rw [Nat.le_div_iff_mul_le hden']
  have hfloor := Nat.div_mul_le_self num den
  have hscaled : num / den * den' * den ≤ num' * den :=
    calc num / den * den' * den = num / den * den * den' := by ring
      _ ≤ num * den' := Nat.mul_le_mul_right den' hfloor
      _ ≤ num' * den := h
  exact Nat.le_of_mul_le_mul_right hscaled hden

theorem div_le_roundHalfEven (num den : Nat) : num / den ≤ roundHalfEven num den := by
  simp only [roundHalfEven]
  split <;> omega

theorem roundHalfEven_le (num den : Nat) : roundHalfEven num den ≤ num / den + 1 := by
  simp only [roundHalfEven]
  split <;> omega

theorem roundHalfEven_mono (hden : 0 < den) (hden' : 0 < den')
    (h : num * den' ≤ num' * den) : roundHalfEven num den ≤ roundHalfEven num' den' := by
  have hfloor : num / den ≤ num' / den' := div_le_div_of_mul_le hden hden' h
  rcases Nat.lt_or_eq_of_le hfloor with hlt | heq
  · have hupper := roundHalfEven_le num den
    have hlower := div_le_roundHalfEven num' den'
    omega
  · -- With the same integer part, the rests are in the order of the quotients.
    have hnum := Nat.div_add_mod num den
    have hnum' := Nat.div_add_mod num' den'
    have hsum : den * (num' / den') * den' + num % den * den' ≤
        den' * (num' / den') * den + num' % den' * den := by
      rw [← Nat.add_mul, ← Nat.add_mul, ← heq, hnum, heq, hnum']
      exact h
    have hcommon : den * (num' / den') * den' = den' * (num' / den') * den := by ring
    have hrest : num % den * den' ≤ num' % den' * den := by
      rw [hcommon] at hsum
      exact Nat.le_of_add_le_add_left hsum
    have hgreater : den < 2 * (num % den) → den' < 2 * (num' % den') := by
      intro hgt
      by_contra hle
      have h1 : den * den' < 2 * (num % den) * den' := Nat.mul_lt_mul_of_pos_right hgt hden'
      have h2 : 2 * (num' % den') * den ≤ den' * den := Nat.mul_le_mul_right den (by omega)
      nlinarith
    have htie : 2 * (num % den) = den → den' ≤ 2 * (num' % den') := by
      intro htie
      by_contra hlt
      have h1 : 2 * (num % den) * den' = den * den' := by rw [htie]
      have h2 : 2 * (num' % den') * den < den' * den :=
        Nat.mul_lt_mul_of_pos_right (by omega) hden
      nlinarith
    simp only [roundHalfEven, heq]
    split
    · next hup =>
        have hup' : den' < 2 * (num' % den') ∨
            2 * (num' % den') = den' ∧ num' / den' % 2 = 1 := by
          rcases hup with hgt | ⟨heven, hodd⟩
          · exact .inl (hgreater hgt)
          · have hle := htie heven
            omega
        rw [if_pos hup']
    · split <;> omega

theorem roundHalfEven_mul_right (n : Nat) (hden : 0 < den) :
    roundHalfEven (n * den) den = n := by
  simp only [roundHalfEven, Nat.mul_div_cancel n hden, Nat.mul_mod_left]
  rw [if_neg (by omega)]

/-! ## Rounding to patterns -/

/-- The binade of a quotient that is given in units, counted from zero. -/
def binade (scaled den : Nat) : Nat := (scaled / den).log2 - 52

theorem nearestPattern_eq (num den : Nat) :
    nearestPattern num den =
      min (binade (num * unitsPerOne) den * 2 ^ 52 +
        roundHalfEven (num * unitsPerOne) (den * 2 ^ binade (num * unitsPerOne) den))
        infinityBits := rfl

theorem nearestPattern_le_infinityBits (num den : Nat) :
    nearestPattern num den ≤ infinityBits := Nat.min_le_right _ _

theorem nearestPattern_lt (num den : Nat) : nearestPattern num den < 2 ^ 63 :=
  Nat.lt_of_le_of_lt (nearestPattern_le_infinityBits num den) (by decide)

/-- No binade rounds past the first pattern of the next one. -/
theorem roundHalfEven_binade_le (scaled den : Nat) :
    roundHalfEven scaled (den * 2 ^ binade scaled den) ≤ 2 ^ 53 := by
  have hlog : (scaled / den).log2 < 53 + binade scaled den := by
    unfold binade
    omega
  have hfloor : scaled / (den * 2 ^ binade scaled den) < 2 ^ 53 := by
    rw [← Nat.div_div_eq_div_mul, Nat.div_lt_iff_lt_mul (by positivity), ← Nat.pow_add]
    exact Nat.lt_of_lt_of_le Nat.lt_log2_self (Nat.pow_le_pow_right (by omega) hlog)
  have hround := roundHalfEven_le scaled (den * 2 ^ binade scaled den)
  omega

/-- After the first binade, no quotient lies below the first pattern of its own. -/
theorem le_roundHalfEven_binade {scaled den : Nat} (h : 0 < binade scaled den) :
    2 ^ 52 ≤ roundHalfEven scaled (den * 2 ^ binade scaled den) := by
  have hlog : (scaled / den).log2 = 52 + binade scaled den := by
    unfold binade at h ⊢
    omega
  have hne : scaled / den ≠ 0 := by
    intro hzero
    rw [hzero, Nat.log2_zero] at hlog
    omega
  have hfloor : 2 ^ 52 ≤ scaled / (den * 2 ^ binade scaled den) := by
    rw [← Nat.div_div_eq_div_mul, Nat.le_div_iff_mul_le (by positivity), ← Nat.pow_add, ← hlog]
    exact Nat.log2_self_le hne
  exact Nat.le_trans hfloor (div_le_roundHalfEven _ _)

theorem nearestPattern_mono (hden : 0 < den) (hden' : 0 < den')
    (h : num * den' ≤ num' * den) : nearestPattern num den ≤ nearestPattern num' den' := by
  have hscaled : num * unitsPerOne * den' ≤ num' * unitsPerOne * den := by
    calc num * unitsPerOne * den' = num * den' * unitsPerOne := by ring
      _ ≤ num' * den * unitsPerOne := Nat.mul_le_mul_right _ h
      _ = num' * unitsPerOne * den := by ring
  have hbinade : binade (num * unitsPerOne) den ≤ binade (num' * unitsPerOne) den' := by
    have hlog := Nat.log_mono_right (b := 2) (div_le_div_of_mul_le hden hden' hscaled)
    rw [← Nat.log2_eq_log_two, ← Nat.log2_eq_log_two] at hlog
    unfold binade
    omega
  rw [nearestPattern_eq, nearestPattern_eq]
  apply min_le_min_right
  rcases Nat.lt_or_eq_of_le hbinade with hlt | heq
  · have hupper := roundHalfEven_binade_le (num * unitsPerOne) den
    have hlower := le_roundHalfEven_binade (Nat.zero_lt_of_lt hlt)
    omega
  · rw [heq]
    apply Nat.add_le_add_left
    apply roundHalfEven_mono (by positivity) (by positivity)
    calc num * unitsPerOne * (den' * 2 ^ binade (num' * unitsPerOne) den')
        = num * unitsPerOne * den' * 2 ^ binade (num' * unitsPerOne) den' := by ring
      _ ≤ num' * unitsPerOne * den * 2 ^ binade (num' * unitsPerOne) den' :=
          Nat.mul_le_mul_right _ hscaled
      _ = num' * unitsPerOne * (den * 2 ^ binade (num' * unitsPerOne) den') := by ring

/-- The pattern depends on the quotient only. -/
theorem nearestPattern_congr (hden : 0 < den) (hden' : 0 < den') (h : num * den' = num' * den) :
    nearestPattern num den = nearestPattern num' den' :=
  Nat.le_antisymm (nearestPattern_mono hden hden' h.le) (nearestPattern_mono hden' hden h.ge)

end

/-! ## Numbers that need no rounding -/

theorem unitsPerOne_eq : unitsPerOne = 2 ^ 1074 := by
  -- As long as the exponent is a numeral, comparing the powers would evaluate them.
  unfold unitsPerOne
  generalize 1074 = e
  exact Nat.pow_eq

theorem unitsPerOne_pos : 0 < unitsPerOne := by
  unfold unitsPerOne
  generalize 1074 = e
  exact Nat.two_pow_pos e

theorem units_eq (x : Binary64) :
    x.units = if x.pattern < 2 ^ 52 then x.pattern
      else (2 ^ 52 + x.pattern % 2 ^ 52) * 2 ^ (x.pattern / 2 ^ 52 - 1) := rfl

/-- A whole number of units in a binade is rounded to its pattern there. -/
theorem nearestPattern_of_binade {units e n : Nat} (hunits : units = n * 2 ^ e)
    (hbinade : binade units 1 = e) (hfinite : e * 2 ^ 52 + n ≤ infinityBits) :
    nearestPattern units unitsPerOne = e * 2 ^ 52 + n := by
  have hsame : binade (units * unitsPerOne) unitsPerOne = e := by
    unfold binade at hbinade ⊢
    rw [Nat.mul_div_cancel _ unitsPerOne_pos, ← hbinade, Nat.div_one]
  have hround : roundHalfEven (units * unitsPerOne) (unitsPerOne * 2 ^ e) = n := by
    have hmul : units * unitsPerOne = n * (unitsPerOne * 2 ^ e) := by rw [hunits]; ring
    rw [hmul, roundHalfEven_mul_right n (Nat.mul_pos unitsPerOne_pos (Nat.two_pow_pos e))]
  rw [nearestPattern_eq, hsame, hround, Nat.min_eq_left hfinite]

/-- A finite number is the nearest to its own magnitude. -/
theorem nearestPattern_units {x : Binary64} (h : x.isFinite = true) :
    nearestPattern x.units unitsPerOne = x.pattern := by
  have hfinite := isFinite_iff.mp h
  rw [units_eq]
  split
  · next hsmall =>
      have hbinade : binade x.pattern 1 = 0 := by
        unfold binade
        rw [Nat.div_one]
        by_cases hzero : x.pattern = 0
        · rw [hzero, Nat.log2_zero]
        · have hlog := (Nat.log2_lt hzero).mpr hsmall
          omega
      rw [nearestPattern_of_binade (e := 0) (n := x.pattern) (by ring) hbinade (by omega)]
      omega
  · next hlarge =>
      have hsplit := Nat.div_add_mod x.pattern (2 ^ 52)
      have hrest := Nat.mod_lt x.pattern (Nat.two_pow_pos 52)
      have hplace : 0 < x.pattern / 2 ^ 52 := by omega
      have hbinade : binade ((2 ^ 52 + x.pattern % 2 ^ 52) * 2 ^ (x.pattern / 2 ^ 52 - 1)) 1 =
          x.pattern / 2 ^ 52 - 1 := by
        have hlog : ((2 ^ 52 + x.pattern % 2 ^ 52) * 2 ^ (x.pattern / 2 ^ 52 - 1)).log2 =
            52 + (x.pattern / 2 ^ 52 - 1) := by
          rw [Nat.log2_eq_iff (by positivity)]
          constructor
          · rw [Nat.pow_add]
            exact Nat.mul_le_mul_right _ (by omega)
          · rw [Nat.add_right_comm, Nat.pow_add]
            exact Nat.mul_lt_mul_of_pos_right (by omega) (Nat.two_pow_pos _)
        unfold binade
        rw [Nat.div_one, hlog, Nat.add_sub_cancel_left]
      rw [nearestPattern_of_binade rfl hbinade (by omega)]
      omega

theorem units_le_units {x y : Binary64} (hx : x.isFinite = true) (hy : y.isFinite = true)
    (h : x.pattern ≤ y.pattern) : x.units ≤ y.units := by
  by_contra hlt
  have hpattern : y.pattern ≤ x.pattern := by
    rw [← nearestPattern_units hx, ← nearestPattern_units hy]
    exact nearestPattern_mono unitsPerOne_pos unitsPerOne_pos
      (Nat.mul_le_mul_right _ (by omega))
  have heq : x.pattern = y.pattern := Nat.le_antisymm h hpattern
  apply hlt
  unfold units
  rw [heq]

/-! ## Products -/

theorem pattern_ofRatio (negative : Bool) (num den : Nat) :
    (ofRatio negative num den).pattern = nearestPattern num den :=
  pattern_signed (nearestPattern_lt num den)

theorem isFinite_ofRatio_of_le {num num' : Nat} {negative : Bool} (h : num ≤ num')
    (hfinite : (ofRatio negative num' 1).isFinite = true) :
    (ofRatio negative num 1).isFinite = true := by
  rw [isFinite_iff, pattern_ofRatio] at hfinite ⊢
  exact Nat.lt_of_le_of_lt (nearestPattern_mono Nat.one_pos Nat.one_pos (by omega)) hfinite

theorem units_ofRatio_le {num num' : Nat} {negative : Bool} (h : num ≤ num')
    (hfinite : (ofRatio negative num' 1).isFinite = true) :
    (ofRatio negative num 1).units ≤ (ofRatio negative num' 1).units := by
  refine units_le_units (isFinite_ofRatio_of_le h hfinite) hfinite ?_
  rw [pattern_ofRatio, pattern_ofRatio]
  exact nearestPattern_mono Nat.one_pos Nat.one_pos (by omega)

/-- A product does not overflow if one of greater factors does not. -/
theorem isFinite_mul_of_le {x x' y y' : Binary64} (hx : x.units ≤ x'.units)
    (hy : y.units ≤ y'.units) (h : (x'.mul y').isFinite = true) :
    (x.mul y).isFinite = true := by
  rw [isFinite_iff] at h ⊢
  unfold mul at h ⊢
  rw [pattern_ofRatio] at h ⊢
  have hden : 0 < unitsPerOne * unitsPerOne := Nat.mul_pos unitsPerOne_pos unitsPerOne_pos
  have hproduct : x.units * y.units ≤ x'.units * y'.units := Nat.mul_le_mul hx hy
  exact Nat.lt_of_le_of_lt
    (nearestPattern_mono hden hden (Nat.mul_le_mul_right _ hproduct)) h

end Relational.Binary64
