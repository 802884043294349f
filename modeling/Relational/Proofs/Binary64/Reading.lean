import Mathlib.Data.List.TakeWhile
import Relational.Binary64.Text
import Relational.Proofs.Binary64.Shortest
import Relational.Proofs.Text.Number

/-!
# Reading numbers in SQL

A decimal is read by one rounding of the quotient that it stands for; the numbers that are told
by the place of their first digit alone are no exception.  So the text of a number, which is
the text of a decimal that reads back, is read as that number: `ofText_toText`.
-/

namespace Relational.Binary64

/-! ## Quotients past the bounds -/

section

variable {num den : Nat}

/-- A number that is too great for every pattern, and one that is too small. -/
theorem nearestPattern_past_bounds :
    nearestPattern (10 ^ 310) 1 = infinityBits ∧ nearestPattern 1 (10 ^ 331) = 0 := by
  decide +kernel

theorem nearestPattern_of_huge (hden : 0 < den) (h : (10 ^ 310 : ℚ) ≤ num / den) :
    nearestPattern num den = infinityBits := by
  refine Nat.le_antisymm (nearestPattern_le_infinityBits num den) ?_
  rw [← nearestPattern_past_bounds.1]
  refine nearestPattern_le_of_div_le Nat.one_pos hden ?_
  rwa [Nat.cast_one, div_one, Nat.cast_pow]

theorem nearestPattern_of_tiny (hden : 0 < den) (h : (num : ℚ) / den ≤ 1 / 10 ^ 331) :
    nearestPattern num den = 0 := by
  rw [← Nat.le_zero, ← nearestPattern_past_bounds.2]
  refine nearestPattern_le_of_div_le hden (by positivity) ?_
  rwa [Nat.cast_one, Nat.cast_pow]

end

/-! ## Decimals -/

section

variable {digits : List Char} {exponent : Int} {num den : Nat}

/-- A first digit other than zero tells the size of a decimal. -/
theorem decimal_bounds {c : Char} {cs : List Char} (hdigits : ∀ d ∈ c :: cs, d.isDigit = true)
    (hfirst : c ≠ '0') (exponent : Int) :
    (10 ^ (exponent + (c :: cs).length - 1) : ℚ) ≤
        Nat.ofDigitChars 10 (c :: cs) 0 * 10 ^ exponent ∧
      (Nat.ofDigitChars 10 (c :: cs) 0 * 10 ^ exponent : ℚ) ≤
        10 ^ (exponent + (c :: cs).length) := by
  have hlower := Text.pow_le_ofDigitChars (hdigits c List.mem_cons_self) hfirst cs
  have hupper := Text.ofDigitChars_lt hdigits
  have hplace : exponent + (c :: cs).length - 1 = cs.length + exponent := by
    rw [List.length_cons]
    omega
  rw [hplace, Int.add_comm exponent, zpow_add₀ (by norm_num), zpow_add₀ (by norm_num),
    zpow_natCast, zpow_natCast]
  constructor
  · refine mul_le_mul_of_nonneg_right ?_ (by positivity)
    exact_mod_cast hlower
  · refine mul_le_mul_of_nonneg_right ?_ (by positivity)
    exact_mod_cast hupper.le

/-- A decimal is read by one rounding of the quotient that it stands for. -/
theorem ofDecimal_eq_ofRatio (negative : Bool) (hdigits : ∀ c ∈ digits, c.isDigit = true)
    (hden : 0 < den)
    (hvalue : (Nat.ofDigitChars 10 digits 0 : ℚ) * 10 ^ exponent = num / den) :
    ofDecimal negative digits exponent = ofRatio negative num den := by
  have hsuffix := List.dropWhile_suffix (l := digits) (· == '0')
  have hsignificant : ∀ c ∈ digits.dropWhile (· == '0'), c.isDigit = true :=
    fun c hc => hdigits c (hsuffix.subset hc)
  have hfirst := List.head?_dropWhile_not (· == '0') digits
  rw [← Text.ofDigitChars_dropWhile_zero] at hvalue
  unfold ofDecimal ofRatio
  dsimp only
  generalize digits.dropWhile (· == '0') = significant at hvalue hsignificant hfirst
  cases significant with
  | nil =>
      have hnum : (num : ℚ) / den = (0 : Nat) / den := by
        rw [← hvalue]
        simp
      rw [if_pos rfl, nearestPattern_eq_of_div_eq hden hden hnum, nearestPattern_zero, zero]
  | cons c cs =>
      obtain ⟨hlower, hupper⟩ := decimal_bounds hsignificant (by simpa using hfirst) exponent
      rw [hvalue] at hlower hupper
      rw [if_neg (List.cons_ne_nil c cs)]
      -- What the place of the first digit decides, the rounding would decide in the same way.
      split
      · next htop =>
          have hpower : (10 ^ 310 : ℚ) ≤ 10 ^ (exponent + (c :: cs).length - 1) := by
            rw [← zpow_natCast]
            exact zpow_le_zpow_right₀ (by norm_num) (by push_cast; omega)
          rw [nearestPattern_of_huge hden (hpower.trans hlower), infinity]
      · split
        · next htop =>
            have hpower : (10 : ℚ) ^ (exponent + (c :: cs).length) ≤ 1 / 10 ^ 331 := by
              rw [one_div, ← zpow_natCast, ← zpow_neg]
              exact zpow_le_zpow_right₀ (by norm_num) (by push_cast; omega)
            rw [nearestPattern_of_tiny hden (hupper.trans hpower), zero]
        · cases exponent with
          | ofNat k =>
              refine congrArg (signed negative) (nearestPattern_eq_of_div_eq Nat.one_pos hden ?_)
              rw [← hvalue, Nat.cast_one, div_one, Int.ofNat_eq_natCast, zpow_natCast]
              exact_mod_cast rfl
          | negSucc k =>
              refine congrArg (signed negative)
                (nearestPattern_eq_of_div_eq (Nat.pow_pos (by decide)) hden ?_)
              rw [← hvalue, zpow_negSucc, ← div_eq_mul_inv]
              exact_mod_cast rfl

end

/-! ## Texts of decimals -/

/-- The digits of a decimal with a point in them, or without one if they make a whole number. -/
def pointText : List Char × List Char → List Char
  | (whole, []) => whole
  | (whole, fraction) => whole ++ '.' :: fraction

section

variable {parts : List Char × List Char}

theorem pointText_of_snd_eq_nil (h : parts.2 = []) : pointText parts = parts.1 := by
  obtain ⟨whole, fraction⟩ := parts
  dsimp only at h
  rw [h, pointText]

theorem pointText_of_snd_ne_nil (h : parts.2 ≠ []) :
    pointText parts = parts.1 ++ '.' :: parts.2 := by
  obtain ⟨whole, fraction⟩ := parts
  cases fraction with
  | nil => exact absurd rfl h
  | cons c cs => rfl

theorem exists_cons_of_pointText (hnonempty : parts.1 ≠ [])
    (hwhole : ∀ c ∈ parts.1, c.isDigit = true) :
    ∃ c cs, pointText parts = c :: cs ∧ c.isDigit = true := by
  obtain ⟨whole, fraction⟩ := parts
  obtain ⟨c, cs, rfl⟩ := List.exists_cons_of_ne_nil hnonempty
  cases fraction with
  | nil => exact ⟨c, cs, rfl, hwhole c List.mem_cons_self⟩
  | cons d ds => exact ⟨c, cs ++ '.' :: d :: ds, rfl, hwhole c List.mem_cons_self⟩

theorem readDecimal_pointText (hnonempty : parts.1 ≠ [])
    (hwhole : ∀ c ∈ parts.1, c.isDigit = true) (hfraction : ∀ c ∈ parts.2, c.isDigit = true) :
    readDecimal (pointText parts) = some (parts.1 ++ parts.2, -(parts.2.length : Int)) := by
  have hall {digits : List Char} (h : ∀ c ∈ digits, c.isDigit = true) :
      digits.takeWhile Char.isDigit = digits ∧ digits.dropWhile Char.isDigit = [] :=
    ⟨List.takeWhile_eq_self_iff.mpr h, List.dropWhile_eq_nil_iff.mpr h⟩
  by_cases hempty : parts.2 = []
  · rw [pointText_of_snd_eq_nil hempty, hempty]
    simp [readDecimal, hall hwhole, hnonempty]
  · have htake : (parts.1 ++ '.' :: parts.2).takeWhile Char.isDigit = parts.1 := by
      rw [List.takeWhile_append_of_pos hwhole, List.takeWhile_cons_of_neg (by decide),
        List.append_nil]
    have hdrop : (parts.1 ++ '.' :: parts.2).dropWhile Char.isDigit = '.' :: parts.2 := by
      rw [List.dropWhile_append_of_pos hwhole, List.dropWhile_cons_of_neg (by decide)]
    rw [pointText_of_snd_ne_nil hempty]
    simp [readDecimal, htake, hdrop, hall hfraction, hnonempty]

theorem ofText_pointText (negative : Bool) (hnonempty : parts.1 ≠ [])
    (hwhole : ∀ c ∈ parts.1, c.isDigit = true) (hfraction : ∀ c ∈ parts.2, c.isDigit = true) :
    ofText (Text.withSign negative (pointText parts)) =
      some (ofDecimal negative (parts.1 ++ parts.2) (-(parts.2.length : Int))) := by
  have hdecimal := readDecimal_pointText hnonempty hwhole hfraction
  obtain ⟨c, cs, htext, hc⟩ := exists_cons_of_pointText hnonempty hwhole
  rw [htext] at hdecimal ⊢
  obtain ⟨hminus, hplus⟩ := Text.ne_sign_of_isDigit hc
  rw [ofText, Text.readSign_withSign negative hminus hplus]
  simp only [hdecimal]

theorem isDigit_or_eq_point_of_mem_pointText (hwhole : ∀ c ∈ parts.1, c.isDigit = true)
    (hfraction : ∀ c ∈ parts.2, c.isDigit = true) {c : Char} (hc : c ∈ pointText parts) :
    c.isDigit = true ∨ c = '.' := by
  by_cases hempty : parts.2 = []
  · rw [pointText_of_snd_eq_nil hempty] at hc
    exact Or.inl (hwhole c hc)
  · rw [pointText_of_snd_ne_nil hempty, List.mem_append, List.mem_cons] at hc
    rcases hc with hmem | hpoint | hmem
    · exact Or.inl (hwhole c hmem)
    · exact Or.inr hpoint
    · exact Or.inl (hfraction c hmem)

/-- What has a point is no integer. -/
theorem readInt64_pointText_eq_none (negative : Bool) (hnonempty : parts.1 ≠ [])
    (hwhole : ∀ c ∈ parts.1, c.isDigit = true) (hfraction : parts.2 ≠ []) :
    Text.readInt64 (Text.withSign negative (pointText parts)) = none := by
  have hpoint : '.' ∈ pointText parts := by
    rw [pointText_of_snd_ne_nil hfraction]
    exact List.mem_append_right parts.1 List.mem_cons_self
  obtain ⟨c, cs, htext, hc⟩ := exists_cons_of_pointText hnonempty hwhole
  rw [htext] at hpoint ⊢
  exact Text.readInt64_withSign_eq_none (Text.ne_sign_of_isDigit hc)
    (Text.readDigits_eq_none_of_mem hpoint rfl) negative

end

/-! ## Names of numbers -/

section

variable {c : Char} {cs : List Char}

theorem readDecimal_cons_eq_none (hdigit : c.isDigit = false) (hpoint : c ≠ '.') (cs : List Char) :
    readDecimal (c :: cs) = none := by
  simp [readDecimal, hdigit, hpoint]

/-- A text that does not begin as a decimal names a number, or is none. -/
theorem ofText_cons (hsign : c ≠ '-' ∧ c ≠ '+') (hdigit : c.isDigit = false) (hpoint : c ≠ '.') :
    ofText (c :: cs) =
      if Text.sameLetters (c :: cs) ['i', 'n', 'f'] ∨
          Text.sameLetters (c :: cs) ['i', 'n', 'f', 'i', 'n', 'i', 't', 'y'] then
        some (infinity false)
      else if Text.sameLetters (c :: cs) ['n', 'a', 'n'] then some (nan false)
      else none := by
  have hbody : Text.readSign (c :: cs) = (false, c :: cs) :=
    Text.readSign_withSign false hsign.1 hsign.2
  unfold ofText
  simp only [hbody, readDecimal_cons_eq_none hdigit hpoint]

end

/-! ## Texts of numbers -/

section

variable {x : Binary64}

theorem toText_of_isNaN (h : x.isNaN = true) : x.toText = ['N', 'a', 'N'] := by
  rw [toText, if_pos h]

theorem isNaN_eq_false_of_isFinite (h : x.isFinite = true) : x.isNaN = false := by
  have hfinite := isFinite_iff.mp h
  exact decide_eq_false (by omega)

/-- The text of a finite number other than zero is that of its shortest decimal. -/
theorem toText_of_isFinite (hfinite : x.isFinite = true) (hzero : x.isZero = false) :
    x.toText = Text.withSign x.isNegative (pointText (x.shortest .greater).positional) := by
  have hnumber := isNaN_eq_false_of_isFinite hfinite
  unfold toText
  simp only [hnumber, hfinite, hzero, Bool.false_eq_true, Bool.not_true, if_false]
  unfold Text.withSign
  cases (x.shortest .greater).positional with
  | mk whole fraction => cases fraction <;> rfl

/-- Besides the finite numbers and the not-a-numbers there are the infinities. -/
theorem eq_infinity (hnumber : x.isNaN = false) (hfinite : x.isFinite = false) :
    x = infinity x.isNegative := by
  have hle : ¬infinityBits < x.pattern := of_decide_eq_false hnumber
  have hge : ¬x.pattern < infinityBits := of_decide_eq_false hfinite
  have hpattern : x.pattern = infinityBits := by omega
  rw [infinity, ← hpattern, signed_pattern]

theorem eq_zero_of_isZero (h : x.isZero = true) : x = zero x.isNegative := by
  rw [zero, ← isZero_iff.mp h, signed_pattern]

theorem toText_infinity (negative : Bool) :
    (infinity negative).toText = Text.withSign negative ['i', 'n', 'f'] := by
  cases negative <;> rfl

theorem toText_zero (negative : Bool) : (zero negative).toText = Text.withSign negative ['0'] := by
  cases negative <;> rfl

theorem ofText_infinity (negative : Bool) :
    ofText (Text.withSign negative ['i', 'n', 'f']) = some (infinity negative) := by
  cases negative <;> rfl

theorem ofText_zero (negative : Bool) :
    ofText (Text.withSign negative ['0']) = some (zero negative) := by
  cases negative <;> rfl

/-- The text of a number is read as that number. -/
theorem ofText_toText (h : x.isNaN = false) : ofText x.toText = some x := by
  by_cases hfinite : x.isFinite = true
  · by_cases hzero : x.isZero = true
    · rw [eq_zero_of_isZero hzero, toText_zero, ofText_zero]
    · rw [Bool.not_eq_true] at hzero
      -- The shortest decimal was chosen because rounding it gives the number, and it keeps its
      -- value when the point is put in.
      obtain ⟨n, shift, hshortest, hback⟩ := exists_decimalOf_shortest .greater hfinite
      obtain ⟨num, den, hden, hquotient, hpattern⟩ := exists_quotient_of_readsBack hback
      have hvalue := (x.shortest .greater).value_positional
      rw [hshortest, value_decimalOf, hquotient, ← hshortest] at hvalue
      have hsignificant := isSignificant_shortest .greater hfinite hzero
      obtain ⟨hnonempty, hwhole, -⟩ := hsignificant.positional_whole
      have hfraction := hsignificant.positional_fraction
      rw [toText_of_isFinite hfinite hzero, ofText_pointText _ hnonempty hwhole hfraction,
        ofDecimal_eq_ofRatio _ (List.forall_mem_append.mpr ⟨hwhole, hfraction⟩) hden hvalue,
        ofRatio, hpattern, signed_pattern]
  · rw [Bool.not_eq_true] at hfinite
    rw [eq_infinity h hfinite, toText_infinity, ofText_infinity]

/-- A number is written with digits, and with signs, a point and the letters of its names. -/
theorem isDigit_or_mem_of_mem_toText {c : Char} (hc : c ∈ x.toText) :
    c.isDigit = true ∨ c ∈ ['-', '.', 'N', 'a', 'i', 'n', 'f'] := by
  have hsigned {cs : List Char} {negative : Bool} (htext : x.toText = Text.withSign negative cs)
      (hall : ∀ d ∈ cs, d.isDigit = true ∨ d ∈ ['-', '.', 'N', 'a', 'i', 'n', 'f']) :
      c.isDigit = true ∨ c ∈ ['-', '.', 'N', 'a', 'i', 'n', 'f'] := by
    rw [htext] at hc
    rcases Text.eq_minus_or_mem_of_mem_withSign hc with rfl | hmem
    · exact Or.inr List.mem_cons_self
    · exact hall c hmem
  cases hnan : x.isNaN with
  | true =>
      have htext : x.toText = Text.withSign false ['N', 'a', 'N'] := toText_of_isNaN hnan
      exact hsigned htext (by simp)
  | false =>
      cases hfinite : x.isFinite with
      | false =>
          rw [eq_infinity hnan hfinite] at hsigned
          exact hsigned (toText_infinity _) (by simp)
      | true =>
          cases hzero : x.isZero with
          | true =>
              rw [eq_zero_of_isZero hzero] at hsigned
              exact hsigned (toText_zero _) (by simp)
          | false =>
              have hsignificant := isSignificant_shortest .greater hfinite hzero
              obtain ⟨-, hwhole, -⟩ := hsignificant.positional_whole
              refine hsigned (toText_of_isFinite hfinite hzero) fun d hd => ?_
              rcases isDigit_or_eq_point_of_mem_pointText hwhole
                  hsignificant.positional_fraction hd with hdigit | rfl
              · exact Or.inl hdigit
              · exact Or.inr (by decide)

/-- No white space is written in a number. -/
theorem isBlank_eq_false_of_mem_toText {c : Char} (hc : c ∈ x.toText) :
    Text.isBlank c = false := by
  have hmarks : ['-', '.', 'N', 'a', 'i', 'n', 'f'].any Text.isBlank = false := by decide
  rcases isDigit_or_mem_of_mem_toText hc with hdigit | hmem
  · exact Text.isBlank_eq_false_of_isDigit hdigit
  · exact eq_false_of_ne_true (List.any_eq_false.mp hmarks c hmem)

end

end Relational.Binary64
