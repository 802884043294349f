import Mathlib.Algebra.Order.Field.Power
import Mathlib.Algebra.Order.Ring.Rat
import Relational.Binary64.Decimal
import Relational.Proofs.Binary64.Nearest
import Relational.Text.Number

/-!
# Shortest decimals

The decimal that is written for a finite number reads back as its magnitude, if it is
rounded once.  It begins with a digit other than zero, and it can be written with or
without an exponent.
-/

namespace Relational

namespace Binary64

/-! ## Rounding quotients -/

section

variable {num den num' den' : Nat}

theorem nearestPattern_eq_of_div_eq (hden : 0 < den) (hden' : 0 < den')
    (h : (num : ℚ) / den = num' / den') : nearestPattern num den = nearestPattern num' den' := by
  have hpositive : (0 : ℚ) < den := by exact_mod_cast hden
  have hpositive' : (0 : ℚ) < den' := by exact_mod_cast hden'
  rw [div_eq_div_iff hpositive.ne' hpositive'.ne'] at h
  exact nearestPattern_congr hden hden' (by exact_mod_cast h)

theorem nearestPattern_le_of_div_le (hden : 0 < den) (hden' : 0 < den')
    (h : (num : ℚ) / den ≤ num' / den') : nearestPattern num den ≤ nearestPattern num' den' := by
  have hpositive : (0 : ℚ) < den := by exact_mod_cast hden
  have hpositive' : (0 : ℚ) < den' := by exact_mod_cast hden'
  rw [div_le_div_iff₀ hpositive hpositive'] at h
  exact nearestPattern_mono hden hden' (by exact_mod_cast h)

end

/-! ## The shortest decimal -/

section

variable {x : Binary64} {n : Nat} {shift : Int} {tie : Tie}

theorem nearestPattern_zero (den : Nat) : nearestPattern 0 den = 0 := by
  rw [nearestPattern_eq, Nat.zero_mul]
  simp [binade, roundHalfEven]

theorem ne_zero_of_readsBack (hzero : x.isZero = false) (h : x.readsBack n shift = true) :
    n ≠ 0 := by
  rintro rfl
  have hpattern : x.pattern = 0 := by
    unfold readsBack at h
    rw [beq_iff_eq] at h
    rw [← h]
    cases shift with
    | ofNat k => exact nearestPattern_zero _
    | negSucc k =>
        show nearestPattern (0 * 10 ^ (k + 1)) 1 = 0
        rw [Nat.zero_mul, nearestPattern_zero]
  rw [isZero_iff.mpr hpattern] at hzero
  contradiction

theorem readsBack_of_neighbour? (h : x.neighbour? tie shift = some n) :
    x.readsBack n shift = true := by
  simp only [neighbour?] at h
  split at h
  · next hlow hhigh =>
      split at h
      · rw [← Option.some.inj h, hlow]
      · split at h
        · rw [← Option.some.inj h, hhigh]
        · cases tie with
          | greater => rw [← Option.some.inj h, hhigh]
          | even =>
              rw [← Option.some.inj h]
              rcases Nat.mod_two_eq_zero_or_one ((x.shifted shift).1 / (x.shifted shift).2) with
                heven | hodd
              · rw [heven, Nat.add_zero, hlow]
              · rw [hodd, hhigh]
  · next hlow hhigh => rw [← Option.some.inj h, hlow]
  · next hlow hhigh => rw [← Option.some.inj h, hhigh]
  · contradiction

/-- What reads back is a quotient that is rounded to the number. -/
theorem exists_quotient_of_readsBack (h : x.readsBack n shift = true) :
    ∃ num den : Nat, 0 < den ∧ (n * 10 ^ (-shift) : ℚ) = num / den ∧
      nearestPattern num den = x.pattern := by
  unfold readsBack at h
  rw [beq_iff_eq] at h
  cases shift with
  | ofNat k =>
      refine ⟨n, 10 ^ k, by positivity, ?_, h⟩
      rw [Int.ofNat_eq_natCast, zpow_neg, zpow_natCast, ← div_eq_mul_inv, Nat.cast_pow]
      rfl
  | negSucc k =>
      refine ⟨n * 10 ^ (k + 1), 1, Nat.one_pos, ?_, h⟩
      rw [Int.neg_negSucc, zpow_natCast, Nat.cast_one, div_one, Nat.cast_mul, Nat.cast_pow]
      rfl

/-- A number reads back from its own magnitude. -/
theorem readsBack_of_units {k : Nat} (h : x.isFinite = true)
    (hn : n * unitsPerOne = x.units * 10 ^ k) : x.readsBack n k = true := by
  have hsame : nearestPattern n (10 ^ k) = nearestPattern x.units unitsPerOne :=
    nearestPattern_congr (by positivity) unitsPerOne_pos hn
  show (nearestPattern n (10 ^ k) == x.pattern) = true
  rw [hsame, nearestPattern_units h, beq_self_eq_true]

/-- All digits of a number stand before the place of the last power of two. -/
theorem five_pow_mul_unitsPerOne : Nat.pow 5 1074 * unitsPerOne = 10 ^ 1074 := by
  unfold unitsPerOne
  generalize 1074 = e
  exact (Nat.mul_pow 5 2 e).symm

/-- What is written for a number reads back. -/
theorem exists_decimalOf_shortest (tie : Tie) (h : x.isFinite = true) :
    ∃ n shift, x.shortest tie = decimalOf n shift ∧ x.readsBack n shift = true := by
  unfold shortest
  cases hfound : x.shortest? tie with
  | none =>
      refine ⟨_, _, rfl, readsBack_of_units (k := 1074) h ?_⟩
      rw [Nat.mul_assoc]
      exact congrArg (x.units * ·) five_pow_mul_unitsPerOne
  | some decimal =>
      obtain ⟨i, -, hi⟩ := List.exists_of_findSome?_eq_some hfound
      rw [Option.map_eq_some_iff] at hi
      obtain ⟨n, hn, rfl⟩ := hi
      exact ⟨n, _, rfl, readsBack_of_neighbour? hn⟩

end

end Binary64

/-! ## Decimals -/

namespace Decimal

/-- The number that a decimal stands for. -/
def value (d : Decimal) : ℚ :=
  Nat.ofDigitChars 10 d.digits 0 * 10 ^ (d.point - d.digits.length)

/-- A decimal of a number other than zero, whose first digit counts. -/
structure IsSignificant (d : Decimal) : Prop where
  nonempty : d.digits ≠ []
  digits : ∀ c ∈ d.digits, c.isDigit = true
  leading : d.digits.head? ≠ some '0'

end Decimal

namespace Binary64

section

variable {n : Nat} {shift : Int}

/-- Only zeros are left out of the digits of a number. -/
theorem exists_zeros_of_decimalOf (n : Nat) (shift : Int) :
    ∃ zeros, Nat.toDigits 10 n = (decimalOf n shift).digits ++ List.replicate zeros '0' := by
  refine ⟨((Nat.toDigits 10 n).reverse.takeWhile (· == '0')).length, ?_⟩
  have hzeros : (Nat.toDigits 10 n).reverse.takeWhile (· == '0') =
      List.replicate ((Nat.toDigits 10 n).reverse.takeWhile (· == '0')).length '0' := by
    rw [List.eq_replicate_iff]
    exact ⟨rfl, fun c hc => beq_iff_eq.mp (List.all_eq_true.mp List.all_takeWhile c hc)⟩
  rw [← List.reverse_inj, List.reverse_append, List.reverse_replicate, ← hzeros]
  simp [decimalOf]

theorem isSignificant_decimalOf (hn : n ≠ 0) (shift : Int) :
    (decimalOf n shift).IsSignificant := by
  obtain ⟨zeros, hzeros⟩ := exists_zeros_of_decimalOf n shift
  have hnonempty : (decimalOf n shift).digits ≠ [] := by
    intro hempty
    rw [hempty, List.nil_append] at hzeros
    have hvalue : Nat.ofDigitChars 10 (Nat.toDigits 10 n) 0 = n := Nat.ofDigitChars_ten_toDigits
    rw [hzeros, Nat.ofDigitChars_replicate_zero] at hvalue
    omega
  constructor
  case nonempty => exact hnonempty
  case digits =>
    intro c hc
    apply Text.isDigit_of_mem_toDigits (n := n)
    rw [hzeros]
    exact List.mem_append_left _ hc
  case leading =>
    have hhead := Text.head?_toDigits_ne_zero hn
    rwa [hzeros, List.head?_append_of_ne_nil _ hnonempty] at hhead

/-- What is written for a number other than zero begins with a digit that counts. -/
theorem isSignificant_shortest {x : Binary64} (tie : Tie) (hfinite : x.isFinite = true)
    (hzero : x.isZero = false) : (x.shortest tie).IsSignificant := by
  obtain ⟨n, shift, hshortest, hback⟩ := exists_decimalOf_shortest tie hfinite
  rw [hshortest]
  exact isSignificant_decimalOf (ne_zero_of_readsBack hzero hback) shift

theorem value_decimalOf (n : Nat) (shift : Int) :
    (decimalOf n shift).value = n * 10 ^ (-shift) := by
  obtain ⟨zeros, hzeros⟩ := exists_zeros_of_decimalOf n shift
  have hpoint : (decimalOf n shift).point = (Nat.toDigits 10 n).length - shift := rfl
  have hvalue : Nat.ofDigitChars 10 (Nat.toDigits 10 n) 0 = n := Nat.ofDigitChars_ten_toDigits
  rw [hzeros] at hpoint hvalue
  rw [Nat.ofDigitChars_append, Nat.ofDigitChars_replicate_zero] at hvalue
  rw [List.length_append, List.length_replicate] at hpoint
  unfold Decimal.value
  have hplace : (decimalOf n shift).point - (decimalOf n shift).digits.length =
      (zeros : Int) + -shift := by
    rw [hpoint]
    omega
  rw [hplace, zpow_add₀ (by norm_num), zpow_natCast, ← mul_assoc]
  congr 1
  have hcast : ((Nat.ofDigitChars 10 (decimalOf n shift).digits 0 * 10 ^ zeros : Nat) : ℚ) = n := by
    rw [Nat.mul_comm, hvalue]
  exact_mod_cast hcast

end

end Binary64

/-! ## Without an exponent -/

namespace Decimal

variable {d : Decimal}

/-- The whole part without an exponent begins as the digits do, or is a single zero. -/
theorem IsSignificant.positional_whole (h : d.IsSignificant) :
    d.positional.1 ≠ [] ∧ (∀ c ∈ d.positional.1, c.isDigit = true) ∧
      (d.positional.1.head? = some '0' → d.positional.1 = ['0']) := by
  have hzero : ∀ c ∈ ['0'], c.isDigit = true := by simp [Char.isDigit]
  unfold positional
  cases d.point with
  | negSucc k => exact ⟨List.cons_ne_nil _ _, hzero, fun _ => rfl⟩
  | ofNat k =>
      dsimp only
      split
      · exact ⟨List.cons_ne_nil _ _, hzero, fun _ => rfl⟩
      · next hwhole =>
          refine ⟨hwhole, ?_, ?_⟩
          · intro c hc
            rcases List.mem_append.mp hc with hdigit | hpadding
            · exact h.digits c (List.mem_of_mem_take hdigit)
            · rw [List.eq_of_mem_replicate hpadding]
              rfl
          · intro hhead
            cases k with
            | zero => simp at hwhole
            | succ k =>
                obtain ⟨c, digits, hdigits⟩ := List.exists_cons_of_ne_nil h.nonempty
                have hleading := h.leading
                rw [hdigits] at hhead hleading
                exact absurd hhead hleading

theorem IsSignificant.positional_fraction (h : d.IsSignificant) :
    ∀ c ∈ d.positional.2, c.isDigit = true := by
  unfold positional
  cases d.point with
  | negSucc k =>
      intro c hc
      rcases List.mem_append.mp hc with hpadding | hdigit
      · rw [List.eq_of_mem_replicate hpadding]
        rfl
      · exact h.digits c hdigit
  | ofNat k => exact fun c hc => h.digits c (List.mem_of_mem_drop hc)

/-- The whole part has no more digits than the place of the point tells. -/
theorem length_positional_whole_le {places : Nat} (hplaces : 0 < places)
    (h : d.point ≤ places) : d.positional.1.length ≤ places := by
  unfold positional
  cases hpoint : d.point with
  | negSucc k => exact hplaces
  | ofNat k =>
      rw [hpoint] at h
      have hk : k ≤ places := Int.ofNat_le.mp h
      dsimp only
      split
      · exact hplaces
      · rw [List.length_append, List.length_take, List.length_replicate]
        omega

/-- Without an exponent, the digits after the point count down from it. -/
theorem value_positional (d : Decimal) :
    (Nat.ofDigitChars 10 (d.positional.1 ++ d.positional.2) 0 : ℚ) *
      10 ^ (-(d.positional.2.length : Int)) = d.value := by
  unfold value positional
  cases d.point with
  | negSucc k =>
      have hplace : -((List.replicate (k + 1) '0' ++ d.digits).length : Int) =
          Int.negSucc k - d.digits.length := by
        rw [List.length_append, List.length_replicate]
        omega
      dsimp only
      rw [hplace, Nat.ofDigitChars_append, Nat.ofDigitChars_append,
        Nat.ofDigitChars_replicate_zero]
      rfl
  | ofNat k =>
      have hwhole : ∀ whole : List Char,
          Nat.ofDigitChars 10 (if whole = [] then ['0'] else whole) 0 =
            Nat.ofDigitChars 10 whole 0 := by
        intro whole
        split
        · next hempty => rw [hempty]; rfl
        · rfl
      dsimp only
      rw [Nat.ofDigitChars_append, hwhole, Nat.ofDigitChars_append, Nat.ofDigitChars_replicate_zero,
        List.length_drop]
      rcases Nat.le_total k d.digits.length with hle | hle
      · have hplace : -((d.digits.length - k : Nat) : Int) = Int.ofNat k - d.digits.length := by
          rw [Int.ofNat_eq_natCast]
          omega
        rw [hplace, Nat.sub_eq_zero_of_le hle, Nat.pow_zero, Nat.one_mul,
          ← Nat.ofDigitChars_append, List.take_append_drop]
      · have hplace : Int.ofNat k - d.digits.length = (k - d.digits.length : Nat) := by
          rw [Int.ofNat_eq_natCast]
          omega
        rw [hplace, List.take_of_length_le hle, List.drop_eq_nil_of_le hle,
          Nat.sub_eq_zero_of_le hle, Nat.ofDigitChars_nil, zpow_natCast]
        push_cast
        ring

end Decimal

end Relational
