import Mathlib.Tactic.Linarith
import Relational.Text.Number

/-!
# Whole numbers as they are written

Digits and the size of the number that they spell, and whole numbers with a sign.  A number of
64 bits is read as itself: `readInt64_toString`.
-/

namespace Relational.Text

/-! ## Digits -/

section

variable {cs : List Char}

theorem ofDigitChars_lt (h : ∀ c ∈ cs, c.isDigit = true) :
    Nat.ofDigitChars 10 cs 0 < 10 ^ cs.length := by
  induction cs with
  | nil => simp
  | cons c cs ih =>
      rw [List.forall_mem_cons] at h
      have hrest := ih h.2
      have hdigit : c.toNat - '0'.toNat ≤ 9 :=
        Nat.sub_le_of_le_add (Char.isDigit_iff_toNat.mp h.1).2
      rw [Nat.ofDigitChars_cons, Nat.ofDigitChars_eq_ofDigitChars_zero, List.length_cons,
        Nat.pow_succ]
      nlinarith

theorem sub_zero_pos_of_isDigit {c : Char} (hdigit : c.isDigit = true) (hzero : c ≠ '0') :
    0 < c.toNat - '0'.toNat := by
  have hfirst := (Char.isDigit_iff_toNat.mp hdigit).1
  have hne : c.toNat ≠ '0'.toNat := fun heq => hzero (Char.toNat_inj.mp heq)
  omega

/-- A first digit other than zero is worth a power of ten. -/
theorem pow_le_ofDigitChars {c : Char} (hdigit : c.isDigit = true) (hzero : c ≠ '0')
    (cs : List Char) : 10 ^ cs.length ≤ Nat.ofDigitChars 10 (c :: cs) 0 := by
  have hpositive := sub_zero_pos_of_isDigit hdigit hzero
  rw [Nat.ofDigitChars_cons, Nat.ofDigitChars_eq_ofDigitChars_zero, Nat.mul_zero, Nat.zero_add]
  exact Nat.le_trans (Nat.le_mul_of_pos_right _ hpositive) (Nat.le_add_right _ _)

theorem ofDigitChars_dropWhile_zero (cs : List Char) :
    Nat.ofDigitChars 10 (cs.dropWhile (· == '0')) 0 = Nat.ofDigitChars 10 cs 0 := by
  induction cs with
  | nil => rfl
  | cons c cs ih =>
      by_cases hc : c = '0'
      · rw [List.dropWhile_cons_of_pos (p := (· == '0')) (beq_iff_eq.mpr hc), ih, hc]
        rfl
      · rw [List.dropWhile_cons_of_neg (p := (· == '0')) (by simpa using hc)]

/-- A number whose last digit is not zero is no multiple of ten. -/
theorem not_ten_dvd_ofDigitChars {c : Char} (hdigit : c.isDigit = true) (hzero : c ≠ '0')
    (cs : List Char) : ¬10 ∣ Nat.ofDigitChars 10 (cs ++ [c]) 0 := by
  have hpositive := sub_zero_pos_of_isDigit hdigit hzero
  have hnine : c.toNat - '0'.toNat ≤ 9 :=
    Nat.sub_le_of_le_add (Char.isDigit_iff_toNat.mp hdigit).2
  rw [Nat.ofDigitChars_append, Nat.ofDigitChars_cons, Nat.ofDigitChars_nil]
  omega

end

/-! ## Signs -/

theorem ne_sign_of_isDigit {c : Char} (h : c.isDigit = true) : c ≠ '-' ∧ c ≠ '+' := by
  constructor
  · rintro rfl
    exact absurd h (by decide)
  · rintro rfl
    exact absurd h (by decide)

section

variable {negative : Bool} {digits : List Char} {n : Nat}

theorem readInt64_withSign (h : readDigits digits = some n) :
    readInt64 (withSign negative digits) =
      if n < 2 ^ 63 ∨ (negative = true ∧ n = 2 ^ 63) then
        some (Int64.ofInt (if negative then -n else n)) else none := by
  obtain ⟨hnonempty, hdigits, -⟩ := readDigits_eq_some_iff.mp h
  obtain ⟨c, cs, rfl⟩ := List.exists_cons_of_ne_nil hnonempty
  obtain ⟨hminus, hplus⟩ := ne_sign_of_isDigit (hdigits c List.mem_cons_self)
  have hpow : Nat.pow 2 63 = 2 ^ 63 := rfl
  rw [readInt64, readSign_withSign negative hminus hplus]
  simp only [h, hpow]
  cases negative with
  | true =>
      have hrange : n ≤ 2 ^ 63 ↔ n < 2 ^ 63 ∨ true = true ∧ n = 2 ^ 63 := by
        rw [Nat.le_iff_lt_or_eq, eq_self, true_and]
      simp only [if_true, hrange]
  | false => simp

theorem readInt64_withSign_eq_none {c : Char} {cs : List Char} (hsign : c ≠ '-' ∧ c ≠ '+')
    (h : readDigits (c :: cs) = none) (negative : Bool) :
    readInt64 (withSign negative (c :: cs)) = none := by
  rw [readInt64, readSign_withSign negative hsign.1 hsign.2]
  simp only [h]

theorem readInt64_cons_eq_none {c : Char} (hsign : c ≠ '-' ∧ c ≠ '+') (hdigit : c.isDigit = false)
    (cs : List Char) : readInt64 (c :: cs) = none :=
  readInt64_withSign_eq_none hsign (readDigits_eq_none_of_mem List.mem_cons_self hdigit) false

end

/-- Every number of 64 bits is read as itself. -/
theorem readInt64_toString (value : Int64) :
    readInt64 (toString value.toInt).toList = some value := by
  have hlower := value.le_toInt
  have hupper := value.toInt_lt
  rw [toList_toString_int, readInt64_withSign (readDigits_toDigits _)]
  by_cases hnegative : value.toInt < 0
  · have habs : -(value.toInt.natAbs : Int) = value.toInt := by omega
    have hrange : value.toInt.natAbs < 2 ^ 63 ∨ true = true ∧ value.toInt.natAbs = 2 ^ 63 := by
      rw [eq_self, true_and]
      omega
    rw [decide_eq_true hnegative, if_pos hrange, if_pos rfl, habs, Int64.ofInt_toInt]
  · have habs : (value.toInt.natAbs : Int) = value.toInt := by omega
    have hrange : value.toInt.natAbs < 2 ^ 63 := by omega
    rw [decide_eq_false hnegative, if_pos (Or.inl hrange), if_neg (by decide), habs,
      Int64.ofInt_toInt]

end Relational.Text
