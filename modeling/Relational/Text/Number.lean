import Relational.Text.Letters

/-!
# Whole numbers in text

Whole numbers as decimal digits.
-/

namespace Relational.Text

/-- The number that one or more decimal digits spell. -/
def readDigits (cs : List Char) : Option Nat :=
  if cs ≠ [] ∧ cs.all Char.isDigit then some (Nat.ofDigitChars 10 cs 0) else none

/-- A sign, if one is written, and the text after it.  No sign means plus. -/
def readSign : List Char → Bool × List Char
  | '-' :: cs => (true, cs)
  | '+' :: cs => (false, cs)
  | cs => (false, cs)

/-- Digits with an optional sign, as a number of 64 bits; none out of range. -/
def readInt64 (cs : List Char) : Option Int64 :=
  let (negative, digits) := readSign cs
  match readDigits digits with
  | none => none
  | some n =>
      if negative then
        if n ≤ Nat.pow 2 63 then some (Int64.ofInt (-n)) else none
      else
        if n < Nat.pow 2 63 then some (Int64.ofInt n) else none

/-- Digits with an optional plus, as a number below `bound`. -/
def readBelow (bound : Nat) (cs : List Char) : Option Nat :=
  let digits := match cs with
    | '+' :: rest => rest
    | _ => cs
  (readDigits digits).filter (· < bound)

theorem isDigit_of_mem_toDigits {n : Nat} {c : Char} (h : c ∈ Nat.toDigits 10 n) :
    c.isDigit = true :=
  Nat.isDigit_of_mem_toDigits (by decide) (by decide) h

/-- Only the digits of zero begin with a zero. -/
theorem head?_toDigits_ne_zero {n : Nat} (h : n ≠ 0) :
    (Nat.toDigits 10 n).head? ≠ some '0' := by
  induction n using Nat.strongRecOn with
  | ind n ih =>
      rw [Nat.toDigits_eq_if (by decide)]
      split
      · next hsmall =>
          have hcodes : ∀ d : Fin 10, d.val.digitChar = '0' → d.val = 0 := by decide
          intro hzero
          exact h (hcodes ⟨n, hsmall⟩ (Option.some.inj hzero))
      · next hlarge =>
          intro hzero
          rw [List.head?_append, Option.or_eq_some_iff] at hzero
          rcases hzero with hfirst | ⟨hnone, -⟩
          · exact ih (n / 10) (by omega) (by omega) hfirst
          · exact Nat.toDigits_ne_nil (List.head?_eq_none_iff.mp hnone)

theorem readDigits_eq_some_iff {cs : List Char} {n : Nat} :
    readDigits cs = some n ↔
      cs ≠ [] ∧ (∀ c ∈ cs, c.isDigit = true) ∧ Nat.ofDigitChars 10 cs 0 = n := by
  simp [readDigits, and_assoc]

theorem readDigits_eq_none_of_mem {cs : List Char} {c : Char} (hc : c ∈ cs)
    (h : c.isDigit = false) : readDigits cs = none := by
  refine Option.eq_none_iff_forall_ne_some.mpr fun n hn => ?_
  rw [(readDigits_eq_some_iff.mp hn).2.1 c hc] at h
  exact Bool.false_ne_true h.symm

/-- Digits have no case. -/
theorem readDigits_upper (cs : List Char) : readDigits (upper cs) = readDigits cs := by
  by_cases h : ∀ c ∈ cs, c.isDigit = true
  · rw [upper_eq_self fun c hc => isLower_eq_false (Or.inl (h c hc))]
  · have hupper : ¬∀ c ∈ upper cs, c.isDigit = true := by
      intro hall
      refine h fun c hc => ?_
      rw [← isDigit_toUpper]
      exact hall _ (List.mem_map_of_mem hc)
    have hnone : ∀ {ds : List Char}, (¬∀ c ∈ ds, c.isDigit = true) → readDigits ds = none :=
      fun hds => Option.eq_none_iff_forall_ne_some.mpr
        fun n hn => hds (readDigits_eq_some_iff.mp hn).2.1
    rw [hnone h, hnone hupper]

theorem readDigits_toDigits (n : Nat) : readDigits (Nat.toDigits 10 n) = some n := by
  have hne : Nat.toDigits 10 n ≠ [] := Nat.toDigits_ne_nil
  have hall : (Nat.toDigits 10 n).all Char.isDigit = true := by
    simp only [List.all_eq_true]
    exact fun c hc => isDigit_of_mem_toDigits hc
  simp [readDigits, hne, hall, Nat.ofDigitChars_toDigits]

theorem readBelow_plus (bound : Nat) (cs : List Char) :
    readBelow bound ('+' :: cs) = (readDigits cs).filter (· < bound) := rfl

theorem readBelow_of_ne_plus {cs : List Char} (bound : Nat) (h : cs.head? ≠ some '+') :
    readBelow bound cs = (readDigits cs).filter (· < bound) := by
  unfold readBelow
  split
  · exact absurd rfl h
  · rfl

theorem readBelow_upper (bound : Nat) (cs : List Char) :
    readBelow bound (upper cs) = readBelow bound cs := by
  by_cases h : cs.head? = some '+'
  · obtain ⟨rest, rfl⟩ := List.head?_eq_some_iff.mp h
    exact congrArg (Option.filter _) (readDigits_upper rest)
  · have hupper : (upper cs).head? ≠ some '+' := by
      rw [upper, List.head?_map]
      cases cs with
      | nil => simp
      | cons c cs => simpa [toUpper_eq_iff] using h
    rw [readBelow_of_ne_plus bound hupper, readBelow_of_ne_plus bound h, readDigits_upper]

/-- A number below a bound is spelled with digits and perhaps a plus. -/
theorem readBelow_eq_some_iff {bound n : Nat} {cs : List Char} :
    readBelow bound cs = some n ↔ n < bound ∧ ∃ sign digits,
      (sign = [] ∨ sign = ['+']) ∧ cs = sign ++ digits ∧ readDigits digits = some n := by
  constructor
  · intro h
    by_cases hplus : cs.head? = some '+'
    · obtain ⟨digits, rfl⟩ := List.head?_eq_some_iff.mp hplus
      rw [readBelow_plus, Option.filter_eq_some_iff, decide_eq_true_iff] at h
      exact ⟨h.2, ['+'], digits, Or.inr rfl, rfl, h.1⟩
    · rw [readBelow_of_ne_plus bound hplus, Option.filter_eq_some_iff, decide_eq_true_iff] at h
      exact ⟨h.2, [], cs, Or.inl rfl, rfl, h.1⟩
  · rintro ⟨hbound, sign, digits, hsign, rfl, hdigits⟩
    have hfilter : (readDigits digits).filter (· < bound) = some n := by
      rw [Option.filter_eq_some_iff, decide_eq_true_iff]
      exact ⟨hdigits, hbound⟩
    rcases hsign with rfl | rfl
    · have hplus : digits.head? ≠ some '+' := by
        intro hhead
        have hmem := (readDigits_eq_some_iff.mp hdigits).2.1 '+' (List.mem_of_mem_head? hhead)
        exact absurd hmem (by decide)
      exact (readBelow_of_ne_plus bound hplus).trans hfilter
    · exact hfilter

theorem readBelow_toDigits {n bound : Nat} (h : n < bound) :
    readBelow bound (Nat.toDigits 10 n) = some n :=
  readBelow_eq_some_iff.mpr ⟨h, [], _, Or.inl rfl, rfl, readDigits_toDigits n⟩

theorem isDigit_of_mem_toString_nat {n : Nat} {c : Char} (h : c ∈ (toString n).toList) :
    c.isDigit = true := by
  rw [Nat.toString_eq_repr, Nat.toList_repr] at h
  exact isDigit_of_mem_toDigits h

/-- A text after a minus sign, or alone. -/
def withSign (negative : Bool) (cs : List Char) : List Char :=
  if negative then '-' :: cs else cs

theorem eq_minus_or_mem_of_mem_withSign {negative : Bool} {cs : List Char} {c : Char}
    (h : c ∈ withSign negative cs) : c = '-' ∨ c ∈ cs := by
  rw [withSign] at h
  split at h
  · exact List.mem_cons.mp h
  · exact Or.inr h

theorem readSign_withSign (negative : Bool) {c : Char} {cs : List Char} (hminus : c ≠ '-')
    (hplus : c ≠ '+') : readSign (withSign negative (c :: cs)) = (negative, c :: cs) := by
  cases negative with
  | true => rfl
  | false =>
      unfold withSign readSign
      simp [hminus, hplus]

theorem toList_toString_int (i : Int) :
    (toString i).toList = withSign (decide (i < 0)) (Nat.toDigits 10 i.natAbs) := by
  cases i with
  | ofNat n =>
      have hsign : ¬Int.ofNat n < 0 := Int.not_lt.mpr (Int.natCast_nonneg n)
      rw [decide_eq_false hsign]
      exact Nat.toList_repr
  | negSucc n =>
      rw [decide_eq_true (Int.negSucc_lt_zero n)]
      show ("-" ++ toString (n + 1)).toList = _
      rw [String.toList_append, Nat.toString_eq_repr, Nat.toList_repr]
      rfl

/-- A whole number is written with digits and perhaps a minus sign. -/
theorem isDigit_or_eq_minus_of_mem_toString {i : Int} {c : Char} (h : c ∈ (toString i).toList) :
    c.isDigit = true ∨ c = '-' := by
  rw [toList_toString_int] at h
  rcases eq_minus_or_mem_of_mem_withSign h with hminus | hmem
  · exact Or.inr hminus
  · exact Or.inl (isDigit_of_mem_toDigits hmem)

end Relational.Text
