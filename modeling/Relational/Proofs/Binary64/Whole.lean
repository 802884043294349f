import Relational.Proofs.Binary64.Reading

/-!
# Whole numbers among the floating-point numbers

A whole number is written without a point, and nothing else is: `fraction_eq_nil_iff`.  So the text
of a number is the text of an integer of 64 bits exactly if the number is whole and below
`2 ^ 63`: `readInt64_toText` and `readInt64_toText_eq_none`.

Up to `2 ^ 53` a whole number is its own shortest decimal, with or without zeros at its end; past
it, every number is whole, but the decimal need not be the same whole number.
-/

namespace Relational

namespace Binary64

/-- Whether a number is, up to its sign, a whole number below a bound. -/
def IsWholeBelow (bound : Nat) (x : Binary64) : Prop :=
  x.isFinite = true ∧ ∃ n < bound, x.units = n * unitsPerOne

/-! ## Rounding whole numbers -/

section

variable {x : Binary64} {n : Nat}

/-- The magnitude of a pattern that is given by a binade and a place in it, up to the first
place of the next binade. -/
theorem units_of_binade {e r : Nat} (hpattern : x.pattern = e * 2 ^ 52 + r)
    (hlow : 0 < e → 2 ^ 52 ≤ r) (hhigh : r ≤ 2 ^ 53) : x.units = r * 2 ^ e := by
  rw [units_eq, hpattern]
  split
  · next hsmall =>
      have he : e = 0 := by
        by_contra hne
        have hle := hlow (Nat.pos_of_ne_zero hne)
        omega
      rw [he]
      omega
  · next hlarge =>
      have hfirst : 2 ^ 52 ≤ r := by
        rcases Nat.eq_zero_or_pos e with he | he
        · rw [he] at hlarge
          omega
        · exact hlow he
      rcases Nat.lt_or_eq_of_le hhigh with hlt | heq
      · have hplace : (e * 2 ^ 52 + r) / 2 ^ 52 = e + 1 := by omega
        have hrest : (e * 2 ^ 52 + r) % 2 ^ 52 = r - 2 ^ 52 := by omega
        rw [hplace, hrest, Nat.add_sub_cancel' hfirst, Nat.add_sub_cancel]
      · have hplace : (e * 2 ^ 52 + r) / 2 ^ 52 = e + 2 := by omega
        have hrest : (e * 2 ^ 52 + r) % 2 ^ 52 = 0 := by omega
        rw [hplace, hrest, heq, Nat.add_zero]
        show 2 ^ 52 * 2 ^ (e + 1) = 2 ^ 53 * 2 ^ e
        ring

/-- Rounding a whole number gives a whole number. -/
theorem exists_units_of_nearestPattern (hfinite : x.isFinite = true)
    (h : nearestPattern n 1 = x.pattern) : ∃ k, x.units = k * unitsPerOne := by
  generalize he : binade (n * unitsPerOne) 1 = e
  generalize hr : roundHalfEven (n * unitsPerOne) (1 * 2 ^ e) = r
  have hpattern : x.pattern = e * 2 ^ 52 + r := by
    rw [nearestPattern_eq, he, hr] at h
    have hlt := isFinite_iff.mp hfinite
    omega
  have hvalue : x.units = r * 2 ^ e := by
    refine units_of_binade hpattern (fun hpos => ?_) ?_
    · rw [← hr, ← he]
      exact le_roundHalfEven_binade (he ▸ hpos)
    · rw [← hr, ← he]
      exact roundHalfEven_binade_le _ _
  rcases Nat.le_total e 1074 with hle | hge
  · -- Nothing is rounded, because the units of a whole number are a multiple of the place.
    have hexact : n * unitsPerOne = n * 2 ^ (1074 - e) * (1 * 2 ^ e) := by
      rw [unitsPerOne_eq, Nat.one_mul, Nat.mul_assoc, ← Nat.pow_add, Nat.sub_add_cancel hle]
    refine ⟨n, ?_⟩
    rw [hexact, roundHalfEven_mul_right _ (by positivity)] at hr
    rw [hvalue, ← hr, hexact, Nat.one_mul]
  · refine ⟨r * 2 ^ (e - 1074), ?_⟩
    rw [hvalue, unitsPerOne_eq, Nat.mul_assoc, ← Nat.pow_add, Nat.sub_add_cancel hge]

end

/-! ## Shortest decimals of whole numbers -/

section

variable {x : Binary64} {k : Nat}

theorem isZero_eq_false_iff : x.isZero = false ↔ x.pattern ≠ 0 := by
  rw [← Bool.not_eq_true, isZero_iff]

theorem units_pos (h : x.isZero = false) : 0 < x.units := by
  have hpattern := isZero_eq_false_iff.mp h
  rw [units_eq]
  split
  · omega
  · positivity

/-- A neighbour is found if the lower one reads back. -/
theorem neighbour?_isSome (tie : Tie) {shift : Int}
    (h : x.readsBack ((x.shifted shift).1 / (x.shifted shift).2) shift = true) :
    (x.neighbour? tie shift).isSome = true := by
  unfold neighbour?
  generalize x.shifted shift = quotient at h ⊢
  obtain ⟨num, den⟩ := quotient
  dsimp only at h ⊢
  rw [h]
  cases x.readsBack (num / den + 1) shift with
  | false => rfl
  | true =>
      dsimp only
      split
      · rfl
      · split
        · rfl
        · cases tie <;> rfl

/-- A whole number is its own neighbour on the grid of the whole numbers. -/
theorem neighbour?_isSome_of_units (tie : Tie) (hfinite : x.isFinite = true)
    (h : x.units = k * unitsPerOne) : (x.neighbour? tie 0).isSome = true := by
  have hshifted : x.shifted 0 = (x.units, unitsPerOne) :=
    congrArg (·, unitsPerOne) (Nat.mul_one x.units)
  apply neighbour?_isSome
  rw [hshifted, h, Nat.mul_div_cancel _ unitsPerOne_pos]
  exact readsBack_of_units (k := 0) hfinite (by rw [h, Nat.pow_zero, Nat.mul_one])

theorem lt_length_toDigits (hk : 0 < k) (e : Nat) : e < (Nat.toDigits 10 (k * 10 ^ e)).length := by
  have hpositive : 0 < (Nat.toDigits 10 (k * 10 ^ e)).length :=
    List.length_pos_of_ne_nil Nat.toDigits_ne_nil
  have hupper := (Nat.length_toDigits_le_iff (b := 10) (by decide) hpositive).mp le_rfl
  have hlower : 10 ^ e ≤ k * 10 ^ e := Nat.le_mul_of_pos_left _ hk
  exact (Nat.pow_lt_pow_iff_right (by decide)).mp (hlower.trans_lt hupper)

/-- The first digit of a whole number other than zero stands before the point. -/
theorem one_le_leadingPlace (hk : 0 < k) (h : x.units = k * unitsPerOne) :
    1 ≤ x.leadingPlace := by
  have hpow : Nat.pow 10 330 = 10 ^ 330 := by
    generalize 330 = e
    exact Nat.pow_eq
  have hquotient : x.units * Nat.pow 10 330 / unitsPerOne = k * 10 ^ 330 := by
    rw [h, hpow, Nat.mul_right_comm, Nat.mul_div_cancel _ unitsPerOne_pos]
  have hlength := lt_length_toDigits hk 330
  rw [leadingPlace, hquotient]
  omega

theorem mem_before_of_range {n i j : Nat} {before after : List Nat}
    (h : List.range n = before ++ i :: after) (hj : j < i) : j ∈ before := by
  have hi : i < n := List.mem_range.mp (h ▸ List.mem_append_right before List.mem_cons_self)
  have hmem : j ∈ before ++ i :: after := h ▸ List.mem_range.mpr (hj.trans hi)
  have hpairwise : (before ++ i :: after).Pairwise (· < ·) := h ▸ List.pairwise_lt_range
  rcases List.mem_append.mp hmem with hbefore | hafter
  · exact hbefore
  · have hlater := (List.pairwise_cons.mp (List.pairwise_append.mp hpairwise).2.1).1
    rcases List.mem_cons.mp hafter with heq | hrest
    · exact absurd heq hj.ne
    · exact absurd (hlater j hrest) (Nat.lt_asymm hj)

theorem natCast_mul_pow_mul_zpow_neg (k : Nat) {e : Nat} {shift : Int} (h : shift = e) :
    ((k * 10 ^ e : Nat) : ℚ) * 10 ^ (-shift) = k := by
  rw [h, zpow_neg, zpow_natCast, Nat.cast_mul, Nat.cast_pow, Nat.cast_ofNat, mul_assoc,
    mul_inv_cancel₀ (by positivity), mul_one]

/-- No grid finer than that of the whole numbers is tried for a whole number. -/
theorem exists_decimalOf_of_shortest? {tie : Tie} (hfinite : x.isFinite = true) (hk : 0 < k)
    (h : x.units = k * unitsPerOne) {d : Decimal} (hfound : x.shortest? tie = some d) :
    ∃ n e : Nat, d = decimalOf n (-e) := by
  unfold shortest? at hfound
  dsimp only at hfound
  rw [List.findSome?_eq_some_iff] at hfound
  obtain ⟨before, i, after, hrange, hi, hnone⟩ := hfound
  rw [Option.map_eq_some_iff] at hi
  obtain ⟨n, -, rfl⟩ := hi
  have hcoarse : (i : Int) + 1 - x.leadingPlace ≤ 0 := by
    by_contra hfine
    have hplace := one_le_leadingPlace hk h
    have hzero : ((x.leadingPlace - 1).toNat : Int) + 1 - x.leadingPlace = 0 := by omega
    have hmem := mem_before_of_range (j := (x.leadingPlace - 1).toNat) hrange (by omega)
    have hmiss := hnone _ hmem
    rw [hzero, Option.map_eq_none_iff] at hmiss
    have hhit := neighbour?_isSome_of_units tie hfinite h
    rw [hmiss] at hhit
    exact Bool.false_ne_true hhit
  obtain ⟨e, he⟩ := Int.eq_ofNat_of_zero_le (Int.neg_nonneg.mpr hcoarse)
  exact ⟨n, e, congrArg (decimalOf n) (by omega)⟩

/-- The decimal that is written for a whole number is whole. -/
theorem exists_value_shortest (tie : Tie) (hfinite : x.isFinite = true) (hk : 0 < k)
    (h : x.units = k * unitsPerOne) : ∃ m : Nat, (x.shortest tie).value = m := by
  unfold shortest
  cases hfound : x.shortest? tie with
  | none =>
      refine ⟨k, ?_⟩
      have hunits : x.units * Nat.pow 5 1074 = k * 10 ^ 1074 := by
        rw [h, Nat.mul_assoc, Nat.mul_comm unitsPerOne]
        exact congrArg (k * ·) five_pow_mul_unitsPerOne
      rw [Option.getD_none, value_decimalOf, hunits]
      exact natCast_mul_pow_mul_zpow_neg k rfl
  | some d =>
      obtain ⟨n, e, rfl⟩ := exists_decimalOf_of_shortest? hfinite hk h hfound
      refine ⟨n * 10 ^ e, ?_⟩
      rw [Option.getD_some, value_decimalOf, neg_neg, zpow_natCast, Nat.cast_mul, Nat.cast_pow,
        Nat.cast_ofNat]

end

end Binary64

/-! ## Decimals without a fraction -/

namespace Decimal

variable {d : Decimal}

/-- A decimal that ends with a digit other than zero has a fraction unless it is whole. -/
theorem IsSignificant.fraction_eq_nil (h : d.IsSignificant) (hlast : d.digits.getLast? ≠ some '0')
    {m : Nat} (hm : d.value = m) : d.positional.2 = [] := by
  obtain ⟨front, c, hdigits⟩ : ∃ front c, d.digits = front ++ [c] :=
    ⟨_, _, (List.dropLast_concat_getLast h.nonempty).symm⟩
  have hc : c ≠ '0' := by
    rintro rfl
    rw [hdigits, List.getLast?_concat] at hlast
    exact hlast rfl
  have hten := Text.not_ten_dvd_ofDigitChars
    (h.digits c (hdigits ▸ List.mem_append_right front (List.mem_singleton_self c))) hc front
  rw [← hdigits] at hten
  have hplace : (d.digits.length : Int) ≤ d.point := by
    by_contra hlt
    obtain ⟨e, he⟩ := Int.eq_ofNat_of_zero_le (a := d.digits.length - d.point - 1) (by omega)
    have hexponent : d.point - d.digits.length = -((e + 1 : Nat) : Int) := by omega
    rw [value, hexponent, zpow_neg, zpow_natCast, ← div_eq_mul_inv,
      div_eq_iff (by positivity)] at hm
    have hvalue : Nat.ofDigitChars 10 d.digits 0 = m * 10 ^ (e + 1) := by exact_mod_cast hm
    exact hten ⟨m * 10 ^ e, by rw [hvalue]; ring⟩
  unfold positional
  cases hpoint : d.point with
  | ofNat k =>
      rw [hpoint] at hplace
      exact List.drop_eq_nil_of_le (Int.ofNat_le.mp hplace)
  | negSucc k => omega

theorem value_of_fraction_eq_nil (h : d.positional.2 = []) :
    d.value = Nat.ofDigitChars 10 d.positional.1 0 := by
  rw [← value_positional, h]
  simp

end Decimal

namespace Binary64

section

theorem getLast?_decimalOf (n : Nat) (shift : Int) :
    (decimalOf n shift).digits.getLast? ≠ some '0' := by
  have hfirst := List.head?_dropWhile_not (· == '0') (Nat.toDigits 10 n).reverse
  intro hlast
  simp only [decimalOf, List.getLast?_reverse] at hlast
  rw [hlast] at hfirst
  exact Bool.false_ne_true hfirst.symm

variable {x : Binary64}

theorem getLast?_shortest (tie : Tie) (hfinite : x.isFinite = true) :
    (x.shortest tie).digits.getLast? ≠ some '0' := by
  obtain ⟨n, shift, hshortest, -⟩ := exists_decimalOf_shortest tie hfinite
  rw [hshortest]
  exact getLast?_decimalOf n shift

/-- Digits without a point spell a whole number that is rounded to the number. -/
theorem nearestPattern_of_fraction_eq_nil (hfinite : x.isFinite = true) {tie : Tie}
    (h : (x.shortest tie).positional.2 = []) :
    nearestPattern (Nat.ofDigitChars 10 (x.shortest tie).positional.1 0) 1 = x.pattern := by
  obtain ⟨n, shift, hshortest, hback⟩ := exists_decimalOf_shortest tie hfinite
  obtain ⟨num, den, hden, hquotient, hpattern⟩ := exists_quotient_of_readsBack hback
  have hvalue := Decimal.value_of_fraction_eq_nil h
  rw [← hpattern]
  refine nearestPattern_eq_of_div_eq Nat.one_pos hden ?_
  rw [← hquotient, ← value_decimalOf, ← hshortest, hvalue, Nat.cast_one, div_one]

/-- A whole number is written without a point, and every other number with one. -/
theorem fraction_eq_nil_iff (hfinite : x.isFinite = true) (hzero : x.isZero = false) (tie : Tie) :
    (x.shortest tie).positional.2 = [] ↔ ∃ k, x.units = k * unitsPerOne := by
  constructor
  · exact fun hnil =>
      exists_units_of_nearestPattern hfinite (nearestPattern_of_fraction_eq_nil hfinite hnil)
  · rintro ⟨k, hk⟩
    have hpositive : 0 < k := by
      rw [Nat.pos_iff_ne_zero]
      rintro rfl
      have hunits := units_pos hzero
      omega
    obtain ⟨m, hm⟩ := exists_value_shortest tie hfinite hpositive hk
    exact (isSignificant_shortest tie hfinite hzero).fraction_eq_nil
      (getLast?_shortest tie hfinite) hm

/-! ## Texts of integers -/

/-- The pattern of `2 ^ 63`. -/
def pattern63 : Nat := 1086 * 2 ^ 52

theorem pattern_pattern63 (negative : Bool) : (signed negative pattern63).pattern = pattern63 :=
  pattern_signed (by decide)

theorem isFinite_pattern63 : (signed false pattern63).isFinite = true := by
  rw [isFinite_iff, pattern_pattern63]
  decide

theorem units_pattern63 : (signed false pattern63).units = 2 ^ 63 * unitsPerOne := by
  have hpattern : (signed false pattern63).pattern = 1085 * 2 ^ 52 + 2 ^ 52 :=
    pattern_pattern63 false
  rw [units_of_binade hpattern (fun _ => le_rfl) (by decide), unitsPerOne_eq]
  simp only [← Nat.pow_add, Nat.reduceAdd]

theorem nearestPattern_two_pow_63 : nearestPattern (2 ^ 63) 1 = pattern63 := by
  have hunits := nearestPattern_units isFinite_pattern63
  rw [units_pattern63, pattern_pattern63] at hunits
  rw [← hunits]
  exact nearestPattern_congr Nat.one_pos unitsPerOne_pos (by rw [Nat.mul_one])

theorem pattern63_le_iff (hfinite : x.isFinite = true) :
    pattern63 ≤ x.pattern ↔ 2 ^ 63 * unitsPerOne ≤ x.units := by
  constructor
  · intro h
    rw [← units_pattern63]
    exact units_le_units isFinite_pattern63 hfinite (by rwa [pattern_pattern63])
  · intro h
    rw [← nearestPattern_units hfinite, ← nearestPattern_two_pow_63]
    exact nearestPattern_mono Nat.one_pos unitsPerOne_pos (by rwa [Nat.mul_one])

/-- The pattern tells on which side of `2 ^ 63` a whole number lies that is rounded to it. -/
theorem lt_two_pow_63_of_nearestPattern {n : Nat} (h : nearestPattern n 1 < pattern63) :
    n < 2 ^ 63 := by
  by_contra hge
  rw [← nearestPattern_two_pow_63] at h
  have hle : nearestPattern (2 ^ 63) 1 ≤ nearestPattern n 1 :=
    nearestPattern_mono Nat.one_pos Nat.one_pos (by omega)
  omega

theorem two_pow_63_lt_of_nearestPattern {n : Nat} (h : pattern63 < nearestPattern n 1) :
    2 ^ 63 < n := by
  by_contra hle
  rw [← nearestPattern_two_pow_63] at h
  have hge : nearestPattern n 1 ≤ nearestPattern (2 ^ 63) 1 :=
    nearestPattern_mono Nat.one_pos Nat.one_pos (by omega)
  omega

/-- The whole numbers below `2 ^ 63` are those that are written without a point and have a
smaller pattern. -/
theorem isWholeBelow_iff (hfinite : x.isFinite = true) (hzero : x.isZero = false) (tie : Tie) :
    x.IsWholeBelow (2 ^ 63) ↔ (x.shortest tie).positional.2 = [] ∧ x.pattern < pattern63 := by
  rw [fraction_eq_nil_iff hfinite hzero, ← Nat.not_le, pattern63_le_iff hfinite]
  constructor
  · rintro ⟨-, k, hk, hunits⟩
    refine ⟨⟨k, hunits⟩, ?_⟩
    rw [hunits, Nat.not_le]
    exact Nat.mul_lt_mul_of_pos_right hk unitsPerOne_pos
  · rintro ⟨⟨k, hunits⟩, hlt⟩
    rw [hunits, Nat.not_le] at hlt
    exact ⟨hfinite, k, Nat.lt_of_mul_lt_mul_right hlt, hunits⟩

theorem isWholeBelow_zero (negative : Bool) : (zero negative).IsWholeBelow (2 ^ 63) := by
  have hpattern : (zero negative).pattern = 0 := pattern_signed (by decide)
  refine ⟨isFinite_iff.mpr (by rw [hpattern]; decide), 0, by decide, ?_⟩
  rw [units_eq, hpattern, Nat.zero_mul]
  rfl

theorem readInt64_toText_zero (negative : Bool) :
    Text.readInt64 (zero negative).toText = some 0 := by
  rw [toText_zero]
  cases negative <;> rfl

theorem readInt64_toText_infinity (negative : Bool) :
    Text.readInt64 (infinity negative).toText = none := by
  rw [toText_infinity]
  cases negative <;> rfl

/-- The number `2 ^ 63` is written as a greater integer, which is out of range. -/
theorem readInt64_toText_pattern63 : ∀ negative,
    Text.readInt64 (signed negative pattern63).toText = none := by
  decide +kernel

/-- What is written without a point is read as an integer if it is in range. -/
theorem readInt64_toText_of_fraction_eq_nil (hfinite : x.isFinite = true)
    (hzero : x.isZero = false) (hnil : (x.shortest .greater).positional.2 = []) :
    ∃ n, nearestPattern n 1 = x.pattern ∧ Text.readInt64 x.toText =
      if n < 2 ^ 63 ∨ (x.isNegative = true ∧ n = 2 ^ 63) then
        some (Int64.ofInt (if x.isNegative then -n else n)) else none := by
  obtain ⟨hnonempty, hwhole, -⟩ :=
    (isSignificant_shortest .greater hfinite hzero).positional_whole
  have hpattern := nearestPattern_of_fraction_eq_nil hfinite hnil
  have hdigits := Text.readDigits_eq_some_iff.mpr ⟨hnonempty, hwhole, rfl⟩
  rw [toText_of_isFinite hfinite hzero, pointText_of_snd_eq_nil hnil,
    Text.readInt64_withSign hdigits]
  exact ⟨_, hpattern, rfl⟩

/-- A whole number below `2 ^ 63` is written as an integer of which it is the nearest number. -/
theorem readInt64_toText (h : x.IsWholeBelow (2 ^ 63)) :
    ∃ n < 2 ^ 63, ofRatio x.isNegative n 1 = x ∧
      Text.readInt64 x.toText = some (Int64.ofInt (if x.isNegative then -n else n)) := by
  have hfinite := h.1
  by_cases hzero : x.isZero = true
  · refine ⟨0, by decide, ?_, ?_⟩
    · rw [ofRatio, nearestPattern_zero, ← isZero_iff.mp hzero, signed_pattern]
    · rw [eq_zero_of_isZero hzero, readInt64_toText_zero]
      simp
  · rw [Bool.not_eq_true] at hzero
    obtain ⟨hnil, hlt⟩ := (isWholeBelow_iff hfinite hzero .greater).mp h
    obtain ⟨n, hpattern, hread⟩ := readInt64_toText_of_fraction_eq_nil hfinite hzero hnil
    have hn : n < 2 ^ 63 := lt_two_pow_63_of_nearestPattern (hpattern ▸ hlt)
    refine ⟨n, hn, ?_, ?_⟩
    · rw [ofRatio, hpattern, signed_pattern]
    · rw [hread, if_pos (Or.inl hn)]

/-- No other number is written as an integer. -/
theorem readInt64_toText_eq_none (hnumber : x.isNaN = false) (h : ¬x.IsWholeBelow (2 ^ 63)) :
    Text.readInt64 x.toText = none := by
  by_cases hfinite : x.isFinite = true
  · have hzero : x.isZero = false := by
      rw [← Bool.not_eq_true]
      intro hzero
      exact h (eq_zero_of_isZero hzero ▸ isWholeBelow_zero _)
    rw [isWholeBelow_iff hfinite hzero .greater, not_and, Nat.not_lt] at h
    by_cases hnil : (x.shortest .greater).positional.2 = []
    · rcases Nat.lt_or_eq_of_le (h hnil) with hlarge | heq
      · -- The integer that is written need not be the number itself, but rounding it to the number
        -- keeps it on the same side of the bound.
        obtain ⟨n, hpattern, hread⟩ := readInt64_toText_of_fraction_eq_nil hfinite hzero hnil
        have hn : 2 ^ 63 < n := two_pow_63_lt_of_nearestPattern (hpattern ▸ hlarge)
        rw [hread]
        exact if_neg (by omega)
      · have hsame := readInt64_toText_pattern63 x.isNegative
        rwa [heq, signed_pattern] at hsame
    · obtain ⟨hnonempty, hwhole, -⟩ :=
        (isSignificant_shortest .greater hfinite hzero).positional_whole
      rw [toText_of_isFinite hfinite hzero]
      exact readInt64_pointText_eq_none _ hnonempty hwhole hnil
  · rw [Bool.not_eq_true] at hfinite
    rw [eq_infinity hnumber hfinite, readInt64_toText_infinity]

end

end Binary64

end Relational
