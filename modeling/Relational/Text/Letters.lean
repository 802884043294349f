import Relational.Text.Blank

/-!
# Letter case

Letter case.  Upper-casing and comparison regardless of case know the ASCII
letters only.
-/

namespace Relational.Text

/-- The text with its ASCII letters in upper case. -/
def upper (cs : List Char) : List Char :=
  cs.map Char.toUpper

/-- The lower-case letters come after the digits and the upper-case letters. -/
theorem isLower_eq_false {c : Char} (h : c.isDigit = true ∨ c.isUpper = true) :
    c.isLower = false := by
  have hbefore : c.val < 'a'.val := by
    rcases h with hdigit | hupper
    · exact UInt32.lt_of_le_of_lt (of_decide_eq_true (Bool.and_eq_true_iff.mp hdigit).2) (by decide)
    · exact UInt32.lt_of_le_of_lt (of_decide_eq_true hupper).2 (by decide)
  exact Bool.and_eq_false_iff.mpr (Or.inl (decide_eq_false (UInt32.not_le.mpr hbefore)))

theorem toUpper_eq_self {c : Char} (h : c.isLower = false) : c.toUpper = c := by
  refine dif_neg ?_
  rintro ⟨hfirst, hlast⟩
  have hlower : c.isLower = true :=
    Bool.and_eq_true_iff.mpr ⟨decide_eq_true hfirst, decide_eq_true hlast⟩
  rw [h] at hlower
  cases hlower

theorem isUpper_toUpper {c : Char} (h : c.isLower = true) : c.toUpper.isUpper = true := by
  have hcodes : ∀ n : Fin 128, (Char.ofNat n).isLower = true →
      (Char.ofNat n).toUpper.isUpper = true := by
    decide
  have hlast : c.toNat ≤ 122 :=
    UInt32.le_iff_toNat_le.mp (of_decide_eq_true (Bool.and_eq_true_iff.mp h).2)
  have hc := hcodes ⟨c.toNat, by omega⟩
  rw [Char.ofNat_toNat] at hc
  exact hc h

/-- What holds of no letter does not depend on the case. -/
theorem toUpper_congr {p : Char → Bool} (hp : ∀ c, c.isAlpha = true → p c = false) (c : Char) :
    p c.toUpper = p c := by
  by_cases h : c.isLower = true
  · have hupper : c.toUpper.isAlpha = true := by
      show (c.toUpper.isUpper || c.toUpper.isLower) = true
      rw [isUpper_toUpper h, Bool.true_or]
    have hlower : c.isAlpha = true := by
      show (c.isUpper || c.isLower) = true
      rw [h, Bool.or_true]
    rw [hp _ hupper, hp _ hlower]
  · rw [toUpper_eq_self (eq_false_of_ne_true h)]

theorem toUpper_eq_iff {c d : Char} (hd : d.isAlpha = false) : c.toUpper = d ↔ c = d := by
  have hletter : ∀ c : Char, c.isAlpha = true → (c == d) = false := by
    rintro c hc
    rw [beq_eq_false_iff_ne]
    rintro rfl
    rw [hc] at hd
    contradiction
  rw [← beq_iff_eq, toUpper_congr hletter, beq_iff_eq]

/-- The letters come after the digits. -/
theorem isDigit_eq_false_of_isAlpha {c : Char} (h : c.isAlpha = true) : c.isDigit = false := by
  have hafter : '9'.val < c.val := by
    rcases Bool.or_eq_true_iff.mp h with hupper | hlower
    · exact UInt32.lt_of_lt_of_le (by decide) (of_decide_eq_true hupper).1
    · exact UInt32.lt_of_lt_of_le (by decide) (of_decide_eq_true (Bool.and_eq_true_iff.mp hlower).1)
  exact Bool.and_eq_false_iff.mpr (Or.inr (decide_eq_false (UInt32.not_le.mpr hafter)))

theorem isBlank_eq_false_of_isAlpha {c : Char} (h : c.isAlpha = true) : isBlank c = false := by
  have hrange : (65 ≤ c.toNat ∧ c.toNat ≤ 90) ∨ (97 ≤ c.toNat ∧ c.toNat ≤ 122) := by
    rcases Bool.or_eq_true_iff.mp h with hupper | hlower
    · exact Or.inl ⟨UInt32.le_iff_toNat_le.mp (of_decide_eq_true hupper).1,
        UInt32.le_iff_toNat_le.mp (of_decide_eq_true hupper).2⟩
    · have hbounds := Bool.and_eq_true_iff.mp hlower
      exact Or.inr ⟨UInt32.le_iff_toNat_le.mp (of_decide_eq_true hbounds.1),
        UInt32.le_iff_toNat_le.mp (of_decide_eq_true hbounds.2)⟩
  simp only [isBlank, Bool.or_eq_false_iff, Bool.and_eq_false_iff, decide_eq_false_iff_not,
    beq_eq_false_iff_ne]
  omega

theorem isBlank_eq_false_of_isDigit {c : Char} (h : c.isDigit = true) : isBlank c = false := by
  obtain ⟨hfirst, hlast⟩ := Bool.and_eq_true_iff.mp h
  have hlower : 48 ≤ c.toNat := UInt32.le_iff_toNat_le.mp (of_decide_eq_true hfirst)
  have hupper : c.toNat ≤ 57 := UInt32.le_iff_toNat_le.mp (of_decide_eq_true hlast)
  simp only [isBlank, Bool.or_eq_false_iff, Bool.and_eq_false_iff, decide_eq_false_iff_not,
    beq_eq_false_iff_ne]
  omega

theorem isDigit_toUpper (c : Char) : c.toUpper.isDigit = c.isDigit :=
  toUpper_congr (fun _ => isDigit_eq_false_of_isAlpha) c

theorem isBlank_toUpper (c : Char) : isBlank c.toUpper = isBlank c :=
  toUpper_congr (fun _ => isBlank_eq_false_of_isAlpha) c

theorem upper_eq_self {cs : List Char} (h : ∀ c ∈ cs, c.isLower = false) : upper cs = cs := by
  have hsame : cs.map Char.toUpper = cs.map id :=
    List.map_congr_left fun c hc => toUpper_eq_self (h c hc)
  rw [upper, hsame, List.map_id]

@[simp] theorem upper_upper (cs : List Char) : upper (upper cs) = upper cs := by
  refine upper_eq_self fun c hc => ?_
  obtain ⟨d, -, rfl⟩ := List.mem_map.mp hc
  by_cases h : d.isLower = true
  · exact isLower_eq_false (Or.inr (isUpper_toUpper h))
  · rw [toUpper_eq_self (eq_false_of_ne_true h)]
    exact eq_false_of_ne_true h

theorem dropWhile_isBlank_upper (cs : List Char) :
    (upper cs).dropWhile isBlank = upper (cs.dropWhile isBlank) := by
  have hsame : isBlank ∘ Char.toUpper = isBlank := funext isBlank_toUpper
  rw [upper, List.dropWhile_map, hsame, upper]

/-- Letter case and white space do not interfere. -/
theorem trim_upper (cs : List Char) : trim (upper cs) = upper (trim cs) := by
  have hreverse : ∀ ds, (upper ds).reverse = upper ds.reverse := fun ds => by
    rw [upper, ← List.map_reverse, upper]
  rw [trim, dropWhile_isBlank_upper, trimEnd, hreverse, dropWhile_isBlank_upper, hreverse,
    ← trimEnd, ← trim]

/-- Equality up to the case of ASCII letters. -/
def sameLetters (cs ds : List Char) : Bool :=
  upper cs == upper ds

theorem sameLetters_iff {cs ds : List Char} : sameLetters cs ds = true ↔ upper cs = upper ds :=
  beq_iff_eq

/-- What holds of no letter holds of no character of a word in any letter case. -/
theorem eq_false_of_sameLetters {p : Char → Bool} (hp : ∀ c, c.isAlpha = true → p c = false)
    {cs word : List Char} (hword : word.all Char.isAlpha = true)
    (h : sameLetters cs word = true) : ∀ c ∈ cs, p c = false := by
  intro c hc
  have hmem : c.toUpper ∈ upper word := sameLetters_iff.mp h ▸ List.mem_map_of_mem hc
  obtain ⟨d, hd, hupper⟩ := List.mem_map.mp hmem
  rw [← toUpper_congr hp, ← hupper, toUpper_congr hp]
  exact hp d (List.all_eq_true.mp hword d hd)

theorem sameLetters_eq_false_of_mem {cs word : List Char} (hword : word.all Char.isAlpha = true)
    {c : Char} (hc : c ∈ cs) (hletter : c.isAlpha = false) : sameLetters cs word = false := by
  refine eq_false_of_ne_true fun hsame => ?_
  have hnone := eq_false_of_sameLetters (p := (!·.isAlpha)) (by simp) hword hsame c hc
  rw [hletter] at hnone
  exact Bool.false_ne_true hnone.symm

/-- Whether there are ASCII characters only. -/
def isAscii (cs : List Char) : Bool :=
  cs.all fun c => c.toNat < 128

theorem isAscii_cons {c : Char} {cs : List Char} :
    isAscii (c :: cs) = true ↔ c.toNat < 128 ∧ isAscii cs = true := by
  simp [isAscii]

theorem isAscii_of_append {cs ds : List Char} (h : isAscii (cs ++ ds) = true) :
    isAscii cs = true := by
  rw [isAscii, List.all_append, Bool.and_eq_true] at h
  exact h.1

end Relational.Text
