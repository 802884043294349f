import Relational.Json.Number
import Relational.Text.Number

/-!
# Numerals are read back

The text of a well-formed numeral is read as the same numeral, and the numeral of an
integer as the same integer.

What follows a run of digits must not go on with another digit, and the text of a
numeral is put together so that it never does: after the whole part comes a point, an
exponent or the end.
-/

namespace Relational.Numeral

/-- A numeral that can be written: digits in all places, at least one before the point
and one in an exponent, and no leading zeros. -/
structure IsWellFormed (n : Numeral) : Prop where
  nonempty : n.whole ≠ []
  whole : ∀ c ∈ n.whole, c.isDigit = true
  leading : n.whole.head? = some '0' → n.whole = ['0']
  fraction : ∀ c ∈ n.fraction, c.isDigit = true
  exponent : ∀ sign digits, n.exponent = some (sign, digits) →
    digits ≠ [] ∧ ∀ c ∈ digits, c.isDigit = true

/-! ## Digits -/

/-- The text does not begin with a digit. -/
def NoDigitFirst (cs : List Char) : Prop := cs.head?.any Char.isDigit = false

theorem takeWhile_isDigit_append {digits rest : List Char}
    (hdigits : ∀ c ∈ digits, c.isDigit = true) (hrest : NoDigitFirst rest) :
    (digits ++ rest).takeWhile Char.isDigit = digits := by
  rw [List.takeWhile_append_of_pos hdigits]
  cases rest with
  | nil => rw [List.takeWhile_nil, List.append_nil]
  | cons c rest =>
      have hc : c.isDigit = false := hrest
      rw [List.takeWhile_cons_of_neg (ne_true_of_eq_false hc), List.append_nil]

theorem dropWhile_isDigit_append {digits rest : List Char}
    (hdigits : ∀ c ∈ digits, c.isDigit = true) (hrest : NoDigitFirst rest) :
    (digits ++ rest).dropWhile Char.isDigit = rest := by
  rw [List.dropWhile_append_of_pos hdigits]
  cases rest with
  | nil => rfl
  | cons c rest =>
      have hc : c.isDigit = false := hrest
      exact List.dropWhile_cons_of_neg (ne_true_of_eq_false hc)

/-! ## The text after the whole part -/

/-- An exponent part as it is written. -/
def exponentText : Option (ExponentSign × List Char) → List Char
  | none => []
  | some (.unwritten, digits) => 'e' :: digits
  | some (.plus, digits) => 'e' :: '+' :: digits
  | some (.minus, digits) => 'e' :: '-' :: digits

/-- A fraction as it is written. -/
def fractionText (fraction : List Char) : List Char :=
  if fraction = [] then [] else '.' :: fraction

theorem toText_eq (n : Numeral) :
    n.toText = (if n.negative then ['-'] else []) ++
      (n.whole ++ (fractionText n.fraction ++ exponentText n.exponent)) := by
  obtain ⟨negative, whole, fraction, exponent⟩ := n
  rcases exponent with - | ⟨sign, digits⟩
  · simp [toText, fractionText, exponentText]
  · cases sign <;> simp [toText, fractionText, exponentText]

theorem noDigitFirst_exponentText (exponent : Option (ExponentSign × List Char)) :
    NoDigitFirst (exponentText exponent) := by
  rcases exponent with - | ⟨sign, digits⟩
  · rfl
  · cases sign <;> rfl

theorem noDigitFirst_fractionText_append (fraction : List Char)
    (exponent : Option (ExponentSign × List Char)) :
    NoDigitFirst (fractionText fraction ++ exponentText exponent) := by
  unfold fractionText
  split
  · exact noDigitFirst_exponentText exponent
  · rfl

theorem readExponent_of_digits (sign : ExponentSign) {digits : List Char} (hne : digits ≠ [])
    (hdigits : ∀ c ∈ digits, c.isDigit = true) :
    readExponent (match sign with
      | .unwritten => digits
      | .plus => '+' :: digits
      | .minus => '-' :: digits) = some (sign, digits) := by
  have hall : digits.all Char.isDigit = true := List.all_eq_true.mpr hdigits
  cases sign with
  | plus | minus => simp [readExponent, hne, hall]
  | unwritten =>
      -- A digit is none of the signs.
      obtain ⟨c, rest, rfl⟩ := List.exists_cons_of_ne_nil hne
      have hc : c.isDigit = true := hdigits c List.mem_cons_self
      simp only [readExponent]
      split
      · next heq =>
          obtain ⟨rfl, -⟩ := List.cons.inj heq
          cases hc
      · next heq =>
          obtain ⟨rfl, -⟩ := List.cons.inj heq
          cases hc
      · rw [if_pos ⟨hne, hall⟩]

theorem readTail_exponentText (negative : Bool) (whole fraction : List Char)
    {exponent : Option (ExponentSign × List Char)}
    (h : ∀ sign digits, exponent = some (sign, digits) →
      digits ≠ [] ∧ ∀ c ∈ digits, c.isDigit = true) :
    readTail negative whole fraction (exponentText exponent) =
      some ⟨negative, whole, fraction, exponent⟩ := by
  rcases exponent with - | ⟨sign, digits⟩
  · rfl
  · obtain ⟨hne, hdigits⟩ := h sign digits rfl
    have hread := readExponent_of_digits sign hne hdigits
    cases sign <;> simp only [exponentText, readTail, hread] <;> rfl

/-! ## The whole numeral -/

/-- Reads what follows a sign. -/
def readUnsigned (negative : Bool) (body : List Char) : Option Numeral :=
  let whole := body.takeWhile Char.isDigit
  let rest := body.dropWhile Char.isDigit
  if whole = [] ∨ (whole.head? = some '0' ∧ whole ≠ ['0']) then none
  else
    match rest with
    | '.' :: more =>
        let fraction := more.takeWhile Char.isDigit
        if fraction = [] then none
        else readTail negative whole fraction (more.dropWhile Char.isDigit)
    | _ => readTail negative whole [] rest

theorem ofText_of_isDigit {c : Char} (h : c.isDigit = true) (rest : List Char) :
    ofText (c :: rest) = readUnsigned false (c :: rest) := by
  unfold ofText
  split
  · next heq =>
      split at heq
      · next hcons =>
          obtain ⟨rfl, -⟩ := List.cons.inj hcons
          cases h
      · cases heq
        rfl

theorem readUnsigned_text {n : Numeral} (h : n.IsWellFormed) (negative : Bool) :
    readUnsigned negative (n.whole ++ (fractionText n.fraction ++ exponentText n.exponent)) =
      some { n with negative } := by
  have hrest := noDigitFirst_fractionText_append n.fraction n.exponent
  have hwhole : ¬(n.whole = [] ∨ (n.whole.head? = some '0' ∧ n.whole ≠ ['0'])) := by
    rintro (hnil | ⟨hzero, hne⟩)
    · exact h.nonempty hnil
    · exact hne (h.leading hzero)
  simp only [readUnsigned]
  rw [takeWhile_isDigit_append h.whole hrest, dropWhile_isDigit_append h.whole hrest,
    if_neg hwhole]
  by_cases hfraction : n.fraction = []
  · rw [fractionText, if_pos hfraction, List.nil_append]
    split
    · next more heq =>
        -- An exponent does not begin with a point.
        rcases hexponent : n.exponent with - | ⟨sign, digits⟩
        · rw [hexponent] at heq
          cases heq
        · rw [hexponent] at heq
          cases sign <;> cases heq
    · rw [readTail_exponentText negative n.whole [] h.exponent, ← hfraction]
  · have hexponent := noDigitFirst_exponentText n.exponent
    rw [fractionText, if_neg hfraction, List.cons_append]
    show (if (n.fraction ++ exponentText n.exponent).takeWhile Char.isDigit = [] then none
      else readTail negative n.whole ((n.fraction ++ exponentText n.exponent).takeWhile
        Char.isDigit) ((n.fraction ++ exponentText n.exponent).dropWhile Char.isDigit)) = _
    rw [takeWhile_isDigit_append h.fraction hexponent,
      dropWhile_isDigit_append h.fraction hexponent, if_neg hfraction,
      readTail_exponentText negative n.whole n.fraction h.exponent]

/-- The text of a well-formed numeral is read as the numeral. -/
theorem ofText_toText {n : Numeral} (h : n.IsWellFormed) : ofText n.toText = some n := by
  have hread := readUnsigned_text h n.negative
  rw [toText_eq]
  obtain ⟨negative, whole, fraction, exponent⟩ := n
  cases negative with
  | true => exact hread
  | false =>
      obtain ⟨c, rest, rfl⟩ := List.exists_cons_of_ne_nil h.nonempty
      have hc : c.isDigit = true := h.whole c List.mem_cons_self
      exact (ofText_of_isDigit hc _).trans hread

/-- A numeral begins with a digit or a minus sign. -/
theorem exists_cons_of_toText {n : Numeral} (h : n.IsWellFormed) :
    ∃ c rest, n.toText = c :: rest ∧ (c.isDigit = true ∨ c = '-') := by
  rw [toText_eq]
  cases n.negative with
  | true => exact ⟨_, _, rfl, Or.inr rfl⟩
  | false =>
      obtain ⟨c, rest, hwhole⟩ := List.exists_cons_of_ne_nil h.nonempty
      rw [hwhole]
      exact ⟨c, _, rfl, Or.inl (h.whole c (by simp [hwhole]))⟩

theorem mem_toText {n : Numeral} (h : n.IsWellFormed) {c : Char} (hc : c ∈ n.toText) :
    c.isDigit = true ∨ c ∈ ['-', '+', '.', 'e'] := by
  rw [toText_eq] at hc
  simp only [List.mem_append] at hc
  rcases hc with hsign | hwhole | hfraction | hexponent
  · split at hsign
    · exact Or.inr (by simp [List.mem_singleton.mp hsign])
    · cases hsign
  · exact Or.inl (h.whole c hwhole)
  · unfold fractionText at hfraction
    split at hfraction
    · cases hfraction
    · rcases List.mem_cons.mp hfraction with rfl | hdigit
      · exact Or.inr (by decide)
      · exact Or.inl (h.fraction c hdigit)
  · rcases heq : n.exponent with - | ⟨sign, digits⟩
    · rw [heq] at hexponent
      cases hexponent
    · obtain ⟨-, hdigits⟩ := h.exponent sign digits heq
      rw [heq] at hexponent
      cases sign <;> simp only [exponentText, List.mem_cons] at hexponent <;> grind

/-! ## Integers -/

theorem isWellFormed_ofNat (n : Nat) : (ofNat n).IsWellFormed where
  nonempty := Nat.toDigits_ne_nil
  whole := fun _ hc => Text.isDigit_of_mem_toDigits hc
  leading := by
    intro hzero
    by_cases h : n = 0
    · rw [h]
      rfl
    · exact absurd hzero (Text.head?_toDigits_ne_zero h)
  fraction := List.forall_mem_nil _
  exponent := nofun

theorem isWellFormed_ofInt (i : Int) : (ofInt i).IsWellFormed := by
  cases i with
  | ofNat n => exact isWellFormed_ofNat n
  | negSucc n =>
      obtain ⟨nonempty, whole, leading, fraction, exponent⟩ := isWellFormed_ofNat (n + 1)
      exact ⟨nonempty, whole, leading, fraction, exponent⟩

theorem toInt?_ofNat (n : Nat) : (ofNat n).toInt? = some (n : Int) := by
  simp [toInt?, ofNat]

/-- The numeral of an integer is read as the integer. -/
theorem toInt?_ofInt (i : Int) : (ofInt i).toInt? = some i := by
  cases i with
  | ofNat n => exact toInt?_ofNat n
  | negSucc n =>
      simp only [ofInt, toInt?, ofNat, Nat.ofDigitChars_ten_toDigits, and_self, if_true]
      rw [if_neg (Nat.succ_ne_zero n)]
      rfl

end Relational.Numeral
