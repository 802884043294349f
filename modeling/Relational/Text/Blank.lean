/-!
# White space

White space as the Unicode property defines it, and the trimming of text.
-/

namespace Relational.Text

/-- The characters with the property White_Space. -/
def isBlank (c : Char) : Bool :=
  let n := c.toNat
  (9 ≤ n && n ≤ 13) || n == 0x20 || n == 0x85 || n == 0xA0 || n == 0x1680 ||
    (0x2000 ≤ n && n ≤ 0x200A) || n == 0x2028 || n == 0x2029 || n == 0x202F ||
    n == 0x205F || n == 0x3000

theorem isBlank_of_isWhitespace (c : Char) (h : c.isWhitespace = true) :
    isBlank c = true := by
  simp only [Char.isWhitespace, Bool.or_eq_true, decide_eq_true_eq] at h
  rcases h with ((h | h) | h) | h <;> subst h <;> decide

/-- The text without the white space at its end. -/
def trimEnd (cs : List Char) : List Char :=
  (cs.reverse.dropWhile isBlank).reverse

/-- The text without the white space at both ends. -/
def trim (cs : List Char) : List Char :=
  trimEnd (cs.dropWhile isBlank)

theorem dropWhile_isBlank_eq_self {cs : List Char} (h : cs.head?.any isBlank = false) :
    cs.dropWhile isBlank = cs := by
  cases cs with
  | nil => rfl
  | cons c cs =>
    have hc : isBlank c = false := h
    rw [List.dropWhile_cons_of_neg (by simp [hc])]

theorem trim_eq_self {cs : List Char} (hfirst : cs.head?.any isBlank = false)
    (hlast : cs.getLast?.any isBlank = false) : trim cs = cs := by
  have hreverse : cs.reverse.dropWhile isBlank = cs.reverse := by
    apply dropWhile_isBlank_eq_self
    rw [List.head?_reverse, hlast]
  rw [trim, dropWhile_isBlank_eq_self hfirst, trimEnd, hreverse, List.reverse_reverse]

theorem trim_eq_self_of_forall {cs : List Char} (h : ∀ c ∈ cs, isBlank c = false) :
    trim cs = cs := by
  have hend {end? : Option Char} (hmem : ∀ c ∈ end?, c ∈ cs) : end?.any isBlank = false := by
    cases end? with
    | none => rfl
    | some c => exact h c (hmem c rfl)
  exact trim_eq_self (hend fun _ => List.mem_of_mem_head?) (hend fun _ => List.mem_of_mem_getLast?)

theorem head?_dropWhile_isBlank (cs : List Char) :
    (cs.dropWhile isBlank).head?.any isBlank = false := by
  induction cs with
  | nil => rfl
  | cons c cs ih =>
    cases hc : isBlank c with
    | true => rwa [List.dropWhile_cons_of_pos hc]
    | false =>
      rw [List.dropWhile_cons_of_neg (by simp [hc])]
      exact hc

/-- Text that does not begin with white space does not after its end is trimmed. -/
theorem head?_trimEnd {cs : List Char} (h : cs.head?.any isBlank = false) :
    (trimEnd cs).head?.any isBlank = false := by
  have hkept : trimEnd cs <+: cs := by
    rw [trimEnd, ← List.reverse_suffix, List.reverse_reverse]
    exact List.dropWhile_suffix isBlank
  obtain ⟨blanks, hblanks⟩ := hkept
  cases htrim : trimEnd cs with
  | nil => rfl
  | cons c ds =>
    rw [← hblanks, htrim] at h
    exact h

theorem getLast?_trimEnd (cs : List Char) : (trimEnd cs).getLast?.any isBlank = false := by
  rw [trimEnd, List.getLast?_reverse]
  exact head?_dropWhile_isBlank cs.reverse

theorem head?_trim (cs : List Char) : (trim cs).head?.any isBlank = false :=
  head?_trimEnd (head?_dropWhile_isBlank cs)

theorem getLast?_trim (cs : List Char) : (trim cs).getLast?.any isBlank = false :=
  getLast?_trimEnd _

/-- Trimmed text has no white space at its ends. -/
@[simp] theorem trim_trim (cs : List Char) : trim (trim cs) = trim cs :=
  trim_eq_self (head?_trim cs) (getLast?_trim cs)

theorem trimEnd_append_of_isBlank {trail : List Char} (h : ∀ c ∈ trail, isBlank c = true)
    (cs : List Char) : trimEnd (cs ++ trail) = trimEnd cs := by
  rw [trimEnd, List.reverse_append, List.dropWhile_append_of_pos (by simpa using h), trimEnd]

theorem trim_append_blanks {trail : List Char} (h : ∀ c ∈ trail, isBlank c = true)
    (cs : List Char) : trim (cs ++ trail) = trim cs := by
  rw [trim, List.dropWhile_append]
  split
  · next hempty =>
      rw [trim, List.isEmpty_iff.mp hempty, ← List.append_nil trail,
        List.dropWhile_append_of_pos h, List.dropWhile_nil]
  · rw [trimEnd_append_of_isBlank h, trim]

theorem exists_blanks_of_trimEnd (cs : List Char) :
    ∃ trail, (∀ c ∈ trail, isBlank c = true) ∧ cs = trimEnd cs ++ trail := by
  refine ⟨(cs.reverse.takeWhile isBlank).reverse, ?_, ?_⟩
  · intro c hc
    exact List.all_eq_true.mp List.all_takeWhile c (List.mem_reverse.mp hc)
  · rw [trimEnd, ← List.reverse_append, List.takeWhile_append_dropWhile, List.reverse_reverse]

/-- Only white space is trimmed. -/
theorem exists_blanks_of_trim (cs : List Char) :
    ∃ lead trail, (∀ c ∈ lead, isBlank c = true) ∧ (∀ c ∈ trail, isBlank c = true) ∧
      cs = lead ++ (trim cs ++ trail) := by
  obtain ⟨trail, htrail, hcs⟩ := exists_blanks_of_trimEnd (cs.dropWhile isBlank)
  refine ⟨cs.takeWhile isBlank, trail, ?_, htrail, ?_⟩
  · exact fun c hc => List.all_eq_true.mp List.all_takeWhile c hc
  · rw [trim, ← hcs, List.takeWhile_append_dropWhile]

theorem trim_sublist (cs : List Char) : (trim cs).Sublist cs := by
  obtain ⟨lead, trail, -, -, hcs⟩ := exists_blanks_of_trim cs
  have hkept := (List.sublist_append_left (trim cs) trail).trans (List.sublist_append_right lead _)
  rwa [← hcs] at hkept

theorem trim_append_of_isBlank {lead : List Char} (h : ∀ c ∈ lead, isBlank c = true)
    (cs : List Char) : trim (lead ++ cs) = trim cs := by
  rw [trim, List.dropWhile_append_of_pos h, trim]

end Relational.Text
