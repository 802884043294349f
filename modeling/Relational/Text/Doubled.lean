/-!
# Doubled delimiters

Text in which a delimiter is written twice wherever it stands for itself, as in
SQL string literals and quoted names.
-/

namespace Relational.Text

/-- Writes every `mark` twice. -/
def double (mark : Char) (cs : List Char) : List Char :=
  cs.flatMap fun c => if c = mark then [mark, mark] else [c]

/-- Reads each pair of `mark`s as one, from the left; a `mark` alone stays. -/
def halve (mark : Char) : List Char → List Char
  | c :: d :: cs =>
      if c = mark ∧ d = mark then mark :: halve mark cs else c :: halve mark (d :: cs)
  | cs => cs

theorem halve_cons_of_ne {mark c : Char} (h : c ≠ mark) (cs : List Char) :
    halve mark (c :: cs) = c :: halve mark cs := by
  cases cs with
  | nil => rfl
  | cons d cs => simp [halve, h]

theorem halve_of_not_mem {mark : Char} {cs : List Char} (h : mark ∉ cs) :
    halve mark cs = cs := by
  induction cs with
  | nil => rfl
  | cons c cs ih =>
    have hc : c ≠ mark := fun heq => h (heq ▸ List.mem_cons_self)
    rw [halve_cons_of_ne hc, ih fun hmem => h (List.mem_cons_of_mem c hmem)]

theorem halve_sublist (mark : Char) (cs : List Char) : (halve mark cs).Sublist cs := by
  fun_induction halve mark cs with
  | case1 c d cs hpair ih =>
      obtain ⟨rfl, rfl⟩ := hpair
      exact (ih.cons d).cons_cons d
  | case2 c d cs hpair ih => exact ih.cons_cons c
  | case3 cs hshort => exact List.Sublist.refl cs

/-- Reading leaves a text as it is exactly if no delimiter follows another. -/
theorem halve_eq_self_iff {mark : Char} {cs : List Char} :
    halve mark cs = cs ↔ ¬[mark, mark] <:+: cs := by
  fun_induction halve mark cs with
  | case1 c d cs hpair ih =>
      obtain ⟨rfl, rfl⟩ := hpair
      have htwo : [d, d] <:+: d :: d :: cs := (List.prefix_append [d, d] cs).isInfix
      refine iff_of_false (fun heq => ?_) (not_not_intro htwo)
      -- Two delimiters are read as one, so what is read is shorter.
      have hlength := congrArg List.length (List.cons.inj heq).2
      have hle := (halve_sublist d cs).length_le
      rw [List.length_cons] at hlength
      omega
  | case2 c d cs hpair ih =>
      have hprefix : ¬[mark, mark] <+: c :: d :: cs := by
        simpa [eq_comm] using hpair
      rw [List.infix_cons_iff, or_iff_right hprefix, List.cons.injEq, ← ih]
      exact and_iff_right rfl
  | case3 cs hshort =>
      refine iff_of_true rfl fun htwo => ?_
      rcases cs with - | ⟨c, - | ⟨d, cs⟩⟩
      · exact absurd htwo.length_le (by simp)
      · exact absurd htwo.length_le (by simp)
      · exact hshort c d cs rfl

@[simp] theorem mem_double_iff {mark c : Char} {cs : List Char} :
    c ∈ double mark cs ↔ c ∈ cs := by
  induction cs with
  | nil => rfl
  | cons d cs ih =>
    rw [double, List.flatMap_cons, ← double, List.mem_append, ih, List.mem_cons]
    by_cases h : d = mark
    · simp [h]
    · simp [h]

theorem double_of_notMem {mark : Char} {cs : List Char} (h : mark ∉ cs) :
    double mark cs = cs := by
  induction cs with
  | nil => rfl
  | cons c cs ih =>
    have hc : c ≠ mark := fun heq => h (heq ▸ List.mem_cons_self)
    rw [double, List.flatMap_cons, ← double, if_neg hc,
      ih fun hmem => h (List.mem_cons_of_mem c hmem)]
    rfl

/-- Reading takes back what writing doubles. -/
@[simp] theorem halve_double (mark : Char) (cs : List Char) :
    halve mark (double mark cs) = cs := by
  induction cs with
  | nil => rfl
  | cons c cs ih =>
    rw [double, List.flatMap_cons, ← double]
    by_cases h : c = mark
    · simp [h, halve, ih]
    · simp [h, halve_cons_of_ne, ih]

/-- Text in which a delimiter stands in pairs only. -/
inductive Paired (mark : Char) : List Char → Prop where
  | nil : Paired mark []
  | other {c : Char} {cs : List Char} (hne : c ≠ mark) (hrest : Paired mark cs) :
      Paired mark (c :: cs)
  | pair {cs : List Char} (hrest : Paired mark cs) : Paired mark (mark :: mark :: cs)

theorem paired_double (mark : Char) (cs : List Char) : Paired mark (double mark cs) := by
  induction cs with
  | nil => exact .nil
  | cons c cs ih =>
    rw [double, List.flatMap_cons, ← double]
    by_cases h : c = mark
    · rw [if_pos h]
      exact .pair ih
    · rw [if_neg h]
      exact .other h ih

/-- Pairs do not reach across another character. -/
theorem Paired.of_append_cons {mark c : Char} (hc : c ≠ mark) {lead cs : List Char}
    (h : Paired mark (lead ++ c :: cs)) : Paired mark cs := by
  generalize htext : lead ++ c :: cs = text at h
  induction h generalizing lead with
  | nil => simp at htext
  | other _ hrest ih =>
    cases lead with
    | nil => exact (List.cons.inj htext).2 ▸ hrest
    | cons d lead => exact ih (List.cons.inj htext).2
  | pair _ ih =>
    rcases lead with - | ⟨d, - | ⟨e, lead⟩⟩
    · exact absurd (List.cons.inj htext).1 hc
    · exact absurd (List.cons.inj (List.cons.inj htext).2).1 hc
    · exact ih (List.cons.inj (List.cons.inj htext).2).2

theorem double_halve_of_paired {mark : Char} {cs : List Char} (h : Paired mark cs) :
    double mark (halve mark cs) = cs := by
  induction h with
  | nil => rfl
  | other hne _ ih =>
    rw [halve_cons_of_ne hne, double, List.flatMap_cons, ← double, ih, if_neg hne]
    rfl
  | pair _ ih =>
    rw [halve, if_pos ⟨rfl, rfl⟩, double, List.flatMap_cons, ← double, ih, if_pos rfl]
    rfl

/-- Reading loses nothing exactly if no delimiter stands alone. -/
theorem double_halve_eq_self_iff {mark : Char} {cs : List Char} :
    double mark (halve mark cs) = cs ↔ Paired mark cs :=
  ⟨fun h => h ▸ paired_double mark (halve mark cs), double_halve_of_paired⟩

theorem paired_of_notMem {mark : Char} {cs : List Char} (h : mark ∉ cs) : Paired mark cs := by
  induction cs with
  | nil => exact .nil
  | cons c cs ih =>
    have hc : c ≠ mark := fun heq => h (heq ▸ List.mem_cons_self)
    exact .other hc (ih fun hmem => h (List.mem_cons_of_mem c hmem))

/-- A delimiter that stands in pairs only and follows no other does not stand anywhere. -/
theorem paired_and_not_infix_iff {mark : Char} {cs : List Char} :
    Paired mark cs ∧ ¬[mark, mark] <:+: cs ↔ mark ∉ cs := by
  constructor
  · rintro ⟨hpaired, hnone⟩
    induction hpaired with
    | nil => exact List.not_mem_nil
    | @other c cs hne _ ih =>
      have hrest : ¬[mark, mark] <:+: cs := fun htwo =>
        hnone (htwo.trans (List.suffix_cons c cs).isInfix)
      exact List.not_mem_cons_of_ne_of_not_mem hne.symm (ih hrest)
    | @pair cs _ _ => exact absurd (List.prefix_append [mark, mark] cs).isInfix hnone
  · intro hnone
    exact ⟨paired_of_notMem hnone, fun htwo => hnone (htwo.subset List.mem_cons_self)⟩

end Relational.Text
