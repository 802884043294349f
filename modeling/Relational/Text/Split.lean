/-!
# Cutting text

Cutting text at a character, enclosing characters, and search for a part.
-/

namespace Relational.Text

/-- What stands before and after the first `sep`, if there is one. -/
def cut (sep : Char) : List Char → Option (List Char × List Char)
  | [] => none
  | c :: cs =>
      if c = sep then some ([], cs)
      else (cut sep cs).map fun (before, after) => (c :: before, after)

theorem eq_append_of_cut {sep : Char} {cs before after : List Char}
    (h : cut sep cs = some (before, after)) :
    cs = before ++ sep :: after ∧ sep ∉ before := by
  induction cs generalizing before with
  | nil => simp [cut] at h
  | cons c cs ih =>
    by_cases hc : c = sep
    · simp [cut, hc] at h
      obtain ⟨rfl, rfl⟩ := h
      simp [hc]
    · simp only [cut, hc, if_false, Option.map_eq_some_iff, Prod.exists] at h
      obtain ⟨b, a, hb, heq⟩ := h
      simp only [Prod.mk.injEq] at heq
      obtain ⟨rfl, rfl⟩ := heq
      obtain ⟨rfl, hmem⟩ := ih hb
      simp [hmem, Ne.symm hc]

theorem cut_append_of_not_mem {sep : Char} {before : List Char} (h : sep ∉ before)
    (after : List Char) : cut sep (before ++ sep :: after) = some (before, after) := by
  induction before with
  | nil => simp [cut]
  | cons c before ih =>
    have hc : c ≠ sep := fun heq => h (heq ▸ List.mem_cons_self)
    have hbefore : sep ∉ before := fun hmem => h (List.mem_cons_of_mem c hmem)
    rw [List.cons_append, cut, if_neg hc, ih hbefore]
    rfl

theorem cut_eq_none_iff {sep : Char} {cs : List Char} :
    cut sep cs = none ↔ sep ∉ cs := by
  induction cs with
  | nil => simp [cut]
  | cons c cs ih =>
    by_cases hc : c = sep
    · simp [cut, hc]
    · simp [cut, hc, ih, Ne.symm hc]

/-- Text is cut at the same place after characters are replaced, if no other character becomes
the separator. -/
theorem cut_map {sep : Char} {f : Char → Char} (hf : ∀ c, f c = sep ↔ c = sep) (cs : List Char) :
    cut sep (cs.map f) = (cut sep cs).map (Prod.map (List.map f) (List.map f)) := by
  induction cs with
  | nil => rfl
  | cons c cs ih =>
    rw [List.map_cons, cut, cut]
    by_cases hc : c = sep
    · rw [if_pos hc, if_pos ((hf c).mpr hc)]
      rfl
    · rw [if_neg hc, if_neg (mt (hf c).mp hc), ih, Option.map_map, Option.map_map]
      rfl

/-- The parts between the occurrences of `sep`; there is always at least one. -/
def parts (sep : Char) : List Char → List (List Char)
  | [] => [[]]
  | c :: cs =>
      if c = sep then [] :: parts sep cs
      else
        match parts sep cs with
        | [] => [[c]]
        | part :: rest => (c :: part) :: rest

theorem parts_of_not_mem {sep : Char} {part : List Char} (h : sep ∉ part) :
    parts sep part = [part] := by
  induction part with
  | nil => rfl
  | cons c part ih =>
    have hc : c ≠ sep := fun heq => h (heq ▸ List.mem_cons_self)
    rw [parts, if_neg hc, ih fun hmem => h (List.mem_cons_of_mem c hmem)]

theorem parts_append_cons {sep : Char} {part : List Char} (h : sep ∉ part) (cs : List Char) :
    parts sep (part ++ sep :: cs) = part :: parts sep cs := by
  induction part with
  | nil => simp [parts]
  | cons c part ih =>
    have hc : c ≠ sep := fun heq => h (heq ▸ List.mem_cons_self)
    rw [List.cons_append, parts, if_neg hc, ih fun hmem => h (List.mem_cons_of_mem c hmem)]

/-- No part contains the separator. -/
theorem notMem_of_mem_parts {sep : Char} {cs part : List Char} (h : part ∈ parts sep cs) :
    sep ∉ part := by
  induction cs generalizing part with
  | nil =>
    rw [List.mem_singleton.mp h]
    exact List.not_mem_nil
  | cons c cs ih =>
    rw [parts] at h
    split at h
    · rcases List.mem_cons.mp h with rfl | h
      · exact List.not_mem_nil
      · exact ih h
    · next hc =>
        split at h
        · rw [List.mem_singleton.mp h]
          exact fun hmem => hc (List.mem_singleton.mp hmem).symm
        · next first rest hparts =>
            rcases List.mem_cons.mp h with rfl | h
            · have hfirst := ih (hparts ▸ List.mem_cons_self)
              exact List.not_mem_cons_of_ne_of_not_mem (Ne.symm hc) hfirst
            · exact ih (hparts ▸ List.mem_cons_of_mem first h)

/-- Only separators are lost between the parts. -/
theorem flatten_parts_sublist (sep : Char) (cs : List Char) :
    (parts sep cs).flatten.Sublist cs := by
  induction cs with
  | nil => exact List.Sublist.refl _
  | cons c cs ih =>
    rw [parts]
    split
    · exact ih.cons c
    · split
      · simp
      · next first rest hparts =>
          rw [hparts] at ih
          exact ih.cons_cons c

/-- What stands between `first` at the start and `last` at the end. -/
def between (first last : Char) : List Char → Option (List Char)
  | [] => none
  | c :: cs => if c = first ∧ cs.getLast? = some last then some cs.dropLast else none

theorem between_append (first last : Char) (cs : List Char) :
    between first last (first :: (cs ++ [last])) = some cs := by
  simp [between]

theorem between_eq_some_iff {first last : Char} {cs inner : List Char} :
    between first last cs = some inner ↔ cs = first :: (inner ++ [last]) := by
  constructor
  · intro h
    cases cs with
    | nil => exact nomatch h
    | cons c cs =>
      rw [between] at h
      split at h
      · next hends =>
          obtain ⟨front, rfl⟩ := List.getLast?_eq_some_iff.mp hends.2
          rw [List.dropLast_concat] at h
          rw [hends.1, Option.some.inj h]
      · exact nomatch h
  · rintro rfl
    exact between_append first last inner

theorem between_sublist {first last : Char} {cs inner : List Char}
    (h : between first last cs = some inner) : inner.Sublist cs := by
  rw [between_eq_some_iff.mp h]
  exact (List.sublist_append_left inner [last]).cons first

theorem between_eq_none_iff {first last : Char} {cs : List Char} :
    between first last cs = none ↔
      ¬(2 ≤ cs.length ∧ cs.head? = some first ∧ cs.getLast? = some last) := by
  rw [Option.eq_none_iff_forall_ne_some]
  constructor
  · rintro hnone ⟨hlength, hfirst, hlast⟩
    obtain ⟨rest, rfl⟩ := List.head?_eq_some_iff.mp hfirst
    obtain ⟨front, hfront⟩ := List.getLast?_eq_some_iff.mp hlast
    cases front with
    | nil =>
      rw [hfront] at hlength
      simp at hlength
    | cons c inner =>
      rw [List.cons_append, List.cons.injEq] at hfront
      exact hnone inner (between_eq_some_iff.mpr (by rw [hfront.2]))
  · intro hends inner hinner
    refine hends ?_
    rw [between_eq_some_iff.mp hinner, ← List.cons_append, List.getLast?_concat]
    exact ⟨by simp, rfl, rfl⟩

/-- Whether `part` occurs somewhere in the text. -/
def occurs (part : List Char) : List Char → Bool
  | [] => part.isEmpty
  | c :: cs => part.isPrefixOf (c :: cs) || occurs part cs

/-- What holds of the parts and of the separator holds of the text that they are joined
to, if it holds of one text after another. -/
theorem intercalate_of_append {motive : List Char → Prop} (nil : motive [])
    (append : ∀ {cs ds : List Char}, motive cs → motive ds → motive (cs ++ ds))
    {separator : List Char} (hseparator : motive separator) {parts : List (List Char)}
    (hparts : ∀ part ∈ parts, motive part) : motive (separator.intercalate parts) := by
  induction parts with
  | nil => exact nil
  | cons part parts ih =>
    have hpart := hparts part List.mem_cons_self
    have hrest := ih fun p hp => hparts p (List.mem_cons_of_mem part hp)
    cases parts with
    | nil => simpa using hpart
    | cons next parts =>
      rw [List.intercalate_cons_cons]
      exact append (append hpart hseparator) hrest

/-- What does not contain a character ends before it. -/
theorem exists_append_of_notMem {stop : Char} {cs rest found after : List Char}
    (h : cs ++ stop :: rest = found ++ after) (hstop : stop ∉ found) :
    ∃ more, cs = found ++ more ∧ after = more ++ stop :: rest := by
  rcases List.append_eq_append_iff.mp h with ⟨more, rfl, hafter⟩ | ⟨more, hcs, hafter⟩
  · cases more with
    | nil => exact ⟨[], by simp, by simpa using hafter.symm⟩
    | cons c more =>
      rw [List.cons_append, List.cons.injEq] at hafter
      exact absurd (hafter.1 ▸ List.mem_append_right cs List.mem_cons_self) hstop
  · exact ⟨more, hcs, hafter⟩

/-- What is enclosed by two characters ends before another one, or the other one is enclosed as
well. -/
theorem exists_append_of_enclosed {first last stop : Char} {cs rest inner after : List Char}
    (hfirst : first ≠ stop) (hlast : last ≠ stop)
    (h : cs ++ stop :: rest = first :: (inner ++ [last]) ++ after) :
    (∃ more, after = more ++ stop :: rest) ∨
      ∃ lead more, inner = lead ++ stop :: more ∧ rest = more ++ last :: after := by
  rw [← List.cons_append, List.append_assoc, List.singleton_append] at h
  rcases List.append_eq_append_iff.mp h with ⟨more, hinner, hrest⟩ | ⟨more, -, hafter⟩
  · cases more with
    | nil => exact absurd (List.cons.inj hrest).1 hlast.symm
    | cons c more =>
      obtain ⟨rfl, rfl⟩ := List.cons.inj hrest
      cases cs with
      | nil => exact absurd (List.cons.inj hinner).1 hfirst
      | cons d lead => exact .inr ⟨lead, more, (List.cons.inj hinner).2, rfl⟩
  · cases more with
    | nil => exact absurd (List.cons.inj hafter).1 hlast
    | cons c more => exact .inl ⟨more, (List.cons.inj hafter).2⟩

end Relational.Text
