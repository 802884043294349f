import Relational.Schema.ConstraintScan

/-!
# Balanced parentheses

The text up to the parenthesis that closes an open one.

It is the balanced text before a closing parenthesis, if there is one:
`balancedBody_eq_some_iff`.
-/

namespace Relational.Schema

/-- Texts with balanced parentheses.  Those in strings do not count.  A doubled
apostrophe in a string ends it and begins the next one. -/
inductive Balanced : List Char → Prop
  | nil : Balanced []
  | plain {c : Char} {cs : List Char} :
      c ≠ '\'' → c ≠ '(' → c ≠ ')' → Balanced cs → Balanced (c :: cs)
  | string {inner cs : List Char} :
      '\'' ∉ inner → Balanced cs → Balanced ('\'' :: (inner ++ '\'' :: cs))
  | group {inner cs : List Char} :
      Balanced inner → Balanced cs → Balanced ('(' :: (inner ++ ')' :: cs))

namespace Balanced

theorem append {cs ds : List Char} (hcs : Balanced cs) (hds : Balanced ds) :
    Balanced (cs ++ ds) := by
  induction hcs with
  | nil => exact hds
  | plain happostrophe hopening hclosing _ ih => exact plain happostrophe hopening hclosing ih
  | string hinner _ ih =>
      rw [List.cons_append, List.append_assoc]
      exact string hinner ih
  | group hinner _ _ ih =>
      rw [List.cons_append, List.append_assoc]
      exact group hinner ih

theorem of_all {cs : List Char} (h : (cs.all fun c => c ∉ ['\'', '(', ')']) = true) :
    Balanced cs := by
  induction cs with
  | nil => exact nil
  | cons c cs ih =>
      rw [List.all_cons, Bool.and_eq_true] at h
      have hc : c ≠ '\'' ∧ c ≠ '(' ∧ c ≠ ')' := by simpa using h.1
      exact plain hc.1 hc.2.1 hc.2.2 (ih h.2)

theorem intercalate {separator : List Char} {parts : List (List Char)}
    (hseparator : Balanced separator) (hparts : ∀ part ∈ parts, Balanced part) :
    Balanced (separator.intercalate parts) :=
  Text.intercalate_of_append nil append hseparator hparts

end Balanced

/-! ## Reading a balanced text -/

theorem balancedBody_string {inner : List Char} (h : '\'' ∉ inner) (depth : Nat)
    (rest : List Char) :
    balancedBody depth true (inner ++ '\'' :: rest) =
      (balancedBody depth false rest).map (inner ++ '\'' :: ·) := by
  induction inner with
  | nil => rfl
  | cons c inner ih =>
      have hc : c ≠ '\'' := fun heq => h (heq ▸ List.mem_cons_self)
      have hinner := ih fun hmem => h (List.mem_cons_of_mem c hmem)
      simp [balancedBody, hc, hinner, Function.comp_def]

/-- A balanced text leaves the depth as it is. -/
theorem balancedBody_append {cs : List Char} (h : Balanced cs) (depth : Nat) (rest : List Char) :
    balancedBody depth false (cs ++ rest) = (balancedBody depth false rest).map (cs ++ ·) := by
  induction h generalizing depth rest with
  | nil => simp
  | plain happostrophe hopening hclosing _ ih =>
      simp [balancedBody, happostrophe, hopening, hclosing, ih, Function.comp_def]
  | @string inner cs hinner _ ih =>
      have hstring := balancedBody_string hinner depth (cs ++ rest)
      simp [balancedBody, hstring, ih, Function.comp_def]
  | group _ _ ihinner ih =>
      -- The inner text is read one level deeper, up to the parenthesis that leads back.
      simp [balancedBody, ihinner, ih, Function.comp_def]

/-! ## What is read is balanced -/

/-- What is read while a number of parentheses is open besides the one to be closed, in a
string or not: balanced texts with the closing parentheses between them, after the rest of the
string. -/
inductive Closes : Nat → Bool → List Char → Prop
  | last {cs : List Char} : Balanced cs → Closes 0 false cs
  | closing {depth : Nat} {cs ds : List Char} :
      Balanced cs → Closes depth false ds → Closes (depth + 1) false (cs ++ ')' :: ds)
  | string {depth : Nat} {inner cs : List Char} :
      '\'' ∉ inner → Closes depth false cs → Closes depth true (inner ++ '\'' :: cs)

namespace Closes

variable {depth : Nat} {cs ds : List Char}

theorem append (hcs : Balanced cs) (hds : Closes depth false ds) :
    Closes depth false (cs ++ ds) := by
  cases hds with
  | last hds => exact last (hcs.append hds)
  | closing hinner hrest =>
      rw [← List.append_assoc]
      exact closing (hcs.append hinner) hrest

theorem cons_apostrophe {quoted : Bool} (h : Closes depth (!quoted) cs) :
    Closes depth quoted ('\'' :: cs) := by
  cases quoted with
  | true =>
      rw [← List.nil_append ('\'' :: cs)]
      exact string List.not_mem_nil h
  | false =>
      cases h with
      | @string _ inner ds hinner hds =>
          have hclosed := hds.append (.string hinner .nil)
          rwa [List.cons_append, List.append_assoc] at hclosed

theorem cons_opening (h : Closes (depth + 1) false cs) : Closes depth false ('(' :: cs) := by
  cases h with
  | closing hinner hds =>
      have hclosed := hds.append (.group hinner .nil)
      rwa [List.cons_append, List.append_assoc] at hclosed

theorem cons_plain {quoted : Bool} {c : Char} (happostrophe : c ≠ '\'')
    (hopening : ¬(c = '(' ∧ quoted = false)) (hclosing : ¬(c = ')' ∧ quoted = false))
    (h : Closes depth quoted cs) : Closes depth quoted (c :: cs) := by
  cases quoted with
  | true =>
      cases h with
      | string hinner hds =>
          exact string (List.not_mem_cons_of_ne_of_not_mem happostrophe.symm hinner) hds
  | false =>
      have hopening : c ≠ '(' := fun heq => hopening ⟨heq, rfl⟩
      have hclosing : c ≠ ')' := fun heq => hclosing ⟨heq, rfl⟩
      exact h.append (.plain happostrophe hopening hclosing .nil)

end Closes

theorem closes_of_balancedBody {depth : Nat} {quoted : Bool} {cs body : List Char}
    (h : balancedBody depth quoted cs = some body) : Closes depth quoted body := by
  fun_induction balancedBody depth quoted cs generalizing body with
  | case1 depth quoted => cases h
  | case2 depth quoted cs ih =>
      obtain ⟨body, hbody, rfl⟩ := Option.map_eq_some_iff.mp h
      exact (ih hbody).cons_apostrophe
  | case3 depth quoted c cs _ hopening ih =>
      obtain ⟨rfl, rfl⟩ := hopening
      obtain ⟨body, hbody, rfl⟩ := Option.map_eq_some_iff.mp h
      exact (ih hbody).cons_opening
  | case4 quoted c cs _ _ hclosing =>
      obtain ⟨rfl, rfl⟩ := hclosing
      cases h
      exact .last .nil
  | case5 quoted c cs _ _ hclosing depth ih =>
      obtain ⟨rfl, rfl⟩ := hclosing
      obtain ⟨body, hbody, rfl⟩ := Option.map_eq_some_iff.mp h
      exact .closing .nil (ih hbody)
  | case6 depth quoted c cs happostrophe hopening hclosing ih =>
      obtain ⟨body, hbody, rfl⟩ := Option.map_eq_some_iff.mp h
      exact (ih hbody).cons_plain happostrophe hopening hclosing

/-- What is read ends before a closing parenthesis. -/
theorem exists_append_of_balancedBody {depth : Nat} {quoted : Bool} {cs body : List Char}
    (h : balancedBody depth quoted cs = some body) : ∃ rest, cs = body ++ ')' :: rest := by
  fun_induction balancedBody depth quoted cs generalizing body with
  | case1 depth quoted => cases h
  | case4 quoted c cs _ _ hclosing =>
      cases h
      exact ⟨cs, by rw [hclosing.1, List.nil_append]⟩
  | case2 depth quoted cs ih | case3 depth quoted c cs _ _ ih
  | case5 quoted c cs _ _ _ depth ih | case6 depth quoted c cs _ _ _ ih =>
      obtain ⟨body, hbody, rfl⟩ := Option.map_eq_some_iff.mp h
      obtain ⟨rest, rfl⟩ := ih hbody
      exact ⟨rest, rfl⟩

/-- A parenthesis is closed by the first closing one after a balanced text. -/
theorem balancedBody_eq_some_iff {cs body : List Char} :
    balancedBody 0 false cs = some body ↔ Balanced body ∧ ∃ rest, cs = body ++ ')' :: rest := by
  constructor
  · intro h
    cases closes_of_balancedBody h with
    | last hbalanced => exact ⟨hbalanced, exists_append_of_balancedBody h⟩
  · rintro ⟨hbalanced, rest, rfl⟩
    rw [balancedBody_append hbalanced]
    simp [balancedBody]

end Relational.Schema
