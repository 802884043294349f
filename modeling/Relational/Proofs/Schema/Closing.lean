import Mathlib.Data.Set.Subsingleton
import Relational.Proofs.Schema.Balance

/-!
# The closing parenthesis

Which parenthesis closes the one in front of a text, told by counting: `balancedBody_exact`.

The count is an integer, so that only the text decides whether it falls below zero.  Beside it
stands the same search with a counter of limited size and a position in the bytes of the text, at
which the part is cut off.  No text makes it subtract from zero or cut a character in two.
-/

namespace Relational.Schema

/-! ## Counting parentheses -/

/-- How many parentheses are open at a place in a text, and whether the place is in a string. -/
structure Nesting where
  depth : Int
  inString : Bool

namespace Nesting

/-- Behind one open parenthesis. -/
def opened : Nesting := ⟨1, false⟩

/-- An apostrophe begins or ends a string.  Parentheses count outside of strings. -/
def step (n : Nesting) (c : Char) : Nesting :=
  if c = '\'' then { n with inString := !n.inString }
  else if n.inString then n
  else if c = '(' then { n with depth := n.depth + 1 }
  else if c = ')' then { n with depth := n.depth - 1 }
  else n

/-- The nesting behind a text. -/
def after (n : Nesting) (cs : List Char) : Nesting := cs.foldl step n

/-- A text that at no place closes all parentheses, and behind which one is open and no string. -/
structure Encloses (n : Nesting) (part : List Char) : Prop where
  staysOpen : ∀ read, read <+: part → (n.after read).depth ≠ 0
  returns : n.after part = opened

variable {n : Nesting} {depth : Int} {inString : Bool} {c : Char} {cs : List Char}

theorem step_apostrophe : step ⟨depth, inString⟩ '\'' = ⟨depth, !inString⟩ := rfl

theorem step_opening : step ⟨depth, false⟩ '(' = ⟨depth + 1, false⟩ := rfl

theorem step_closing : step ⟨depth, false⟩ ')' = ⟨depth - 1, false⟩ := rfl

theorem step_plain (happostrophe : c ≠ '\'') (hopening : ¬(c = '(' ∧ inString = false))
    (hclosing : ¬(c = ')' ∧ inString = false)) :
    step ⟨depth, inString⟩ c = ⟨depth, inString⟩ := by
  cases inString with
  | true => simp [step, happostrophe]
  | false =>
      have hopening : c ≠ '(' := fun heq => hopening ⟨heq, rfl⟩
      have hclosing : c ≠ ')' := fun heq => hclosing ⟨heq, rfl⟩
      simp [step, happostrophe, hopening, hclosing]

theorem encloses_nil_iff : n.Encloses [] ↔ n = opened := by
  constructor
  · intro h
    exact h.returns
  · rintro rfl
    refine ⟨?_, rfl⟩
    intro read hread
    obtain rfl := List.prefix_nil.mp hread
    decide

theorem encloses_cons_iff :
    n.Encloses (c :: cs) ↔ n.depth ≠ 0 ∧ (n.step c).Encloses cs := by
  constructor
  · rintro ⟨hopen, hreturns⟩
    refine ⟨hopen [] List.nil_prefix, ?_, hreturns⟩
    intro read hread
    exact hopen (c :: read) (List.cons_prefix_cons.mpr ⟨rfl, hread⟩)
  · rintro ⟨hdepth, hopen, hreturns⟩
    refine ⟨?_, hreturns⟩
    intro read hread
    rcases List.prefix_cons_iff.mp hread with rfl | ⟨read, rfl, hrest⟩
    · exact hdepth
    · exact hopen read hrest

theorem Encloses.depth_ne_zero (h : n.Encloses cs) : n.depth ≠ 0 :=
  h.staysOpen [] List.nil_prefix

end Nesting

open Nesting

/-- A character that leaves a parenthesis open belongs to the part that is read. -/
theorem map_cons_eq_some_iff_encloses {depth depth' : Nat} {inString inString' : Bool} {c : Char}
    {cs body : List Char} (hstep : step ⟨depth + 1, inString⟩ c = ⟨depth' + 1, inString'⟩)
    (ih : ∀ body, balancedBody depth' inString' cs = some body ↔
      Encloses ⟨depth' + 1, inString'⟩ body ∧ ∃ rest, cs = body ++ ')' :: rest) :
    (balancedBody depth' inString' cs).map (c :: ·) = some body ↔
      Encloses ⟨depth + 1, inString⟩ body ∧ ∃ rest, c :: cs = body ++ ')' :: rest := by
  cases body with
  | nil =>
      refine iff_of_false (by simp) ?_
      rintro ⟨hnil, rest, hrest⟩
      obtain ⟨hdepth, rfl⟩ := Nesting.mk.inj (encloses_nil_iff.mp hnil)
      obtain ⟨rfl, -⟩ := List.cons.inj hrest
      obtain ⟨hdepth', -⟩ := Nesting.mk.inj (step_closing.symm.trans hstep)
      omega
  | cons d body =>
      rw [encloses_cons_iff]
      constructor
      · intro h
        obtain ⟨read, hread, hbody⟩ := Option.map_eq_some_iff.mp h
        obtain ⟨rfl, rfl⟩ := List.cons.inj hbody
        obtain ⟨hencloses, rest, rfl⟩ := (ih read).mp hread
        have hdepth : (depth + 1 : Int) ≠ 0 := by omega
        exact ⟨⟨hdepth, hstep ▸ hencloses⟩, rest, rfl⟩
      · rintro ⟨⟨-, hencloses⟩, rest, hrest⟩
        obtain ⟨rfl, rfl⟩ := List.cons.inj hrest
        rw [hstep] at hencloses
        rw [(ih body).mpr ⟨hencloses, rest, rfl⟩, Option.map_some]

/-- The part that is read is the one that the count encloses. -/
theorem balancedBody_eq_some_iff_encloses {depth : Nat} {inString : Bool} {cs body : List Char} :
    balancedBody depth inString cs = some body ↔
      Encloses ⟨depth + 1, inString⟩ body ∧ ∃ rest, cs = body ++ ')' :: rest := by
  fun_induction balancedBody depth inString cs generalizing body with
  | case1 depth inString => simp
  | case2 depth inString cs ih => exact map_cons_eq_some_iff_encloses step_apostrophe fun _ => ih
  | case3 depth inString c cs _ hopening ih =>
      obtain ⟨rfl, rfl⟩ := hopening
      exact map_cons_eq_some_iff_encloses step_opening fun _ => ih
  | case4 inString c cs _ _ hclosing =>
      obtain ⟨rfl, rfl⟩ := hclosing
      constructor
      · rintro ⟨⟩
        exact ⟨encloses_nil_iff.mpr rfl, cs, rfl⟩
      · rintro ⟨hencloses, rest, hrest⟩
        cases body with
        | nil => rfl
        | cons d body =>
            -- A longer part would have the depth zero behind its first character.
            obtain ⟨rfl, -⟩ := List.cons.inj hrest
            exact absurd rfl (encloses_cons_iff.mp hencloses).2.depth_ne_zero
  | case5 inString c cs _ _ hclosing depth ih =>
      obtain ⟨rfl, rfl⟩ := hclosing
      refine map_cons_eq_some_iff_encloses ?_ fun _ => ih
      rw [step_closing]
      simp
  | case6 depth inString c cs happostrophe hopening hclosing ih =>
      exact map_cons_eq_some_iff_encloses (step_plain happostrophe hopening hclosing) fun _ => ih

/-- Balanced texts are those that leave a parenthesis in front of them open and no other. -/
theorem balanced_iff_encloses {cs : List Char} : Balanced cs ↔ opened.Encloses cs := by
  have hclosed : ∃ rest, cs ++ [')'] = cs ++ ')' :: rest := ⟨[], rfl⟩
  have hgrammar : balancedBody 0 false (cs ++ [')']) = some cs ↔ Balanced cs := by
    rw [balancedBody_eq_some_iff, and_iff_left hclosed]
  have hcount : balancedBody 0 false (cs ++ [')']) = some cs ↔ opened.Encloses cs := by
    rw [balancedBody_eq_some_iff_encloses, and_iff_left hclosed]
    rfl
  exact hgrammar.symm.trans hcount

/-! ## Searching with a counter and a position -/

/-- What a search cannot do. -/
inductive Fault where
  /-- Subtract from a counter that is zero. -/
  | underflow
  /-- Add to a counter that has its greatest value. -/
  | overflow
  /-- Cut off a text within a character. -/
  | splitCharacter
  deriving DecidableEq

/-- Where the parenthesis stands that brings the counter to zero.  The counter has `limit` values,
and the position is that of the first character. -/
def closingPosition (limit depth : Nat) (inString : Bool) (i : String.Pos.Raw) :
    List Char → Except Fault (Option String.Pos.Raw)
  | [] => .ok none
  | c :: cs =>
      if c = '\'' then closingPosition limit depth (!inString) (i + c) cs
      else if c = '(' ∧ inString = false then
        if depth + 1 < limit then closingPosition limit (depth + 1) inString (i + c) cs
        else .error .overflow
      else if c = ')' ∧ inString = false then
        if depth = 0 then .error .underflow
        else if depth - 1 = 0 then .ok (some i)
        else closingPosition limit (depth - 1) inString (i + c) cs
      else closingPosition limit depth inString (i + c) cs

/-- The text in front of a position in its bytes. -/
def textBefore (text : String) (i : String.Pos.Raw) : Except Fault String :=
  if h : i.IsValid text then .ok (text.sliceTo (text.pos i h)).copy else .error .splitCharacter

/-- The part of a text in front of the parenthesis that closes. -/
def closedPart (limit : Nat) (text : String) : Except Fault (Option String) := do
  match ← closingPosition limit 1 false 0 text.toList with
  | some i => return some (← textBefore text i)
  | none => return none

/-- A search returns a result, or its counter overflows and has no more than `size` values. -/
def ReturnsWithin {α : Type} (limit size : Nat) (search : Except Fault α) (result : α) : Prop :=
  search = .ok result ∨ search = .error .overflow ∧ limit ≤ size

theorem ReturnsWithin.mono {α : Type} {limit size size' : Nat} {search : Except Fault α}
    {result : α} (h : ReturnsWithin limit size search result) (hsize : size ≤ size') :
    ReturnsWithin limit size' search result := by
  rcases h with h | ⟨h, hlimit⟩
  · exact .inl h
  · exact .inr ⟨h, hlimit.trans hsize⟩

theorem textBefore_append (part rest : String) :
    textBefore (part ++ rest) part.rawEndPos = .ok part := by
  have hvalid : part.rawEndPos.IsValid (part ++ rest) :=
    String.Pos.Raw.isValid_rawEndPos.append_right rest
  rw [textBefore, dif_pos hvalid]
  exact congrArg _ String.Pos.splits_append_rawEndPos.copy_sliceTo_eq

/-- The position behind a text is reached character by character. -/
theorem add_char_add_ofList (i : String.Pos.Raw) (c : Char) (cs : List Char) :
    i + c + String.ofList cs = i + String.ofList (c :: cs) := by
  have hcons : String.ofList (c :: cs) = String.singleton c ++ String.ofList cs := by
    rw [String.singleton_eq_ofList, ← String.ofList_append, List.singleton_append]
  rw [String.Pos.Raw.ext_iff, hcons]
  simp [Nat.add_assoc]

theorem map_add_ofList (i : String.Pos.Raw) (c : Char) (read : Option (List Char)) :
    read.map (fun body => i + c + String.ofList body) =
      (read.map (c :: ·)).map fun body => i + String.ofList body := by
  rw [Option.map_map]
  exact congrArg (read.map ·) (funext fun body => add_char_add_ofList i c body)

/-- The counter is one ahead of the depth, and so it is never zero where it is subtracted from.
It grows by one with a character at most. -/
theorem closingPosition_returns (limit depth : Nat) (inString : Bool) (i : String.Pos.Raw)
    (cs : List Char) :
    ReturnsWithin limit (depth + 1 + cs.length) (closingPosition limit (depth + 1) inString i cs)
      ((balancedBody depth inString cs).map fun body => i + String.ofList body) := by
  fun_induction balancedBody depth inString cs generalizing i with
  | case1 depth inString => exact .inl rfl
  | case2 depth inString cs ih =>
      rw [closingPosition, if_pos rfl, ← map_add_ofList]
      exact (ih (i + '\'')).mono (by simp)
  | case3 depth inString c cs happostrophe hopening ih =>
      rw [closingPosition, if_neg happostrophe, if_pos hopening, ← map_add_ofList]
      split
      · exact (ih (i + c)).mono (by simp; omega)
      · exact .inr ⟨rfl, by simp; omega⟩
  | case4 inString c cs happostrophe hopening hclosing =>
      have hhere : i + String.ofList [] = i := by
        rw [String.Pos.Raw.ext_iff]
        simp
      rw [closingPosition, if_neg happostrophe, if_neg hopening, if_pos hclosing,
        if_neg Nat.one_ne_zero, if_pos rfl, Option.map_some, hhere]
      exact .inl rfl
  | case5 inString c cs happostrophe hopening hclosing depth ih =>
      rw [closingPosition, if_neg happostrophe, if_neg hopening, if_pos hclosing,
        if_neg (Nat.succ_ne_zero _), Nat.add_sub_cancel, if_neg (Nat.succ_ne_zero depth),
        ← map_add_ofList]
      exact (ih (i + c)).mono (by simp; omega)
  | case6 depth inString c cs happostrophe hopening hclosing ih =>
      rw [closingPosition, if_neg happostrophe, if_neg hopening, if_neg hclosing,
        ← map_add_ofList]
      exact (ih (i + c)).mono (by simp)

/-- The part that is read ends between two characters. -/
theorem textBefore_of_balancedBody {text : String} {body : List Char}
    (h : balancedBody 0 false text.toList = some body) :
    textBefore text ((0 : String.Pos.Raw) + String.ofList body) = .ok (String.ofList body) := by
  obtain ⟨rest, hrest⟩ := exists_append_of_balancedBody h
  have htext : text = String.ofList body ++ String.ofList (')' :: rest) := by
    rw [← String.ofList_append, ← hrest, String.ofList_toList]
  have hend : (0 : String.Pos.Raw) + String.ofList body = (String.ofList body).rawEndPos := by
    rw [String.Pos.Raw.ext_iff]
    simp only [String.Pos.Raw.byteIdx_add_string, String.Pos.Raw.byteIdx_zero, Nat.zero_add,
      String.byteIdx_rawEndPos]
  rw [hend, htext]
  exact textBefore_append _ _

theorem closedPart_returns (limit : Nat) (text : String) :
    ReturnsWithin limit (text.length + 1) (closedPart limit text)
      ((balancedBody 0 false text.toList).map String.ofList) := by
  have hlength : 0 + 1 + text.toList.length = text.length + 1 := by
    rw [String.length_toList]
    omega
  have hposition := closingPosition_returns limit 0 false 0 text.toList
  rw [hlength] at hposition
  rcases hposition with h | ⟨h, hlimit⟩
  · refine .inl ?_
    rw [closedPart, h]
    cases hbody : balancedBody 0 false text.toList with
    | none => rfl
    | some body => exact congrArg (Except.map some) (textBefore_of_balancedBody hbody)
  · rw [closedPart, h]
    exact .inr ⟨rfl, hlimit⟩

/-! ## What the search finds -/

/-- The parts of a text that stand in front of a closing parenthesis and are enclosed by it. -/
def closedParts (text : String) : Set String :=
  {part | (∃ tail, text = part ++ ")" ++ tail) ∧ opened.Encloses part.toList}

theorem map_balancedBody_eq_some_iff {text part : String} :
    (balancedBody 0 false text.toList).map String.ofList = some part ↔
      part ∈ closedParts text := by
  have hlist : (balancedBody 0 false text.toList).map String.ofList = some part ↔
      balancedBody 0 false text.toList = some part.toList := by
    simp [Option.map_eq_some_iff, ← String.toList_inj]
  have htail : (∃ tail, text = part ++ ")" ++ tail) ↔
      ∃ rest, text.toList = part.toList ++ ')' :: rest := by
    constructor
    · rintro ⟨tail, rfl⟩
      exact ⟨tail.toList, by simp⟩
    · rintro ⟨rest, hrest⟩
      exact ⟨String.ofList rest, by rw [← String.toList_inj]; simp [hrest]⟩
  rw [hlist, balancedBody_eq_some_iff_encloses, ← htail]
  exact and_comm

/-- What is read of a text is the part in front of a parenthesis that encloses it, if there is one,
and there is no other.  The search for it never subtracts from zero and never cuts a character in
two, and a counter of `limit` values overflows only if the text has at least `limit - 1`
characters. -/
theorem balancedBody_exact (limit : Nat) (text : String) :
    let read := (balancedBody 0 false text.toList).map String.ofList
    (∀ part, read = some part ↔ part ∈ closedParts text) ∧
      (read = none ↔ closedParts text = ∅) ∧
      (closedParts text).Subsingleton ∧
      (closedPart limit text = .ok read ∨
        closedPart limit text = .error .overflow ∧ limit ≤ text.length + 1) := by
  intro read
  have hread : ∀ part, read = some part ↔ part ∈ closedParts text :=
    fun part => map_balancedBody_eq_some_iff
  refine ⟨hread, ?_, ?_, closedPart_returns limit text⟩
  · rw [Option.eq_none_iff_forall_ne_some, Set.eq_empty_iff_forall_notMem]
    exact forall_congr' fun part => not_congr (hread part)
  · intro part hpart part' hpart'
    have hfirst := (hread part).mpr hpart
    have hsecond := (hread part').mpr hpart'
    exact Option.some.inj (hfirst.symm.trans hsecond)

/-- A doubled apostrophe, a string that is not closed, and a counter that is too small. -/
example :
    closedPart 64 "(é) = 'it''s )' ∨ ü) = 1)" = .ok (some "(é) = 'it''s )' ∨ ü") ∧
      closedPart 64 "a = ')" = .ok none ∧ closedPart 2 "(" = .error .overflow := by
  decide +kernel

end Relational.Schema
