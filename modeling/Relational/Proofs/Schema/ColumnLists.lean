import Mathlib.Data.List.Flatten
import Relational.Proofs.Schema.Beginning
import Relational.Proofs.Schema.Clause

/-!
# Recovery of unique constraints

When a unique constraint is read back from its clause: `scanConstraints_unique_iff`.

The columns are written in quotes, but what is read does not heed these.  The list is cut at every
comma, a parenthesis counts and an apostrophe begins a string wherever they stand, and the search
for constraints goes on within the list.

No list is read back from a part of itself, since only quotes, commas and spaces are lost when it
is read.
-/

namespace Relational.Schema

open Migration

/-! ## What is read of a list -/

theorem unquote_sublist (cs : List Char) : (unquote cs).Sublist cs := by
  have htrim := Text.trim_sublist cs
  unfold unquote
  dsimp only
  split
  · next inner hinner =>
      exact ((Text.halve_sublist '"' inner).trans (Text.between_sublist hinner)).trans htrim
  · split
    · next inner hinner => exact (Text.between_sublist hinner).trans htrim
    · cases hinner : Text.between '[' ']' (Text.trim cs) with
      | none => exact htrim
      | some inner => exact (Text.between_sublist hinner).trans htrim

/-- The columns of a unique constraint that is read are parts of the text in its parentheses. -/
theorem exists_of_constraint?_eq_unique {written rest : List Char} {unique : Bool} {name : String}
    {columns : List String}
    (h : ConstraintScan.constraint? written unique rest = some (.unique name columns)) :
    ∃ body, balancedBody 0 false rest = some body ∧
      columns = (Text.parts ',' body).map fun column => String.ofList (unquote column) := by
  obtain ⟨body, hbody, hread⟩ := Option.map_eq_some_iff.mp h
  refine ⟨body, hbody, ?_⟩
  cases unique with
  | false => cases hread
  | true => exact (Constraint.unique.inj hread).2.symm

section

variable {body : List Char} {columns : List String}
  (h : columns = (Text.parts ',' body).map fun column => String.ofList (unquote column))

include h

theorem comma_notMem_of_parts : ∀ column ∈ columns, ',' ∉ column.toList := by
  intro column hcolumn hcomma
  rw [h] at hcolumn
  obtain ⟨part, hpart, rfl⟩ := List.mem_map.mp hcolumn
  rw [String.toList_ofList] at hcomma
  exact Text.notMem_of_mem_parts hpart ((unquote_sublist part).subset hcomma)

theorem columns_sublist_of_parts : (columns.flatMap String.toList).Sublist body := by
  have hparts : columns.flatMap String.toList = (Text.parts ',' body).flatMap unquote := by
    rw [h, List.flatMap_map]
    simp only [String.toList_ofList]
  have hread : ((Text.parts ',' body).flatMap unquote).Sublist ((Text.parts ',' body).flatMap id) :=
    List.Sublist.flatMap_right _ fun part _ => unquote_sublist part
  rw [List.flatMap_id] at hread
  rw [hparts]
  exact hread.trans (Text.flatten_parts_sublist ',' body)

end

/-! ## What is lost of a list -/

/-- How many characters are neither quotes nor commas nor spaces. -/
def weight (cs : List Char) : Nat := cs.countP fun c => c ∉ ['"', ',', ' ']

theorem weight_append (cs ds : List Char) : weight (cs ++ ds) = weight cs + weight ds :=
  List.countP_append

theorem weight_le_of_sublist {cs ds : List Char} (h : cs.Sublist ds) : weight cs ≤ weight ds :=
  h.countP_le

theorem weight_closing (cs : List Char) : weight (')' :: cs) = weight cs + 1 :=
  List.countP_cons_of_pos rfl

theorem weight_quoted (name : String) : weight (quoted name) = weight name.toList := by
  rw [quoted, ← List.singleton_append, weight_append, weight_append]
  exact (Nat.zero_add _).trans (Nat.add_zero _)

/-- What is written besides the columns has no weight. -/
theorem weight_quotedList (columns : List String) :
    weight (quotedList columns) = weight (columns.flatMap String.toList) := by
  induction columns with
  | nil => rfl
  | cons column columns ih =>
      rw [List.flatMap_cons, weight_append, ← ih]
      cases columns with
      | nil => rw [quotedList_singleton, weight_quoted]; rfl
      | cons next columns =>
          have hseparator : weight [',', ' '] = 0 := rfl
          have hlist : quotedList (column :: next :: columns) =
              quoted column ++ ([',', ' '] ++ quotedList (next :: columns)) :=
            quotedList_cons_cons ..
          rw [hlist, weight_append, weight_append, weight_quoted, hseparator, Nat.zero_add]

/-- A list with a parenthesis behind it is read back as the same columns exactly if none of them
contains a comma and the parenthesis is the one that closes. -/
theorem constraint?_quotedList_iff {name : String} {columns : List String}
    (hname : '"' ∉ name.toList) (hne : columns ≠ [])
    (hquotes : ∀ column ∈ columns, '"' ∉ column.toList) :
    ConstraintScan.constraint? (quoted name) true (quotedList columns ++ [')']) =
        some (.unique name columns) ↔
      (∀ column ∈ columns, ',' ∉ column.toList) ∧ Balanced (quotedList columns) := by
  constructor
  · intro h
    obtain ⟨body, hbody, hcolumns⟩ := exists_of_constraint?_eq_unique h
    obtain ⟨hbalanced, rest, hrest⟩ := balancedBody_eq_some_iff.mp hbody
    refine ⟨comma_notMem_of_parts hcolumns, ?_⟩
    -- Nothing of any weight stands behind the body, and so the body is the whole list.
    rcases List.eq_nil_or_concat rest with rfl | ⟨rest, last, rfl⟩
    · rwa [List.append_cancel_right hrest]
    · rw [List.concat_eq_append, ← List.cons_append, ← List.append_assoc] at hrest
      obtain ⟨hlist, -⟩ := List.append_inj' hrest rfl
      have hread := weight_le_of_sublist (columns_sublist_of_parts hcolumns)
      rw [← weight_quotedList, hlist, weight_append, weight_closing] at hread
      omega
  · rintro ⟨hcommas, hbalanced⟩
    exact Constraint.constraint?_quotedList hname hne hquotes hcommas hbalanced []

/-- No list is read back from a part of itself. -/
theorem unique_notMem_scan_quotedList (name : String) (columns : List String) (inWord : Bool)
    (read : Nat) :
    .unique name columns ∉ ConstraintScan.scan inWord read (quotedList columns ++ [')']) := by
  intro h
  obtain ⟨start, written, unique, rest, hstart, hbegins, hread⟩ :=
    ConstraintScan.exists_beginning_of_mem_scan h
  obtain ⟨body, hbody, hcolumns⟩ := exists_of_constraint?_eq_unique hread
  obtain ⟨-, after, rfl⟩ := balancedBody_eq_some_iff.mp hbody
  obtain ⟨lead, kind, rfl, -⟩ := ConstraintScan.beginning?_eq_some hbegins
  -- The two parentheses around the body weigh more than the one behind the list.
  have hpart := weight_le_of_sublist hstart.sublist
  have hinner := weight_le_of_sublist (columns_sublist_of_parts hcolumns)
  have hopening : ∀ cs, weight ('(' :: cs) = weight cs + 1 :=
    fun cs => List.countP_cons_of_pos rfl
  simp only [weight_append, weight_closing, hopening, weight_quotedList] at hpart
  have hnil : weight [] = 0 := rfl
  omega

/-- Columns that do not mention the word that begins a constraint are not taken for one. -/
theorem scan_quotedList_eq_nil {columns : List String}
    (h : ∀ column ∈ columns, ConstraintScan.mentions false column.toList = false) :
    ConstraintScan.scan false 0 (quotedList columns ++ [')']) = [] := by
  have hclosing : Text.isWord ')' = false := Text.isWord_eq_false_of_isMark (by decide)
  have hyields : Yields (quotedList columns) [] := by
    apply Yields.intercalate_nil (Text.any_isWord_eq_false (by decide))
    rw [List.forall_mem_map]
    exact fun column hcolumn => Yields.enclosed_of_not_mentions (h column hcolumn)
  rw [hyields ')' [] hclosing, ConstraintScan.scan_cons_of_not_isWord hclosing]
  rfl

/-- A unique constraint whose names contain no quotes is all that is found in its clause exactly
if no column contains a comma, the parentheses in the list of columns are balanced outside of what
apostrophes make strings of, and nothing is found within the list.  Nothing is if no column
mentions the word that begins a constraint. -/
theorem scanConstraints_unique_iff {name : String} {columns : List String} (hname : name ≠ "")
    (hquote : '"' ∉ name.toList) (hne : columns ≠ [])
    (hquotes : ∀ column ∈ columns, '"' ∉ column.toList) :
    (scanConstraints (Dialect.sqlite.constraintDefinition (.unique name columns)) =
        [.unique name columns] ↔
      (∀ column ∈ columns, ',' ∉ column.toList) ∧
      Balanced (Dialect.sqlite.quoteList columns).toList ∧
      scanConstraints (Dialect.sqlite.quoteList columns ++ ")") = []) ∧
    ((∀ column ∈ columns, ConstraintScan.mentions false column.toList = false) →
      scanConstraints (Dialect.sqlite.quoteList columns ++ ")") = []) := by
  have hnonempty : name.toList ≠ [] := fun hnil => hname (String.toList_eq_nil_iff.mp hnil)
  have hread := constraint?_quotedList_iff hquote hne hquotes
  have hclause : scanConstraints (Dialect.sqlite.constraintDefinition (.unique name columns)) =
      (ConstraintScan.constraint? (quoted name) true (quotedList columns ++ [')'])).toList ++
        ConstraintScan.scan false 0 (quotedList columns ++ [')']) := by
    rw [scanConstraints, ← List.append_nil (Dialect.constraintDefinition _ _).toList]
    exact Constraint.scan_constraintDefinition (c := .unique name columns) hnonempty hquote []
  have hlist : scanConstraints (Dialect.sqlite.quoteList columns ++ ")") =
      ConstraintScan.scan false 0 (quotedList columns ++ [')']) := by
    rw [scanConstraints, String.toList_append, toList_quoteList]
    rfl
  rw [hclause, hlist, toList_quoteList, ← and_assoc, ← hread]
  refine ⟨?_, scan_quotedList_eq_nil⟩
  cases hfirst : ConstraintScan.constraint? (quoted name) true (quotedList columns ++ [')']) with
  | none =>
      refine iff_of_false (fun hfound => ?_) (by simp)
      -- What is found in the list is not the constraint itself.
      refine unique_notMem_scan_quotedList name columns false 0 ?_
      rw [Option.toList_none, List.nil_append] at hfound
      exact hfound ▸ List.mem_singleton_self _
  | some found => simp

/-- Parentheses in a string that reaches from one column into the next, and a word that begins like
the one that begins a constraint. -/
theorem scanConstraints_unique_iff_string_across_columns :
    let columns := ["it's (", ") isn't", "constraints (u) unique"]
    scanConstraints (Dialect.sqlite.constraintDefinition (.unique "a'b(,c" columns)) =
        [.unique "a'b(,c" columns] ∧
      (∀ column ∈ columns, ',' ∉ column.toList) ∧
      Balanced (Dialect.sqlite.quoteList columns).toList ∧
      (∀ column ∈ columns, ConstraintScan.mentions false column.toList = false) ∧
      scanConstraints (Dialect.sqlite.quoteList columns ++ ")") = [] := by
  intro columns
  have hname : "a'b(,c" ≠ "" ∧ '"' ∉ "a'b(,c".toList := by decide
  have hnonempty : columns ≠ [] := by decide
  have hquotes : ∀ column ∈ columns, '"' ∉ column.toList := by decide
  have hcommas : ∀ column ∈ columns, ',' ∉ column.toList := by decide
  have hbalanced : Balanced (Dialect.sqlite.quoteList columns).toList := by
    have hbody : balancedBody 0 false ((Dialect.sqlite.quoteList columns).toList ++ [')']) =
        some (Dialect.sqlite.quoteList columns).toList := by decide
    exact (balancedBody_eq_some_iff.mp hbody).1
  have hmentions : ∀ column ∈ columns, ConstraintScan.mentions false column.toList = false := by
    decide +kernel
  obtain ⟨hiff, hnothing⟩ := scanConstraints_unique_iff hname.1 hname.2 hnonempty hquotes
  exact ⟨hiff.mpr ⟨hcommas, hbalanced, hnothing hmentions⟩, hcommas, hbalanced, hmentions,
    hnothing hmentions⟩

/-- A comma parts a column in two, a closing parenthesis ends the list, an apostrophe hides its end,
and a column that reads like a clause is taken for one. -/
theorem scanConstraints_misreads_columns :
    scanConstraints (Dialect.sqlite.constraintDefinition (.unique "u" ["a,b"])) =
        [.unique "u" ["\"a", "b\""]] ∧
      scanConstraints (Dialect.sqlite.constraintDefinition (.unique "u" ["a)b"])) =
        [.unique "u" ["\"a"]] ∧
      scanConstraints (Dialect.sqlite.constraintDefinition (.unique "u" ["a'b"])) = [] ∧
      scanConstraints
          (Dialect.sqlite.constraintDefinition (.unique "u" ["constraint v unique (a)"])) =
        [.unique "u" ["constraint v unique (a)"], .unique "v" ["a"]] := by
  decide +kernel

end Relational.Schema
