import Relational.Proofs.Schema.Balance
import Relational.Proofs.Schema.Quoting
import Relational.Proofs.Schema.Scan

/-!
# Clauses of constraints

A constraint as it is written in SQLite, and what the search for constraints makes of it.

The search reads the heading and goes on in the body, whatever stands there:
`Constraint.scan_constraintDefinition`.
-/

namespace Relational.Schema

open Migration

namespace Constraint

/-- Whether a constraint is a unique one. -/
def isUnique : Constraint → Bool
  | .unique .. => true
  | .check .. => false

/-- What stands between the parentheses of a constraint. -/
def body : Constraint → List Char
  | .unique _ columns => quotedList columns
  | .check _ expression => expression.toList

/-- The word for the kind of a constraint. -/
def kind : Constraint → List Char
  | .unique .. => ['U', 'N', 'I', 'Q', 'U', 'E']
  | .check .. => ['C', 'H', 'E', 'C', 'K']

/-- What stands before the parentheses of a constraint. -/
def heading (c : Constraint) : List Char :=
  ConstraintScan.keyword ++ ' ' :: (quoted c.name ++ ' ' :: (c.kind ++ [' ']))

theorem toList_constraintDefinition (c : Constraint) :
    (Dialect.sqlite.constraintDefinition c).toList =
      c.heading ++ '(' :: (c.body ++ [')']) := by
  have hkeyword : "CONSTRAINT ".toList = ConstraintScan.keyword ++ [' '] := by decide
  have hclosing : ")".toList = [')'] := by decide
  cases c with
  | unique name columns =>
      have hkind : " UNIQUE (".toList = ' ' :: ((unique name columns).kind ++ [' ', '(']) := rfl
      rw [Dialect.constraintDefinition_unique]
      simp only [String.toList_append, toList_quote, toList_quoteList, hkeyword, hkind, hclosing,
        heading, body, Constraint.name, List.append_assoc, List.cons_append, List.nil_append]
  | check name expression =>
      have hkind : " CHECK (".toList = ' ' :: ((check name expression).kind ++ [' ', '(']) := rfl
      rw [Dialect.constraintDefinition_check]
      simp only [String.toList_append, toList_quote, hkeyword, hkind, hclosing, heading, body,
        Constraint.name, List.append_assoc, List.cons_append, List.nil_append]

variable {c : Constraint}

/-- The heading of a constraint is read as the beginning of one. -/
theorem beginning?_heading (hne : c.name.toList ≠ []) (hquote : '"' ∉ c.name.toList)
    (rest : List Char) :
    ConstraintScan.beginning? (c.heading ++ '(' :: rest) =
      some (quoted c.name, c.isUnique, rest) := by
  have hname : ∀ after, ConstraintScan.name? (quoted c.name ++ ' ' :: after) =
      some (quoted c.name, ' ' :: after) := by
    intro after
    rw [quoted, List.cons_append, List.append_assoc]
    exact ConstraintScan.name?_quoted hne hquote (by decide) after
  have hblanks : ∀ after, ConstraintScan.blanks? (' ' :: (quoted c.name ++ after)) =
      some (quoted c.name ++ after) := fun _ => rfl
  have hword : ∀ after, ConstraintScan.word? ConstraintScan.keyword
      (ConstraintScan.keyword ++ after) = some after := fun _ => rfl
  rw [heading, ConstraintScan.beginning?, ← ConstraintScan.keyword, List.append_assoc, hword,
    Option.bind_eq_bind, Option.bind_some, List.cons_append, List.append_assoc, hblanks,
    Option.bind_eq_bind, Option.bind_some, List.cons_append, hname]
  cases c with
  | unique => rfl
  | check => rfl

/-- The search reads the heading of a constraint, and it goes on in the body. -/
theorem scan_constraintDefinition (hne : c.name.toList ≠ []) (hquote : '"' ∉ c.name.toList)
    (rest : List Char) :
    ConstraintScan.scan false 0 ((Dialect.sqlite.constraintDefinition c).toList ++ rest) =
      (ConstraintScan.constraint? (quoted c.name) c.isUnique (c.body ++ ')' :: rest)).toList ++
        ConstraintScan.scan false 0 (c.body ++ ')' :: rest) := by
  have hopening : Text.isWord '(' = false := Text.isWord_eq_false_of_isMark (by decide)
  have hshape : (Dialect.sqlite.constraintDefinition c).toList ++ rest =
      c.heading ++ '(' :: (c.body ++ ')' :: rest) := by
    simp [toList_constraintDefinition]
  have hheading : c.heading ≠ [] := by simp [heading]
  rw [hshape, ConstraintScan.scan_beginning hheading hopening (beginning?_heading hne hquote _)]

/-- A list of columns without quotes and commas is read back. -/
theorem constraint?_quotedList {name : String} {columns : List String}
    (hname : '"' ∉ name.toList) (hne : columns ≠ [])
    (hquotes : ∀ column ∈ columns, '"' ∉ column.toList)
    (hcommas : ∀ column ∈ columns, ',' ∉ column.toList) (hbalanced : Balanced (quotedList columns))
    (rest : List Char) :
    ConstraintScan.constraint? (quoted name) true (quotedList columns ++ ')' :: rest) =
      some (.unique name columns) := by
  have hbody : balancedBody 0 false (quotedList columns ++ ')' :: rest) =
      some (quotedList columns) := balancedBody_eq_some_iff.mpr ⟨hbalanced, rest, rfl⟩
  have hparts := parts_quotedList hne hquotes hcommas (List.forall_mem_nil _)
  rw [List.nil_append] at hparts
  rw [ConstraintScan.constraint?, hbody, Option.map_some, unquote_quoted_eq hname, hparts,
    String.ofList_toList, if_pos rfl]

end Constraint

end Relational.Schema
