import Relational.Migration.Backend
import Relational.Text.Split

/-!
# Rehearsals

A database for rehearsals.  It reports given tables, and it refuses calls by
given rules; otherwise it accepts everything and changes nothing.
-/

namespace Relational.Migration

open Schema

/-- The kinds of calls. -/
inductive CallKind where
  | introspect
  | begin
  | execute
  | commit
  | rollback
  deriving DecidableEq

/-- A rule that refuses calls of a kind whose statement or table has some text in
it. -/
structure Refusal where
  kind : CallKind
  error : Error
  containing : String

/-- The tables and the rules of a rehearsal. -/
structure Rehearsal where
  tables : List Table
  refusals : List Refusal

namespace Rehearsal

/-- Without tables and rules. -/
def empty : Rehearsal := ⟨[], []⟩

/-- Reports a table, in place of one with the same name. -/
def withTable (r : Rehearsal) (table : Table) : Rehearsal :=
  { r with tables := table :: r.tables.filter fun t => t.name ≠ table.name }

/-- No longer reports a table. -/
def withoutTable (r : Rehearsal) (name : String) : Rehearsal :=
  { r with tables := r.tables.filter fun t => t.name ≠ name }

/-- Adds a rule, which comes after the earlier ones. -/
def refuse (r : Rehearsal) (refusal : Refusal) : Rehearsal :=
  { r with refusals := r.refusals ++ [refusal] }

/-- Drops all rules. -/
def heal (r : Rehearsal) : Rehearsal := { r with refusals := [] }

/-- The error of the first rule that refuses a call. -/
def refusal? (r : Rehearsal) (kind : CallKind) (text : String) : Option Error :=
  (r.refusals.find? fun refusal =>
    refusal.kind = kind && Text.occurs refusal.containing.toList text.toList).map Refusal.error

/-- The kind of a command and the text that rules look at. -/
def callOf : Command → CallKind × String
  | .begin => (.begin, "")
  | .execute sql => (.execute, sql)
  | .commit => (.commit, "")
  | .rollback => (.rollback, "")

/-- The database of a rehearsal in some dialect. -/
def backend (dialect : Dialect) : Backend Rehearsal where
  dialect := dialect
  introspect name r :=
    match r.refusal? .introspect name with
    | some e => (.error e, r)
    | none => (.ok (r.tables.find? fun t => t.name == name), r)
  perform command r :=
    let (kind, text) := callOf command
    match r.refusal? kind text with
    | some e => (.error e, r)
    | none => (.ok (), r)

end Rehearsal

end Relational.Migration
