import Relational.Descriptor.Migration
import Relational.Migration.Basic
import Relational.Migration.Execution
import Relational.Migration.Plan

/-!
# The life of a migration

The life of a migration: it is planned, applied, reverted, and may be applied
again.  Between these steps it can be kept as JSON.
-/

namespace Relational.Migration

open Schema

variable {σ : Type}

/-- A migration for a table as it is found. -/
def ofPlan (declared : Table) (live : Option Table) : Except Error Migration :=
  match plan declared live with
  | .ok operations => .ok { table := declared.name, operations }
  | .error e => .error (.query e)

/-- A migration for the table that a database reports. -/
def planAgainst (b : Backend σ) (declared : Table) (c : Connection σ) :
    Except Error Migration × Connection σ :=
  match b.find declared.name c with
  | (.error e, c) => (.error e, c)
  | (.ok live, c) =>
      match ofPlan declared live with
      | .error e => (.error e, c)
      | .ok m => (.ok m, c.report (m.operations.flatMap planEvents))

/-- A migration for a type of records. -/
def forRecord (b : Backend σ) (record : RecordType) (c : Connection σ) :
    Except Error Migration × Connection σ :=
  planAgainst b (Table.ofRecord record) c

/-- The statements that apply a migration. -/
def sql (m : Migration) (d : Dialect) : Except Error (List String) := d.renderAll m.operations

/-- The statements that revert a migration. -/
def revertSql (m : Migration) (d : Dialect) : Except Error (List String) :=
  d.renderAll m.inverseOperations

/-- A call on a migration that is kept: its result, and what it leaves behind, also when it
fails. -/
structure Outcome (σ : Type) where
  result : Except Error Unit
  migration : Migration
  connection : Connection σ

/-- Applies a migration that is not applied. -/
def apply (m : Migration) (b : Backend σ) (c : Connection σ) : Outcome σ :=
  if m.stage = .applied then
    ⟨.error (.invalidState ("migration for '" ++ m.table ++ "' is already applied")), m, c⟩
  else
    let c := c.report [⟨.info, "Applying migration",
      [("table", m.table), ("operations", toString m.operations.length)]⟩]
    match b.execute m.operations c with
    | (.error e, c) => ⟨.error e, m, c⟩
    | (.ok (), c) =>
        let m := { m with stage := .applied }
        ⟨.ok (), m, c.report [⟨.info, "Migration applied successfully", [("table", m.table)]⟩]⟩

/-- Reverts a migration that is applied. -/
def revert (m : Migration) (b : Backend σ) (c : Connection σ) : Outcome σ :=
  if m.stage ≠ .applied then
    ⟨.error (.invalidState ("migration for '" ++ m.table ++ "' is " ++ m.stage.name ++
      ", only an applied migration can be reverted")), m, c⟩
  else
    let losses := m.inverseOperations.filter Operation.isDestructive
    let c := c.report (⟨.info, "Reverting migration", [("table", m.table)]⟩ ::
      losses.map fun op => ⟨.warn, "Revert discards data", [("operation", op.description)]⟩)
    match b.execute m.inverseOperations c with
    | (.error e, c) => ⟨.error e, m, c⟩
    | (.ok (), c) =>
        let m := { m with stage := .reverted }
        ⟨.ok (), m, c.report [⟨.info, "Migration reverted successfully", [("table", m.table)]⟩]⟩

/-- Brings a table up to its declaration.  If nothing is to be done, the
migration is empty and still applied. -/
def migrate (b : Backend σ) (declared : Table) (c : Connection σ) :
    Except Error Migration × Connection σ :=
  match planAgainst b declared c with
  | (.error e, c) => (.error e, c)
  | (.ok m, c) =>
      let c := if m.operations = [] then
          c.report [⟨.info, "Schema up to date", [("table", declared.name)]⟩]
        else c
      let outcome := m.apply b c
      (outcome.result.map fun _ => outcome.migration, outcome.connection)

/-- The text in which a migration is kept. -/
def toFileText (m : Migration) : String := Descriptor.toPrettyText m

/-- Reads a migration from the text in which it is kept.  What is said of a text that is
refused is `complaint`. -/
def ofFileText (complaint : String → String) (text : String) : Except Error Migration :=
  match (Descriptor.ofText text : Option Migration) with
  | some m => .ok m
  | none => .error (.unreadable (complaint text))

/-- What is reported when a migration has been written to a file. -/
def savedEvent (path : String) : Event := ⟨.debug, "Saved migration", [("path", path)]⟩

end Relational.Migration
