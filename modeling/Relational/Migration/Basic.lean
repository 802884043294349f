import Relational.Migration.Operation

/-!
# Migrations

Migrations: the operations that bring one table up to date, and how far they
have got.
-/

namespace Relational

open Migration

namespace Migration

/-- Where a migration is in its life. -/
inductive Stage where
  | unapplied
  | applied
  | reverted
  deriving DecidableEq

/-- The word for a stage. -/
def Stage.name : Stage → String
  | .unapplied => "Unapplied"
  | .applied => "Applied"
  | .reverted => "Reverted"

end Migration

/-- A list of operations on a table, which can be applied and reverted. -/
structure Migration where
  table : String
  operations : List Operation
  stage : Stage := .unapplied
  deriving DecidableEq

namespace Migration

/-- The operations that undo a migration, in the order in which they run. -/
def inverseOperations (m : Migration) : List Operation :=
  m.operations.reverse.map Operation.inverse

/-- Equality of migrations up to the way in which default values are
compared. -/
def agrees (a b : Migration) : Bool :=
  a.table == b.table && operationsAgree a.operations b.operations && a.stage == b.stage
where
  operationsAgree : List Operation → List Operation → Bool
    | [], [] => true
    | a :: as, b :: bs => a.agrees b && operationsAgree as bs
    | _, _ => false

end Migration

end Relational
