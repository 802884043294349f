import Relational.Migration.Operation

/-!
# The effect of operations

What operations do to the table that they are about, or to the lack of it, and
when they make sense there.

`effect` is total: an operation that finds no table to work on changes nothing.
`attempt` refuses an operation that makes no sense where it runs, and otherwise
has its effect.  An index of a table is known by its effective name on that
table, and what is dropped is dropped by its name.
-/

namespace Relational

namespace Schema

/-- The columns that a constraint needs.  The expression of a check is not
read. -/
def Constraint.columns : Constraint → List String
  | .unique _ columns => columns
  | .check .. => []

namespace Table

/-- Removes the columns with a name. -/
def dropColumn (t : Table) (name : String) : Table :=
  { t with columns := t.columns.filter fun c => c.name ≠ name }

/-- Removes the indexes with an effective name. -/
def dropIndex (t : Table) (name : String) : Table :=
  { t with indexes := t.indexes.filter fun i => i.effectiveName t.name ≠ name }

/-- Removes the constraints with a name. -/
def dropConstraint (t : Table) (name : String) : Table :=
  { t with constraints := t.constraints.filter fun k => k.name ≠ name }

/-- Whether some index has an effective name. -/
def hasIndexNamed (t : Table) (name : String) : Bool :=
  t.indexes.any fun i => i.effectiveName t.name == name

/-- Whether some constraint has a name. -/
def hasConstraintNamed (t : Table) (name : String) : Bool := (t.constraint? name).isSome

/-- Whether some index or unique constraint is on a column. -/
def uses (t : Table) (column : String) : Bool :=
  (t.indexes.any fun i => i.columns.contains column) ||
    t.constraints.any fun k => k.columns.contains column

/-- Whether all indexes and unique constraints are on columns of the table. -/
def isClosed (t : Table) : Bool :=
  (t.indexes.all fun i => i.columns.all t.hasColumn) &&
    t.constraints.all fun k => k.columns.all t.hasColumn

end Table

end Schema

namespace Migration

open Schema

namespace Operation

/-- What an operation makes of a table, or of the lack of one. -/
def effect : Operation → Option Table → Option Table
  | .createTable schema, live => some (live.getD schema)
  | .dropTable _, _ => none
  | .addColumn _ column, live => live.map (·.addColumn column)
  | .dropColumn _ column, live => live.map (·.dropColumn column.name)
  | .createIndex _ index, live => live.map (·.addIndex index)
  | .dropIndex _ index, live => live.map fun t => t.dropIndex (index.effectiveName t.name)
  | .addConstraint _ constraint, live => live.map (·.addConstraint constraint)
  | .dropConstraint _ constraint, live => live.map (·.dropConstraint constraint.name)

/-- Whether an operation makes sense on a table, or on the lack of one. -/
def makesSense : Operation → Option Table → Bool
  | .createTable schema, none => schema.isClosed
  | .dropTable _, some _ => true
  | .addColumn _ column, some t => !t.hasColumn column.name
  | .dropColumn _ column, some t => t.hasColumn column.name && !t.uses column.name
  | .createIndex _ index, some t =>
      !t.hasIndexNamed (index.effectiveName t.name) && index.columns.all t.hasColumn
  | .dropIndex _ index, some t => t.hasIndexNamed (index.effectiveName t.name)
  | .addConstraint _ constraint, some t =>
      !t.hasConstraintNamed constraint.name && constraint.columns.all t.hasColumn
  | .dropConstraint _ constraint, some t => t.hasConstraintNamed constraint.name
  | _, _ => false

/-- The effect of an operation, unless it makes no sense. -/
def attempt (op : Operation) (live : Option Table) : Option (Option Table) :=
  if op.makesSense live then some (op.effect live) else none

/-- Whether an operation creates a table or adds to one. -/
def isAddition : Operation → Bool
  | .createTable _ => true
  | .addColumn .. => true
  | .createIndex .. => true
  | .addConstraint .. => true
  | _ => false

theorem isDestructive_eq_false_of_isAddition {op : Operation} (h : op.isAddition = true) :
    op.isDestructive = false := by
  cases op with
  | createTable | addColumn | createIndex | addConstraint => rfl
  | dropTable | dropColumn | dropIndex | dropConstraint => cases h

end Operation

/-- The effect of operations, one after the other. -/
def perform (ops : List Operation) (live : Option Table) : Option Table :=
  ops.foldl (fun live op => op.effect live) live

/-- The effect of operations, unless one makes no sense where it runs. -/
def attemptAll (ops : List Operation) (live : Option Table) : Option (Option Table) :=
  ops.foldlM (fun live op => op.attempt live) live

end Migration

end Relational
