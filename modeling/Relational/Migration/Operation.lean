import Relational.Schema.Table

/-!
# Schema changes

Changes of a schema, each with the full definition of what it touches, so that
each has an exact inverse.
-/

namespace Relational.Migration

open Schema

/-- A single change of a schema. -/
inductive Operation where
  | createTable (schema : Table)
  | dropTable (schema : Table)
  | addColumn (table : String) (column : Column)
  | dropColumn (table : String) (column : Column)
  | createIndex (table : String) (index : Index)
  | dropIndex (table : String) (index : Index)
  | addConstraint (table : String) (constraint : Constraint)
  | dropConstraint (table : String) (constraint : Constraint)
  deriving DecidableEq

namespace Operation

/-- The operation that undoes this one. -/
def inverse : Operation → Operation
  | .createTable schema => .dropTable schema
  | .dropTable schema => .createTable schema
  | .addColumn table column => .dropColumn table column
  | .dropColumn table column => .addColumn table column
  | .createIndex table index => .dropIndex table index
  | .dropIndex table index => .createIndex table index
  | .addConstraint table constraint => .dropConstraint table constraint
  | .dropConstraint table constraint => .addConstraint table constraint

@[simp] theorem inverse_inverse (op : Operation) : op.inverse.inverse = op := by
  cases op <;> rfl

/-- The name of the table that is changed. -/
def table : Operation → String
  | .createTable schema => schema.name
  | .dropTable schema => schema.name
  | .addColumn table _ => table
  | .dropColumn table _ => table
  | .createIndex table _ => table
  | .dropIndex table _ => table
  | .addConstraint table _ => table
  | .dropConstraint table _ => table

/-- Whether stored data is lost. -/
def isDestructive : Operation → Bool
  | .dropTable _ => true
  | .dropColumn _ _ => true
  | _ => false

/-- A line that says what is done. -/
def description : Operation → String
  | .createTable schema => "Create table " ++ schema.name
  | .dropTable schema => "Drop table " ++ schema.name
  | .addColumn table column => "Add column " ++ column.name ++ " to " ++ table
  | .dropColumn table column => "Drop column " ++ column.name ++ " from " ++ table
  | .createIndex table index => "Create index " ++ index.effectiveName table ++ " on " ++ table
  | .dropIndex table index => "Drop index " ++ index.effectiveName table ++ " from " ++ table
  | .addConstraint table constraint => "Add constraint " ++ constraint.name ++ " to " ++ table
  | .dropConstraint table constraint =>
      "Drop constraint " ++ constraint.name ++ " from " ++ table

/-- Equality of operations up to the way in which default values are
compared. -/
def agrees : Operation → Operation → Bool
  | .createTable a, .createTable b => a.agrees b
  | .dropTable a, .dropTable b => a.agrees b
  | .addColumn t a, .addColumn u b => t == u && a.agrees b
  | .dropColumn t a, .dropColumn u b => t == u && a.agrees b
  | a, b => a == b

end Operation

end Relational.Migration
