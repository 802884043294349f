import Relational.Schema.Column
import Relational.Schema.Index

/-!
# Tables

Tables with their columns, indexes and constraints.
-/

namespace Relational.Schema

/-- A named constraint of a table. -/
inductive Constraint where
  | unique (name : String) (columns : List String)
  | check (name expression : String)
  deriving DecidableEq

namespace Constraint

/-- The name of a constraint. -/
def name : Constraint → String
  | .unique name _ => name
  | .check name _ => name

end Constraint

/-- A table. -/
structure Table where
  name : String
  columns : List Column
  indexes : List Index := []
  constraints : List Constraint := []
  deriving DecidableEq

namespace Table

/-- A table without columns. -/
def empty (name : String) : Table := { name, columns := [] }

/-- Adds a column. -/
def addColumn (t : Table) (column : Column) : Table :=
  { t with columns := t.columns ++ [column] }

/-- Adds an index. -/
def addIndex (t : Table) (index : Index) : Table :=
  { t with indexes := t.indexes ++ [index] }

/-- Adds a constraint. -/
def addConstraint (t : Table) (constraint : Constraint) : Table :=
  { t with constraints := t.constraints ++ [constraint] }

/-- The first column with a name. -/
def column? (t : Table) (name : String) : Option Column :=
  t.columns.find? fun c => c.name == name

/-- Whether there is a column with a name. -/
def hasColumn (t : Table) (name : String) : Bool := (t.column? name).isSome

/-- The first index that was given a name. -/
def index? (t : Table) (name : String) : Option Index :=
  t.indexes.find? fun i => i.name == some name

/-- The first constraint with a name. -/
def constraint? (t : Table) (name : String) : Option Constraint :=
  t.constraints.find? fun c => c.name == name

@[simp] theorem hasColumn_addColumn (t : Table) (column : Column) (name : String) :
    (t.addColumn column).hasColumn name = (t.hasColumn name || column.name == name) := by
  by_cases h : column.name = name
  · simp [hasColumn, column?, addColumn, h]
  · simp [hasColumn, column?, addColumn, h]

@[simp] theorem hasColumn_addIndex (t : Table) (index : Index) (name : String) :
    (t.addIndex index).hasColumn name = t.hasColumn name := rfl

@[simp] theorem hasColumn_addConstraint (t : Table) (constraint : Constraint) (name : String) :
    (t.addConstraint constraint).hasColumn name = t.hasColumn name := rfl

theorem hasColumn_eq_true_iff {t : Table} {name : String} :
    t.hasColumn name = true ↔ ∃ column ∈ t.columns, column.name = name := by
  simp [hasColumn, column?]

@[simp] theorem index?_addIndex (t : Table) (index : Index) (name : String) :
    (t.addIndex index).index? name =
      (t.index? name).or (if index.name = some name then some index else none) := by
  simp [index?, addIndex, List.find?_append]

@[simp] theorem constraint?_addConstraint (t : Table) (constraint : Constraint) (name : String) :
    (t.addConstraint constraint).constraint? name =
      (t.constraint? name).or (if constraint.name = name then some constraint else none) := by
  simp [constraint?, addConstraint, List.find?_append]

/-- Equality of tables up to the way in which default values are compared. -/
def agrees (a b : Table) : Bool :=
  a.name == b.name && columnsAgree a.columns b.columns && a.indexes == b.indexes &&
    a.constraints == b.constraints
where
  columnsAgree : List Column → List Column → Bool
    | [], [] => true
    | a :: as, b :: bs => a.agrees b && columnsAgree as bs
    | _, _ => false

end Table

/-- What a type of records declares about its table. -/
structure RecordType where
  table : String
  attributes : List Column
  indexes : List Index := []
  constraints : List Constraint := []

/-- The table that a type of records declares. -/
def Table.ofRecord (record : RecordType) : Table :=
  ⟨record.table, record.attributes, record.indexes, record.constraints⟩

end Relational.Schema
