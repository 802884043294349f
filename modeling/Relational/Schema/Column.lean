import Relational.Schema.Default

/-!
# Columns

Columns of tables.
-/

namespace Relational.Schema

/-- A column of a table. -/
structure Column where
  name : String
  type : ColumnType
  nullable : Bool := true
  primaryKey : Bool := false
  default : Default := .unset
  deriving DecidableEq

namespace Column

/-- A nullable column without default value. -/
def ofType (name : String) (type : ColumnType) : Column := { name, type }

/-- The column without null values. -/
def notNull (c : Column) : Column := { c with nullable := false }

/-- The column as primary key, which excludes null values. -/
def asPrimaryKey (c : Column) : Column := { c with primaryKey := true, nullable := false }

/-- The column with a default value. -/
def withDefault (c : Column) (default : Default) : Column := { c with default }

/-- Equality of columns up to the way in which default values are compared. -/
def agrees (a b : Column) : Bool :=
  a.name == b.name && a.type == b.type && a.nullable == b.nullable &&
    a.primaryKey == b.primaryKey && a.default.agrees b.default

end Column

end Relational.Schema
