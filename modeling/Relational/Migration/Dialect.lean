import Relational.Migration.Error
import Relational.Migration.Event

/-!
# Dialects

The SQL that operations are written as, in each dialect.

SQLite quotes names, cannot change the constraints of an existing table, and
keeps clustered indexes as plain ones.  There a unique constraint on an existing
table is an index.  The generic dialect writes names as they are.
-/

namespace Relational.Migration

open Schema

/-- A dialect of SQL. -/
inductive Dialect where
  | sqlite
  | generic
  deriving DecidableEq

namespace Dialect

/-- The name of a dialect. -/
def name : Dialect → String
  | .sqlite => "sqlite"
  | .generic => "generic"

/-- Whether schema changes can run in a transaction. -/
def isTransactional : Dialect → Bool
  | .sqlite => true
  | .generic => false

/-- Whether constraints can be added to an existing table. -/
def addsConstraints : Dialect → Bool
  | .sqlite => false
  | .generic => true

/-- Writes a name.  Quotes inside a name are left as they are. -/
def quote (d : Dialect) (name : String) : String :=
  match d with
  | .sqlite => "\"" ++ name ++ "\""
  | .generic => name

/-- Writes a list of names. -/
def quoteList (d : Dialect) (names : List String) : String :=
  ", ".intercalate (names.map d.quote)

/-- Writes the name of a column type. -/
def typeName (_ : Dialect) (type : ColumnType) : String := type.sqlName

/-- Writes a column as part of a table. -/
def columnDefinition (d : Dialect) (column : Column) : String :=
  let restriction :=
    if column.primaryKey then ["PRIMARY KEY"]
    else if column.nullable then [] else ["NOT NULL"]
  let default := match column.default.toSql with
    | some sql => ["DEFAULT " ++ sql]
    | none => []
  " ".intercalate ([d.quote column.name, d.typeName column.type] ++ restriction ++ default)

/-- Writes a constraint as part of a table. -/
def constraintDefinition (d : Dialect) : Constraint → String
  | .unique name columns =>
      "CONSTRAINT " ++ d.quote name ++ " UNIQUE (" ++ d.quoteList columns ++ ")"
  | .check name expression =>
      "CONSTRAINT " ++ d.quote name ++ " CHECK (" ++ expression ++ ")"

/-- What stands between the name and the default value of a column is the same in every dialect. -/
theorem exists_columnDefinition_eq (column : Column) :
    ∃ restriction : List String,
      (∀ text ∈ restriction, text = "PRIMARY KEY" ∨ text = "NOT NULL") ∧
      ∀ (d : Dialect) (default : Default), d.columnDefinition (column.withDefault default) =
        " ".intercalate ([d.quote column.name, column.type.sqlName] ++ restriction ++
          (default.toSql.map ("DEFAULT " ++ ·)).toList) := by
  refine ⟨if column.primaryKey then ["PRIMARY KEY"] else if column.nullable then []
    else ["NOT NULL"], ?_, ?_⟩
  · cases column.primaryKey <;> cases column.nullable <;> simp
  · intro d default
    unfold columnDefinition
    cases hsql : default.toSql <;> simp only [Column.withDefault, hsql] <;> rfl

theorem constraintDefinition_unique (d : Dialect) (name : String) (columns : List String) :
    d.constraintDefinition (.unique name columns) =
      "CONSTRAINT " ++ d.quote name ++ " UNIQUE (" ++ d.quoteList columns ++ ")" := rfl

theorem constraintDefinition_check (d : Dialect) (name expression : String) :
    d.constraintDefinition (.check name expression) =
      "CONSTRAINT " ++ d.quote name ++ " CHECK (" ++ expression ++ ")" := rfl

/-- The kind that an index has in a dialect. -/
def indexKind (d : Dialect) (kind : IndexKind) : IndexKind :=
  match d, kind with
  | .sqlite, .clustered => .nonUnique
  | _, kind => kind

/-- The statement that creates an index of a given kind. -/
def indexStatement (d : Dialect) (kind : IndexKind) (table name : String)
    (columns : List String) : Except Error String :=
  match kind.createStatement (d.quote table) (some (d.quote name)) (columns.map d.quote) with
  | .ok sql => .ok sql
  | .error e => .error (.query e)

/-- The statement that creates an index. -/
def createIndex (d : Dialect) (table : String) (index : Index) : Except Error String :=
  d.indexStatement (d.indexKind index.kind) table (index.effectiveName table) index.columns

/-- The statement that creates a table, without its indexes. -/
def createTableStatement (d : Dialect) (schema : Table) : String :=
  let parts := schema.columns.map d.columnDefinition ++
    schema.constraints.map d.constraintDefinition
  "CREATE TABLE " ++ d.quote schema.name ++ " (\n  " ++ ",\n  ".intercalate parts ++ "\n)"

theorem createTableStatement_eq (d : Dialect) (schema : Table) :
    d.createTableStatement schema =
      "CREATE TABLE " ++ d.quote schema.name ++ " (\n  " ++
        ",\n  ".intercalate (schema.columns.map d.columnDefinition ++
          schema.constraints.map d.constraintDefinition) ++ "\n)" := rfl

/-- The statements that create a table and then its indexes. -/
def createTable (d : Dialect) (schema : Table) : Except Error (List String) :=
  match schema.indexes.mapM (d.createIndex schema.name) with
  | .ok indexes => .ok (d.createTableStatement schema :: indexes)
  | .error e => .error e

/-- The error for an operation that a dialect cannot express. -/
def unsupported (d : Dialect) (operation : Operation) : Error :=
  .unsupported operation.description d.name

/-- The statement that adds a constraint to an existing table. -/
def addConstraint (d : Dialect) (table : String) (constraint : Constraint) :
    Except Error String :=
  if d.addsConstraints then
    .ok ("ALTER TABLE " ++ d.quote table ++ " ADD " ++ d.constraintDefinition constraint)
  else .error (d.unsupported (.addConstraint table constraint))

/-- The statement that drops an index. -/
def dropIndex (d : Dialect) (name : String) : String := "DROP INDEX " ++ d.quote name

/-- The statements of an operation, in the order in which they run. -/
def render (d : Dialect) : Operation → Except Error (List String)
  | .createTable schema => d.createTable schema
  | .dropTable schema => .ok ["DROP TABLE " ++ d.quote schema.name]
  | .addColumn table column =>
      .ok ["ALTER TABLE " ++ d.quote table ++ " ADD COLUMN " ++ d.columnDefinition column]
  | .dropColumn table column =>
      .ok ["ALTER TABLE " ++ d.quote table ++ " DROP COLUMN " ++ d.quote column.name]
  | .createIndex table index => (d.createIndex table index).map ([·])
  | .dropIndex table index => .ok [d.dropIndex (index.effectiveName table)]
  | .addConstraint table constraint =>
      match d, constraint with
      | .sqlite, .unique name columns =>
          (indexStatement .sqlite .unique table name columns).map ([·])
      | d, constraint => (d.addConstraint table constraint).map ([·])
  | .dropConstraint table constraint =>
      match d, constraint with
      | .sqlite, .unique name _ => .ok [dropIndex .sqlite name]
      | .sqlite, .check .. => .error (unsupported .sqlite (.dropConstraint table constraint))
      | .generic, _ =>
          .ok ["ALTER TABLE " ++ table ++ " DROP CONSTRAINT " ++ constraint.name]

/-- The statements of several operations. -/
def renderAll (d : Dialect) : List Operation → Except Error (List String)
  | [] => .ok []
  | op :: ops =>
      match d.render op with
      | .error e => .error e
      | .ok first =>
          match d.renderAll ops with
          | .error e => .error e
          | .ok rest => .ok (first ++ rest)

/-- The event for a clustered index that is written as a plain one. -/
def clusteredIndexEvent (table : String) (index : Index) : Event :=
  ⟨.warn, "SQLite has no clustered indexes, creating a plain index",
    [("table", table), ("index", index.effectiveName table)]⟩

/-- What is reported while indexes are written.  An index without columns cannot
be written, and none is tried after it. -/
def indexEvents (d : Dialect) (table : String) : List Index → List Event
  | [] => []
  | index :: rest =>
      (if d = .sqlite ∧ index.kind = .clustered then [clusteredIndexEvent table index] else []) ++
        if index.columns = [] then [] else d.indexEvents table rest

/-- What is reported while an operation is written. -/
def renderEvents (d : Dialect) : Operation → List Event
  | .createTable schema => d.indexEvents schema.name schema.indexes
  | .createIndex table index => d.indexEvents table [index]
  | _ => []

/-- What is reported while several operations are written.  None is tried after
the first that cannot be written. -/
def renderAllEvents (d : Dialect) : List Operation → List Event
  | [] => []
  | op :: ops =>
      d.renderEvents op ++
        match d.render op with
        | .ok _ => d.renderAllEvents ops
        | .error _ => []

end Dialect

end Relational.Migration
