import Relational.Migration.Event
import Relational.Migration.Operation
import Relational.Query.Catalog

/-!
# Planning

The operations that bring a table up to its declaration.

A table that is missing is created with everything that is declared.  To one
that exists, what is missing is added: columns, then indexes, then constraints,
each in the order of the declaration.  What exists without being declared is
left alone.
-/

namespace Relational.Migration

open Schema

namespace Declaration

/-- Rejects a column without a name, and the second of two with one name. -/
def checkColumnNames (table : String) (seen : List String) :
    List String → Except Query.Error Unit
  | [] => .ok ()
  | name :: names =>
      if name = "" then
        .error (.invalidArgument "empty column name" ("CREATE TABLE " ++ table))
      else if seen.contains name then
        .error (.invalidArgument ("column '" ++ name ++ "' declared twice")
          ("CREATE TABLE " ++ table))
      else checkColumnNames table (name :: seen) names

/-- The names of indexes and unique constraints, which share one space, each
with a text that tells its owner. -/
def indexNames (declared : Table) : List (String × String) :=
  declared.indexes.map (fun index =>
    (index.effectiveName declared.name,
      "index on (" ++ ", ".intercalate index.columns ++ ")")) ++
  declared.constraints.filterMap fun
    | .unique name columns =>
        some (name, "unique constraint on (" ++ ", ".intercalate columns ++ ")")
    | .check .. => none

/-- Rejects the second of two owners of one name. -/
def checkIndexNames (table : String) (seen : List (String × String)) :
    List (String × String) → Except Query.Error Unit
  | [] => .ok ()
  | (name, owner) :: rest =>
      match seen.lookup name with
      | some previous =>
          .error (.invalidArgument
            (previous ++ " and " ++ owner ++ " are both named '" ++ name ++ "'")
            ("CREATE INDEX " ++ name ++ " ON " ++ table))
      | none => checkIndexNames table ((name, owner) :: seen) rest

/-- The catalog of the declared columns alone. -/
def catalog (declared : Table) : Query.Catalog :=
  Query.Catalog.empty.withTable declared.name (declared.columns.map Column.name)

/-- Rejects an index without columns or on a column that is not declared. -/
def checkIndex (declared : Table) (index : Index) : Except Query.Error Unit := do
  let sql ← index.kind.createStatement declared.name
    (some (index.effectiveName declared.name)) index.columns
  index.columns.forM fun column => (catalog declared).checkColumn declared.name column sql

/-- Rejects a constraint without a name, and a unique constraint without columns
or on a column that is not declared. -/
def checkConstraint (declared : Table) (constraint : Constraint) : Except Query.Error Unit :=
  if constraint.name = "" then
    .error (.invalidArgument "constraints must be named"
      ("ALTER TABLE " ++ declared.name ++ " ADD CONSTRAINT"))
  else
    match constraint with
    | .check .. => .ok ()
    | .unique name columns =>
        let fragment := "CONSTRAINT " ++ name ++ " UNIQUE (" ++ ", ".intercalate columns ++ ")"
        if columns = [] then .error (.invalidArgument "empty column list" fragment)
        else
          columns.forM fun column =>
            (catalog declared).checkColumn declared.name column fragment

/-- Rejects a declaration that no valid statement could create. -/
def check (declared : Table) : Except Query.Error Unit :=
  if declared.name = "" then .error (.invalidArgument "empty table name" "CREATE TABLE")
  else if declared.columns = [] then
    .error (.invalidArgument ("table '" ++ declared.name ++ "' declares no columns")
      ("CREATE TABLE " ++ declared.name ++ " ()"))
  else do
    checkColumnNames declared.name [] (declared.columns.map Column.name)
    checkIndexNames declared.name [] (indexNames declared)
    declared.indexes.forM (checkIndex declared)
    declared.constraints.forM (checkConstraint declared)

/-- The index under the name that it has on the table. -/
def nameIndex (table : String) (index : Index) : Index :=
  index.named (index.effectiveName table)

/-- Whether a table has an index already: by its name, or without a name by the
same columns and the same answer to whether it is unique. -/
def hasIndex (live : Table) (index : Index) : Bool :=
  match index.name with
  | some name => (live.index? name).isSome
  | none => live.indexes.any fun i =>
      i.columns == index.columns && i.kind.isUnique == index.kind.isUnique

/-- Whether a table has a constraint already.  A unique index with its name
counts as a unique constraint. -/
def hasConstraint (live : Table) (constraint : Constraint) : Bool :=
  (live.constraint? constraint.name).isSome ||
    match constraint with
    | .unique name _ => (live.index? name).any fun i => i.kind.isUnique
    | .check .. => false

end Declaration

open Declaration

/-- The operations that add to an existing table what it lacks. -/
def additions (declared live : Table) : List Operation :=
  ((declared.columns.filter fun c => !live.hasColumn c.name).map (.addColumn declared.name)) ++
  ((declared.indexes.filter fun i => !hasIndex live i).map fun i =>
    .createIndex declared.name (nameIndex declared.name i)) ++
  ((declared.constraints.filter fun c => !hasConstraint live c).map
    (.addConstraint declared.name))

/-- The operation that creates a declared table. -/
def creation (declared : Table) : Operation :=
  .createTable { declared with indexes := declared.indexes.map (nameIndex declared.name) }

/-- The operations that bring a table, or the lack of one, up to its
declaration. -/
def plan (declared : Table) (live : Option Table) : Except Query.Error (List Operation) :=
  match check declared with
  | .error e => .error e
  | .ok () =>
      match live with
      | none => .ok [creation declared]
      | some live => .ok (additions declared live)

/-- What is reported when an operation is planned. -/
def planEvents : Operation → List Event
  | .createTable schema =>
      [⟨.debug, "Table missing, planning creation", [("table", schema.name)]⟩]
  | .addColumn table column =>
      [⟨.debug, "Column missing", [("table", table), ("column", column.name)]⟩]
  | .createIndex table index =>
      [⟨.debug, "Index missing", [("table", table), ("index", index.effectiveName table)]⟩]
  | .addConstraint table constraint =>
      [⟨.debug, "Constraint missing", [("table", table), ("constraint", constraint.name)]⟩]
  | _ => []

end Relational.Migration
