import Relational.Descriptor.Schema
import Relational.Migration.Basic

/-!
# Descriptors of migrations

The JSON form of operations and migrations.
-/

namespace Relational.Descriptor

open Schema Migration

/-- What an operation on a part of a table carries. -/
def encodePart {α : Type} [Descriptor α] (table part : String) (a : α) : Json :=
  .object [("table", encode table), (part, encode a)]

/-- Reads what an operation on a part of a table carries. -/
def decodePart {α : Type} [Descriptor α] (part : String) (levels : Nat) (json : Json) :
    Option (String × α) :=
  match supplied ["table", part] levels json with
  | some (levels, [table, a]) => do return (← table.required levels, ← a.required levels)
  | _ => none

/-- Reads what an operation on a whole table carries. -/
def decodeSchema (levels : Nat) (json : Json) : Option Table :=
  match supplied ["schema"] levels json with
  | some (levels, [schema]) => schema.required levels
  | _ => none

instance : Descriptor Operation where
  encode
    | .createTable schema => tagged "CreateTable" (.object [("schema", encode schema)])
    | .dropTable schema => tagged "DropTable" (.object [("schema", encode schema)])
    | .addColumn table column => tagged "AddColumn" (encodePart table "column" column)
    | .dropColumn table column => tagged "DropColumn" (encodePart table "column" column)
    | .createIndex table index => tagged "CreateIndex" (encodePart table "index" index)
    | .dropIndex table index => tagged "DropIndex" (encodePart table "index" index)
    | .addConstraint table constraint =>
        tagged "AddConstraint" (encodePart table "constraint" constraint)
    | .dropConstraint table constraint =>
        tagged "DropConstraint" (encodePart table "constraint" constraint)
  decode levels json := do
    let (levels, name, carried) ← choice levels json
    match name, carried with
    | "CreateTable", some json => (decodeSchema levels json).map .createTable
    | "DropTable", some json => (decodeSchema levels json).map .dropTable
    | "AddColumn", some json =>
        (decodePart "column" levels json).map fun (table, column) => .addColumn table column
    | "DropColumn", some json =>
        (decodePart "column" levels json).map fun (table, column) => .dropColumn table column
    | "CreateIndex", some json =>
        (decodePart "index" levels json).map fun (table, index) => .createIndex table index
    | "DropIndex", some json =>
        (decodePart "index" levels json).map fun (table, index) => .dropIndex table index
    | "AddConstraint", some json =>
        (decodePart "constraint" levels json).map fun (table, c) => .addConstraint table c
    | "DropConstraint", some json =>
        (decodePart "constraint" levels json).map fun (table, c) => .dropConstraint table c
    | _, _ => none

instance : Descriptor Stage where
  encode stage := .string stage.name
  decode := decodeName
    [("Unapplied", .unapplied), ("Applied", .applied), ("Reverted", .reverted)]

instance : Descriptor Migration where
  encode m := .object
    [("table", encode m.table), ("operations", encode m.operations), ("state", encode m.stage)]
  decode levels json :=
    match supplied ["table", "operations", "state"] levels json with
    | some (levels, [table, operations, stage]) => do
        return {
          table := ← table.required levels
          operations := ← operations.required levels
          stage := ← stage.orElse .unapplied levels }
    | _ => none

end Relational.Descriptor
