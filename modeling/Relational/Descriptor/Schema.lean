import Relational.Descriptor.Basic
import Relational.Schema.Table

/-!
# Descriptors of tables

The JSON form of column types, default values and tables.
-/

namespace Relational.Descriptor

open Schema

/-- Reads a list of two. -/
def decodePair {α β : Type} [Descriptor α] [Descriptor β] (levels : Nat) (json : Json) :
    Option (α × β) :=
  match levels, json with
  | levels + 1, .array [a, b] => do return (← decode levels a, ← decode levels b)
  | _, _ => none

/-- The types that carry nothing. -/
def bareTypes : List (String × ColumnType) :=
  [("Integer", .integer), ("BigInt", .bigInt), ("SmallInt", .smallInt), ("Text", .text),
   ("Boolean", .boolean), ("Real", .real), ("Double", .double), ("Blob", .blob),
   ("Timestamp", .timestamp), ("Date", .date)]

instance : Descriptor ColumnType where
  encode
    | .integer => .string "Integer"
    | .bigInt => .string "BigInt"
    | .smallInt => .string "SmallInt"
    | .text => .string "Text"
    | .varchar length => tagged "Varchar" (encode length)
    | .boolean => .string "Boolean"
    | .real => .string "Real"
    | .double => .string "Double"
    | .decimal precision scale =>
        tagged "Decimal" (.array [encode precision, encode scale])
    | .blob => .string "Blob"
    | .timestamp => .string "Timestamp"
    | .date => .string "Date"
    | .custom name => tagged "Custom" (encode name)
  decode levels json := do
    let (inner, name, carried) ← choice levels json
    match name, carried with
    | "Varchar", some json => (decode inner json).map .varchar
    | "Decimal", some json =>
        (decodePair inner json).map fun (precision, scale) => .decimal precision scale
    | "Custom", some json => (decode inner json).map .custom
    | _, _ => decodeName bareTypes levels json

instance : Descriptor Default where
  encode
    | .unset => .string "None"
    | .null => .string "Null"
    | .bool b => tagged "Bool" (encode b)
    | .integer i => tagged "Integer" (encode i)
    | .float x => tagged "Float" (encode x)
    | .string s => tagged "String" (encode s)
    | .expression sql => tagged "Expression" (encode sql)
  decode levels json := do
    let (inner, name, carried) ← choice levels json
    match name, carried with
    | "Bool", some json => (decode inner json).map .bool
    | "Integer", some json => (decode inner json).map .integer
    | "Float", some json => (decode inner json).map .float
    | "String", some json => (decode inner json).map .string
    | "Expression", some json => (decode inner json).map .expression
    | _, _ => decodeName [("None", .unset), ("Null", .null)] levels json

/-- A default value is written only if there is one. -/
instance : Descriptor Column where
  encode column := .object (
    [("name", encode column.name), ("sql_type", encode column.type),
     ("nullable", encode column.nullable), ("primary_key", encode column.primaryKey)] ++
    if column.default.isUnset then [] else [("default", encode column.default)])
  decode levels json :=
    match supplied ["name", "sql_type", "nullable", "primary_key", "default"] levels json with
    | some (levels, [name, type, nullable, primaryKey, default]) => do
        return {
          name := ← name.required levels
          type := ← type.required levels
          nullable := ← nullable.orElse true levels
          primaryKey := ← primaryKey.orElse false levels
          default := ← default.orElse .unset levels }
    | _ => none

instance : Descriptor IndexKind where
  encode
    | .nonUnique => .string "NonUnique"
    | .unique => .string "Unique"
    | .clustered => .string "Clustered"
  decode := decodeName
    [("NonUnique", .nonUnique), ("Unique", .unique), ("Clustered", .clustered)]

/-- A name is written only if there is one. -/
instance : Descriptor Index where
  encode index := .object (
    (match index.name with
      | some name => [("name", encode name)]
      | none => []) ++
    [("index_type", encode index.kind), ("columns", encode index.columns)])
  decode levels json :=
    match supplied ["name", "index_type", "columns"] levels json with
    | some (levels, [name, kind, columns]) => do
        return {
          name := ← name.orElse none levels
          kind := ← kind.orElse .nonUnique levels
          columns := ← columns.required levels }
    | _ => none

instance : Descriptor Constraint where
  encode
    | .unique name columns =>
        tagged "Unique" (.object [("name", encode name), ("columns", encode columns)])
    | .check name expression =>
        tagged "Check" (.object [("name", encode name), ("expression", encode expression)])
  decode levels json := do
    let (levels, name, carried) ← choice levels json
    match name, carried with
    | "Unique", some json =>
        match supplied ["name", "columns"] levels json with
        | some (levels, [name, columns]) => do
            return .unique (← name.required levels) (← columns.required levels)
        | _ => none
    | "Check", some json =>
        match supplied ["name", "expression"] levels json with
        | some (levels, [name, expression]) => do
            return .check (← name.required levels) (← expression.required levels)
        | _ => none
    | _, _ => none

instance : Descriptor Table where
  encode table := .object
    [("name", encode table.name), ("columns", encode table.columns),
     ("indexes", encode table.indexes), ("constraints", encode table.constraints)]
  decode levels json :=
    match supplied ["name", "columns", "indexes", "constraints"] levels json with
    | some (levels, [name, columns, indexes, constraints]) => do
        return {
          name := ← name.required levels
          columns := ← columns.required levels
          indexes := ← indexes.orElse [] levels
          constraints := ← constraints.orElse [] levels }
    | _ => none

end Relational.Descriptor
