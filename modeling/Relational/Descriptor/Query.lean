import Relational.Descriptor.Basic
import Relational.Query.Select

/-!
# Descriptors of queries

The JSON form of values, conditions, orders, joins and scopes.
-/

namespace Relational.Descriptor

open Query

instance : Descriptor Value where
  encode
    | .null => .string "Null"
    | .bool b => tagged "Bool" (encode b)
    | .int i => tagged "Int" (encode i)
    | .float x => tagged "Float" (encode x)
    | .text s => tagged "Text" (encode s)
    | .blob bytes => tagged "Blob" (encode bytes)
  decode levels json := do
    let (levels, name, carried) ← choice levels json
    match name, carried with
    | "Bool", some json => (decode levels json).map .bool
    | "Int", some json => (decode levels json).map .int
    | "Float", some json => (decode levels json).map .float
    | "Text", some json => (decode levels json).map .text
    | "Blob", some json => (decode levels json).map .blob
    | "Null", carried => if carriesNothing carried then some .null else none
    | _, _ => none

instance : Descriptor Comparison where
  encode
    | .eq => .string "Eq"
    | .notEq => .string "NotEq"
    | .lt => .string "Lt"
    | .ltEq => .string "LtEq"
    | .gt => .string "Gt"
    | .gtEq => .string "GtEq"
  decode := decodeName
    [("Eq", .eq), ("NotEq", .notEq), ("Lt", .lt), ("LtEq", .ltEq), ("Gt", .gt), ("GtEq", .gtEq)]

mutual

/-- The JSON form of a condition. -/
def encodeCondition : Condition → Json
  | .compare column op value =>
      tagged "Compare" (.object
        [("column", encode column), ("op", encode op), ("value", encode value)])
  | .compareColumns left op right =>
      tagged "CompareColumns" (.object
        [("left", encode left), ("op", encode op), ("right", encode right)])
  | .isNull column negated =>
      tagged "IsNull" (.object [("column", encode column), ("negated", encode negated)])
  | .within column values negated =>
      tagged "In" (.object
        [("column", encode column), ("values", encode values), ("negated", encode negated)])
  | .like column pattern negated =>
      tagged "Like" (.object
        [("column", encode column), ("pattern", encode pattern), ("negated", encode negated)])
  | .between column low high =>
      tagged "Between" (.object
        [("column", encode column), ("low", encode low), ("high", encode high)])
  | .junction .and operands => tagged "And" (.array (encodeConditions operands))
  | .junction .or operands => tagged "Or" (.array (encodeConditions operands))
  | .not operand => tagged "Not" (encodeCondition operand)

/-- The JSON forms of conditions. -/
def encodeConditions : List Condition → List Json
  | [] => []
  | c :: cs => encodeCondition c :: encodeConditions cs

end

/-- Reads a condition without operands. -/
def decodeLeaf (levels : Nat) (name : String) (json : Json) : Option Condition :=
  match name with
  | "Compare" =>
      match supplied ["column", "op", "value"] levels json with
      | some (levels, [column, op, value]) => do
          return .compare (← column.required levels) (← op.required levels)
            (← value.required levels)
      | _ => none
  | "CompareColumns" =>
      match supplied ["left", "op", "right"] levels json with
      | some (levels, [left, op, right]) => do
          return .compareColumns (← left.required levels) (← op.required levels)
            (← right.required levels)
      | _ => none
  | "IsNull" =>
      match supplied ["column", "negated"] levels json with
      | some (levels, [column, negated]) => do
          return .isNull (← column.required levels) (← negated.required levels)
      | _ => none
  | "In" =>
      match supplied ["column", "values", "negated"] levels json with
      | some (levels, [column, values, negated]) => do
          return .within (← column.required levels) (← values.required levels)
            (← negated.required levels)
      | _ => none
  | "Like" =>
      match supplied ["column", "pattern", "negated"] levels json with
      | some (levels, [column, pattern, negated]) => do
          return .like (← column.required levels) (← pattern.required levels)
            (← negated.required levels)
      | _ => none
  | "Between" =>
      match supplied ["column", "low", "high"] levels json with
      | some (levels, [column, low, high]) => do
          return .between (← column.required levels) (← low.required levels)
            (← high.required levels)
      | _ => none
  | _ => none

/-- Reads a condition.  A choice uses one level, and a list of operands one
more. -/
def decodeCondition : Nat → Json → Option Condition
  | levels + 1, .object [("Not", json)] => (decodeCondition levels json).map .not
  | levels + 2, .object [("And", .array items)] =>
      (items.mapM (decodeCondition levels)).map (.junction .and)
  | levels + 2, .object [("Or", .array items)] =>
      (items.mapM (decodeCondition levels)).map (.junction .or)
  | levels + 1, .object [(name, json)] => decodeLeaf levels name json
  | _, _ => none

instance : Descriptor Condition := ⟨encodeCondition, decodeCondition⟩

instance : Descriptor Direction where
  encode
    | .ascending => .string "Ascending"
    | .descending => .string "Descending"
  decode := decodeName [("Ascending", .ascending), ("Descending", .descending)]

instance : Descriptor SortKey where
  encode key := .object [("column", encode key.column), ("direction", encode key.direction)]
  decode levels json :=
    match supplied ["column", "direction"] levels json with
    | some (levels, [column, direction]) => do
        return { column := ← column.required levels, direction := ← direction.required levels }
    | _ => none

instance : Descriptor Order where
  encode order := .object [("keys", encode order.keys)]
  decode levels json :=
    match supplied ["keys"] levels json with
    | some (levels, [keys]) => do return { keys := ← keys.required levels }
    | _ => none

instance : Descriptor JoinKind where
  encode
    | .inner => .string "Inner"
    | .leftOuter => .string "LeftOuter"
    | .rightOuter => .string "RightOuter"
    | .fullOuter => .string "FullOuter"
  decode := decodeName
    [("Inner", .inner), ("LeftOuter", .leftOuter), ("RightOuter", .rightOuter),
     ("FullOuter", .fullOuter)]

instance : Descriptor Join where
  encode join := .object
    [("join_type", encode join.kind), ("target", encode join.target), ("on", encode join.on)]
  decode levels json :=
    match supplied ["join_type", "target", "on"] levels json with
    | some (levels, [kind, target, on]) => do
        return {
          kind := ← kind.required levels
          target := ← target.required levels
          on := ← on.required levels }
    | _ => none

instance : Descriptor Scope where
  encode scope := .object
    [("condition", encode scope.condition), ("order", encode scope.order),
     ("limit", encode scope.limit)]
  decode levels json :=
    match supplied ["condition", "order", "limit"] levels json with
    | some (levels, [condition, order, limit]) => do
        return {
          condition := ← condition.optional levels
          order := ← order.optional levels
          limit := ← limit.required levels }
    | _ => none

end Relational.Descriptor
