import Relational.Query.Join
import Relational.Query.Scope

/-!
# Select statements

Whole `SELECT` statements.
-/

namespace Relational.Query

/-- What a query returns of each row. -/
inductive Projection where
  | all
  | count
  | columns (names : List String)
  deriving DecidableEq

/-- A query of a table and the tables joined to it. -/
structure Select where
  projection : Projection
  table : String
  joins : List Join := []
  scope : Scope := .everything
  deriving DecidableEq

namespace Projection

/-- Writes a projection of a table. -/
def render (resolver : Option Resolver) (table : String) : Projection → Except Error String
  | .all => .ok "*"
  | .count => .ok "COUNT(*)"
  | .columns names =>
      if names = [] then .error (.invalidArgument "empty column list" ("SELECT  FROM " ++ table))
      else
        match names.forM fun name => checkColumn resolver name name with
        | .error e => .error e
        | .ok () => .ok (", ".intercalate names)

end Projection

/-- Writes several joins, each after a space. -/
def renderJoins (resolver : Option Resolver) : List Join → Except Error Statement
  | [] => .ok ⟨"", []⟩
  | join :: joins =>
      match join.render resolver with
      | .error e => .error e
      | .ok first =>
          match renderJoins resolver joins with
          | .error e => .error e
          | .ok rest => .ok ⟨" " ++ first.sql ++ rest.sql, first.params ++ rest.params⟩

namespace Scope

/-- Writes the condition of a scope after its keyword. -/
def renderCondition (resolver : Option Resolver) (scope : Scope) : Except Error Statement :=
  match scope.condition with
  | none => .ok ⟨"", []⟩
  | some condition =>
      match condition.render resolver with
      | .error e => .error e
      | .ok statement => .ok ⟨" WHERE " ++ statement.sql, statement.params⟩

/-- Writes the order of a scope; one without keys leaves no trace. -/
def renderOrder (resolver : Option Resolver) (scope : Scope) : Except Error String :=
  match scope.order with
  | none => .ok ""
  | some order =>
      match order.render resolver with
      | .error e => .error e
      | .ok sql => .ok (if sql = "" then "" else " " ++ sql)

/-- Writes the limit of a scope.  The one negative limit that is allowed means
that there is none. -/
def renderLimit (scope : Scope) : Except Error String :=
  let limit := toString scope.limit.toInt
  if scope.isUnbounded then .ok ""
  else if scope.limit < 0 then
    .error (.invalidArgument ("negative limit " ++ limit) ("LIMIT " ++ limit))
  else .ok (" LIMIT " ++ limit)

end Scope

namespace Select

/-- Writes a query.  The error is that of the first faulty part: table,
projection, joins, condition, order, limit. -/
def render (resolver : Option Resolver) (select : Select) : Except Error Statement :=
  if select.table = "" then .error (.invalidArgument "empty table name" "FROM")
  else do
    let projection ← select.projection.render resolver select.table
    let joins ← renderJoins resolver select.joins
    let condition ← select.scope.renderCondition resolver
    let order ← select.scope.renderOrder resolver
    let limit ← select.scope.renderLimit
    return {
      sql := "SELECT " ++ projection ++ " FROM " ++ select.table ++ joins.sql ++
        condition.sql ++ order ++ limit
      params := joins.params ++ condition.params }

/-- The SQL of a query, with any names. -/
def build (select : Select) : Except Error Statement := select.render none

/-- The SQL of a query whose names are all known to the catalog. -/
def buildChecked (select : Select) (catalog : Catalog) : Except Error Statement :=
  if catalog.hasTable select.table then select.render (some ⟨catalog, select.table⟩)
  else .error (.unknownColumn select.table "*" ("FROM " ++ select.table))

end Select

end Relational.Query
