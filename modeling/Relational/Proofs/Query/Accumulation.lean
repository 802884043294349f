import Relational.Query.Select

/-!
# Queries in one pass

A query can be written in one pass: one text and one list of literals are handed from part
to part, and each part adds its own behind what is there.

Every part adds just what it is written as by itself, with `Condition.renderOnto_eq` for the
conditions, whose literals come from any depth.  So the pass gives the statement that is put
together from the statements of the parts, and the same error:
`Select.renderInOnePass_eq_render`.
-/

namespace Relational.Query

namespace Statement

/-- A statement with another one behind it. -/
def append (first second : Statement) : Statement :=
  ⟨first.sql ++ second.sql, first.params ++ second.params⟩

/-- A statement with more text behind it. -/
def push (statement : Statement) (text : String) : Statement :=
  { statement with sql := statement.sql ++ text }

/-- The text of a statement, and its values behind those that are bound already. -/
def behind (bound : List Value) (statement : Statement) : String × List Value :=
  (statement.sql, bound ++ statement.params)

@[simp] theorem append_nothing (statement : Statement) :
    statement.append ⟨"", []⟩ = statement := by
  simp [append]

@[simp] theorem push_empty (statement : Statement) : statement.push "" = statement := by
  simp [push]

theorem push_push (statement : Statement) (first second : String) :
    (statement.push first).push second = statement.push (first ++ second) := by
  simp [push, String.append_assoc]

end Statement

/-! ## Conditions and joins -/

namespace Condition

/-- Writes a condition without operands.  Nothing is bound before its columns are
accepted. -/
def leafOnto (resolver : Option Resolver) (columns : List String) (sql : String)
    (params bound : List Value) : Except Error (String × List Value) := do
  columns.forM fun column => checkColumn resolver column sql
  return (sql, bound ++ params)

mutual

/-- Writes a condition, and binds its literals behind those that are bound already. -/
def renderOnto (resolver : Option Resolver) :
    Condition → List Value → Except Error (String × List Value)
  | .compare column op value, bound =>
      leafOnto resolver [column] (column ++ " " ++ op.sql ++ " ?") [value] bound
  | .compareColumns left op right, bound =>
      leafOnto resolver [left, right] (left ++ " " ++ op.sql ++ " " ++ right) [] bound
  | .isNull column negated, bound =>
      leafOnto resolver [column] (column ++ (if negated then " IS NOT NULL" else " IS NULL")) []
        bound
  | .within column values negated, bound =>
      let sql := column ++ (if negated then " NOT IN (" else " IN (") ++
        ", ".intercalate (values.map fun _ => "?") ++ ")"
      if values = [] then .error (.invalidArgument "empty IN list" sql)
      else leafOnto resolver [column] sql values bound
  | .like column pattern negated, bound =>
      leafOnto resolver [column] (column ++ (if negated then " NOT LIKE ?" else " LIKE ?"))
        [.text pattern] bound
  | .between column low high, bound =>
      leafOnto resolver [column] (column ++ " BETWEEN ? AND ?") [low, high] bound
  | .junction kind operands, bound =>
      match operands with
      | [] => .error (.invalidArgument (kind.keyword ++ " without operands") kind.keyword)
      | _ :: _ => do
          let (parts, bound) ← renderListOnto resolver operands bound
          return ((" " ++ kind.keyword ++ " ").intercalate parts, bound)
  | .not operand, bound => do
      let (inner, bound) ← renderOnto resolver operand bound
      return ("NOT (" ++ inner ++ ")", bound)

/-- Writes the operands of a junction, each in parentheses, and binds their literals one
operand after the other. -/
def renderListOnto (resolver : Option Resolver) :
    List Condition → List Value → Except Error (List String × List Value)
  | [], bound => return ([], bound)
  | c :: cs, bound => do
      let (sql, bound) ← renderOnto resolver c bound
      let (parts, bound) ← renderListOnto resolver cs bound
      return (("(" ++ sql ++ ")") :: parts, bound)

end

theorem leafOnto_eq (resolver : Option Resolver) (columns : List String) (sql : String)
    (params bound : List Value) :
    leafOnto resolver columns sql params bound =
      (leaf resolver columns sql params).map (Statement.behind bound) := by
  unfold leafOnto leaf
  cases columns.forM fun column => checkColumn resolver column sql <;> rfl

mutual

/-- A condition adds its literals to those that are bound already, whatever these are. -/
theorem renderOnto_eq (resolver : Option Resolver) : (c : Condition) → (bound : List Value) →
    c.renderOnto resolver bound = (c.render resolver).map (Statement.behind bound)
  | .compare .., bound => by rw [renderOnto, render, leafOnto_eq]
  | .compareColumns .., bound => by rw [renderOnto, render, leafOnto_eq]
  | .isNull .., bound => by rw [renderOnto, render, leafOnto_eq]
  | .like .., bound => by rw [renderOnto, render, leafOnto_eq]
  | .between .., bound => by rw [renderOnto, render, leafOnto_eq]
  | .within column values negated, bound => by
      rw [renderOnto, render, leafOnto_eq]
      by_cases hvalues : values = []
      · rw [if_pos hvalues, if_pos hvalues]
        rfl
      · rw [if_neg hvalues, if_neg hvalues]
  | .junction kind [], bound => by
      rw [renderOnto, render]
      rfl
  | .junction kind (c :: cs), bound => by
      rw [renderOnto, render, renderListOnto_eq resolver (c :: cs) bound]
      cases renderList resolver (c :: cs) <;> rfl
  | .not operand, bound => by
      rw [renderOnto, render, renderOnto_eq resolver operand bound]
      cases render resolver operand <;> rfl

theorem renderListOnto_eq (resolver : Option Resolver) :
    (cs : List Condition) → (bound : List Value) →
      renderListOnto resolver cs bound = (renderList resolver cs).map fun statements =>
        (statements.map fun statement => "(" ++ statement.sql ++ ")",
          bound ++ statements.flatMap Statement.params)
  | [], bound => by
      rw [renderListOnto, renderList]
      show (Except.ok ([], bound) : Except Error _) = .ok ([], bound ++ [])
      rw [List.append_nil]
  | c :: cs, bound => by
      rw [renderListOnto, renderList, renderOnto_eq resolver c bound]
      cases render resolver c with
      | error e => rfl
      | ok first =>
          show (do
            let (parts, bound) ← renderListOnto resolver cs (bound ++ first.params)
            return (("(" ++ first.sql ++ ")") :: parts, bound) : Except Error _) = _
          rw [renderListOnto_eq resolver cs (bound ++ first.params)]
          cases renderList resolver cs with
          | error e => rfl
          | ok rest =>
              show (Except.ok (_, bound ++ first.params ++ rest.flatMap Statement.params) :
                Except Error (List String × List Value)) = _
              rw [List.append_assoc]
              rfl

end

end Condition

namespace Join

/-- Writes a join, and binds the literals of its condition behind those that are bound
already. -/
def renderOnto (resolver : Option Resolver) (join : Join) (bound : List Value) :
    Except Error (String × List Value) :=
  let keyword := join.kind.keyword
  if join.target = "" then .error (.invalidArgument "empty join target" keyword)
  else if resolver.any fun r => !r.catalog.hasTable join.target then
    .error (.unknownColumn join.target "*" (keyword ++ " " ++ join.target))
  else do
    let (on, bound) ← join.on.renderOnto resolver bound
    return (keyword ++ " " ++ join.target ++ " ON " ++ on, bound)

theorem renderOnto_eq (resolver : Option Resolver) (join : Join) (bound : List Value) :
    join.renderOnto resolver bound = (join.render resolver).map (Statement.behind bound) := by
  rw [renderOnto, render, Condition.renderOnto_eq]
  by_cases htarget : join.target = ""
  · rw [if_pos htarget, if_pos htarget]
    rfl
  · rw [if_neg htarget, if_neg htarget]
    by_cases hknown : (resolver.any fun r => !r.catalog.hasTable join.target) = true
    · rw [if_pos hknown, if_pos hknown]
      rfl
    · rw [if_neg hknown, if_neg hknown]
      cases join.on.render resolver <;> rfl

end Join

/-! ## Whole statements -/

/-- Writes joins behind a statement, each after a space. -/
def joinsOnto (resolver : Option Resolver) : List Join → Statement → Except Error Statement
  | [], written => .ok written
  | join :: joins, written => do
      let (text, params) ← join.renderOnto resolver written.params
      joinsOnto resolver joins ⟨written.sql ++ " " ++ text, params⟩

theorem joinsOnto_eq (resolver : Option Resolver) (joins : List Join) (written : Statement) :
    joinsOnto resolver joins written = (renderJoins resolver joins).map written.append := by
  -- The statement grows with every join, so the induction is for any of them.
  induction joins generalizing written with
  | nil => exact congrArg Except.ok written.append_nothing.symm
  | cons join joins ih =>
      rw [joinsOnto, renderJoins, Join.renderOnto_eq]
      cases join.render resolver with
      | error e => rfl
      | ok first =>
          show joinsOnto resolver joins
            ⟨written.sql ++ " " ++ first.sql, written.params ++ first.params⟩ = _
          rw [ih]
          cases renderJoins resolver joins with
          | error e => rfl
          | ok rest => simp [Except.map, Statement.append, String.append_assoc]

namespace Scope

/-- Writes the condition of a scope behind a statement. -/
def conditionOnto (resolver : Option Resolver) (scope : Scope) (written : Statement) :
    Except Error Statement :=
  match scope.condition with
  | none => .ok written
  | some condition => do
      let (text, params) ← condition.renderOnto resolver written.params
      return ⟨written.sql ++ " WHERE " ++ text, params⟩

/-- Writes the order of a scope behind a statement; one without keys leaves no trace. -/
def orderOnto (resolver : Option Resolver) (scope : Scope) (written : Statement) :
    Except Error Statement :=
  match scope.order with
  | none => .ok written
  | some order => do
      let text ← order.render resolver
      return if text = "" then written else (written.push " ").push text

/-- Writes the limit of a scope behind a statement. -/
def limitOnto (scope : Scope) (written : Statement) : Except Error Statement :=
  let limit := toString scope.limit.toInt
  if scope.isUnbounded then .ok written
  else if scope.limit < 0 then
    .error (.invalidArgument ("negative limit " ++ limit) ("LIMIT " ++ limit))
  else .ok (written.push (" LIMIT " ++ limit))

theorem conditionOnto_eq (resolver : Option Resolver) (scope : Scope) (written : Statement) :
    scope.conditionOnto resolver written =
      (scope.renderCondition resolver).map written.append := by
  unfold conditionOnto renderCondition
  cases scope.condition with
  | none => exact congrArg Except.ok written.append_nothing.symm
  | some condition =>
      simp only [Condition.renderOnto_eq]
      cases condition.render resolver with
      | error e => rfl
      | ok statement =>
          show (Except.ok ⟨written.sql ++ " WHERE " ++ statement.sql, _⟩ : Except Error Statement) =
            .ok ⟨written.sql ++ (" WHERE " ++ statement.sql), _⟩
          rw [String.append_assoc]
          rfl

theorem orderOnto_eq (resolver : Option Resolver) (scope : Scope) (written : Statement) :
    scope.orderOnto resolver written = (scope.renderOrder resolver).map written.push := by
  unfold orderOnto renderOrder
  cases scope.order with
  | none => exact congrArg Except.ok written.push_empty.symm
  | some order =>
      simp only
      cases order.render resolver with
      | error e => rfl
      | ok text =>
          show (Except.ok (if text = "" then written else (written.push " ").push text) :
            Except Error Statement) = .ok (written.push (if text = "" then "" else " " ++ text))
          by_cases htext : text = ""
          · rw [if_pos htext, if_pos htext, Statement.push_empty]
          · rw [if_neg htext, if_neg htext, Statement.push_push]

theorem limitOnto_eq (scope : Scope) (written : Statement) :
    scope.limitOnto written = scope.renderLimit.map written.push := by
  unfold limitOnto renderLimit
  by_cases hunbounded : scope.isUnbounded = true
  · rw [if_pos hunbounded, if_pos hunbounded]
    exact congrArg Except.ok written.push_empty.symm
  · rw [if_neg hunbounded, if_neg hunbounded]
    by_cases hnegative : scope.limit < 0
    · rw [if_pos hnegative, if_pos hnegative]
      rfl
    · rw [if_neg hnegative, if_neg hnegative]
      rfl

end Scope

namespace Select

/-- Writes a query in one pass. -/
def renderInOnePass (resolver : Option Resolver) (select : Select) : Except Error Statement :=
  if select.table = "" then .error (.invalidArgument "empty table name" "FROM")
  else do
    let projection ← select.projection.render resolver select.table
    let written : Statement := ⟨"SELECT " ++ projection ++ " FROM " ++ select.table, []⟩
    let written ← joinsOnto resolver select.joins written
    let written ← select.scope.conditionOnto resolver written
    let written ← select.scope.orderOnto resolver written
    select.scope.limitOnto written

/-- A query that is written in one pass is the statement that is put together from its
parts; if it cannot be written, the error is the same. -/
theorem renderInOnePass_eq_render (resolver : Option Resolver) (select : Select) :
    select.renderInOnePass resolver = select.render resolver := by
  unfold renderInOnePass render
  split
  · rfl
  · cases select.projection.render resolver select.table with
    | error e => rfl
    | ok projection =>
        simp only [joinsOnto_eq, Scope.conditionOnto_eq, Scope.orderOnto_eq, Scope.limitOnto_eq]
        cases renderJoins resolver select.joins with
        | error e => rfl
        | ok joins =>
            cases select.scope.renderCondition resolver with
            | error e => rfl
            | ok condition =>
                cases select.scope.renderOrder resolver with
                | error e => rfl
                | ok order =>
                    cases select.scope.renderLimit with
                    | error e => rfl
                    | ok limit => rfl

end Select

end Relational.Query
