import Relational.Query.Select
import Relational.Query.Validation

/-!
# Text, literals and faults

A query consists of a text, of literals and of faults, each of which can be told
without the other two.  Writing a query gives the text with the literals if there
are no faults, and the first fault otherwise: `Condition.render_eq`,
`Join.render_eq` and `Select.render_eq`.
-/

namespace Relational.Query

/-- The value, unless there are faults; then the first of them. -/
def valueUnless {α : Type} (faults : List Error) (value : α) : Except Error α :=
  match faults with
  | [] => .ok value
  | e :: _ => .error e

/-- The error of a check, if it fails. -/
def failures (check : Except Error Unit) : List Error :=
  match check with
  | .ok () => []
  | .error e => [e]

/-- What is wrong with the names of columns, from left to right. -/
def columnFaults (resolver : Option Resolver) (columns : List String) (fragment : String) :
    List Error :=
  columns.flatMap fun column => failures (checkColumn resolver column fragment)

@[simp] theorem valueUnless_nil {α : Type} (value : α) : valueUnless [] value = .ok value := rfl

theorem valueUnless_eq_ok_iff {α : Type} {faults : List Error} {value result : α} :
    valueUnless faults value = .ok result ↔ faults = [] ∧ value = result := by
  cases faults <;> simp [valueUnless]

theorem valueUnless_eq_error_iff {α : Type} {faults : List Error} {value : α} {e : Error} :
    valueUnless faults value = .error e ↔ faults.head? = some e := by
  cases faults <;> simp [valueUnless]

theorem map_valueUnless {α β : Type} (faults : List Error) (value : α) (f : α → β) :
    (valueUnless faults value).map f = valueUnless faults (f value) := by
  cases faults <;> rfl

theorem valueUnless_bind_pure {α β : Type} (faults : List Error) (value : α) (f : α → β) :
    (valueUnless faults value >>= fun a => pure (f a)) = valueUnless faults (f value) := by
  cases faults <;> rfl

theorem valueUnless_bind {α β : Type} (first second : List Error) (value : α) (f : α → β) :
    (valueUnless first value >>= fun a => valueUnless second (f a)) =
      valueUnless (first ++ second) (f value) := by
  cases first <;> rfl

/-- A check of several things fails with the first of their failures. -/
theorem forM_eq_valueUnless {α : Type} (check : α → Except Error Unit) (items : List α) :
    (items.forM fun item => check item) =
      valueUnless (items.flatMap fun item => failures (check item)) () := by
  induction items with
  | nil => rfl
  | cons item items ih =>
      show (check item >>= fun _ => items.forM fun item => check item) = _
      rw [ih, List.flatMap_cons]
      cases check item <;> rfl

theorem failures_eq_nil_iff {check : Except Error Unit} :
    failures check = [] ↔ check = .ok () := by
  cases check <;> simp [failures]

theorem head?_failures {check : Except Error Unit} {e : Error} :
    (failures check).head? = some e ↔ check = .error e := by
  cases check <;> simp [failures]

theorem forM_checkColumn_eq (resolver : Option Resolver) (columns : List String)
    (fragment : String) :
    (columns.forM fun column => checkColumn resolver column fragment) =
      valueUnless (columnFaults resolver columns fragment) () :=
  forM_eq_valueUnless _ columns

namespace Condition

mutual

/-- The SQL that a condition is written as, whatever may be wrong with it. -/
def text : Condition → String
  | .compare column op _ => column ++ " " ++ op.sql ++ " ?"
  | .compareColumns left op right => left ++ " " ++ op.sql ++ " " ++ right
  | .isNull column negated => column ++ (if negated then " IS NOT NULL" else " IS NULL")
  | .within column values negated =>
      column ++ (if negated then " NOT IN (" else " IN (") ++
        ", ".intercalate (values.map fun _ => "?") ++ ")"
  | .like column _ negated => column ++ (if negated then " NOT LIKE ?" else " LIKE ?")
  | .between column _ _ => column ++ " BETWEEN ? AND ?"
  | .junction kind operands => (" " ++ kind.keyword ++ " ").intercalate (enclosedTexts operands)
  | .not operand => "NOT (" ++ text operand ++ ")"

/-- The SQL of several conditions, each in parentheses. -/
def enclosedTexts : List Condition → List String
  | [] => []
  | c :: cs => ("(" ++ text c ++ ")") :: enclosedTexts cs

end

/-- The literals of a condition, from left to right. -/
def literals (c : Condition) : List Value := c.bindings.map Prod.snd

/-- The literals of several conditions. -/
def literalsOfList (cs : List Condition) : List Value := (bindingsOfList cs).map Prod.snd

mutual

/-- What is wrong with a condition, from left to right.  That a list is empty is
told before anything else of the same condition. -/
def faults (resolver : Option Resolver) : Condition → List Error
  | .compare column op value =>
      columnFaults resolver [column] (text (.compare column op value))
  | .compareColumns left op right =>
      columnFaults resolver [left, right] (text (.compareColumns left op right))
  | .isNull column negated => columnFaults resolver [column] (text (.isNull column negated))
  | .within column values negated =>
      (if values = [] then
        [.invalidArgument "empty IN list" (text (.within column values negated))] else []) ++
        columnFaults resolver [column] (text (.within column values negated))
  | .like column pattern negated =>
      columnFaults resolver [column] (text (.like column pattern negated))
  | .between column low high => columnFaults resolver [column] (text (.between column low high))
  | .junction kind operands =>
      (if operands = [] then
        [.invalidArgument (kind.keyword ++ " without operands") kind.keyword] else []) ++
        faultsOfList resolver operands
  | .not operand => faults resolver operand

/-- What is wrong with several conditions. -/
def faultsOfList (resolver : Option Resolver) : List Condition → List Error
  | [] => []
  | c :: cs => faults resolver c ++ faultsOfList resolver cs

end

/-- What a condition without faults is written as. -/
def statement (c : Condition) : Statement := ⟨c.text, c.literals⟩

theorem literalsOfList_cons (c : Condition) (cs : List Condition) :
    literalsOfList (c :: cs) = c.literals ++ literalsOfList cs := by
  simp [literalsOfList, literals, bindingsOfList]

theorem literals_junction (kind : Junction) (operands : List Condition) :
    (junction kind operands).literals = literalsOfList operands := by
  rw [literals, bindings, literalsOfList]

theorem enclosedTexts_eq_map (cs : List Condition) :
    enclosedTexts cs = (cs.map statement).map fun operand => "(" ++ operand.sql ++ ")" := by
  induction cs with
  | nil => rfl
  | cons c cs ih => simp [enclosedTexts, ih, statement]

theorem literalsOfList_eq_flatMap (cs : List Condition) :
    literalsOfList cs = (cs.map statement).flatMap Statement.params := by
  induction cs with
  | nil => rfl
  | cons c cs ih => rw [literalsOfList_cons, ih]; rfl

theorem joinStatements_map_statement (kind : Junction) (operands : List Condition) :
    joinStatements kind (operands.map statement) = (junction kind operands).statement := by
  simp only [joinStatements, statement, text, literals_junction, enclosedTexts_eq_map,
    literalsOfList_eq_flatMap]

theorem leaf_eq (resolver : Option Resolver) (columns : List String) (sql : String)
    (params : List Value) :
    leaf resolver columns sql params =
      valueUnless (columnFaults resolver columns sql) ⟨sql, params⟩ := by
  unfold leaf
  rw [forM_checkColumn_eq]
  cases columnFaults resolver columns sql <;> rfl

mutual

/-- A condition is written as its text with its literals, unless it has faults. -/
theorem render_eq (resolver : Option Resolver) :
    (c : Condition) → c.render resolver = valueUnless (c.faults resolver) c.statement
  | .compare .. => by rw [render, leaf_eq]; rfl
  | .compareColumns .. => by rw [render, leaf_eq]; rfl
  | .isNull .. => by rw [render, leaf_eq]; rfl
  | .like .. => by rw [render, leaf_eq]; rfl
  | .between .. => by rw [render, leaf_eq]; rfl
  | .within column values negated => by
      have hliterals : (within column values negated).literals = values := by
        simp [literals, bindings, Function.comp_def]
      rw [render, leaf_eq, faults, statement, hliterals, text]
      by_cases hvalues : values = []
      · rw [if_pos hvalues, if_pos hvalues]
        rfl
      · rw [if_neg hvalues, if_neg hvalues, List.nil_append]
  | .junction kind [] => by
      rw [render, faults]
      rfl
  | .junction kind (c :: cs) => by
      rw [render, renderList_eq resolver (c :: cs), faults, if_neg (List.cons_ne_nil c cs),
        List.nil_append, ← joinStatements_map_statement]
      cases faultsOfList resolver (c :: cs) <;> rfl
  | .not operand => by
      rw [render, render_eq resolver operand, faults]
      cases faults resolver operand <;> rfl

/-- Conditions are written one by one, unless one of them has faults. -/
theorem renderList_eq (resolver : Option Resolver) :
    (cs : List Condition) →
      renderList resolver cs = valueUnless (faultsOfList resolver cs) (cs.map statement)
  | [] => rfl
  | c :: cs => by
      rw [renderList, render_eq resolver c, renderList_eq resolver cs, faultsOfList]
      cases faults resolver c with
      | cons e es => rfl
      | nil => cases faultsOfList resolver cs <;> rfl

end

end Condition

namespace Join

/-- The SQL that a join is written as. -/
def text (join : Join) : String :=
  join.kind.keyword ++ " " ++ join.target ++ " ON " ++ join.on.text

/-- What is wrong with a join.  Its target comes before its condition. -/
def faults (resolver : Option Resolver) (join : Join) : List Error :=
  (if join.target = "" then
    [.invalidArgument "empty join target" join.kind.keyword] else []) ++
  (if resolver.any fun r => !r.catalog.hasTable join.target then
    [.unknownColumn join.target "*" (join.kind.keyword ++ " " ++ join.target)] else []) ++
  join.on.faults resolver

/-- A join is written as its text with the literals of its condition, unless it has
faults. -/
theorem render_eq (resolver : Option Resolver) (join : Join) :
    join.render resolver = valueUnless (join.faults resolver) ⟨join.text, join.on.literals⟩ := by
  rw [render, faults, Condition.render_eq]
  by_cases htarget : join.target = ""
  · rw [if_pos htarget, if_pos htarget]
    rfl
  · rw [if_neg htarget, if_neg htarget, List.nil_append]
    by_cases hknown : (resolver.any fun r => !r.catalog.hasTable join.target) = true
    · rw [if_pos hknown, if_pos hknown]
      rfl
    · rw [if_neg hknown, if_neg hknown, List.nil_append]
      cases join.on.faults resolver <;> rfl

end Join

namespace Projection

/-- The SQL that a projection is written as. -/
def text : Projection → String
  | .all => "*"
  | .count => "COUNT(*)"
  | .columns names => ", ".intercalate names

/-- What is wrong with a projection of a table. -/
def faults (resolver : Option Resolver) (table : String) : Projection → List Error
  | .all => []
  | .count => []
  | .columns names =>
      (if names = [] then
        [.invalidArgument "empty column list" ("SELECT  FROM " ++ table)] else []) ++
        names.flatMap fun name => failures (checkColumn resolver name name)

theorem render_eq (resolver : Option Resolver) (table : String) (projection : Projection) :
    projection.render resolver table =
      valueUnless (projection.faults resolver table) projection.text := by
  cases projection with
  | all => rfl
  | count => rfl
  | columns names =>
      simp only [render, faults, text, forM_eq_valueUnless]
      by_cases hnames : names = []
      · rw [if_pos hnames, if_pos hnames]
        rfl
      · rw [if_neg hnames, if_neg hnames, List.nil_append]
        cases names.flatMap fun name => failures (checkColumn resolver name name) <;> rfl

end Projection

/-- The SQL of several joins, each after a space. -/
def joinsText (joins : List Join) : String := String.join (joins.map fun join => " " ++ join.text)

theorem renderJoins_eq (resolver : Option Resolver) (joins : List Join) :
    renderJoins resolver joins =
      valueUnless (joins.flatMap (Join.faults resolver))
        ⟨joinsText joins, joins.flatMap fun join => join.on.literals⟩ := by
  induction joins with
  | nil => rfl
  | cons join joins ih =>
      rw [renderJoins, Join.render_eq, ih, List.flatMap_cons, List.flatMap_cons]
      cases join.faults resolver with
      | cons e es => rfl
      | nil =>
          cases joins.flatMap (Join.faults resolver) with
          | cons e es => rfl
          | nil => simp [valueUnless, joinsText]

namespace Order

/-- The SQL that an order is written as, which is empty for one without keys. -/
def text (order : Order) : String :=
  if order.keys = [] then "" else "ORDER BY " ++ ", ".intercalate (order.keys.map SortKey.sql)

/-- What is wrong with an order. -/
def faults (resolver : Option Resolver) (order : Order) : List Error :=
  order.keys.flatMap fun key => failures (checkColumn resolver key.column key.sql)

theorem render_eq (resolver : Option Resolver) (order : Order) :
    order.render resolver = valueUnless (order.faults resolver) order.text := by
  simp only [render, faults, text, forM_eq_valueUnless]
  by_cases hkeys : order.keys = []
  · rw [if_pos hkeys, if_pos hkeys, hkeys]
    rfl
  · rw [if_neg hkeys, if_neg hkeys]
    cases order.keys.flatMap fun key =>
      failures (checkColumn resolver key.column key.sql) <;> rfl

end Order

namespace Scope

/-- The SQL of the condition of a scope, after its keyword. -/
def conditionText (scope : Scope) : String :=
  match scope.condition with
  | none => ""
  | some condition => " WHERE " ++ condition.text

/-- The literals of the condition of a scope. -/
def literals (scope : Scope) : List Value :=
  match scope.condition with
  | none => []
  | some condition => condition.literals

/-- What is wrong with the condition of a scope. -/
def conditionFaults (resolver : Option Resolver) (scope : Scope) : List Error :=
  match scope.condition with
  | none => []
  | some condition => condition.faults resolver

/-- The SQL of the order of a scope, after a space if there is any. -/
def orderText (scope : Scope) : String :=
  match scope.order with
  | none => ""
  | some order => if order.text = "" then "" else " " ++ order.text

/-- What is wrong with the order of a scope. -/
def orderFaults (resolver : Option Resolver) (scope : Scope) : List Error :=
  match scope.order with
  | none => []
  | some order => order.faults resolver

/-- The SQL of the limit of a scope. -/
def limitText (scope : Scope) : String :=
  if scope.isUnbounded then "" else " LIMIT " ++ toString scope.limit.toInt

/-- What is wrong with the limit of a scope. -/
def limitFaults (scope : Scope) : List Error :=
  if !scope.isUnbounded && scope.limit < 0 then
    [.invalidArgument ("negative limit " ++ toString scope.limit.toInt)
      ("LIMIT " ++ toString scope.limit.toInt)]
  else []

theorem renderCondition_eq (resolver : Option Resolver) (scope : Scope) :
    scope.renderCondition resolver =
      valueUnless (scope.conditionFaults resolver) ⟨scope.conditionText, scope.literals⟩ := by
  unfold renderCondition conditionFaults conditionText literals
  cases scope.condition with
  | none => rfl
  | some condition =>
      simp only [Condition.render_eq]
      cases condition.faults resolver <;> rfl

theorem renderOrder_eq (resolver : Option Resolver) (scope : Scope) :
    scope.renderOrder resolver = valueUnless (scope.orderFaults resolver) scope.orderText := by
  unfold renderOrder orderFaults orderText
  cases scope.order with
  | none => rfl
  | some order =>
      simp only [Order.render_eq]
      cases order.faults resolver <;> rfl

theorem renderLimit_eq (scope : Scope) :
    scope.renderLimit = valueUnless scope.limitFaults scope.limitText := by
  simp only [renderLimit, limitFaults, limitText]
  by_cases hunbounded : scope.isUnbounded = true
  · simp [hunbounded]
  · by_cases hnegative : scope.limit < 0
    · simp [hunbounded, hnegative, valueUnless]
    · simp [hunbounded, hnegative]

end Scope

namespace Select

/-- The SQL that a query is written as. -/
def text (select : Select) : String :=
  "SELECT " ++ select.projection.text ++ " FROM " ++ select.table ++ joinsText select.joins ++
    select.scope.conditionText ++ select.scope.orderText ++ select.scope.limitText

/-- The literals of a query: those of the joins in their order, and then those of the
condition. -/
def literals (select : Select) : List Value :=
  select.joins.flatMap (fun join => join.on.literals) ++ select.scope.literals

/-- What is wrong with a query, in the order in which it is written. -/
def faults (resolver : Option Resolver) (select : Select) : List Error :=
  (if select.table = "" then [.invalidArgument "empty table name" "FROM"] else []) ++
    (select.projection.faults resolver select.table ++
      (select.joins.flatMap (Join.faults resolver) ++
        (select.scope.conditionFaults resolver ++
          (select.scope.orderFaults resolver ++ select.scope.limitFaults))))

/-- What is wrong with a query whose names must be known. -/
def faultsChecked (catalog : Catalog) (select : Select) : List Error :=
  if catalog.hasTable select.table then select.faults (some ⟨catalog, select.table⟩)
  else [.unknownColumn select.table "*" ("FROM " ++ select.table)]

/-- What a query without faults is written as. -/
def statement (select : Select) : Statement := ⟨select.text, select.literals⟩

/-- A query is written as its text with its literals, unless it has faults. -/
theorem render_eq (resolver : Option Resolver) (select : Select) :
    select.render resolver = valueUnless (select.faults resolver) select.statement := by
  rw [render, faults]
  by_cases htable : select.table = ""
  · rw [if_pos htable, if_pos htable]
    rfl
  · rw [if_neg htable, if_neg htable, List.nil_append]
    -- From the last part to the first, so each bind puts the faults of one more part
    -- in front.
    simp only [Projection.render_eq, renderJoins_eq, Scope.renderCondition_eq,
      Scope.renderOrder_eq, Scope.renderLimit_eq, valueUnless_bind_pure, valueUnless_bind]
    rfl

theorem build_eq (select : Select) :
    select.build = valueUnless (select.faults none) select.statement :=
  render_eq none select

theorem buildChecked_eq (select : Select) (catalog : Catalog) :
    select.buildChecked catalog = valueUnless (select.faultsChecked catalog) select.statement := by
  rw [buildChecked, faultsChecked, render_eq]
  split <;> rfl

end Select

end Relational.Query
