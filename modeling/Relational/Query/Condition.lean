import Relational.Query.Catalog
import Relational.Query.Statement

/-!
# Conditions

Conditions on columns, as trees, and the SQL they are written as.

Literals are never part of the text: each is bound to a placeholder.
-/

namespace Relational.Query

/-- A comparison of two operands. -/
inductive Comparison where
  | eq
  | notEq
  | lt
  | ltEq
  | gt
  | gtEq
  deriving DecidableEq, Hashable

/-- The SQL operator. -/
def Comparison.sql : Comparison → String
  | .eq => "="
  | .notEq => "!="
  | .lt => "<"
  | .ltEq => "<="
  | .gt => ">"
  | .gtEq => ">="

/-- How several conditions are joined to one. -/
inductive Junction where
  | and
  | or
  deriving DecidableEq, Hashable

/-- The SQL keyword. -/
def Junction.keyword : Junction → String
  | .and => "AND"
  | .or => "OR"

/-- A condition on columns. -/
inductive Condition where
  | compare (column : String) (op : Comparison) (value : Value)
  | compareColumns (left : String) (op : Comparison) (right : String)
  | isNull (column : String) (negated : Bool)
  | within (column : String) (values : List Value) (negated : Bool)
  | like (column pattern : String) (negated : Bool)
  | between (column : String) (low high : Value)
  | junction (kind : Junction) (operands : List Condition)
  | not (operand : Condition)

namespace Condition

mutual

/-- Equality of conditions is equality of trees. -/
def decEq : (a b : Condition) → Decidable (a = b)
  | .compare c o v, .compare c' o' v' =>
      decidable_of_iff (c = c' ∧ o = o' ∧ v = v') (by simp)
  | .compareColumns l o r, .compareColumns l' o' r' =>
      decidable_of_iff (l = l' ∧ o = o' ∧ r = r') (by simp)
  | .isNull c n, .isNull c' n' => decidable_of_iff (c = c' ∧ n = n') (by simp)
  | .within c vs n, .within c' vs' n' =>
      decidable_of_iff (c = c' ∧ vs = vs' ∧ n = n') (by simp)
  | .like c p n, .like c' p' n' => decidable_of_iff (c = c' ∧ p = p' ∧ n = n') (by simp)
  | .between c l h, .between c' l' h' =>
      decidable_of_iff (c = c' ∧ l = l' ∧ h = h') (by simp)
  | .junction k as, .junction k' bs =>
      match decEqList as bs with
      | .isTrue h => decidable_of_iff (k = k') (by simp [h])
      | .isFalse h => .isFalse (by simp [h])
  | .not a, .not b =>
      match decEq a b with
      | .isTrue h => .isTrue (by rw [h])
      | .isFalse h => .isFalse (by simpa using h)
  | .compare .., .compareColumns .. | .compare .., .isNull .. | .compare .., .within ..
  | .compare .., .like .. | .compare .., .between .. | .compare .., .junction ..
  | .compare .., .not .. | .compareColumns .., .compare .. | .compareColumns .., .isNull ..
  | .compareColumns .., .within .. | .compareColumns .., .like ..
  | .compareColumns .., .between .. | .compareColumns .., .junction ..
  | .compareColumns .., .not .. | .isNull .., .compare .. | .isNull .., .compareColumns ..
  | .isNull .., .within .. | .isNull .., .like .. | .isNull .., .between ..
  | .isNull .., .junction .. | .isNull .., .not .. | .within .., .compare ..
  | .within .., .compareColumns .. | .within .., .isNull .. | .within .., .like ..
  | .within .., .between .. | .within .., .junction .. | .within .., .not ..
  | .like .., .compare .. | .like .., .compareColumns .. | .like .., .isNull ..
  | .like .., .within .. | .like .., .between .. | .like .., .junction .. | .like .., .not ..
  | .between .., .compare .. | .between .., .compareColumns .. | .between .., .isNull ..
  | .between .., .within .. | .between .., .like .. | .between .., .junction ..
  | .between .., .not .. | .junction .., .compare .. | .junction .., .compareColumns ..
  | .junction .., .isNull .. | .junction .., .within .. | .junction .., .like ..
  | .junction .., .between .. | .junction .., .not .. | .not .., .compare ..
  | .not .., .compareColumns .. | .not .., .isNull .. | .not .., .within ..
  | .not .., .like .. | .not .., .between .. | .not .., .junction .. => .isFalse (by simp)

/-- Equality of lists of conditions. -/
def decEqList : (as bs : List Condition) → Decidable (as = bs)
  | [], [] => .isTrue rfl
  | a :: as, b :: bs =>
      match decEq a b, decEqList as bs with
      | .isTrue h, .isTrue h' => .isTrue (by rw [h, h'])
      | .isFalse h, _ => .isFalse (by simp [h])
      | _, .isFalse h => .isFalse (by simp [h])
  | [], _ :: _ => .isFalse (by simp)
  | _ :: _, [] => .isFalse (by simp)

end

instance : DecidableEq Condition := decEq

mutual

/-- A hash of a condition, so that conditions can be keys. -/
def hashTree : Condition → UInt64
  | .compare column op value => mixHash 1 (hash (column, op, value))
  | .compareColumns left op right => mixHash 2 (hash (left, op, right))
  | .isNull column negated => mixHash 3 (hash (column, negated))
  | .within column values negated => mixHash 4 (hash (column, values, negated))
  | .like column pattern negated => mixHash 5 (hash (column, pattern, negated))
  | .between column low high => mixHash 6 (hash (column, low, high))
  | .junction kind operands => mixHash 7 (mixHash (hash kind) (hashTrees operands))
  | .not operand => mixHash 8 (hashTree operand)

/-- A hash of a list of conditions. -/
def hashTrees : List Condition → UInt64
  | [] => 9
  | c :: cs => mixHash (hashTree c) (hashTrees cs)

end

instance : Hashable Condition := ⟨hashTree⟩

/-- The condition that all operands hold. -/
def all (operands : List Condition) : Condition := .junction .and operands

/-- The condition that some operand holds. -/
def any (operands : List Condition) : Condition := .junction .or operands

/-- Joins a condition to another.  One that is already a junction of this kind
takes the other as its last operand. -/
def join (kind : Junction) (a b : Condition) : Condition :=
  match a with
  | .junction k operands =>
      if k = kind then .junction kind (operands ++ [b]) else .junction kind [a, b]
  | _ => .junction kind [a, b]

/-- Both conditions. -/
def and (a b : Condition) : Condition := join .and a b

/-- Either condition. -/
def or (a b : Condition) : Condition := join .or a b

mutual

/-- The columns that a condition names, from left to right. -/
def columns : Condition → List String
  | .compare column _ _ => [column]
  | .compareColumns left _ right => [left, right]
  | .isNull column _ => [column]
  | .within column _ _ => [column]
  | .like column _ _ => [column]
  | .between column _ _ => [column]
  | .junction _ operands => columnsOfList operands
  | .not operand => columns operand

/-- The columns that a list of conditions names. -/
def columnsOfList : List Condition → List String
  | [] => []
  | c :: cs => columns c ++ columnsOfList cs

end

/-- A condition without operands, with the SQL it is written as. -/
def leaf (resolver : Option Resolver) (columns : List String) (sql : String)
    (params : List Value) : Except Error Statement :=
  match columns.forM fun column => checkColumn resolver column sql with
  | .error e => .error e
  | .ok () => .ok ⟨sql, params⟩

/-- Joins the statements of operands by the keyword of a junction. -/
def joinStatements (kind : Junction) (operands : List Statement) : Statement :=
  { sql := (" " ++ kind.keyword ++ " ").intercalate
      (operands.map fun operand => "(" ++ operand.sql ++ ")")
    params := operands.flatMap Statement.params }

mutual

/-- Writes a condition.  The error is that of the first faulty part from left
to right. -/
def render (resolver : Option Resolver) : Condition → Except Error Statement
  | .compare column op value =>
      leaf resolver [column] (column ++ " " ++ op.sql ++ " ?") [value]
  | .compareColumns left op right =>
      leaf resolver [left, right] (left ++ " " ++ op.sql ++ " " ++ right) []
  | .isNull column negated =>
      leaf resolver [column] (column ++ (if negated then " IS NOT NULL" else " IS NULL")) []
  | .within column values negated =>
      let sql := column ++ (if negated then " NOT IN (" else " IN (") ++
        ", ".intercalate (values.map fun _ => "?") ++ ")"
      if values = [] then .error (.invalidArgument "empty IN list" sql)
      else leaf resolver [column] sql values
  | .like column pattern negated =>
      leaf resolver [column] (column ++ (if negated then " NOT LIKE ?" else " LIKE ?"))
        [.text pattern]
  | .between column low high =>
      leaf resolver [column] (column ++ " BETWEEN ? AND ?") [low, high]
  | .junction kind operands =>
      match operands with
      | [] => .error (.invalidArgument (kind.keyword ++ " without operands") kind.keyword)
      | _ :: _ =>
          match renderList resolver operands with
          | .error e => .error e
          | .ok statements => .ok (joinStatements kind statements)
  | .not operand =>
      match render resolver operand with
      | .error e => .error e
      | .ok inner => .ok ⟨"NOT (" ++ inner.sql ++ ")", inner.params⟩

/-- Writes the operands of a junction. -/
def renderList (resolver : Option Resolver) : List Condition → Except Error (List Statement)
  | [] => .ok []
  | c :: cs =>
      match render resolver c with
      | .error e => .error e
      | .ok statement =>
          match renderList resolver cs with
          | .error e => .error e
          | .ok statements => .ok (statement :: statements)

end

/-- The SQL of a condition, with any column names. -/
def build (c : Condition) : Except Error Statement := render none c

/-- The SQL of a condition whose columns are all known to the catalog. -/
def buildChecked (c : Condition) (catalog : Catalog) (table : String) :
    Except Error Statement :=
  render (some ⟨catalog, table⟩) c

end Condition

end Relational.Query
