import Relational.Proofs.Query.Rendering

/-!
# Literals and text

The SQL of a query and what is wrong with it do not depend on its literals:
`Select.sql_eq_of_blank_eq`.  Queries that differ only in their literals are those
that are the same once every literal is made blank.
-/

namespace Relational.Query

namespace Condition

mutual

/-- The condition with null in place of each literal, and with empty patterns.  A list
keeps its length. -/
def blank : Condition → Condition
  | .compare column op _ => .compare column op .null
  | .compareColumns left op right => .compareColumns left op right
  | .isNull column negated => .isNull column negated
  | .within column values negated => .within column (values.map fun _ => .null) negated
  | .like column _ negated => .like column "" negated
  | .between column _ _ => .between column .null .null
  | .junction kind operands => .junction kind (blankList operands)
  | .not operand => .not (blank operand)

/-- The conditions with null in place of each literal. -/
def blankList : List Condition → List Condition
  | [] => []
  | c :: cs => blank c :: blankList cs

end

theorem blankList_eq_nil_iff {cs : List Condition} : blankList cs = [] ↔ cs = [] := by
  cases cs <;> simp [blankList]

mutual

@[simp] theorem text_blank : (c : Condition) → c.blank.text = c.text
  | .compare .. => rfl
  | .compareColumns .. => rfl
  | .isNull .. => rfl
  | .within column values negated => by
      simp only [blank, text, List.map_map, Function.comp_def]
  | .like .. => rfl
  | .between .. => rfl
  | .junction kind operands => by rw [blank, text, text, enclosedTexts_blankList operands]
  | .not operand => by rw [blank, text, text, text_blank operand]

theorem enclosedTexts_blankList :
    (cs : List Condition) → enclosedTexts (blankList cs) = enclosedTexts cs
  | [] => rfl
  | c :: cs => by
      rw [blankList, enclosedTexts, enclosedTexts, text_blank c, enclosedTexts_blankList cs]

end

mutual

/-- The errors name the text of a condition and its columns, and never a literal. -/
@[simp] theorem faults_blank (resolver : Option Resolver) :
    (c : Condition) → c.blank.faults resolver = c.faults resolver
  | .compare .. => rfl
  | .compareColumns .. => rfl
  | .isNull .. => rfl
  | .within column values negated => by
      have htext := text_blank (.within column values negated)
      rw [blank] at htext
      rw [blank, faults, faults, htext]
      simp only [List.map_eq_nil_iff]
  | .like .. => rfl
  | .between .. => rfl
  | .junction kind operands => by
      rw [blank, faults, faults, faultsOfList_blankList resolver operands]
      simp only [blankList_eq_nil_iff]
  | .not operand => by rw [blank, faults, faults, faults_blank resolver operand]

theorem faultsOfList_blankList (resolver : Option Resolver) :
    (cs : List Condition) → faultsOfList resolver (blankList cs) = faultsOfList resolver cs
  | [] => rfl
  | c :: cs => by
      rw [blankList, faultsOfList, faultsOfList, faults_blank resolver c,
        faultsOfList_blankList resolver cs]

end

end Condition

/-- The join without the literals of its condition. -/
def Join.blank (join : Join) : Join := { join with on := join.on.blank }

/-- The scope without the literals of its condition. -/
def Scope.blank (scope : Scope) : Scope :=
  { scope with condition := scope.condition.map Condition.blank }

/-- The query without its literals. -/
def Select.blank (select : Select) : Select :=
  { select with joins := select.joins.map Join.blank, scope := select.scope.blank }

namespace Join

@[simp] theorem text_blank (join : Join) : join.blank.text = join.text := by
  simp [text, blank]

@[simp] theorem faults_blank (resolver : Option Resolver) (join : Join) :
    join.blank.faults resolver = join.faults resolver := by
  have hon : join.blank.on.faults resolver = join.on.faults resolver :=
    Condition.faults_blank resolver join.on
  rw [faults, hon]
  rfl

end Join

namespace Scope

@[simp] theorem conditionText_blank (scope : Scope) :
    scope.blank.conditionText = scope.conditionText := by
  unfold conditionText blank
  cases scope.condition with
  | none => rfl
  | some condition => simp

@[simp] theorem conditionFaults_blank (resolver : Option Resolver) (scope : Scope) :
    scope.blank.conditionFaults resolver = scope.conditionFaults resolver := by
  unfold conditionFaults blank
  cases scope.condition with
  | none => rfl
  | some condition => simp

end Scope

namespace Select

@[simp] theorem text_blank (select : Select) : select.blank.text = select.text := by
  have hjoins : joinsText select.blank.joins = joinsText select.joins := by
    simp [joinsText, blank, Function.comp_def]
  have hscope : select.blank.scope.conditionText = select.scope.conditionText :=
    select.scope.conditionText_blank
  unfold text
  rw [hjoins, hscope]
  rfl

@[simp] theorem faults_blank (resolver : Option Resolver) (select : Select) :
    select.blank.faults resolver = select.faults resolver := by
  have hjoins : select.blank.joins.flatMap (Join.faults resolver) =
      select.joins.flatMap (Join.faults resolver) := by
    simp [blank, List.flatMap_map]
  have hscope : select.blank.scope.conditionFaults resolver =
      select.scope.conditionFaults resolver :=
    select.scope.conditionFaults_blank resolver
  rw [faults, hjoins, hscope]
  rfl

@[simp] theorem faultsChecked_blank (catalog : Catalog) (select : Select) :
    select.blank.faultsChecked catalog = select.faultsChecked catalog := by
  have htable : select.blank.table = select.table := rfl
  rw [faultsChecked, faults_blank, htable]
  rfl

/-- Literals never reach the SQL.  Two queries that differ only in their literals
are written as the same text or have the same error, with any names and with those
of any catalog. -/
theorem sql_eq_of_blank_eq {a b : Select} (h : a.blank = b.blank) :
    a.build.map Statement.sql = b.build.map Statement.sql ∧
      ∀ catalog, (a.buildChecked catalog).map Statement.sql =
        (b.buildChecked catalog).map Statement.sql := by
  have htext : a.text = b.text := by
    rw [← text_blank a, h, text_blank]
  have hfaults : a.faults none = b.faults none := by
    rw [← faults_blank none a, h, faults_blank]
  constructor
  · rw [build_eq, build_eq, map_valueUnless, map_valueUnless, hfaults, statement, htext]
    rfl
  · intro catalog
    have hchecked : a.faultsChecked catalog = b.faultsChecked catalog := by
      rw [← faultsChecked_blank catalog a, h, faultsChecked_blank]
    rw [buildChecked_eq, buildChecked_eq, map_valueUnless, map_valueUnless, hchecked, statement,
      htext]
    rfl

/-- A literal with the text of SQL in it, in a join and in a condition with an
unknown column. -/
theorem sql_eq_of_blank_eq_injection :
    let query (value : Value) (pattern : String) : Select :=
      { projection := .all, table := "users",
        joins := [.inner "orders" (.not (.within "orders.kind" [value, .null] false))],
        scope := ⟨some (.all [.like "name" pattern true, .between "age" value value]), none, 5⟩ }
    let catalog : Catalog := ⟨[("users", ["name"]), ("orders", ["kind"])]⟩
    let a := query (.int 1) "a%"
    let b := query (.text "') OR 1 = 1 --") "?"
    (a ≠ b ∧ a.blank = b.blank ∧ a.faults none = [] ∧ a.faultsChecked catalog ≠ []) ∧
      a.build.map Statement.sql = b.build.map Statement.sql ∧
      ∀ catalog, (a.buildChecked catalog).map Statement.sql =
        (b.buildChecked catalog).map Statement.sql := by
  intro query catalog a b
  have hblank : a.blank = b.blank := by decide
  exact ⟨⟨by decide, hblank, by decide, by decide⟩,
    sql_eq_of_blank_eq hblank⟩

end Select

end Relational.Query
