import Relational.Proofs.Query.Rendering

/-!
# Queries from their parts

A query is built from its joins, its condition and its order as each of them is built on
its own: `Select.build_assembles_parts`.  A part adds to the text and to the parameters what
it is by itself, and the first part that cannot be built gives the error.
-/

namespace Relational.Query

/-- The error of a result, if it is one. -/
def error? {α : Type} : Except Error α → Option Error
  | .ok _ => none
  | .error e => some e

/-! ## Several parts -/

theorem error?_valueUnless {α : Type} (faults : List Error) (value : α) :
    error? (valueUnless faults value) = faults.head? := by
  cases faults <;> rfl

section

variable {α β : Type} {build : α → Except Error β} {faults : α → List Error} {value : α → β}

/-- Several things build one by one exactly if none of them has faults. -/
theorem map_eq_map_ok_iff (h : ∀ item, build item = valueUnless (faults item) (value item))
    {items : List α} {built : List β} :
    items.map build = built.map Except.ok ↔
      items.flatMap faults = [] ∧ items.map value = built := by
  induction items generalizing built with
  | nil => cases built <;> simp
  | cons item items ih =>
      cases built with
      | nil => simp
      | cons first rest =>
          rw [List.map_cons, List.map_cons, List.cons.injEq, ih, h, valueUnless_eq_ok_iff,
            List.flatMap_cons, List.append_eq_nil_iff, List.map_cons, List.cons.injEq,
            and_and_and_comm]

theorem option_map_eq_map_ok_iff
    (h : ∀ item, build item = valueUnless (faults item) (value item))
    {item : Option α} {built : Option β} :
    item.map build = built.map Except.ok ↔
      item.toList.flatMap faults = [] ∧ item.map value = built := by
  cases item <;> cases built <;> simp [h, valueUnless_eq_ok_iff]

/-- The first of the errors is the first of the faults, if the error of each thing is the
first of its own faults. -/
theorem head?_filterMap_eq {first? : α → Option Error}
    (h : ∀ item, first? item = (faults item).head?) (items : List α) :
    (items.filterMap first?).head? = (items.flatMap faults).head? := by
  rw [List.head?_filterMap, List.head?_flatMap, funext h]

end

/-! ## Projections -/

namespace Projection

/-- Whether a projection that lists columns has at least one, and each has a name. -/
def IsNamed : Projection → Prop
  | .all => True
  | .count => True
  | .columns names => names ≠ [] ∧ "" ∉ names

/-- The errors of a projection of a table: that of a list without columns, and one for each
column without a name, from left to right. -/
def errors (table : String) : Projection → List Error
  | .all => []
  | .count => []
  | .columns names =>
      if names = [] then [.invalidArgument "empty column list" ("SELECT  FROM " ++ table)]
      else names.filterMap fun name =>
        if name = "" then some (.invalidArgument "empty column name" name) else none

theorem failures_checkColumn_none (name fragment : String) :
    failures (checkColumn none name fragment) =
      if name = "" then [.invalidArgument "empty column name" fragment] else [] := by
  unfold checkColumn
  split <;> rfl

theorem faults_eq_nil_iff (table : String) (projection : Projection) :
    projection.faults none table = [] ↔ projection.IsNamed := by
  cases projection with
  | all => exact iff_of_true rfl trivial
  | count => exact iff_of_true rfl trivial
  | columns names =>
      simp only [faults, IsNamed, List.append_eq_nil_iff, List.flatMap_eq_nil_iff,
        failures_checkColumn_none, ite_eq_right_iff, imp_false, List.cons_ne_nil]
      refine and_congr_right fun _ => ⟨fun h hmem => h "" hmem rfl, ?_⟩
      rintro hmem name hname rfl
      exact hmem hname

theorem head?_errors (table : String) (projection : Projection) :
    (projection.errors table).head? = (projection.faults none table).head? := by
  cases projection with
  | all => rfl
  | count => rfl
  | columns names =>
      rw [errors, faults]
      by_cases hnames : names = []
      · rw [if_pos hnames, if_pos hnames]
        rfl
      · rw [if_neg hnames, if_neg hnames, List.nil_append]
        refine head?_filterMap_eq (fun name => ?_) names
        rw [failures_checkColumn_none]
        split <;> rfl

end Projection

/-! ## Scopes -/

namespace Scope

theorem conditionFaults_eq (resolver : Option Resolver) (scope : Scope) :
    scope.conditionFaults resolver =
      scope.condition.toList.flatMap (Condition.faults resolver) := by
  unfold conditionFaults
  cases scope.condition <;> simp

theorem orderFaults_eq (resolver : Option Resolver) (scope : Scope) :
    scope.orderFaults resolver = scope.order.toList.flatMap (Order.faults resolver) := by
  unfold orderFaults
  cases scope.order <;> simp

theorem isUnbounded_iff (scope : Scope) : scope.isUnbounded = true ↔ scope.limit = -1 := by
  simp [isUnbounded, noLimit]

theorem limitText_eq (scope : Scope) :
    scope.limitText =
      if scope.limit = -1 then "" else " LIMIT " ++ toString scope.limit.toInt := by
  simp only [limitText, isUnbounded_iff]

theorem limitFaults_eq (scope : Scope) :
    scope.limitFaults = if scope.limit = -1 ∨ 0 ≤ scope.limit then []
      else [.invalidArgument ("negative limit " ++ toString scope.limit.toInt)
        ("LIMIT " ++ toString scope.limit.toInt)] := by
  have hnegative : (!scope.isUnbounded && scope.limit < 0) = true ↔
      ¬ (scope.limit = -1 ∨ 0 ≤ scope.limit) := by
    rw [Bool.and_eq_true, Bool.not_eq_true', ← Bool.not_eq_true, isUnbounded_iff,
      decide_eq_true_iff, not_or, Int64.not_le]
  simp only [limitFaults, hnegative, ite_not]

end Scope

/-! ## Whole queries -/

/-- The joins, the condition and the order of a query, each as it is built on its own. -/
@[ext]
structure BuiltParts where
  joins : List Statement
  condition : Option Statement
  order : Option String

namespace Select

/-- Each join, the condition and the order of a query build on their own, to these parts. -/
structure BuildsTo (select : Select) (parts : BuiltParts) : Prop where
  joins : select.joins.map Join.build = parts.joins.map Except.ok
  condition : select.scope.condition.map Condition.build = parts.condition.map Except.ok
  order : select.scope.order.map Order.build = parts.order.map Except.ok

/-- The statement that a query makes of its parts. -/
def assemble (select : Select) (parts : BuiltParts) : Statement where
  sql := "SELECT " ++ select.projection.text ++ " FROM " ++ select.table ++
    String.join (parts.joins.map fun join => " " ++ join.sql) ++
    (match parts.condition with
      | none => ""
      | some condition => " WHERE " ++ condition.sql) ++
    (match parts.order with
      | none => ""
      | some order => if order = "" then "" else " " ++ order) ++
    (if select.scope.limit = -1 then "" else " LIMIT " ++ toString select.scope.limit.toInt)
  params := parts.joins.flatMap Statement.params ++
    (match parts.condition with
      | none => []
      | some condition => condition.params)

/-- The errors of the parts of a query, each built on its own, in the order of the parts:
table, projection, joins, condition, order, limit. -/
def partErrors (select : Select) : List Error :=
  (if select.table = "" then [.invalidArgument "empty table name" "FROM"] else []) ++
    (select.projection.errors select.table ++
      ((select.joins.filterMap fun join => error? join.build) ++
        ((select.scope.condition.toList.filterMap fun condition => error? condition.build) ++
          ((select.scope.order.toList.filterMap fun order => error? order.build) ++
            (if select.scope.limit = -1 ∨ 0 ≤ select.scope.limit then []
            else [.invalidArgument ("negative limit " ++ toString select.scope.limit.toInt)
              ("LIMIT " ++ toString select.scope.limit.toInt)])))))

/-- The parts that a query without faults builds to. -/
def builtParts (select : Select) : BuiltParts where
  joins := select.joins.map fun join => ⟨join.text, join.on.literals⟩
  condition := select.scope.condition.map Condition.statement
  order := select.scope.order.map Order.text

theorem assemble_builtParts (select : Select) :
    select.assemble select.builtParts = select.statement := by
  have htexts : select.builtParts.joins.map (fun join => " " ++ join.sql) =
      select.joins.map fun join => " " ++ join.text := by
    simp [builtParts]
  have hparams : select.builtParts.joins.flatMap Statement.params =
      select.joins.flatMap fun join => join.on.literals := by
    simp [builtParts, List.flatMap_map]
  -- The equations of these definitions take seconds to state, which `delta` does not need.
  delta assemble statement text literals
  rw [htexts, hparams, Scope.limitText_eq, Scope.conditionText, Scope.orderText, Scope.literals,
    builtParts]
  cases select.scope.condition <;> cases select.scope.order <;> rfl

/-- No join, condition or order of a query has faults. -/
def PartsFaultless (select : Select) : Prop :=
  select.joins.flatMap (Join.faults none) = [] ∧ select.scope.conditionFaults none = [] ∧
    select.scope.orderFaults none = []

/-- The parts build exactly if none of them has faults, and only to what they are written
as. -/
theorem buildsTo_iff {select : Select} {parts : BuiltParts} :
    select.BuildsTo parts ↔ select.PartsFaultless ∧ select.builtParts = parts := by
  have hjoins : select.joins.map Join.build = parts.joins.map Except.ok ↔
      select.joins.flatMap (Join.faults none) = [] ∧ select.builtParts.joins = parts.joins :=
    map_eq_map_ok_iff (Join.render_eq none)
  have hcondition : select.scope.condition.map Condition.build = parts.condition.map Except.ok ↔
      select.scope.condition.toList.flatMap (Condition.faults none) = [] ∧
        select.builtParts.condition = parts.condition :=
    option_map_eq_map_ok_iff (Condition.render_eq none)
  have horder : select.scope.order.map Order.build = parts.order.map Except.ok ↔
      select.scope.order.toList.flatMap (Order.faults none) = [] ∧
        select.builtParts.order = parts.order :=
    option_map_eq_map_ok_iff (Order.render_eq none)
  rw [PartsFaultless, Scope.conditionFaults_eq, Scope.orderFaults_eq]
  constructor
  · rintro ⟨hbuiltJoins, hbuiltCondition, hbuiltOrder⟩
    obtain ⟨hjoinFaults, hjoinParts⟩ := hjoins.mp hbuiltJoins
    obtain ⟨hconditionFaults, hconditionPart⟩ := hcondition.mp hbuiltCondition
    obtain ⟨horderFaults, horderPart⟩ := horder.mp hbuiltOrder
    exact ⟨⟨hjoinFaults, hconditionFaults, horderFaults⟩,
      BuiltParts.ext hjoinParts hconditionPart horderPart⟩
  · rintro ⟨⟨hjoinFaults, hconditionFaults, horderFaults⟩, rfl⟩
    exact ⟨hjoins.mpr ⟨hjoinFaults, rfl⟩, hcondition.mpr ⟨hconditionFaults, rfl⟩,
      horder.mpr ⟨horderFaults, rfl⟩⟩

theorem exists_buildsTo_iff {select : Select} {statement : Statement} :
    (∃ parts, select.BuildsTo parts ∧ statement = select.assemble parts) ↔
      select.PartsFaultless ∧ statement = select.statement := by
  simp only [buildsTo_iff, and_assoc, exists_and_left, exists_eq_left', assemble_builtParts]

theorem faults_none_eq_nil_iff (select : Select) :
    select.faults none = [] ↔ select.table ≠ "" ∧ select.projection.IsNamed ∧
      select.PartsFaultless ∧ (select.scope.limit = -1 ∨ 0 ≤ select.scope.limit) := by
  simp only [faults, PartsFaultless, List.append_eq_nil_iff, Projection.faults_eq_nil_iff,
    Scope.limitFaults_eq, ite_eq_left_iff, ite_eq_right_iff, imp_false, Decidable.not_not,
    List.cons_ne_nil, and_assoc, ne_eq]

/-- Of the faults of a part only the first is its error, so the first error of all parts is
the first fault. -/
theorem head?_partErrors (select : Select) :
    select.partErrors.head? = (select.faults none).head? := by
  have hjoin (join : Join) : error? join.build = (join.faults none).head? := by
    rw [Join.build, Join.render_eq, error?_valueUnless]
  have hcondition (c : Condition) : error? c.build = (c.faults none).head? := by
    rw [Condition.build, Condition.render_eq, error?_valueUnless]
  have horder (order : Order) : error? order.build = (order.faults none).head? := by
    rw [Order.build, Order.render_eq, error?_valueUnless]
  simp only [partErrors, faults, List.head?_append, Projection.head?_errors,
    head?_filterMap_eq hjoin, head?_filterMap_eq hcondition, head?_filterMap_eq horder,
    Scope.conditionFaults_eq, Scope.orderFaults_eq, Scope.limitFaults_eq]

/-- A query is the composition of its parts.  It builds exactly if its table and the columns
of its projection have names, its joins, its condition and its order build on their own, and
its limit is none or not negative.  The statement is then assembled from those of the parts;
otherwise the error is that of the first part that has one. -/
theorem build_assembles_parts (select : Select) :
    (∀ statement, select.build = .ok statement ↔
      select.table ≠ "" ∧ select.projection.IsNamed ∧
        (select.scope.limit = -1 ∨ 0 ≤ select.scope.limit) ∧
        ∃ parts, select.BuildsTo parts ∧ statement = select.assemble parts) ∧
    ∀ e, select.build = .error e ↔ select.partErrors.head? = some e := by
  constructor
  · intro statement
    rw [build_eq, valueUnless_eq_ok_iff, faults_none_eq_nil_iff, exists_buildsTo_iff]
    constructor
    · rintro ⟨⟨htable, hprojection, hparts, hlimit⟩, rfl⟩
      exact ⟨htable, hprojection, hlimit, hparts, rfl⟩
    · rintro ⟨htable, hprojection, hlimit, hparts, rfl⟩
      exact ⟨⟨htable, hprojection, hparts, hlimit⟩, rfl⟩
  · intro e
    rw [build_eq, valueUnless_eq_error_iff, head?_partErrors]

/-- A join without a target comes before a limit that is negative. -/
example :
    build { projection := .count, table := "t", joins := [.inner "" (.isNull "a" false)],
            scope := ⟨none, none, -2⟩ } =
      .error (.invalidArgument "empty join target" "JOIN") := by rfl

end Select

end Relational.Query
