import Relational.Proofs.Query.Rendering

/-!
# Resolution of names

A query is written with the names of a catalog exactly if it is written with any names
and all of its own are known, and then it is written alike:
`Select.buildChecked_eq_ok_iff`.

So a catalog refuses queries and changes none.  Each part of a query has the faults that
it has without a catalog, and further ones for the names in it that do not resolve.
-/

namespace Relational.Query

/-- Whether a name means a column of a table, given the table of the names without a dot. -/
def Means (base name table column : String) : Prop :=
  ('.' ∉ name.toList ∧ table = base ∧ column = name) ∨
    (name = table ++ "." ++ column ∧ '.' ∉ table.toList)

theorem means_iff {base name table column : String} :
    Means base name table column ↔ Catalog.splitName base name = (table, column) := by
  constructor
  · rintro (⟨hdot, rfl, rfl⟩ | ⟨rfl, htable⟩)
    · exact Catalog.splitName_of_no_dot table hdot
    · exact Catalog.splitName_append base column htable
  · intro hsplit
    by_cases hdot : '.' ∈ name.toList
    · obtain ⟨table', column', rfl, htable'⟩ := Catalog.exists_append_of_dot hdot
      rw [Catalog.splitName_append base column' htable'] at hsplit
      cases hsplit
      exact Or.inr ⟨rfl, htable'⟩
    · rw [Catalog.splitName_of_no_dot base hdot] at hsplit
      cases hsplit
      exact Or.inl ⟨hdot, rfl, rfl⟩

/-- Whether a name resolves to a column of a catalog.  A name without a dot is a column of
the base table, and one with a dot is a column of the table before its first dot. -/
def Catalog.Resolves (catalog : Catalog) (base name : String) : Prop :=
  ('.' ∉ name.toList ∧ catalog.hasColumn base name = true) ∨
    ∃ table column, name = table ++ "." ++ column ∧ '.' ∉ table.toList ∧
      catalog.hasColumn table column = true

theorem Catalog.resolves_iff {catalog : Catalog} {base name : String} :
    catalog.Resolves base name ↔
      ∃ table column, Means base name table column ∧ catalog.hasColumn table column = true := by
  constructor
  · rintro (⟨hdot, h⟩ | ⟨table, column, hname, htable, h⟩)
    · exact ⟨base, name, Or.inl ⟨hdot, rfl, rfl⟩, h⟩
    · exact ⟨table, column, Or.inr ⟨hname, htable⟩, h⟩
  · rintro ⟨table, column, ⟨hdot, rfl, rfl⟩ | ⟨hname, htable⟩, h⟩
    · exact Or.inl ⟨hdot, h⟩
    · exact Or.inr ⟨table, column, hname, htable, h⟩

theorem Catalog.checkColumn_eq_ok_iff {catalog : Catalog} {base name fragment : String} :
    catalog.checkColumn base name fragment = .ok () ↔ catalog.Resolves base name := by
  have hcheck : catalog.checkColumn base name fragment = .ok () ↔
      catalog.hasColumn (splitName base name).1 (splitName base name).2 = true := by
    simp [checkColumn]
  rw [hcheck, resolves_iff]
  simp only [means_iff]
  constructor
  · exact fun h => ⟨_, _, rfl, h⟩
  · rintro ⟨table, column, hsplit, h⟩
    rwa [hsplit] at *

theorem Catalog.checkColumn_of_not_resolves {catalog : Catalog} {base name : String}
    (fragment : String) (h : ¬ catalog.Resolves base name) :
    catalog.checkColumn base name fragment =
      .error (.unknownColumn (splitName base name).1 (splitName base name).2 fragment) := by
  have hcheck : catalog.checkColumn base name fragment ≠ .ok () :=
    mt checkColumn_eq_ok_iff.mp h
  simp only [checkColumn] at hcheck ⊢
  exact if_neg fun hcolumn => hcheck (if_pos hcolumn)

section

variable (r : Resolver)

/-! ## Parts of a query -/

theorem checkColumn_some_eq_ok_iff {name fragment : String} :
    checkColumn (some r) name fragment = .ok () ↔
      checkColumn none name fragment = .ok () ∧ r.catalog.Resolves r.table name := by
  unfold checkColumn
  by_cases hname : name = ""
  · simp [hname]
  · simp only [if_neg hname, Catalog.checkColumn_eq_ok_iff, true_and]

/-- Names that are checked one by one have no faults exactly if they have none without the
catalog and resolve. -/
theorem checks_some_eq_nil_iff {α : Type} {items : List α} {name fragment : α → String} :
    (items.flatMap fun item => failures (checkColumn (some r) (name item) (fragment item))) = [] ↔
      (items.flatMap fun item => failures (checkColumn none (name item) (fragment item))) = [] ∧
        ∀ item ∈ items, r.catalog.Resolves r.table (name item) := by
  simp only [List.flatMap_eq_nil_iff, failures_eq_nil_iff, checkColumn_some_eq_ok_iff,
    ← forall_and]

theorem columnFaults_some_eq_nil_iff {columns : List String} {fragment : String} :
    columnFaults (some r) columns fragment = [] ↔
      columnFaults none columns fragment = [] ∧
        ∀ column ∈ columns, r.catalog.Resolves r.table column :=
  checks_some_eq_nil_iff r

namespace Condition

mutual

/-- A condition is checked against the catalog in all of its columns. -/
theorem faults_some_eq_nil_iff :
    (c : Condition) → (c.faults (some r) = [] ↔
      c.faults none = [] ∧ ∀ column ∈ c.columns, r.catalog.Resolves r.table column)
  | .compare .. => columnFaults_some_eq_nil_iff r
  | .compareColumns .. => columnFaults_some_eq_nil_iff r
  | .isNull .. => columnFaults_some_eq_nil_iff r
  | .within column values negated => by
      rw [faults, faults, List.append_eq_nil_iff, List.append_eq_nil_iff,
        columnFaults_some_eq_nil_iff, and_assoc, columns]
  | .like .. => columnFaults_some_eq_nil_iff r
  | .between .. => columnFaults_some_eq_nil_iff r
  | .junction kind operands => by
      rw [faults, faults, List.append_eq_nil_iff, List.append_eq_nil_iff,
        faultsOfList_some_eq_nil_iff operands, and_assoc, columns]
  | .not operand => by
      rw [faults, faults, columns]
      exact faults_some_eq_nil_iff operand

theorem faultsOfList_some_eq_nil_iff :
    (cs : List Condition) → (faultsOfList (some r) cs = [] ↔
      faultsOfList none cs = [] ∧
        ∀ column ∈ columnsOfList cs, r.catalog.Resolves r.table column)
  | [] => by simp [faultsOfList, columnsOfList]
  | c :: cs => by
      rw [faultsOfList, faultsOfList, List.append_eq_nil_iff, List.append_eq_nil_iff,
        faults_some_eq_nil_iff c, faultsOfList_some_eq_nil_iff cs, columnsOfList,
        List.forall_mem_append, and_and_and_comm]

end

end Condition

/-- A join is checked against the catalog in its target and in the columns of its
condition. -/
theorem Join.faults_some_eq_nil_iff (join : Join) :
    join.faults (some r) = [] ↔ join.faults none = [] ∧
      r.catalog.hasTable join.target = true ∧
        ∀ column ∈ join.on.columns, r.catalog.Resolves r.table column := by
  simp only [faults, List.append_eq_nil_iff, join.on.faults_some_eq_nil_iff r]
  simp only [Option.any_some, Option.any_none, ite_eq_right_iff, reduceCtorEq, imp_false,
    Bool.not_eq_true', Bool.not_eq_false, Bool.false_eq_true, not_false_eq_true, and_true]
  constructor
  · rintro ⟨⟨htarget, hknown⟩, hon, hcolumns⟩
    exact ⟨⟨htarget, hon⟩, hknown, hcolumns⟩
  · rintro ⟨⟨htarget, hon⟩, hknown, hcolumns⟩
    exact ⟨⟨htarget, hknown⟩, hon, hcolumns⟩

theorem joinFaults_some_eq_nil_iff (joins : List Join) :
    joins.flatMap (Join.faults (some r)) = [] ↔
      joins.flatMap (Join.faults none) = [] ∧
        (∀ join ∈ joins, r.catalog.hasTable join.target = true) ∧
          ∀ column ∈ joins.flatMap fun join => join.on.columns,
            r.catalog.Resolves r.table column := by
  simp only [List.flatMap_eq_nil_iff, Join.faults_some_eq_nil_iff, List.forall_mem_flatMap,
    ← forall_and]

/-- The columns that a projection names. -/
def Projection.names : Projection → List String
  | .all => []
  | .count => []
  | .columns names => names

theorem Projection.faults_some_eq_nil_iff (table : String) (projection : Projection) :
    projection.faults (some r) table = [] ↔ projection.faults none table = [] ∧
      ∀ column ∈ projection.names, r.catalog.Resolves r.table column := by
  cases projection with
  | all => simp [faults, names]
  | count => simp [faults, names]
  | columns columns =>
      rw [faults, faults, List.append_eq_nil_iff, List.append_eq_nil_iff,
        checks_some_eq_nil_iff, and_assoc, names]

namespace Scope

/-- The columns that the condition of a scope names. -/
def conditionColumns (scope : Scope) : List String :=
  match scope.condition with
  | none => []
  | some condition => condition.columns

/-- The columns that a scope sorts by. -/
def orderColumns (scope : Scope) : List String :=
  match scope.order with
  | none => []
  | some order => order.keys.map SortKey.column

theorem conditionFaults_some_eq_nil_iff (scope : Scope) :
    scope.conditionFaults (some r) = [] ↔ scope.conditionFaults none = [] ∧
      ∀ column ∈ scope.conditionColumns, r.catalog.Resolves r.table column := by
  unfold conditionFaults conditionColumns
  cases scope.condition with
  | none => simp
  | some condition => exact condition.faults_some_eq_nil_iff r

theorem orderFaults_some_eq_nil_iff (scope : Scope) :
    scope.orderFaults (some r) = [] ↔ scope.orderFaults none = [] ∧
      ∀ column ∈ scope.orderColumns, r.catalog.Resolves r.table column := by
  unfold orderFaults orderColumns
  cases scope.order with
  | none => simp
  | some order =>
      rw [List.forall_mem_map]
      exact checks_some_eq_nil_iff r

end Scope

end

/-! ## Whole queries -/

namespace Select

/-- The columns that a query names: in its projection, in the conditions of its joins, in
its own condition and in its order. -/
def columns (select : Select) : List String :=
  select.projection.names ++ ((select.joins.flatMap fun join => join.on.columns) ++
    (select.scope.conditionColumns ++ select.scope.orderColumns))

theorem faults_some_eq_nil_iff (r : Resolver) (select : Select) :
    select.faults (some r) = [] ↔ select.faults none = [] ∧
      (∀ join ∈ select.joins, r.catalog.hasTable join.target = true) ∧
        ∀ column ∈ select.columns, r.catalog.Resolves r.table column := by
  simp only [faults, columns, List.append_eq_nil_iff, List.forall_mem_append,
    Projection.faults_some_eq_nil_iff, joinFaults_some_eq_nil_iff,
    Scope.conditionFaults_some_eq_nil_iff, Scope.orderFaults_some_eq_nil_iff]
  constructor
  · rintro ⟨htable, ⟨hprojection, hnames⟩, ⟨hjoins, htargets, hon⟩, ⟨hcondition, hcolumns⟩,
      ⟨horder, hkeys⟩, hlimit⟩
    exact ⟨⟨htable, hprojection, hjoins, hcondition, horder, hlimit⟩, htargets, hnames, hon,
      hcolumns, hkeys⟩
  · rintro ⟨⟨htable, hprojection, hjoins, hcondition, horder, hlimit⟩, htargets, hnames, hon,
      hcolumns, hkeys⟩
    exact ⟨htable, ⟨hprojection, hnames⟩, ⟨hjoins, htargets, hon⟩, ⟨hcondition, hcolumns⟩,
      ⟨horder, hkeys⟩, hlimit⟩

theorem faultsChecked_eq_nil_iff (select : Select) (catalog : Catalog) :
    select.faultsChecked catalog = [] ↔ select.faults none = [] ∧
      catalog.hasTable select.table = true ∧
        (∀ join ∈ select.joins, catalog.hasTable join.target = true) ∧
          ∀ column ∈ select.columns, catalog.Resolves select.table column := by
  rw [faultsChecked]
  cases htable : catalog.hasTable select.table with
  | false => simp
  | true => simpa using faults_some_eq_nil_iff ⟨catalog, select.table⟩ select

/-- A query with the names of a catalog is the query with any names, provided that its table
and the targets of its joins are known to the catalog and all of its columns resolve. -/
theorem buildChecked_eq_ok_iff (select : Select) (catalog : Catalog) (statement : Statement) :
    select.buildChecked catalog = .ok statement ↔
      select.build = .ok statement ∧ catalog.hasTable select.table = true ∧
        (∀ join ∈ select.joins, catalog.hasTable join.target = true) ∧
          ∀ column ∈ select.columns, catalog.Resolves select.table column := by
  rw [buildChecked_eq, build_eq, valueUnless_eq_ok_iff, valueUnless_eq_ok_iff,
    faultsChecked_eq_nil_iff]
  constructor
  · rintro ⟨⟨hfaults, hknown⟩, hstatement⟩
    exact ⟨⟨hfaults, hstatement⟩, hknown⟩
  · rintro ⟨⟨hfaults, hstatement⟩, hknown⟩
    exact ⟨⟨hfaults, hknown⟩, hstatement⟩

/-- A catalog accepts a query, and without one column of the joined table refuses it, although
it can be written without a catalog. -/
example :
    let select : Select :=
      { projection := .columns ["name"], table := "users",
        joins := [.inner "posts" (.compareColumns "users.id" .eq "posts.owner")] }
    let users := Catalog.empty.withTable "users" ["id", "name"]
    let statement : Statement :=
      ⟨"SELECT name FROM users JOIN posts ON users.id = posts.owner", []⟩
    select.build = .ok statement ∧
      select.buildChecked (users.withTable "posts" ["owner"]) = .ok statement ∧
      select.buildChecked (users.withTable "posts" ["title"]) =
        .error (.unknownColumn "posts" "owner" "users.id = posts.owner") := by
  intro select users statement
  exact ⟨by rfl, by rfl, by rfl⟩

end Select

end Relational.Query
