import Relational.Migration.Lifecycle
import Relational.Proofs.Migration.Acceptance

/-!
# What the dialects can express

A plan can be written in every dialect, to apply it and to revert it, except that SQLite
cannot add a check to an existing table or drop one: `plan_expressible`.

An operation is refused for two reasons only.  It creates an index without columns, which
an accepted declaration excludes, or it changes a check where the dialect cannot.  The
second is told by the operation alone and is the same for its inverse.
-/

namespace Relational.Migration

open Schema

namespace Operation

/-- Whether an operation adds a check to an existing table or drops one. -/
def changesCheck : Operation → Bool
  | .addConstraint _ constraint => constraint.isCheck
  | .dropConstraint _ constraint => constraint.isCheck
  | _ => false

/-- Every index that an operation creates has columns.  A unique constraint that is added to
an existing table may become an index. -/
def IndexesColumns : Operation → Prop
  | .createTable schema => ∀ i ∈ schema.indexes, i.columns ≠ []
  | .createIndex _ index => index.columns ≠ []
  | .addConstraint _ (.unique _ columns) => columns ≠ []
  | _ => True

theorem changesCheck_inverse (op : Operation) : op.inverse.changesCheck = op.changesCheck := by
  cases op <;> rfl

/-- An addition is undone by dropping something, which creates no index. -/
theorem indexesColumns_inverse {op : Operation} (h : op.isAddition = true) :
    op.inverse.IndexesColumns := by
  cases op with
  | createTable | addColumn | createIndex | addConstraint => trivial
  | dropTable | dropColumn | dropIndex | dropConstraint => cases h

theorem changesCheck_eq_true_iff {op : Operation} (h : op.isAddition = true) :
    op.changesCheck = true ↔
      ∃ table name expression, op = .addConstraint table (.check name expression) := by
  cases op with
  | createTable | addColumn | createIndex => simp [changesCheck]
  | dropTable | dropColumn | dropIndex | dropConstraint => cases h
  | addConstraint table constraint => cases constraint <;> simp [changesCheck, Constraint.isCheck]

end Operation

namespace Dialect

/-- Whether an operation is one that a dialect cannot express. -/
def refuses (d : Dialect) (op : Operation) : Bool := !d.addsConstraints && op.changesCheck

/-! ## One operation -/

theorem exists_indexStatement (d : Dialect) (kind : IndexKind) (table name : String)
    {columns : List String} (h : columns ≠ []) :
    ∃ sql, d.indexStatement kind table name columns = .ok sql := by
  have hquoted : columns.map d.quote ≠ [] := fun hnil => h (List.map_eq_nil_iff.mp hnil)
  rw [indexStatement, IndexKind.createStatement, if_neg hquoted]
  exact ⟨_, rfl⟩

theorem exists_createIndex (d : Dialect) (table : String) {index : Index}
    (h : index.columns ≠ []) : ∃ sql, d.createIndex table index = .ok sql :=
  d.exists_indexStatement _ _ _ h

theorem exists_mapM_createIndex (d : Dialect) (table : String) {indexes : List Index}
    (h : ∀ i ∈ indexes, i.columns ≠ []) :
    ∃ sqls, indexes.mapM (d.createIndex table) = .ok sqls := by
  induction indexes with
  | nil => exact ⟨[], rfl⟩
  | cons index indexes ih =>
      obtain ⟨sql, hsql⟩ := d.exists_createIndex table (h index List.mem_cons_self)
      obtain ⟨sqls, hsqls⟩ := ih fun i hi => h i (List.mem_cons_of_mem index hi)
      rw [List.mapM_cons, hsql, hsqls]
      exact ⟨sql :: sqls, rfl⟩

theorem exists_createTable (d : Dialect) {schema : Table}
    (h : ∀ i ∈ schema.indexes, i.columns ≠ []) :
    ∃ statements, d.createTable schema = .ok statements := by
  obtain ⟨sqls, hsqls⟩ := d.exists_mapM_createIndex schema.name h
  rw [createTable, hsqls]
  exact ⟨_, rfl⟩

/-- An operation whose indexes have columns can be written unless the dialect refuses it. -/
theorem render_spec (d : Dialect) {op : Operation} (h : op.IndexesColumns) :
    (d.refuses op = false ∧ ∃ statements, d.render op = .ok statements) ∨
      (d.refuses op = true ∧ d.render op = .error (d.unsupported op)) := by
  cases op with
  | createTable schema => exact Or.inl ⟨Bool.and_false _, d.exists_createTable h⟩
  | createIndex table index =>
      obtain ⟨sql, hsql⟩ := d.exists_createIndex table h
      exact Or.inl ⟨Bool.and_false _, [sql], by rw [render, hsql]; rfl⟩
  | addConstraint table constraint =>
      cases d with
      | generic => exact Or.inl ⟨rfl, _, rfl⟩
      | sqlite =>
          cases constraint with
          | check name expression => exact Or.inr ⟨rfl, rfl⟩
          | unique name columns =>
              obtain ⟨sql, hsql⟩ := exists_indexStatement .sqlite .unique table name h
              exact Or.inl ⟨rfl, [sql], by rw [render, hsql]; rfl⟩
  | dropConstraint table constraint =>
      cases d with
      | generic => exact Or.inl ⟨rfl, _, rfl⟩
      | sqlite =>
          cases constraint with
          | check name expression => exact Or.inr ⟨rfl, rfl⟩
          | unique name columns => exact Or.inl ⟨rfl, _, rfl⟩
  | dropTable | addColumn | dropColumn | dropIndex => exact Or.inl ⟨Bool.and_false _, _, rfl⟩

/-! ## Several operations -/

/-- Operations whose indexes have columns can be written unless the dialect refuses one of
them.  The first one that it refuses is then reported. -/
theorem renderAll_spec (d : Dialect) {ops : List Operation} (h : ∀ op ∈ ops, op.IndexesColumns) :
    (ops.find? d.refuses = none ∧ ∃ statements, d.renderAll ops = .ok statements) ∨
      ∃ op, ops.find? d.refuses = some op ∧ d.renderAll ops = .error (d.unsupported op) := by
  induction ops with
  | nil => exact Or.inl ⟨rfl, [], rfl⟩
  | cons op ops ih =>
      rcases d.render_spec (h op List.mem_cons_self) with
        ⟨hallowed, first, hfirst⟩ | ⟨hrefused, herror⟩
      · rw [List.find?_cons_of_neg (by rw [hallowed]; exact Bool.false_ne_true)]
        rcases ih fun o ho => h o (List.mem_cons_of_mem op ho) with
          ⟨hnone, rest, hrest⟩ | ⟨bad, hbad, herror⟩
        · exact Or.inl ⟨hnone, first ++ rest, by rw [renderAll, hfirst, hrest]⟩
        · exact Or.inr ⟨bad, hbad, by rw [renderAll, hfirst, herror]⟩
      · exact Or.inr ⟨op, List.find?_cons_of_pos hrefused, by rw [renderAll, herror]⟩

/-- The generic dialect refuses nothing. -/
theorem exists_renderAll_generic {ops : List Operation} (h : ∀ op ∈ ops, op.IndexesColumns) :
    ∃ statements, generic.renderAll ops = .ok statements := by
  rcases generic.renderAll_spec h with ⟨-, hok⟩ | ⟨op, hrefused, -⟩
  · exact hok
  · cases List.find?_some hrefused

/-- SQLite refuses the changes of checks. -/
theorem renderAll_sqlite_spec {ops : List Operation} (h : ∀ op ∈ ops, op.IndexesColumns) :
    ((∃ statements, sqlite.renderAll ops = .ok statements) ↔
      ∀ op ∈ ops, op.changesCheck = false) ∧
    ∀ e, sqlite.renderAll ops = .error e ↔
      ∃ op, ops.find? Operation.changesCheck = some op ∧
        e = .unsupported op.description "sqlite" := by
  have hrefuses : sqlite.refuses = Operation.changesCheck := rfl
  have hspec := sqlite.renderAll_spec h
  rw [hrefuses] at hspec
  rcases hspec with ⟨hnone, statements, hok⟩ | ⟨op, hsome, herror⟩
  · have hall := List.find?_eq_none.mp hnone
    refine ⟨⟨fun _ op hop => Bool.eq_false_iff.mpr (hall op hop), fun _ => ⟨_, hok⟩⟩, ?_⟩
    intro e
    rw [hok, hnone]
    simp
  · refine ⟨⟨?_, ?_⟩, ?_⟩
    · rintro ⟨statements, hok⟩
      rw [herror] at hok
      cases hok
    · intro hall
      have hcheck := List.find?_some hsome
      rw [hall op (List.mem_of_find?_eq_some hsome)] at hcheck
      cases hcheck
    · intro e
      rw [herror, hsome]
      simp [unsupported, name, eq_comm]

end Dialect

/-! ## Plans -/

open Declaration

/-- Every index of a plan has columns, and so has every unique constraint. -/
theorem indexesColumns_of_mem_plan {declared : Table} {live : Option Table}
    {ops : List Operation} (h : plan declared live = .ok ops) {op : Operation} (hop : op ∈ ops) :
    op.IndexesColumns := by
  have haccepted := accepted_of_plan h
  rcases mem_plan h hop with rfl | ⟨c, -, rfl⟩ | ⟨i, hi, rfl⟩ | ⟨k, hk, rfl⟩
  · intro i hi
    obtain ⟨declaredIndex, hdeclared, rfl⟩ := List.mem_map.mp hi
    exact haccepted.indexColumns declaredIndex hdeclared
  · trivial
  · exact haccepted.indexColumns i hi
  · cases k with
    | check => trivial
    | unique name columns => exact haccepted.uniqueColumns name columns hk

/-- What is planned can be written.  The generic dialect writes it to apply and to revert
it.  SQLite writes it in either direction exactly if no check is added to an existing table;
otherwise the error names the first operation, in the order of that direction, that changes
a check, and nothing else is ever an error. -/
theorem plan_expressible (declared : Table) (live : Option Table) (m : Migration)
    (h : plan declared live = .ok m.operations) :
    (∃ statements, m.sql .generic = .ok statements) ∧
    (∃ statements, m.revertSql .generic = .ok statements) ∧
    ((∃ statements, m.sql .sqlite = .ok statements) ↔
      ∀ table name expression, .addConstraint table (.check name expression) ∉ m.operations) ∧
    ((∃ statements, m.revertSql .sqlite = .ok statements) ↔
      ∀ table name expression, .addConstraint table (.check name expression) ∉ m.operations) ∧
    (∀ e, m.sql .sqlite = .error e ↔
      ∃ op, m.operations.find? Operation.changesCheck = some op ∧
        e = .unsupported op.description "sqlite") ∧
    ∀ e, m.revertSql .sqlite = .error e ↔
      ∃ op, m.inverseOperations.find? Operation.changesCheck = some op ∧
        e = .unsupported op.description "sqlite" := by
  have hforward : ∀ op ∈ m.operations, op.IndexesColumns :=
    fun op hop => indexesColumns_of_mem_plan h hop
  have haddition : ∀ op ∈ m.operations, op.isAddition = true :=
    fun op hop => (table_and_isAddition_of_mem_plan h hop).2
  have hbackward : ∀ op ∈ m.inverseOperations, op.IndexesColumns := by
    intro op hop
    obtain ⟨original, horiginal, rfl⟩ := List.mem_map.mp hop
    exact Operation.indexesColumns_inverse (haddition original (List.mem_reverse.mp horiginal))
  have hchecks : (∀ op ∈ m.operations, op.changesCheck = false) ↔
      ∀ table name expression, .addConstraint table (.check name expression) ∉ m.operations := by
    constructor
    · intro hall table name expression hmem
      cases hall _ hmem
    · intro hnone op hop
      rw [← Bool.not_eq_true, Operation.changesCheck_eq_true_iff (haddition op hop)]
      rintro ⟨table, name, expression, rfl⟩
      exact hnone table name expression hop
  have hinverse : (∀ op ∈ m.inverseOperations, op.changesCheck = false) ↔
      ∀ op ∈ m.operations, op.changesCheck = false := by
    simp [inverseOperations, Operation.changesCheck_inverse]
  obtain ⟨hsql, hsqlError⟩ := Dialect.renderAll_sqlite_spec hforward
  obtain ⟨hrevert, hrevertError⟩ := Dialect.renderAll_sqlite_spec hbackward
  exact ⟨Dialect.exists_renderAll_generic hforward, Dialect.exists_renderAll_generic hbackward,
    hsql.trans hchecks, hrevert.trans (hinverse.trans hchecks), hsqlError, hrevertError⟩

/-- Of two checks that are added to a table, SQLite reports the first when the migration is
written to apply it, and the second when it is written to revert it. -/
theorem plan_expressible_two_checks :
    let declared : Table :=
      { name := "t", columns := [.ofType "a" .text, .ofType "b" .integer],
        indexes := [(Index.onColumns ["b"]).ofKind .clustered],
        constraints := [.unique "u" ["a"], .check "low" "b > 0", .check "high" "b < 9"] }
    let live : Table := { name := "t", columns := [.ofType "a" .text] }
    let m : Migration :=
      { table := "t",
        operations :=
          [.addColumn "t" (.ofType "b" .integer),
            .createIndex "t" (((Index.onColumns ["b"]).named "idx_t_b").ofKind .clustered),
            .addConstraint "t" (.unique "u" ["a"]), .addConstraint "t" (.check "low" "b > 0"),
            .addConstraint "t" (.check "high" "b < 9")] }
    plan declared (some live) = .ok m.operations ∧
      ((∃ statements, m.sql .generic = .ok statements) ∧
        m.sql .generic = .ok
          ["ALTER TABLE t ADD COLUMN b INTEGER", "CREATE CLUSTERED INDEX idx_t_b ON t (b)",
            "ALTER TABLE t ADD CONSTRAINT u UNIQUE (a)",
            "ALTER TABLE t ADD CONSTRAINT low CHECK (b > 0)",
            "ALTER TABLE t ADD CONSTRAINT high CHECK (b < 9)"]) ∧
      ((∃ statements, m.revertSql .generic = .ok statements) ∧
        m.revertSql .generic = .ok
          ["ALTER TABLE t DROP CONSTRAINT high", "ALTER TABLE t DROP CONSTRAINT low",
            "ALTER TABLE t DROP CONSTRAINT u", "DROP INDEX idx_t_b",
            "ALTER TABLE t DROP COLUMN b"]) ∧
      m.sql .sqlite = .error (.unsupported "Add constraint low to t" "sqlite") ∧
      m.revertSql .sqlite = .error (.unsupported "Drop constraint high from t" "sqlite") := by
  intro declared live m
  have hplan : plan declared (some live) = .ok m.operations := by rfl
  obtain ⟨hsql, hrevert, -, -, hsqlError, hrevertError⟩ :=
    plan_expressible declared (some live) m hplan
  refine ⟨hplan, ⟨hsql, by rfl⟩, ⟨hrevert, by rfl⟩, ?_, ?_⟩
  · exact (hsqlError _).mpr ⟨.addConstraint "t" (.check "low" "b > 0"), rfl, rfl⟩
  · exact (hrevertError _).mpr ⟨.dropConstraint "t" (.check "high" "b < 9"), rfl, rfl⟩

end Relational.Migration
