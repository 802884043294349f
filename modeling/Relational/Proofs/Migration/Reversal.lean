import Relational.Migration.Basic
import Relational.Proofs.Migration.Convergence

/-!
# Reverting undoes applying

If additions make sense one after the other, then their inverses make sense in
the opposite order, and they lead back to where the additions began.

The invariant is that a table is closed: its indexes and unique constraints are
on its own columns.  It is why a column that has just been added can be dropped
again, since nothing that was there before can be on it.
-/

namespace Relational

namespace Schema.Table

/-- What was added under a new key is removed again by its key. -/
theorem filter_append_singleton_of_new {α : Type} (key : α → String) {xs : List α} {x : α}
    (hnew : ∀ y ∈ xs, key y ≠ key x) :
    (xs ++ [x]).filter (fun y => decide (key y ≠ key x)) = xs := by
  have hkept : xs.filter (fun y => decide (key y ≠ key x)) = xs := by
    rw [List.filter_eq_self]
    intro y hy
    exact decide_eq_true (hnew y hy)
  have hgone : [x].filter (fun y => decide (key y ≠ key x)) = [] := by
    simp
  rw [List.filter_append, hkept, hgone, List.append_nil]

theorem dropColumn_addColumn {t : Table} {column : Column}
    (h : t.hasColumn column.name = false) :
    (t.addColumn column).dropColumn column.name = t := by
  have hnew : ∀ c ∈ t.columns, c.name ≠ column.name := by
    intro c hc hname
    rw [hasColumn_eq_true_iff.mpr ⟨c, hc, hname⟩] at h
    contradiction
  rw [dropColumn, addColumn, filter_append_singleton_of_new Column.name hnew]

theorem dropIndex_addIndex {t : Table} {index : Index}
    (h : t.hasIndexNamed (index.effectiveName t.name) = false) :
    (t.addIndex index).dropIndex (index.effectiveName t.name) = t := by
  have hnew : ∀ i ∈ t.indexes, i.effectiveName t.name ≠ index.effectiveName t.name := by
    intro i hi hname
    rw [hasIndexNamed, List.any_eq_false] at h
    exact h i hi (beq_iff_eq.mpr hname)
  rw [dropIndex, addIndex, filter_append_singleton_of_new (Index.effectiveName · t.name) hnew]

theorem dropConstraint_addConstraint {t : Table} {constraint : Constraint}
    (h : t.hasConstraintNamed constraint.name = false) :
    (t.addConstraint constraint).dropConstraint constraint.name = t := by
  have hnew : ∀ k ∈ t.constraints, k.name ≠ constraint.name := by
    intro k hk hname
    rw [hasConstraintNamed, constraint?, Option.isSome_eq_false_iff, Option.isNone_iff_eq_none,
      List.find?_eq_none] at h
    exact h k hk (beq_iff_eq.mpr hname)
  rw [dropConstraint, addConstraint, filter_append_singleton_of_new Constraint.name hnew]

theorem isClosed_iff {t : Table} :
    t.isClosed = true ↔
      (∀ i ∈ t.indexes, ∀ name ∈ i.columns, t.hasColumn name = true) ∧
        ∀ k ∈ t.constraints, ∀ name ∈ k.columns, t.hasColumn name = true := by
  simp [isClosed]

/-- Nothing in a closed table is on a column that the table lacks. -/
theorem uses_eq_false_of_isClosed {t : Table} {name : String} (hclosed : t.isClosed = true)
    (h : t.hasColumn name = false) : t.uses name = false := by
  obtain ⟨hindexes, hconstraints⟩ := isClosed_iff.mp hclosed
  simp only [uses, Bool.or_eq_false_iff, List.any_eq_false, List.contains_iff_mem]
  constructor
  · intro i hi hmem
    rw [hindexes i hi name hmem] at h
    contradiction
  · intro k hk hmem
    rw [hconstraints k hk name hmem] at h
    contradiction

theorem isClosed_addColumn {t : Table} (column : Column) (h : t.isClosed = true) :
    (t.addColumn column).isClosed = true := by
  obtain ⟨hindexes, hconstraints⟩ := isClosed_iff.mp h
  rw [isClosed_iff]
  constructor
  · intro i hi name hname
    rw [hasColumn_addColumn, hindexes i hi name hname, Bool.true_or]
  · intro k hk name hname
    rw [hasColumn_addColumn, hconstraints k hk name hname, Bool.true_or]

theorem isClosed_addIndex {t : Table} {index : Index} (h : t.isClosed = true)
    (hcolumns : index.columns.all t.hasColumn = true) :
    (t.addIndex index).isClosed = true := by
  obtain ⟨hindexes, hconstraints⟩ := isClosed_iff.mp h
  have hadded : ∀ name ∈ index.columns, t.hasColumn name = true := List.all_eq_true.mp hcolumns
  rw [isClosed_iff]
  simp only [hasColumn_addIndex]
  constructor
  · exact List.forall_mem_append.mpr ⟨hindexes, List.forall_mem_singleton.mpr hadded⟩
  · exact hconstraints

theorem isClosed_addConstraint {t : Table} {constraint : Constraint} (h : t.isClosed = true)
    (hcolumns : constraint.columns.all t.hasColumn = true) :
    (t.addConstraint constraint).isClosed = true := by
  obtain ⟨hindexes, hconstraints⟩ := isClosed_iff.mp h
  have hadded : ∀ name ∈ constraint.columns, t.hasColumn name = true :=
    List.all_eq_true.mp hcolumns
  rw [isClosed_iff]
  simp only [hasColumn_addConstraint]
  constructor
  · exact hindexes
  · exact List.forall_mem_append.mpr ⟨hconstraints, List.forall_mem_singleton.mpr hadded⟩

end Schema.Table

namespace Migration

open Schema

theorem Operation.attempt_eq_some_iff {op : Operation} {live after : Option Table} :
    op.attempt live = some after ↔ op.makesSense live = true ∧ op.effect live = after := by
  unfold attempt
  by_cases h : op.makesSense live = true
  · simp [h]
  · simp [h]

theorem attemptAll_cons (op : Operation) (ops : List Operation) (live : Option Table) :
    attemptAll (op :: ops) live = (op.attempt live).bind (attemptAll ops) := rfl

theorem attemptAll_append (first second : List Operation) (live : Option Table) :
    attemptAll (first ++ second) live = (attemptAll first live).bind (attemptAll second) :=
  List.foldlM_append

/-- An addition that made sense leaves a closed table, and its inverse makes
sense there and takes it back. -/
theorem attempt_inverse_of_attempt {op : Operation} {before after : Option Table}
    (haddition : op.isAddition = true) (hclosed : before.all Table.isClosed = true)
    (h : op.attempt before = some after) :
    op.inverse.attempt after = some before ∧ after.all Table.isClosed = true := by
  rw [Operation.attempt_eq_some_iff] at h ⊢
  obtain ⟨hsense, rfl⟩ := h
  cases op with
  | dropTable | dropColumn | dropIndex | dropConstraint => cases haddition
  | createTable schema =>
      cases before with
      | some t => cases hsense
      | none => exact ⟨⟨rfl, rfl⟩, hsense⟩
  | addColumn table column =>
      cases before with
      | none => cases hsense
      | some t =>
          have hnew : t.hasColumn column.name = false := by
            simpa [Operation.makesSense] using hsense
          -- An index or constraint of the closed table cannot be on a column that
          -- the table did not have.
          have hunused : (t.addColumn column).uses column.name = false :=
            Table.uses_eq_false_of_isClosed (t := t) hclosed hnew
          refine ⟨⟨?_, ?_⟩, Table.isClosed_addColumn column hclosed⟩
          · show ((t.addColumn column).hasColumn column.name &&
              !(t.addColumn column).uses column.name) = true
            rw [Table.hasColumn_addColumn, hunused, beq_self_eq_true, Bool.or_true]
            rfl
          · show some ((t.addColumn column).dropColumn column.name) = some t
            rw [Table.dropColumn_addColumn hnew]
  | createIndex table index =>
      cases before with
      | none => cases hsense
      | some t =>
          obtain ⟨hnew, hcolumns⟩ : t.hasIndexNamed (index.effectiveName t.name) = false ∧
              index.columns.all t.hasColumn = true := by
            simpa [Operation.makesSense] using hsense
          refine ⟨⟨?_, ?_⟩, Table.isClosed_addIndex hclosed hcolumns⟩
          · show (t.addIndex index).hasIndexNamed (index.effectiveName t.name) = true
            simp [Table.hasIndexNamed, Table.addIndex]
          · show some ((t.addIndex index).dropIndex (index.effectiveName t.name)) = some t
            rw [Table.dropIndex_addIndex hnew]
  | addConstraint table constraint =>
      cases before with
      | none => cases hsense
      | some t =>
          obtain ⟨hnew, hcolumns⟩ : t.hasConstraintNamed constraint.name = false ∧
              constraint.columns.all t.hasColumn = true := by
            simpa [Operation.makesSense] using hsense
          refine ⟨⟨?_, ?_⟩, Table.isClosed_addConstraint hclosed hcolumns⟩
          · show (t.addConstraint constraint).hasConstraintNamed constraint.name = true
            simp [Table.hasConstraintNamed]
          · show some ((t.addConstraint constraint).dropConstraint constraint.name) = some t
            rw [Table.dropConstraint_addConstraint hnew]

/-- The inverses undo the operations one by one, the last operation first, so
each runs where the operation that it undoes has just run. -/
theorem attemptAll_inverse_of_attemptAll {ops : List Operation} {before after : Option Table}
    (hadditions : ∀ op ∈ ops, op.isAddition = true)
    (hclosed : before.all Table.isClosed = true) (h : attemptAll ops before = some after) :
    attemptAll (ops.reverse.map Operation.inverse) after = some before := by
  induction ops generalizing before with
  | nil =>
      cases h
      rfl
  | cons op ops ih =>
      rw [attemptAll_cons, Option.bind_eq_some_iff] at h
      obtain ⟨next, hstep, hrest⟩ := h
      obtain ⟨hinverse, hnext⟩ :=
        attempt_inverse_of_attempt (hadditions op List.mem_cons_self) hclosed hstep
      have hback := ih (fun o ho => hadditions o (List.mem_cons_of_mem op ho)) hnext hrest
      rw [List.reverse_cons, List.map_append, attemptAll_append, hback, Option.bind_some]
      rw [List.map_singleton, attemptAll_cons, hinverse, Option.bind_some]
      rfl

/-- Reverting undoes applying.  If the operations of a migration are additions, as
those of a plan always are, and they made sense where they ran, then so do the
operations that revert it, and these restore exactly what was there. -/
theorem revert_undoes_apply (m : Migration) (before after : Option Table)
    (hadditions : (∀ op ∈ m.operations, op.isAddition = true) ∨
      ∃ declared live, plan declared live = .ok m.operations)
    (hclosed : before.all Table.isClosed = true)
    (h : attemptAll m.operations before = some after) :
    attemptAll m.inverseOperations after = some before := by
  refine attemptAll_inverse_of_attemptAll ?_ hclosed h
  rcases hadditions with hall | ⟨declared, live, hplan⟩
  · exact hall
  · exact fun op hop => (table_and_isAddition_of_mem_plan hplan hop).2

/-- A column, an index on it and a unique constraint on it are added to a table
with an index on another column, and taken back. -/
theorem revert_undoes_apply_column_in_use :
    let before : Table :=
      { name := "t", columns := [.ofType "a" .text], indexes := [.onColumns ["a"]] }
    let ops : List Operation :=
      [.addColumn "t" (.ofType "b" .integer), .createIndex "t" (.onColumns ["b", "a"]),
        .addConstraint "t" (.unique "u" ["b"])]
    let m : Migration := { table := "t", operations := ops }
    attemptAll ops (some before) = some (perform ops (some before)) ∧
      attemptAll m.inverseOperations (perform ops (some before)) = some (some before) := by
  intro before ops m
  have hrun : attemptAll m.operations (some before) = some (perform ops (some before)) := rfl
  have hadditions : ∀ op ∈ m.operations, op.isAddition = true := by decide
  exact ⟨hrun, revert_undoes_apply m (some before) _ (Or.inl hadditions) rfl hrun⟩

end Migration

end Relational
