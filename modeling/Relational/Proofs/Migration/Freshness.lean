import Mathlib.Data.List.Nodup
import Relational.Proofs.Migration.Acceptance

/-!
# Names that a plan takes

Whether the operations of a plan give names that are free: `plan_takes_fresh_names_iff`.

A column, an index with a name of its own and a constraint are planned only if the table
has none of that name, and the names of a declaration differ, except that nothing is said
of the names of checks.  So there are two ways in which a name can be taken.  The name that
is made for an index may belong to another index of the table, and two constraints, one of
them a check, may be declared under one name.
-/

namespace Relational

namespace Schema

/-- The name of a part of a table.  Columns, indexes and constraints are named apart. -/
inductive PartName where
  | column (name : String)
  | index (name : String)
  | constraint (name : String)
  deriving DecidableEq

/-- The names of the parts of a table.  An index without a name has the one that is made
for it. -/
def Table.partNames (t : Table) : List PartName :=
  t.columns.map (fun c => .column c.name) ++
    t.indexes.map (fun i => .index (i.effectiveName t.name)) ++
      t.constraints.map fun k => .constraint k.name

namespace Table

theorem column_mem_partNames_iff {t : Table} {name : String} :
    .column name ∈ t.partNames ↔ t.hasColumn name = true := by
  simp [partNames, hasColumn_eq_true_iff]

theorem index_mem_partNames_iff {t : Table} {name : String} :
    .index name ∈ t.partNames ↔ ∃ i ∈ t.indexes, i.effectiveName t.name = name := by
  simp [partNames]

theorem constraint_mem_partNames_iff {t : Table} {name : String} :
    .constraint name ∈ t.partNames ↔ (t.constraint? name).isSome = true := by
  simp [partNames, constraint?]

end Table

end Schema

namespace Migration

open Schema

/-- The name that an operation gives to the part that it adds to a table. -/
def Operation.newName? : Operation → Option PartName
  | .addColumn _ column => some (.column column.name)
  | .createIndex table index => some (.index (index.effectiveName table))
  | .addConstraint _ constraint => some (.constraint constraint.name)
  | _ => none

/-- The names that operations give, in their order. -/
def newNames (ops : List Operation) : List PartName := ops.filterMap Operation.newName?

/-- No operation gives a name that the table has, or that an earlier operation gives. -/
def TakesFreshNames (live : Table) (ops : List Operation) : Prop :=
  (newNames ops).Nodup ∧ ∀ name ∈ newNames ops, name ∉ live.partNames

instance (live : Table) (ops : List Operation) : Decidable (TakesFreshNames live ops) :=
  inferInstanceAs (Decidable (_ ∧ _))

namespace Declaration

theorem newNames_additions (declared live : Table) :
    newNames (additions declared live) =
      ((missingColumns declared live).map Column.name).map .column ++
        ((missingIndexes declared live).map (·.effectiveName declared.name)).map .index ++
          ((missingConstraints declared live).map Constraint.name).map .constraint := by
  simp only [newNames, additions, List.filterMap_append, List.filterMap_map, List.map_map]
  simp only [← List.filterMap_eq_map]
  rfl

theorem nodup_partNames_iff {columns indexes constraints : List String} :
    (columns.map PartName.column ++ indexes.map PartName.index ++
        constraints.map PartName.constraint).Nodup ↔
      columns.Nodup ∧ indexes.Nodup ∧ constraints.Nodup := by
  have hcolumn : Function.Injective PartName.column := fun _ _ h => PartName.column.inj h
  have hindex : Function.Injective PartName.index := fun _ _ h => PartName.index.inj h
  have hconstraint : Function.Injective PartName.constraint :=
    fun _ _ h => PartName.constraint.inj h
  rw [List.append_assoc, List.nodup_append, List.nodup_append, List.nodup_map_iff hcolumn,
    List.nodup_map_iff hindex, List.nodup_map_iff hconstraint]
  constructor
  · rintro ⟨hcolumns, ⟨hindexes, hconstraints, -⟩, -⟩
    exact ⟨hcolumns, hindexes, hconstraints⟩
  · rintro ⟨hcolumns, hindexes, hconstraints⟩
    refine ⟨hcolumns, ⟨hindexes, hconstraints, ?_⟩, ?_⟩
    · simp only [List.forall_mem_map]
      exact fun _ _ _ _ h => nomatch h
    · simp only [List.forall_mem_map, List.forall_mem_append]
      exact fun _ _ => ⟨fun _ _ h => (nomatch h), fun _ _ h => (nomatch h)⟩

/-- Two constraints have one name only if one of them is a check. -/
theorem pairwise_name_ne_iff {constraints : List Constraint}
    (hunique : (constraints.filterMap (·.uniqueName?)).Nodup) :
    (constraints.Pairwise fun k l => k.name ≠ l.name) ↔
      constraints.Pairwise fun k l => k.isCheck = true ∨ l.isCheck = true → k.name ≠ l.name := by
  rw [List.Nodup, List.pairwise_filterMap] at hunique
  constructor
  · intro hnames
    refine hnames.imp ?_
    intro k l hne _
    exact hne
  · intro hchecks
    refine (hunique.and hchecks).imp ?_
    rintro k l ⟨hnames, hcheck⟩
    cases k with
    | check => exact hcheck (Or.inl rfl)
    | unique name columns =>
        cases l with
        | check => exact hcheck (Or.inr rfl)
        | unique other _ => exact hnames name rfl other rfl

/-- Among the names that a plan gives, only that of a check can be given twice. -/
theorem nodup_newNames_iff {declared : Table} (h : Accepted declared) (live : Table) :
    (newNames (additions declared live)).Nodup ↔
      (missingConstraints declared live).Pairwise fun k l =>
        k.isCheck = true ∨ l.isCheck = true → k.name ≠ l.name := by
  obtain ⟨hindexes, hconstraints, -⟩ := List.nodup_append.mp h.keyNames
  have hmissingColumns : ((missingColumns declared live).map Column.name).Nodup :=
    h.columnNames.sublist (List.filter_sublist.map _)
  have hmissingIndexes :
      ((missingIndexes declared live).map (·.effectiveName declared.name)).Nodup :=
    hindexes.sublist (List.filter_sublist.map _)
  have hunique : ((missingConstraints declared live).filterMap (·.uniqueName?)).Nodup :=
    hconstraints.sublist (List.filter_sublist.filterMap _)
  rw [newNames_additions, nodup_partNames_iff, ← pairwise_name_ne_iff hunique]
  simp only [hmissingColumns, hmissingIndexes, true_and]
  rw [List.Nodup, List.pairwise_map]

/-- An index with a name is planned only if the table has none that was given the name. -/
theorem effectiveName_ne_of_hasIndex_eq_false {declared live : Table} {i j : Index}
    (hmissing : hasIndex live i = false) (hj : j ∈ live.indexes)
    (hnames : i.name ≠ none ∧ j.name ≠ none) :
    j.effectiveName live.name ≠ i.effectiveName declared.name := by
  obtain ⟨hi, hfound⟩ := hnames
  obtain ⟨name, hname⟩ := Option.ne_none_iff_exists'.mp hi
  obtain ⟨other, hother⟩ := Option.ne_none_iff_exists'.mp hfound
  rw [Index.effectiveName, Index.effectiveName, hname, hother]
  rintro rfl
  rw [hasIndex, hname] at hmissing
  simp only [Table.index?, List.find?_isSome, Bool.eq_false_iff, ne_eq] at hmissing
  exact hmissing ⟨j, hj, beq_iff_eq.mpr hother⟩

/-- Among the names that a plan gives, only one that is made for an index can be taken. -/
theorem forall_newNames_notMem_iff {declared live : Table} :
    (∀ name ∈ newNames (additions declared live), name ∉ live.partNames) ↔
      ∀ i ∈ missingIndexes declared live, ∀ j ∈ live.indexes, i.name = none ∨ j.name = none →
        j.effectiveName live.name ≠ i.effectiveName declared.name := by
  have hcolumns : ∀ c ∈ missingColumns declared live, .column c.name ∉ live.partNames := by
    intro c hc
    rw [Table.column_mem_partNames_iff]
    simpa using (List.mem_filter.mp hc).2
  have hconstraints : ∀ k ∈ missingConstraints declared live,
      .constraint k.name ∉ live.partNames := by
    intro k hk hmem
    have hmissing := (mem_missingConstraints_iff.mp hk).2
    unfold hasConstraint at hmissing
    rw [Table.constraint_mem_partNames_iff.mp hmem, Bool.true_or] at hmissing
    cases hmissing
  rw [newNames_additions]
  simp only [List.forall_mem_append, List.forall_mem_map]
  constructor
  · rintro ⟨⟨-, hindexes⟩, -⟩ i hi j hj - hname
    exact hindexes i hi (Table.index_mem_partNames_iff.mpr ⟨j, hj, hname⟩)
  · intro hgenerated
    refine ⟨⟨hcolumns, fun i hi hmem => ?_⟩, hconstraints⟩
    obtain ⟨j, hj, hname⟩ := Table.index_mem_partNames_iff.mp hmem
    by_cases hnames : i.name = none ∨ j.name = none
    · exact hgenerated i hi j hj hnames hname
    · exact effectiveName_ne_of_hasIndex_eq_false (mem_missingIndexes_iff.mp hi).2 hj
        (not_or.mp hnames) hname

end Declaration

open Declaration

/-- When the names that a plan for an existing table gives are free.  They are exactly if
no name that is made for a missing index, or for an index of the table, is the name of the
other one, and if no two missing constraints of which one is a check have the same name. -/
theorem plan_takes_fresh_names_iff (declared live : Table) (ops : List Operation)
    (h : plan declared (some live) = .ok ops) :
    TakesFreshNames live ops ↔
      (∀ i ∈ missingIndexes declared live, ∀ j ∈ live.indexes, i.name = none ∨ j.name = none →
        j.effectiveName live.name ≠ i.effectiveName declared.name) ∧
      (missingConstraints declared live).Pairwise fun k l =>
        k.isCheck = true ∨ l.isCheck = true → k.name ≠ l.name := by
  have haccepted := accepted_of_plan h
  rw [plan_some (check_eq_ok_iff.mpr haccepted)] at h
  cases h
  rw [TakesFreshNames, nodup_newNames_iff haccepted, forall_newNames_notMem_iff, and_comm]

/-- The name that is made for an index is also that of a column and of a check.  It is free,
since names of different kinds are apart. -/
theorem plan_takes_fresh_names_iff_names_apart :
    let declared : Table :=
      { name := "t", columns := [.ofType "a" .text, .ofType "idx_t_a" .text],
        indexes := [.onColumns ["a"], (Index.onColumns ["a"]).named "n"],
        constraints := [.unique "u" ["a"], .check "v" "a > 0"] }
    let live : Table :=
      { name := "t", columns := [.ofType "a" .text],
        indexes := [((Index.onColumns ["a"]).named "z").ofKind .unique],
        constraints := [.check "idx_t_a" "a < 9"] }
    let ops : List Operation :=
      [.addColumn "t" (.ofType "idx_t_a" .text),
        .createIndex "t" ((Index.onColumns ["a"]).named "idx_t_a"),
        .createIndex "t" ((Index.onColumns ["a"]).named "n"),
        .addConstraint "t" (.unique "u" ["a"]), .addConstraint "t" (.check "v" "a > 0")]
    plan declared (some live) = .ok ops ∧ TakesFreshNames live ops := by
  intro declared live ops
  have hplan : plan declared (some live) = .ok ops := by rfl
  refine ⟨hplan, (plan_takes_fresh_names_iff declared live ops hplan).mpr ⟨?_, ?_⟩⟩
  · decide
  · decide

/-- The name that is made for an index is that of an index on another column, and two checks
are declared under one name.  All of them are planned. -/
theorem plan_takes_taken_names :
    let declared : Table :=
      { name := "t", columns := [.ofType "a" .text, .ofType "b" .text],
        indexes := [.onColumns ["a"]], constraints := [.check "k" "a > 0", .check "k" "b > 0"] }
    let live : Table :=
      { name := "t", columns := [.ofType "a" .text, .ofType "b" .text],
        indexes := [(Index.onColumns ["b"]).named "idx_t_a"] }
    let ops : List Operation :=
      [.createIndex "t" ((Index.onColumns ["a"]).named "idx_t_a"),
        .addConstraint "t" (.check "k" "a > 0"), .addConstraint "t" (.check "k" "b > 0")]
    plan declared (some live) = .ok ops ∧
      ¬ TakesFreshNames live ops ∧
      (.index "idx_t_a" ∈ newNames ops ∧ .index "idx_t_a" ∈ live.partNames) ∧
      (newNames ops).count (.constraint "k") = 2 := by
  intro declared live ops
  exact ⟨by rfl, by decide, by decide, by decide⟩

end Migration

end Relational
