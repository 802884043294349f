import Mathlib.Data.List.Nodup
import Relational.Proofs.Migration.Acceptance

/-!
# Uniqueness after a plan

What a table has of the declared unique indexes and constraints once a plan for it has
been performed: `plan_uniqueness`.

A unique index without a name is always there.  One with a name is not if the table had
the name for other indexes only, and a unique constraint is not if the table had its name
for a check.  The name alone then counts as the index or the constraint, and since the
names of a declaration differ, no other operation of the plan makes up for it.
-/

namespace Relational

namespace Schema.Table

/-- Whether some unique index has a name. -/
def hasUniqueIndexNamed (t : Table) (name : String) : Bool :=
  t.indexes.any fun i => i.kind.isUnique && i.name == some name

/-- Whether some unique index is on exactly these columns, in their order. -/
def hasUniqueIndexOn (t : Table) (columns : List String) : Bool :=
  t.indexes.any fun i => i.kind.isUnique && i.columns == columns

/-- Whether some unique constraint or some unique index has a name. -/
def hasUniqueNamed (t : Table) (name : String) : Bool :=
  (t.constraints.any fun k => k.uniqueName? == some name) || t.hasUniqueIndexNamed name

theorem hasUniqueIndexNamed_of_index? {t : Table} {name : String}
    (h : ((t.index? name).any fun i => i.kind.isUnique) = true) :
    t.hasUniqueIndexNamed name = true := by
  rw [Option.any_eq_true] at h
  obtain ⟨i, hfound, hunique⟩ := h
  unfold index? at hfound
  have hname := List.find?_some hfound
  rw [hasUniqueIndexNamed, List.any_eq_true]
  exact ⟨i, List.mem_of_find?_eq_some hfound, by rw [hunique, hname]; rfl⟩

end Schema.Table

namespace Migration

open Schema

namespace Declaration

/-! ## The table after a plan -/

/-- A table with everything declared that it lacked, in the order of a plan. -/
def completed (declared live : Table) : Table :=
  { live with
    columns := live.columns ++ missingColumns declared live
    indexes := live.indexes ++ (missingIndexes declared live).map (nameIndex declared.name)
    constraints := live.constraints ++ missingConstraints declared live }

theorem addAll_missing (declared live : Table) :
    addAll declared.name (missing declared live) live = completed declared live := by
  simp only [missing, parts, List.filter_append, List.filter_map]
  rw [addAll_append, addAll_append, addAll_columns, addAll_indexes, addAll_constraints]
  rfl

/-- An empty table lacks everything. -/
theorem missing_empty (declared : Table) (name : String) :
    missing declared (Table.empty name) = parts declared := by
  refine List.filter_eq_self.mpr fun part _ => ?_
  cases part with
  | column c => rfl
  | index i =>
      obtain ⟨name, kind, columns⟩ := i
      cases name <;> rfl
  | constraint k => cases k <;> rfl

/-- What a plan makes of a table.  A table that is missing counts as an empty one. -/
theorem perform_plan {declared : Table} {live : Option Table} {ops : List Operation}
    (h : plan declared live = .ok ops) :
    perform ops live =
      some (completed declared (live.getD (Table.empty declared.name))) := by
  have hcheck := check_eq_ok_of_plan h
  cases live with
  | none =>
      rw [plan_none hcheck] at h
      cases h
      rw [creation_eq, ← missing_empty declared declared.name, addAll_missing]
      rfl
  | some live =>
      rw [plan_some hcheck] at h
      cases h
      rw [additions_eq, perform_operations, addAll_missing]
      rfl

theorem hasUniqueIndexNamed_completed_iff {declared live : Table} {name : String} :
    (completed declared live).hasUniqueIndexNamed name = true ↔
      live.hasUniqueIndexNamed name = true ∨
        ∃ i ∈ missingIndexes declared live, i.kind.isUnique = true ∧
          i.effectiveName declared.name = name := by
  simp only [Table.hasUniqueIndexNamed, completed, List.any_append, List.any_map,
    Bool.or_eq_true, List.any_eq_true, Function.comp_apply, nameIndex, Index.named,
    Bool.and_eq_true, beq_iff_eq, Option.some.injEq]

theorem hasUniqueNamed_completed_iff {declared live : Table} {name : String} :
    (completed declared live).hasUniqueNamed name = true ↔
      live.hasUniqueNamed name = true ∨
        (∃ k ∈ missingConstraints declared live, k.uniqueName? = some name) ∨
        ∃ i ∈ missingIndexes declared live, i.kind.isUnique = true ∧
          i.effectiveName declared.name = name := by
  have hconstraints : (completed declared live).constraints.any (·.uniqueName? == some name) =
      true ↔ live.constraints.any (·.uniqueName? == some name) = true ∨
        ∃ k ∈ missingConstraints declared live, k.uniqueName? = some name := by
    simp only [completed, List.any_append, Bool.or_eq_true, List.any_eq_true, beq_iff_eq]
  rw [Table.hasUniqueNamed, Table.hasUniqueNamed, Bool.or_eq_true, Bool.or_eq_true, hconstraints,
    hasUniqueIndexNamed_completed_iff]
  exact or_or_or_comm

/-! ## What was declared -/

/-- A declared unique index without a name is there. -/
theorem hasUniqueIndexOn_completed {declared live : Table} {index : Index}
    (hindex : index ∈ declared.indexes) (hunique : index.kind.isUnique = true)
    (hname : index.name = none) :
    (completed declared live).hasUniqueIndexOn index.columns = true := by
  simp only [Table.hasUniqueIndexOn, completed, List.any_append, Bool.or_eq_true]
  cases hlive : hasIndex live index with
  | true =>
      left
      rw [hasIndex, hname, List.any_eq_true] at hlive
      obtain ⟨found, hfound, hsame⟩ := hlive
      rw [hunique, Bool.and_eq_true, beq_iff_eq, beq_iff_eq] at hsame
      rw [List.any_eq_true]
      exact ⟨found, hfound, by rw [hsame.1, hsame.2, beq_self_eq_true]; rfl⟩
  | false =>
      right
      rw [List.any_map, List.any_eq_true]
      refine ⟨index, mem_missingIndexes_iff.mpr ⟨hindex, hlive⟩, ?_⟩
      show (index.kind.isUnique && index.columns == index.columns) = true
      rw [hunique, beq_self_eq_true]
      rfl

theorem eq_of_effectiveName_eq {declared : Table} (h : Accepted declared) {i j : Index}
    (hi : i ∈ declared.indexes) (hj : j ∈ declared.indexes)
    (hname : i.effectiveName declared.name = j.effectiveName declared.name) : i = j :=
  List.inj_on_of_nodup_map (List.nodup_append.mp h.keyNames).1 hi hj hname

/-- A declared unique index with a name is there, unless the table has other indexes of
that name only. -/
theorem hasUniqueIndexNamed_completed_of_mem {declared live : Table} (h : Accepted declared)
    {index : Index} {name : String} (hindex : index ∈ declared.indexes)
    (hunique : index.kind.isUnique = true) (hname : index.name = some name) :
    (completed declared live).hasUniqueIndexNamed name = true ↔
      ((live.index? name).isSome = true → live.hasUniqueIndexNamed name = true) := by
  have heffective : index.effectiveName declared.name = name := by
    rw [Index.effectiveName, hname]
  have hlive : hasIndex live index = (live.index? name).isSome := by
    rw [hasIndex, hname]
  rw [hasUniqueIndexNamed_completed_iff]
  constructor
  · rintro (hfound | ⟨other, hother, -, hsame⟩) htaken
    · exact hfound
    · -- The index that was added is the declared one, which the table did not lack.
      obtain ⟨hdeclared, hmissing⟩ := mem_missingIndexes_iff.mp hother
      rw [eq_of_effectiveName_eq h hdeclared hindex (hsame.trans heffective.symm), hlive,
        htaken] at hmissing
      cases hmissing
  · intro htaken
    cases hfound : (live.index? name).isSome with
    | true => exact Or.inl (htaken hfound)
    | false =>
        refine Or.inr ⟨index, mem_missingIndexes_iff.mpr ⟨hindex, ?_⟩, hunique, heffective⟩
        rw [hlive, hfound]

/-- A declared unique constraint is there as such or as a unique index, unless the table
has its name for checks only, and for no unique index. -/
theorem hasUniqueNamed_completed_of_mem {declared live : Table} (h : Accepted declared)
    {name : String} {columns : List String}
    (hconstraint : .unique name columns ∈ declared.constraints) :
    (completed declared live).hasUniqueNamed name = true ↔
      ((live.constraint? name).isSome = true → live.hasUniqueNamed name = true) := by
  rw [hasUniqueNamed_completed_iff]
  constructor
  · rintro (hfound | ⟨k, hk, hname⟩ | ⟨i, hi, -, hname⟩) htaken
    · exact hfound
    · -- What the table has under the name counts as any constraint with that name.
      have hmissing := (mem_missingConstraints_iff.mp hk).2
      cases k with
      | check => cases hname
      | unique other columns =>
          cases hname
          rw [hasConstraint, Constraint.name, htaken, Bool.true_or] at hmissing
          cases hmissing
    · -- No index is declared under the name of a unique constraint.
      have hdeclared := (mem_missingIndexes_iff.mp hi).1
      exact (List.disjoint_of_nodup_append h.keyNames
        (List.mem_map.mpr ⟨i, hdeclared, hname⟩)
        (List.mem_filterMap.mpr ⟨_, hconstraint, rfl⟩)).elim
  · intro htaken
    cases hlive : hasConstraint live (.unique name columns) with
    | false =>
        refine Or.inr (Or.inl ⟨.unique name columns, ?_, rfl⟩)
        exact mem_missingConstraints_iff.mpr ⟨hconstraint, hlive⟩
    | true =>
        left
        rw [hasConstraint, Bool.or_eq_true] at hlive
        rcases hlive with hfound | hindex
        · exact htaken hfound
        · rw [Table.hasUniqueNamed, Table.hasUniqueIndexNamed_of_index? hindex, Bool.or_true]

/-- Nothing is said of a table that is missing if nothing is said of an empty one. -/
theorem imp_getD_empty_iff {live : Option Table} {name : String} (held good : Table → Bool)
    (hempty : held (Table.empty name) = false) :
    (held (live.getD (Table.empty name)) = true → good (live.getD (Table.empty name)) = true) ↔
      ∀ l ∈ live, held l = true → good l = true := by
  cases live with
  | none => simp [hempty]
  | some l => simp

end Declaration

open Declaration

/-- What is unique after a plan.  Of the declared unique indexes, those without a name are
there on their columns.  One with a name is there under the name exactly if the table had
no index of that name, or a unique one.  A declared unique constraint is there, as such or
as a unique index, exactly if the table had no constraint of its name, or one that is
unique, or a unique index of that name. -/
theorem plan_uniqueness (declared : Table) (live : Option Table) (ops : List Operation)
    (h : plan declared live = .ok ops) :
    ∃ t, perform ops live = some t ∧
      (∀ i ∈ declared.indexes, i.kind = .unique → i.name = none →
        t.hasUniqueIndexOn i.columns = true) ∧
      (∀ i ∈ declared.indexes, i.kind = .unique → ∀ name, i.name = some name →
        (t.hasUniqueIndexNamed name = true ↔
          ∀ l ∈ live, (l.index? name).isSome = true → l.hasUniqueIndexNamed name = true)) ∧
      ∀ name columns, .unique name columns ∈ declared.constraints →
        (t.hasUniqueNamed name = true ↔
          ∀ l ∈ live, (l.constraint? name).isSome = true → l.hasUniqueNamed name = true) := by
  have haccepted := accepted_of_plan h
  refine ⟨_, perform_plan h, ?_, ?_, ?_⟩
  · intro i hi hkind hname
    exact hasUniqueIndexOn_completed hi (by rw [hkind]; rfl) hname
  · intro i hi hkind name hname
    rw [hasUniqueIndexNamed_completed_of_mem haccepted hi (by rw [hkind]; rfl) hname]
    exact imp_getD_empty_iff (fun l => (l.index? name).isSome) (·.hasUniqueIndexNamed name) rfl
  · intro name columns hconstraint
    rw [hasUniqueNamed_completed_of_mem haccepted hconstraint]
    exact imp_getD_empty_iff (fun l => (l.constraint? name).isSome) (·.hasUniqueNamed name) rfl

/-- A unique index whose name a unique index has already stays as it is, although that one
is on another column.  The other index and the constraint are added. -/
theorem plan_uniqueness_index_on_other_column :
    let declared : Table :=
      { name := "t", columns := [.ofType "a" .text, .ofType "b" .text],
        indexes := [((Index.onColumns ["a"]).named "n").ofKind .unique,
          (Index.onColumns ["a", "b"]).ofKind .unique],
        constraints := [.unique "u" ["b"]] }
    let live : Table :=
      { name := "t", columns := [.ofType "a" .text, .ofType "b" .text],
        indexes := [(Index.onColumns ["a", "b"]).named "z",
          ((Index.onColumns ["b"]).named "n").ofKind .unique] }
    let ops : List Operation :=
      [.createIndex "t" (((Index.onColumns ["a", "b"]).named "uq_t_a_b").ofKind .unique),
        .addConstraint "t" (.unique "u" ["b"])]
    plan declared (some live) = .ok ops ∧
      ∃ t, perform ops (some live) = some t ∧ t.hasUniqueIndexOn ["a", "b"] = true ∧
        t.hasUniqueIndexNamed "n" = true ∧ t.hasUniqueNamed "u" = true := by
  intro declared live ops
  have hplan : plan declared (some live) = .ok ops := by rfl
  obtain ⟨t, ht, hunnamed, hnamed, hconstraints⟩ :=
    plan_uniqueness declared (some live) ops hplan
  refine ⟨hplan, t, ht, ?_, ?_, ?_⟩
  · exact hunnamed ((Index.onColumns ["a", "b"]).ofKind .unique) (by decide) rfl rfl
  · rw [hnamed (((Index.onColumns ["a"]).named "n").ofKind .unique) (by decide) rfl "n" rfl]
    rintro l ⟨⟩ -
    decide
  · rw [hconstraints "u" ["b"] (by decide)]
    rintro l ⟨⟩ htaken
    cases htaken

/-- A plain index and a check are taken for a unique index and a unique constraint with
their names.  Nothing is planned, and nothing is unique. -/
theorem plan_uniqueness_missed_under_taken_names :
    let declared : Table :=
      { name := "t", columns := [.ofType "a" .text],
        indexes := [((Index.onColumns ["a"]).named "n").ofKind .unique],
        constraints := [.unique "u" ["a"]] }
    let live : Table :=
      { name := "t", columns := [.ofType "a" .text],
        indexes := [(Index.onColumns ["a"]).named "n"], constraints := [.check "u" "a > 0"] }
    plan declared (some live) = .ok [] ∧ perform [] (some live) = some live ∧
      live.hasUniqueIndexNamed "n" = false ∧ live.hasUniqueNamed "u" = false := by
  intro declared live
  exact ⟨by rfl, rfl, by decide, by decide⟩

end Migration

end Relational
