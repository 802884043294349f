import Relational.Proofs.Migration.Convergence

/-!
# Planning against more than there was

When a table has further columns, indexes and constraints behind its own, a plan for it loses
operations and changes none: `plan_append_sublist`.  What it loses is met by what is further.

The search for an existing part takes the first one of a name, so that what stands behind is
found only where nothing was found before.
-/

namespace Relational

namespace Migration

open Schema Declaration

/-- Whether a table has what an operation adds: a column of that name, an index of that name
or with the same columns and the same answer to whether it is unique, or what counts as that
constraint. -/
def Operation.IsMetBy (t : Table) : Operation → Prop
  | .addColumn _ column => t.hasColumn column.name = true
  | .createIndex _ index => ∃ i ∈ t.indexes, i.name = index.name ∨
      (i.columns = index.columns ∧ i.kind.isUnique = index.kind.isUnique)
  | .addConstraint _ constraint => hasConstraint t constraint = true
  | _ => False

namespace Declaration

variable {live extra : Table}

theorem hasConstraint_of_hasConstraint_append {constraint : Constraint}
    (h : hasConstraint (live.append extra) constraint = true) :
    hasConstraint live constraint = true ∨ hasConstraint extra constraint = true := by
  cases constraint with
  | check name expression =>
      simpa only [hasConstraint, Bool.or_false, Table.constraint?_append, Option.isSome_or,
        Bool.or_eq_true] using h
  | unique name columns =>
      simp only [hasConstraint, Table.constraint?_append, Table.index?_append, Option.isSome_or,
        Bool.or_eq_true] at h ⊢
      rcases h with (hfound | hfurther) | hindex
      · exact Or.inl (Or.inl hfound)
      · exact Or.inr (Or.inl hfurther)
      · -- A first index of that name decides, even if it is a plain one.
        cases hfirst : live.index? name with
        | some first =>
            rw [hfirst, Option.some_or] at hindex
            exact Or.inl (Or.inr hindex)
        | none =>
            rw [hfirst, Option.none_or] at hindex
            exact Or.inr (Or.inr hindex)

/-- An index that is found for a declared one meets the operation that adds it. -/
theorem isMetBy_of_hasIndex (table : String) {index : Index} (h : hasIndex extra index = true) :
    (Operation.createIndex table (nameIndex table index)).IsMetBy extra := by
  obtain ⟨name, kind, columns⟩ := index
  cases name with
  | none =>
      simp only [hasIndex, List.any_eq_true, Bool.and_eq_true, beq_iff_eq] at h
      obtain ⟨i, hi, hcolumns, hunique⟩ := h
      exact ⟨i, hi, Or.inr ⟨hcolumns, hunique⟩⟩
  | some name =>
      simp only [hasIndex, Table.index?, List.find?_isSome, beq_iff_eq] at h
      obtain ⟨i, hi, hname⟩ := h
      exact ⟨i, hi, Or.inl hname⟩

/-- What a table has only with more behind it is met by that. -/
theorem isMetBy_of_isIn_append (table : String) {part : Part} (h : part.isIn live = false)
    (hnew : part.isIn (live.append extra) = true) :
    (part.operation table).IsMetBy extra := by
  cases part with
  | column c =>
      change live.hasColumn c.name = false at h
      change (live.append extra).hasColumn c.name = true at hnew
      rwa [Table.hasColumn_append, h, Bool.false_or] at hnew
  | index i =>
      change hasIndex live i = false at h
      change hasIndex (live.append extra) i = true at hnew
      rw [hasIndex_append, h, Bool.false_or] at hnew
      exact isMetBy_of_hasIndex table hnew
  | constraint k =>
      change hasConstraint live k = false at h
      rcases hasConstraint_of_hasConstraint_append hnew with hlive | hextra
      · rw [h] at hlive
        cases hlive
      · exact hextra

theorem missing_append_sublist (declared live extra : Table) :
    (missing declared (live.append extra)).Sublist (missing declared live) := by
  refine filter_sublist_drop_filter (k := 0) ?_ ?_
  · intro part hpart
    rw [Bool.not_eq_true', ← Bool.not_eq_true] at hpart ⊢
    exact fun hlive => hpart (isIn_append_of_isIn hlive)
  · intro part hpart
    cases hpart

theorem isIn_append_of_not_missing {declared : Table} {part : Part}
    (h : part ∈ missing declared live) (hgone : part ∉ missing declared (live.append extra)) :
    part.isIn live = false ∧ part.isIn (live.append extra) = true := by
  obtain ⟨hdeclared, hmissing⟩ := List.mem_filter.mp h
  rw [Bool.not_eq_true'] at hmissing
  refine ⟨hmissing, ?_⟩
  rw [missing, List.mem_filter, Bool.not_eq_true'] at hgone
  exact Bool.of_not_eq_false fun hfalse => hgone ⟨hdeclared, hfalse⟩

end Declaration

/-- More in a table never causes or changes an operation.  A declaration can be planned for a
table exactly if it can be with further columns, indexes and constraints behind it, and what
is planned then is planned without them too, in the same order.  An operation that is gone is
met by what is further. -/
theorem plan_append_sublist (declared live extra : Table) :
    ((∃ ops, plan declared (some live) = .ok ops) ↔
      ∃ ops, plan declared (some (live.append extra)) = .ok ops) ∧
    ∀ ops ops', plan declared (some live) = .ok ops →
      plan declared (some (live.append extra)) = .ok ops' →
        ops'.Sublist ops ∧ ∀ op ∈ ops, op ∉ ops' → op.IsMetBy extra := by
  refine ⟨exists_plan_iff.trans exists_plan_iff.symm, ?_⟩
  intro ops ops' h h'
  have hcheck := check_eq_ok_of_plan h
  rw [plan_some hcheck, additions_eq] at h h'
  cases h
  cases h'
  refine ⟨(missing_append_sublist declared live extra).map _, ?_⟩
  intro op hop hgone
  obtain ⟨part, hpart, rfl⟩ := List.mem_map.mp hop
  obtain ⟨hmissing, hnew⟩ := isIn_append_of_not_missing hpart fun hstill =>
    hgone (List.mem_map_of_mem hstill)
  exact isMetBy_of_isIn_append declared.name hmissing hnew

/-- A column and an index on the columns of one without a name are found behind the table.  A
unique index with the name of a constraint is not, because the table has a plain one. -/
theorem plan_append_sublist_plain_index_first :
    let declared : Table :=
      { name := "t", columns := [.ofType "a" .text, .ofType "b" .text],
        indexes := [.onColumns ["a"], (Index.onColumns ["b"]).named "n"],
        constraints := [.unique "u" ["a"], .check "k" "a > 0"] }
    let live : Table :=
      { name := "t", columns := [.ofType "a" .text],
        indexes := [(Index.onColumns ["b"]).named "u"] }
    let extra : Table :=
      { name := "", columns := [.ofType "b" .integer, .ofType "z" .text],
        indexes := [((Index.onColumns ["a"]).named "u").ofKind .unique,
          (Index.onColumns ["a"]).ofKind .clustered],
        constraints := [.unique "k" ["z"]] }
    let ops : List Operation :=
      [.addColumn "t" (.ofType "b" .text),
        .createIndex "t" ((Index.onColumns ["a"]).named "idx_t_a"),
        .createIndex "t" ((Index.onColumns ["b"]).named "n"),
        .addConstraint "t" (.unique "u" ["a"]), .addConstraint "t" (.check "k" "a > 0")]
    let ops' : List Operation :=
      [.createIndex "t" ((Index.onColumns ["b"]).named "n"),
        .addConstraint "t" (.unique "u" ["a"])]
    (plan declared (some live) = .ok ops ∧
      plan declared (some (live.append extra)) = .ok ops') ∧
      ops'.Sublist ops ∧ ∀ op ∈ ops, op ∉ ops' → op.IsMetBy extra := by
  intro declared live extra ops ops'
  have hplan : plan declared (some live) = .ok ops := by rfl
  have hplan' : plan declared (some (live.append extra)) = .ok ops' := by rfl
  exact ⟨⟨hplan, hplan'⟩, (plan_append_sublist declared live extra).2 ops ops' hplan hplan'⟩

end Migration

end Relational
