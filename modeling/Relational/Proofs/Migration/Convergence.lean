import Relational.Migration.Plan
import Relational.Proofs.Migration.Effect

/-!
# Plans converge

A plan can be interrupted after any of its operations and made again.  What is
planned then are operations that were still to come, in their order; after all
of them nothing is planned.

The proof takes a declaration apart.  A part is a column, an index or a
constraint, and a plan for an existing table has the operations of the parts
that the table lacks.  Two facts carry the argument: a part that a table has is
not lost when another one is added, and a part that was added is there.  To
create a table is to add all parts to an empty one, so the same two facts serve
for it.
-/

namespace Relational

namespace Schema.Table

/-- The table with the columns, indexes and constraints of another one behind its own. -/
def append (t extra : Table) : Table :=
  { t with
    columns := t.columns ++ extra.columns
    indexes := t.indexes ++ extra.indexes
    constraints := t.constraints ++ extra.constraints }

section

variable (t extra : Table) (name : String)

@[simp] theorem hasColumn_append :
    (t.append extra).hasColumn name = (t.hasColumn name || extra.hasColumn name) := by
  simp [hasColumn, column?, append, List.find?_append, Option.isSome_or]

@[simp] theorem index?_append :
    (t.append extra).index? name = (t.index? name).or (extra.index? name) := by
  simp [index?, append, List.find?_append]

@[simp] theorem constraint?_append :
    (t.append extra).constraint? name = (t.constraint? name).or (extra.constraint? name) := by
  simp [constraint?, append, List.find?_append]

end

end Schema.Table

namespace Migration

open Schema

namespace Declaration

/-- A part of a declared table. -/
inductive Part where
  | column (column : Column)
  | index (index : Index)
  | constraint (constraint : Constraint)

/-- The parts of a declared table: columns, then indexes, then constraints. -/
def parts (declared : Table) : List Part :=
  declared.columns.map .column ++ declared.indexes.map .index ++
    declared.constraints.map .constraint

namespace Part

/-- Whether a table has a part already. -/
def isIn (live : Table) : Part → Bool
  | column c => live.hasColumn c.name
  | index i => hasIndex live i
  | constraint k => hasConstraint live k

/-- The operation that adds a part to the table with a name. -/
def operation (table : String) : Part → Operation
  | column c => .addColumn table c
  | index i => .createIndex table (nameIndex table i)
  | constraint k => .addConstraint table k

/-- Adds a part to a table.  An index gets the name that it has on a table with
the name `table`. -/
def addTo (table : String) (live : Table) : Part → Table
  | column c => live.addColumn c
  | index i => live.addIndex (nameIndex table i)
  | constraint k => live.addConstraint k

end Part

/-- Adds parts to a table, one after the other. -/
def addAll (table : String) (added : List Part) (live : Table) : Table :=
  added.foldl (fun live part => part.addTo table live) live

@[simp] theorem addAll_cons (table : String) (part : Part) (added : List Part) (live : Table) :
    addAll table (part :: added) live = addAll table added (part.addTo table live) := rfl

theorem addAll_append (table : String) (first second : List Part) (live : Table) :
    addAll table (first ++ second) live = addAll table second (addAll table first live) :=
  List.foldl_append

/-! ## What a table has, it keeps -/

section

variable {live extra : Table}

theorem hasIndex_append (index : Index) :
    hasIndex (live.append extra) index = (hasIndex live index || hasIndex extra index) := by
  obtain ⟨name, kind, columns⟩ := index
  cases name with
  | none => simp [hasIndex, Table.append, List.any_append]
  | some name => simp [hasIndex, Option.isSome_or]

theorem hasConstraint_append_of_hasConstraint {constraint : Constraint}
    (h : hasConstraint live constraint = true) :
    hasConstraint (live.append extra) constraint = true := by
  cases constraint with
  | check name expression =>
      simp only [hasConstraint, Bool.or_false] at h ⊢
      rw [Table.constraint?_append, Option.isSome_or, h, Bool.true_or]
  | unique name columns =>
      simp only [hasConstraint, Bool.or_eq_true, Option.any_eq_true] at h ⊢
      rcases h with hfound | ⟨first, hfirst, hunique⟩
      · exact Or.inl (by rw [Table.constraint?_append, Option.isSome_or, hfound, Bool.true_or])
      · -- The first index of the name decides, and it stays the first.
        exact Or.inr ⟨first, by rw [Table.index?_append, hfirst, Option.some_or], hunique⟩

/-- What a table has, it still has with more behind it. -/
theorem isIn_append_of_isIn {part : Part} (h : part.isIn live = true) :
    part.isIn (live.append extra) = true := by
  cases part with
  | column c => exact (Table.hasColumn_append ..).trans (Bool.or_eq_true_iff.mpr (Or.inl h))
  | index i => exact (hasIndex_append i).trans (Bool.or_eq_true_iff.mpr (Or.inl h))
  | constraint k => exact hasConstraint_append_of_hasConstraint h

end

/-- Adding a part to a table puts it behind those that the table has. -/
theorem addTo_eq_append (table : String) (live : Table) (part : Part) :
    part.addTo table live = live.append (part.addTo table (Table.empty "")) := by
  cases part <;> simp [Part.addTo, Table.append, Table.empty, Table.addColumn, Table.addIndex,
    Table.addConstraint]

/-- Adding a part takes no other part away. -/
theorem isIn_addTo_of_isIn {live : Table} {part : Part} (table : String) (added : Part)
    (h : part.isIn live = true) : part.isIn (added.addTo table live) = true := by
  rw [addTo_eq_append]
  exact isIn_append_of_isIn h

/-- A part that was added is there.  An index without a name is found by its
columns, one with a name by the name. -/
theorem isIn_addTo_self (table : String) (live : Table) (part : Part) :
    part.isIn (part.addTo table live) = true := by
  cases part with
  | column c => simp [Part.isIn, Part.addTo]
  | constraint k => simp [Part.isIn, Part.addTo, hasConstraint]
  | index i =>
      obtain ⟨name, kind, columns⟩ := i
      cases name with
      | none => simp [Part.isIn, Part.addTo, hasIndex, nameIndex, Index.named, Table.addIndex]
      | some name =>
          simp [Part.isIn, Part.addTo, hasIndex, nameIndex, Index.named, Index.effectiveName]

theorem isIn_addAll_of_isIn {live : Table} {part : Part} (table : String) (added : List Part)
    (h : part.isIn live = true) : part.isIn (addAll table added live) = true := by
  induction added generalizing live with
  | nil => exact h
  | cons first rest ih => exact ih (isIn_addTo_of_isIn table first h)

theorem isIn_addAll_of_mem {part : Part} {added : List Part} (table : String) (live : Table)
    (h : part ∈ added) : part.isIn (addAll table added live) = true := by
  -- The part is added at some step, and the later steps keep it.
  induction added generalizing live with
  | nil => cases h
  | cons first rest ih =>
      rcases List.mem_cons.mp h with rfl | hrest
      · exact isIn_addAll_of_isIn table rest (isIn_addTo_self table live part)
      · exact ih (first.addTo table live) hrest

/-! ## Planning again -/

/-- The parts that a table lacks. -/
def missing (declared live : Table) : List Part :=
  (parts declared).filter fun part => !part.isIn live

theorem additions_eq (declared live : Table) :
    additions declared live = (missing declared live).map (Part.operation declared.name) := by
  simp only [additions, missing, parts, List.filter_append, List.filter_map, List.map_append,
    List.map_map]
  rfl

/-- If `q` keeps only what `p` keeps, and nothing of the first `k` that `p` keeps,
then it keeps a sublist of what `p` keeps after them. -/
theorem filter_sublist_drop_filter {α : Type} {p q : α → Bool} {xs : List α} {k : Nat}
    (hkept : ∀ x, q x = true → p x = true)
    (hdone : ∀ x ∈ (xs.filter p).take k, q x = false) :
    (xs.filter q).Sublist ((xs.filter p).drop k) := by
  have hfilter : xs.filter q = (xs.filter p).filter q := by
    rw [List.filter_filter]
    refine List.filter_congr fun x _ => ?_
    cases hx : q x with
    | false => rfl
    | true => rw [hkept x hx]; rfl
  have hnone : ((xs.filter p).take k).filter q = [] := by
    rw [List.filter_eq_nil_iff]
    intro x hx
    rw [hdone x hx]
    exact Bool.false_ne_true
  have hsplit : xs.filter q = ((xs.filter p).drop k).filter q := by
    calc
      xs.filter q = ((xs.filter p).take k ++ (xs.filter p).drop k).filter q := by
        rw [List.take_append_drop, hfilter]
      _ = ((xs.filter p).drop k).filter q := by
        rw [List.filter_append, hnone, List.nil_append]
  rw [hsplit]
  exact List.filter_sublist

/-- After some of the missing parts have been added, only parts of the rest are
missing. -/
theorem missing_addAll_take_sublist (declared live : Table) (k : Nat) :
    (missing declared (addAll declared.name ((missing declared live).take k) live)).Sublist
      ((missing declared live).drop k) := by
  refine filter_sublist_drop_filter ?_ ?_
  · intro part hpart
    rw [Bool.not_eq_true', ← Bool.not_eq_true] at hpart ⊢
    exact fun hlive => hpart (isIn_addAll_of_isIn declared.name _ hlive)
  · intro part hpart
    have hin := isIn_addAll_of_mem declared.name live hpart
    rw [Bool.not_eq_false']
    exact hin

theorem missing_eq_nil_of_addAll_parts (declared live : Table) :
    missing declared (addAll declared.name (parts declared) live) = [] := by
  rw [missing, List.filter_eq_nil_iff]
  intro part hpart
  rw [isIn_addAll_of_mem declared.name live hpart]
  exact Bool.false_ne_true

theorem addAll_columns (table : String) (columns : List Column) (live : Table) :
    addAll table (columns.map .column) live =
      { live with columns := live.columns ++ columns } := by
  induction columns generalizing live with
  | nil => simp [addAll]
  | cons c columns ih => simp [ih, Part.addTo, Table.addColumn]

theorem addAll_indexes (table : String) (indexes : List Index) (live : Table) :
    addAll table (indexes.map .index) live =
      { live with indexes := live.indexes ++ indexes.map (nameIndex table) } := by
  induction indexes generalizing live with
  | nil => simp [addAll]
  | cons i indexes ih => simp [ih, Part.addTo, Table.addIndex]

theorem addAll_constraints (table : String) (constraints : List Constraint) (live : Table) :
    addAll table (constraints.map .constraint) live =
      { live with constraints := live.constraints ++ constraints } := by
  induction constraints generalizing live with
  | nil => simp [addAll]
  | cons k constraints ih => simp [ih, Part.addTo, Table.addConstraint]

/-- Creating a declared table is adding all of its parts to an empty one. -/
theorem creation_eq (declared : Table) :
    creation declared =
      .createTable (addAll declared.name (parts declared) (Table.empty declared.name)) := by
  rw [parts, addAll_append, addAll_append, addAll_columns, addAll_indexes, addAll_constraints]
  simp [creation, Table.empty]

end Declaration

open Declaration

theorem perform_operations (table : String) (added : List Part) (live : Table) :
    perform (added.map (Part.operation table)) (some live) =
      some (addAll table added live) := by
  induction added generalizing live with
  | nil => rfl
  | cons part added ih =>
      have hstep : (part.operation table).effect (some live) = some (part.addTo table live) := by
        cases part <;> rfl
      rw [List.map_cons, perform, List.foldl_cons, ← perform, hstep, ih, addAll_cons]

theorem plan_none {declared : Table} (h : check declared = .ok ()) :
    plan declared none = .ok [creation declared] := by
  rw [plan, h]

theorem plan_some {declared : Table} (h : check declared = .ok ()) (live : Table) :
    plan declared (some live) = .ok (additions declared live) := by
  rw [plan, h]

theorem check_eq_ok_of_plan {declared : Table} {live : Option Table} {ops : List Operation}
    (h : plan declared live = .ok ops) : check declared = .ok () := by
  unfold plan at h
  cases hcheck : check declared with
  | error e =>
      rw [hcheck] at h
      cases h
  | ok _ => rfl

/-- Whether there is a plan depends on the declaration alone. -/
theorem exists_plan_iff {declared : Table} {live : Option Table} :
    (∃ ops, plan declared live = .ok ops) ↔ check declared = .ok () := by
  constructor
  · rintro ⟨ops, h⟩
    exact check_eq_ok_of_plan h
  · intro h
    cases live with
    | none => exact ⟨_, plan_none h⟩
    | some live => exact ⟨_, plan_some h live⟩

/-- After the first operations of a plan have run, only operations of the rest
are planned. -/
theorem plan_perform_take {declared : Table} {live : Option Table} {ops : List Operation}
    (h : plan declared live = .ok ops) (k : Nat) :
    ∃ rest, plan declared (perform (ops.take k) live) = .ok rest ∧
      rest.Sublist (ops.drop k) := by
  have hcheck := check_eq_ok_of_plan h
  cases live with
  | none =>
      rw [plan_none hcheck] at h
      cases h
      cases k with
      | zero => exact ⟨_, plan_none hcheck, List.Sublist.refl _⟩
      | succ k =>
          -- The only operation has run, so the table is there with all of its parts.
          have hlive : perform ([creation declared].take (k + 1)) none =
              some (addAll declared.name (parts declared) (Table.empty declared.name)) := by
            rw [creation_eq]
            simp [perform, Operation.effect]
          rw [hlive]
          refine ⟨_, plan_some hcheck _, ?_⟩
          rw [additions_eq, missing_eq_nil_of_addAll_parts]
          exact List.nil_sublist _
  | some live =>
      rw [plan_some hcheck] at h
      cases h
      rw [additions_eq, ← List.map_take, ← List.map_drop, perform_operations]
      refine ⟨_, plan_some hcheck _, ?_⟩
      rw [additions_eq]
      exact (missing_addAll_take_sublist declared live k).map _

/-- A plan creates the table, or it adds columns, then indexes, then
constraints. -/
theorem plan_shape {declared : Table} {live : Option Table} {ops : List Operation}
    (h : plan declared live = .ok ops) :
    (∃ schema : Table, schema.name = declared.name ∧ ops = [.createTable schema]) ∨
      ∃ (columns : List Column) (indexes : List Index) (constraints : List Constraint),
        ops = columns.map (.addColumn declared.name) ++
          indexes.map (.createIndex declared.name) ++
          constraints.map (.addConstraint declared.name) := by
  have hcheck := check_eq_ok_of_plan h
  cases live with
  | none =>
      rw [plan_none hcheck] at h
      cases h
      exact Or.inl
        ⟨{ declared with indexes := declared.indexes.map (nameIndex declared.name) }, rfl, rfl⟩
  | some live =>
      rw [plan_some hcheck] at h
      cases h
      refine Or.inr ⟨declared.columns.filter fun c => !live.hasColumn c.name,
        (declared.indexes.filter fun i => !hasIndex live i).map (nameIndex declared.name),
        declared.constraints.filter fun c => !hasConstraint live c, ?_⟩
      rw [additions, List.map_map]
      rfl

theorem table_and_isAddition_of_mem_plan {declared : Table} {live : Option Table}
    {ops : List Operation} (h : plan declared live = .ok ops) {op : Operation}
    (hop : op ∈ ops) : op.table = declared.name ∧ op.isAddition = true := by
  rcases plan_shape h with ⟨schema, hname, rfl⟩ | ⟨columns, indexes, constraints, rfl⟩
  · rw [List.mem_singleton] at hop
    subst hop
    exact ⟨hname, rfl⟩
  · simp only [List.mem_append, List.mem_map] at hop
    rcases hop with (⟨c, -, rfl⟩ | ⟨i, -, rfl⟩) | ⟨k, -, rfl⟩
    · exact ⟨rfl, rfl⟩
    · exact ⟨rfl, rfl⟩
    · exact ⟨rfl, rfl⟩

/-- Planning is resumable and converges.  A plan is the creation of the declared
table, or additions to it grouped by kind, and nothing in it destroys data.
Planned again after any number of its operations, what is planned is a sublist
of the others, and after all of them nothing is. -/
theorem plan_resumable (declared : Table) (live : Option Table) (ops : List Operation)
    (h : plan declared live = .ok ops) :
    ((∃ schema : Table, ops = [.createTable schema]) ∨
      ∃ (columns : List Column) (indexes : List Index) (constraints : List Constraint),
        ops = columns.map (.addColumn declared.name) ++
          indexes.map (.createIndex declared.name) ++
          constraints.map (.addConstraint declared.name)) ∧
    (∀ op ∈ ops, op.table = declared.name ∧ op.isDestructive = false) ∧
    (∀ k ≤ ops.length, ∃ rest, plan declared (perform (ops.take k) live) = .ok rest ∧
      rest.Sublist (ops.drop k)) ∧
    plan declared (perform ops live) = .ok [] := by
  refine ⟨?_, ?_, ?_, ?_⟩
  · exact (plan_shape h).imp_left fun ⟨schema, _, hops⟩ => ⟨schema, hops⟩
  · intro op hop
    obtain ⟨htable, haddition⟩ := table_and_isAddition_of_mem_plan h hop
    exact ⟨htable, Operation.isDestructive_eq_false_of_isAddition haddition⟩
  · intro k _
    exact plan_perform_take h k
  · obtain ⟨rest, hrest, hsublist⟩ := plan_perform_take h ops.length
    rw [List.take_length] at hrest
    rw [List.drop_length, List.sublist_nil] at hsublist
    rw [hrest, hsublist]

/-- An index with a name that runs first also stands for one without a name on
the same columns, so that less is left than was planned. -/
theorem plan_resumable_named_index_first :
    let declared : Table :=
      { name := "t", columns := [.ofType "a" .text],
        indexes := [(Index.onColumns ["a"]).named "n", .onColumns ["a"]] }
    let live : Table := { name := "t", columns := [.ofType "a" .text] }
    let ops : List Operation :=
      [.createIndex "t" ((Index.onColumns ["a"]).named "n"),
        .createIndex "t" ((Index.onColumns ["a"]).named "idx_t_a")]
    plan declared (some live) = .ok ops ∧
      plan declared (perform (ops.take 1) (some live)) = .ok [] ∧
      plan declared (perform ops (some live)) = .ok [] := by
  intro declared live ops
  have hplan : plan declared (some live) = .ok ops := by rfl
  exact ⟨hplan, by rfl, (plan_resumable declared (some live) ops hplan).2.2.2⟩

end Migration

end Relational
