import Relational.Migration.Dialect
import Relational.Proofs.Migration.Convergence

/-!
# Plans converge on what SQLite keeps

SQLite does not keep what was planned.  A clustered index is kept as a plain one,
and a unique constraint on an existing table as a unique index with its name; an
index whose name is taken is refused.  The indexes of a table are reported in an
order of their own.

Planning again still finds nothing to do: `plan_store`.  That the names of the
indexes differ is the invariant.  It is why a unique constraint is recognised in any
order of the indexes, since the first index with its name is then the only one.
-/

namespace Relational

namespace Schema

/-- An index as SQLite keeps it. -/
def Index.kept (index : Index) : Index :=
  { index with kind := Migration.Dialect.sqlite.indexKind index.kind }

namespace Table

/-- The names that the indexes of a table were given. -/
def givenNames (t : Table) : List String := t.indexes.filterMap Index.name

/-- Keeps one more index under a name, unless the name is taken. -/
def store (t : Table) (name : String) (index : Index) : Option Table :=
  if (t.index? name).isSome then none else some (t.addIndex (index.named name).kept)

/-- Keeps indexes one after the other, each under its name on a table with the name
`table`. -/
def storeEach (t : Table) (table : String) (indexes : List Index) : Option Table :=
  indexes.foldlM (fun t i => t.store (i.effectiveName table) i) t

/-- The table with other indexes. -/
def withIndexes (t : Table) (indexes : List Index) : Table := { t with indexes }

end Table

end Schema

namespace Migration

open Schema

namespace Operation

/-- What SQLite keeps after an operation, unless it refuses the operation.  A check
cannot be added to an existing table.  Drops are never planned, so they are not
looked at. -/
def store : Operation → Option Table → Option (Option Table)
  | .createTable schema, none =>
      (({ schema with indexes := [] } : Table).storeEach schema.name schema.indexes).map some
  | .addColumn _ column, some t => some (some (t.addColumn column))
  | .createIndex table index, some t => (t.store (index.effectiveName table) index).map some
  | .addConstraint _ (.unique name columns), some t =>
      (t.store name ((Index.onColumns columns).ofKind .unique)).map some
  | _, _ => none

end Operation

/-- What SQLite keeps after operations, unless it refuses one of them. -/
def storeAll (ops : List Operation) (live : Option Table) : Option (Option Table) :=
  ops.foldlM (fun live op => op.store live) live

open Declaration

/-! ## One more index -/

theorem isUnique_kept (index : Index) : index.kept.kind.isUnique = index.kind.isUnique := by
  obtain ⟨name, kind, columns⟩ := index
  cases kind <;> rfl

theorem store_eq_some_iff {t after : Table} {name : String} {index : Index} :
    t.store name index = some after ↔
      t.index? name = none ∧ after = t.addIndex (index.named name).kept := by
  unfold Table.store
  cases h : t.index? name with
  | none => simp [eq_comm]
  | some first => simp

theorem index?_eq_none_iff {t : Table} {name : String} :
    t.index? name = none ↔ name ∉ t.givenNames := by
  simp [Table.index?, Table.givenNames]

/-- A name that is not taken keeps the names different. -/
theorem nodup_givenNames_of_store {t after : Table} {name : String} {index : Index}
    (hnames : t.givenNames.Nodup) (h : t.store name index = some after) :
    after.givenNames.Nodup := by
  obtain ⟨hfree, rfl⟩ := store_eq_some_iff.mp h
  have hadded : (t.addIndex (index.named name).kept).givenNames = t.givenNames ++ [name] := by
    simp [Table.givenNames, Table.addIndex, Index.kept, Index.named]
  rw [hadded, List.nodup_append]
  refine ⟨hnames, by simp, ?_⟩
  intro taken htaken other hother
  rw [List.mem_singleton.mp hother]
  rintro rfl
  exact index?_eq_none_iff.mp hfree htaken

theorem isIn_of_store_of_isIn {t after : Table} {name : String} {index : Index} {part : Part}
    (h : t.store name index = some after) (hpart : part.isIn t = true) :
    part.isIn after = true := by
  obtain ⟨-, rfl⟩ := store_eq_some_iff.mp h
  exact isIn_addTo_of_isIn "" (.index (index.named name).kept) hpart

/-- An index is recognised as it is kept, by its name or by its columns. -/
theorem hasIndex_of_store {t after : Table} {table : String} {index : Index}
    (h : t.store (index.effectiveName table) index = some after) : hasIndex after index = true := by
  obtain ⟨-, rfl⟩ := store_eq_some_iff.mp h
  have hunique := isUnique_kept (index.named (index.effectiveName table))
  obtain ⟨name, kind, columns⟩ := index
  cases name with
  | none =>
      simp only [hasIndex, Table.addIndex, List.any_append, List.any_cons, hunique]
      simp [Index.kept, Index.named]
  | some name =>
      simp [hasIndex, Index.kept, Index.named, Index.effectiveName]

/-- A unique constraint is recognised by the unique index that is kept for it. -/
theorem hasConstraint_of_store {t after : Table} {name : String} {columns : List String}
    (h : t.store name ((Index.onColumns columns).ofKind .unique) = some after) :
    hasConstraint after (.unique name columns) = true := by
  obtain ⟨hfree, rfl⟩ := store_eq_some_iff.mp h
  simp [hasConstraint, Constraint.name, hfree, Index.kept, Index.named, Index.ofKind,
    Dialect.indexKind, IndexKind.isUnique]

/-! ## One operation of a plan -/

/-- What holds of a table while a plan runs: the names of the indexes differ, and the
parts that were there stay. -/
structure Extends (before after : Table) : Prop where
  names : before.givenNames.Nodup → after.givenNames.Nodup
  parts : ∀ part : Part, part.isIn before = true → part.isIn after = true

theorem Extends.refl (t : Table) : Extends t t := ⟨id, fun _ => id⟩

theorem Extends.trans {t t' t'' : Table} (h : Extends t t') (h' : Extends t' t'') :
    Extends t t'' := ⟨h'.names ∘ h.names, fun part => h'.parts part ∘ h.parts part⟩

theorem Extends.of_store {t after : Table} {name : String} {index : Index}
    (h : t.store name index = some after) : Extends t after :=
  ⟨fun hnames => nodup_givenNames_of_store hnames h, fun _ => isIn_of_store_of_isIn h⟩

/-- An operation of a plan that SQLite accepts brings its part, and takes no other
part away. -/
theorem extends_of_store_operation {t : Table} {part : Part} {table : String}
    {after : Option Table} (h : (part.operation table).store (some t) = some after) :
    ∃ t', after = some t' ∧ Extends t t' ∧ part.isIn t' = true := by
  cases part with
  | column c =>
      cases h
      exact ⟨_, rfl, ⟨id, fun _ => isIn_addTo_of_isIn table (.column c)⟩,
        isIn_addTo_self table t (.column c)⟩
  | index i =>
      obtain ⟨t', ht', rfl⟩ := Option.map_eq_some_iff.mp h
      exact ⟨t', rfl, .of_store ht', hasIndex_of_store ht'⟩
  | constraint k =>
      cases k with
      | check name expression => cases h
      | unique name columns =>
          obtain ⟨t', ht', rfl⟩ := Option.map_eq_some_iff.mp h
          exact ⟨t', rfl, .of_store ht', hasConstraint_of_store ht'⟩

theorem extends_of_storeAll {added : List Part} {table : String} {t : Table}
    {after : Option Table} (h : storeAll (added.map (Part.operation table)) (some t) = some after) :
    ∃ t', after = some t' ∧ Extends t t' ∧ ∀ part ∈ added, part.isIn t' = true := by
  induction added generalizing t with
  | nil =>
      cases h
      exact ⟨t, rfl, .refl t, List.forall_mem_nil _⟩
  | cons part added ih =>
      rw [List.map_cons, storeAll, List.foldlM_cons] at h
      obtain ⟨next, hnext, hrest⟩ := Option.bind_eq_some_iff.mp h
      obtain ⟨t', rfl, hfirst, hpart⟩ := extends_of_store_operation hnext
      obtain ⟨t'', hafter, hlater, hadded⟩ := ih hrest
      exact ⟨t'', hafter, hfirst.trans hlater,
        List.forall_mem_cons.mpr ⟨hlater.parts part hpart, hadded⟩⟩

/-! ## The creation of a table -/

/-- An index that was given its name is kept like the index without it. -/
theorem store_nameIndex (t : Table) (table : String) (index : Index) :
    t.store ((nameIndex table index).effectiveName table) (nameIndex table index) =
      t.store (index.effectiveName table) index := rfl

theorem extends_of_storeEach {indexes : List Index} {table : String} {t after : Table}
    (h : t.storeEach table (indexes.map (nameIndex table)) = some after) :
    Extends t after ∧ ∀ i ∈ indexes, hasIndex after i = true := by
  induction indexes generalizing t with
  | nil =>
      cases h
      exact ⟨.refl after, List.forall_mem_nil _⟩
  | cons i indexes ih =>
      rw [List.map_cons, Table.storeEach, List.foldlM_cons, store_nameIndex] at h
      obtain ⟨next, hnext, hrest⟩ := Option.bind_eq_some_iff.mp h
      obtain ⟨hlater, hindexes⟩ := ih hrest
      have hi := hlater.parts (.index i) (hasIndex_of_store hnext)
      exact ⟨(Extends.of_store hnext).trans hlater, List.forall_mem_cons.mpr ⟨hi, hindexes⟩⟩

/-- A table that SQLite created from its declaration has all parts of it. -/
theorem isIn_of_storeAll_creation {declared : Table} {after : Option Table}
    (h : storeAll [creation declared] none = some after) :
    ∃ t, after = some t ∧ t.givenNames.Nodup ∧ ∀ part ∈ parts declared, part.isIn t = true := by
  rw [storeAll, List.foldlM_cons] at h
  obtain ⟨next, hnext, hafter⟩ := Option.bind_eq_some_iff.mp h
  cases hafter
  obtain ⟨t, ht, rfl⟩ := Option.map_eq_some_iff.mp hnext
  obtain ⟨hextends, hindexes⟩ := extends_of_storeEach ht
  refine ⟨t, rfl, hextends.names List.nodup_nil, ?_⟩
  -- The columns and constraints are those of the declaration from the start.
  intro part hpart
  simp only [parts, List.mem_append, List.mem_map] at hpart
  rcases hpart with (⟨c, hc, rfl⟩ | ⟨i, hi, rfl⟩) | ⟨k, hk, rfl⟩
  · apply hextends.parts
    exact Table.hasColumn_eq_true_iff.mpr ⟨c, hc, rfl⟩
  · exact hindexes i hi
  · apply hextends.parts
    have hfound : (declared.constraint? k.name).isSome = true := by
      rw [Table.constraint?, List.find?_isSome]
      exact ⟨k, hk, beq_self_eq_true k.name⟩
    exact Bool.or_eq_true_iff.mpr (Or.inl hfound)

/-! ## Any order of the indexes -/

/-- With different names, an index is found by its name wherever it stands. -/
theorem find?_name_eq_some {indexes : List Index} (hnames : (indexes.filterMap Index.name).Nodup)
    {name : String} {index : Index} (hmem : index ∈ indexes) (hname : index.name = some name) :
    indexes.find? (fun i => i.name == some name) = some index := by
  induction indexes with
  | nil => cases hmem
  | cons first rest ih =>
      by_cases hfirst : first.name = some name
      · rw [List.filterMap_cons_some hfirst, List.nodup_cons] at hnames
        rcases List.mem_cons.mp hmem with rfl | hrest
        · exact List.find?_cons_of_pos (beq_iff_eq.mpr hname)
        · exact absurd (List.mem_filterMap.mpr ⟨index, hrest, hname⟩) hnames.1
      · rw [List.find?_cons_of_neg (by simpa using hfirst)]
        refine ih (hnames.sublist ((List.sublist_cons_self first rest).filterMap _)) ?_
        rcases List.mem_cons.mp hmem with rfl | hrest
        · exact absurd hname hfirst
        · exact hrest

theorem index?_eq_some_iff {t : Table} (hnames : t.givenNames.Nodup) {name : String}
    {index : Index} :
    t.index? name = some index ↔ index ∈ t.indexes ∧ index.name = some name := by
  constructor
  · intro h
    unfold Table.index? at h
    exact ⟨List.mem_of_find?_eq_some h, by simpa using List.find?_some h⟩
  · rintro ⟨hmem, hname⟩
    exact find?_name_eq_some hnames hmem hname

theorem isIn_withIndexes {t : Table} (hnames : t.givenNames.Nodup) {indexes : List Index}
    (horder : indexes.Perm t.indexes) (part : Part) :
    part.isIn (t.withIndexes indexes) = part.isIn t := by
  have hothers : (t.withIndexes indexes).givenNames.Nodup :=
    ((horder.filterMap Index.name).nodup_iff).mpr hnames
  have hindex : ∀ name, (t.withIndexes indexes).index? name = t.index? name := by
    intro name
    ext index
    rw [index?_eq_some_iff hothers, index?_eq_some_iff hnames, Table.withIndexes, horder.mem_iff]
  cases part with
  | column c => rfl
  | index i =>
      obtain ⟨name, kind, columns⟩ := i
      cases name with
      | some name =>
          show ((t.withIndexes indexes).index? name).isSome = (t.index? name).isSome
          rw [hindex]
      | none => exact horder.any_eq
  | constraint k =>
      cases k with
      | check name expression => rfl
      | unique name columns =>
          simp only [Part.isIn, hasConstraint, hindex]
          rfl

/-- Planning converges on what SQLite keeps.  If the indexes of a table have different
names and SQLite accepts a plan for it, which then adds no check, nothing is planned
for the table that is kept, in whatever order its indexes are reported. -/
theorem plan_store (declared : Table) (live : Option Table) (ops : List Operation)
    (after : Option Table) (hnames : ∀ t ∈ live, t.givenNames.Nodup)
    (hplan : plan declared live = .ok ops) (hstored : storeAll ops live = some after) :
    ∃ t, after = some t ∧ ∀ indexes : List Index, indexes.Perm t.indexes →
      plan declared (some (t.withIndexes indexes)) = .ok [] := by
  have hcheck := check_eq_ok_of_plan hplan
  obtain ⟨t, rfl, hkept, hparts⟩ : ∃ t, after = some t ∧ t.givenNames.Nodup ∧
      ∀ part ∈ parts declared, part.isIn t = true := by
    cases live with
    | none =>
        rw [plan_none hcheck] at hplan
        cases hplan
        exact isIn_of_storeAll_creation hstored
    | some live =>
        rw [plan_some hcheck, additions_eq] at hplan
        cases hplan
        obtain ⟨t, hafter, hextends, hadded⟩ := extends_of_storeAll hstored
        refine ⟨t, hafter, hextends.names (hnames live rfl), ?_⟩
        intro part hpart
        by_cases hlive : part.isIn live = true
        · exact hextends.parts part hlive
        · exact hadded part (List.mem_filter.mpr ⟨hpart, by simp [hlive]⟩)
  refine ⟨t, rfl, fun indexes horder => ?_⟩
  have hmissing : missing declared (t.withIndexes indexes) = [] := by
    rw [missing, List.filter_eq_nil_iff]
    intro part hpart
    rw [isIn_withIndexes hkept horder, hparts part hpart]
    exact Bool.false_ne_true
  rw [plan_some hcheck, additions_eq, hmissing]
  rfl

/-- A clustered index without a name and a unique constraint, both added to a table,
are recognised although the one is plain and the other an index when they are
reported, the last first. -/
theorem plan_store_degraded :
    let declared : Table :=
      { name := "t", columns := [.ofType "a" .text, .ofType "b" .integer],
        indexes := [(Index.onColumns ["a"]).ofKind .clustered, (Index.onColumns ["b"]).named "n"],
        constraints := [.unique "u" ["a", "b"]] }
    let live : Table :=
      { name := "t", columns := [.ofType "a" .text],
        indexes := [((Index.onColumns ["a"]).named "z").ofKind .unique] }
    let ops : List Operation :=
      [.addColumn "t" (.ofType "b" .integer),
        .createIndex "t" (((Index.onColumns ["a"]).named "idx_t_a").ofKind .clustered),
        .createIndex "t" ((Index.onColumns ["b"]).named "n"),
        .addConstraint "t" (.unique "u" ["a", "b"])]
    let kept : Table :=
      { name := "t", columns := [.ofType "a" .text, .ofType "b" .integer],
        indexes :=
          [((Index.onColumns ["a"]).named "z").ofKind .unique,
            (Index.onColumns ["a"]).named "idx_t_a", (Index.onColumns ["b"]).named "n",
            ((Index.onColumns ["a", "b"]).named "u").ofKind .unique] }
    (∀ t ∈ some live, t.givenNames.Nodup) ∧ plan declared (some live) = .ok ops ∧
      storeAll ops (some live) = some (some kept) ∧
      plan declared (some (kept.withIndexes kept.indexes.reverse)) = .ok [] := by
  intro declared live ops kept
  have hnames : ∀ t ∈ some live, t.givenNames.Nodup := by
    intro t ht
    cases ht
    decide
  have hplan : plan declared (some live) = .ok ops := by rfl
  have hstored : storeAll ops (some live) = some (some kept) := by rfl
  obtain ⟨t, ht, hconverges⟩ := plan_store declared (some live) ops _ hnames hplan hstored
  cases ht
  exact ⟨hnames, hplan, hstored, hconverges _ (List.reverse_perm kept.indexes)⟩

end Migration

end Relational
