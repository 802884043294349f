import Relational.Descriptor.Schema
import Relational.Proofs.Descriptor.Basic

/-!
# Tables are read back

A table is read back up to its floating-point defaults, which are read as their
numerals are.

Tables hold no values of unlimited depth, so every table fits into five levels.
-/

namespace Relational

namespace Schema

/-- The default value that is read where a default value has been written. -/
def Default.reread : Default → Option Default
  | .float x => x.reread.map .float
  | default => some default

def Column.reread (column : Column) : Option Column :=
  column.default.reread.map fun default => { column with default }

def Table.reread (table : Table) : Option Table :=
  (table.columns.mapM Column.reread).map fun columns => { table with columns }

/-- The floating-point numbers of a default value. -/
def Default.floats : Default → List Binary64
  | .float x => [x]
  | _ => []

def Table.floats (table : Table) : List Binary64 :=
  table.columns.flatMap fun column => column.default.floats

end Schema

namespace Descriptor

open Schema

/-! ## Column types -/

instance : LawfulDescriptor ColumnType where
  isWritable_encode type := by
    cases type with
    | varchar length => exact isWritable_tagged (isWritable_encode length)
    | decimal precision scale =>
        refine isWritable_tagged (.array ?_)
        simp [isWritable_encode]
    | custom name => exact isWritable_tagged (isWritable_encode name)
    | _ => exact .string _
  decode_encode type levels h := by
    cases type with
    | varchar length =>
        obtain ⟨inner, rfl, hinner⟩ := Json.exists_levels_of_tagged h
        exact map_decode_encode ColumnType.varchar hinner
    | decimal precision scale =>
        obtain ⟨outer, rfl, houter⟩ := Json.exists_levels_of_tagged h
        obtain ⟨inner, rfl, hinner⟩ := Json.exists_levels_of_array houter
        rw [List.forall_mem_cons, List.forall_mem_singleton] at hinner
        show ((do return (← decode inner (encode precision), ← decode inner (encode scale)) :
          Option (UInt8 × UInt8)).map fun (precision, scale) => .decimal precision scale) =
            some (ColumnType.decimal precision scale)
        rw [decode_encode precision hinner.1, decode_encode scale hinner.2]
        rfl
    | custom name =>
        obtain ⟨inner, rfl, hinner⟩ := Json.exists_levels_of_tagged h
        exact map_decode_encode ColumnType.custom hinner
    | _ => rfl

theorem nesting_encode_columnType_le (type : ColumnType) : (encode type).nesting ≤ 2 := by
  cases type <;> exact Nat.le_of_ble_eq_true rfl

/-! ## Default values and columns -/

theorem isWritable_encode_default (default : Default) : (encode default).IsWritable := by
  cases default with
  | bool b => exact isWritable_tagged (isWritable_encode b)
  | integer i => exact isWritable_tagged (isWritable_encode i)
  | float x => exact isWritable_tagged (isWritable_encode_binary64 x)
  | string s => exact isWritable_tagged (isWritable_encode s)
  | expression sql => exact isWritable_tagged (isWritable_encode sql)
  | _ => exact .string _

theorem decode_encode_default (default : Default) {levels : Nat}
    (h : (encode default).nesting ≤ levels) :
    decode levels (encode default) = default.reread := by
  cases default with
  | bool b =>
      obtain ⟨inner, rfl, hinner⟩ := Json.exists_levels_of_tagged h
      exact map_decode_encode Default.bool hinner
  | integer i =>
      obtain ⟨inner, rfl, hinner⟩ := Json.exists_levels_of_tagged h
      exact map_decode_encode Default.integer hinner
  | float x =>
      obtain ⟨inner, rfl, -⟩ := Json.exists_levels_of_tagged h
      show (decode inner (encode x)).map Default.float = x.reread.map .float
      rw [decode_encode_binary64]
  | string s =>
      obtain ⟨inner, rfl, hinner⟩ := Json.exists_levels_of_tagged h
      exact map_decode_encode Default.string hinner
  | expression sql =>
      obtain ⟨inner, rfl, hinner⟩ := Json.exists_levels_of_tagged h
      exact map_decode_encode Default.expression hinner
  | _ => rfl

theorem nesting_encode_default_le (default : Default) : (encode default).nesting ≤ 1 := by
  cases default with
  | float x =>
      exact Json.nesting_tagged_le_iff.mpr (Nat.le_of_eq (nesting_encode_binary64 x))
  | _ => exact Nat.le_of_ble_eq_true rfl

/-- The fields of a column; a default value is left out if it is not set. -/
theorem encode_column (column : Column) :
    encode column = .object
      ([("name", encode column.name), ("sql_type", encode column.type),
        ("nullable", encode column.nullable), ("primary_key", encode column.primaryKey)] ++
        if column.default.isUnset then [] else [("default", encode column.default)]) := rfl

theorem isWritable_encode_column (column : Column) : (encode column).IsWritable := by
  refine .object ?_
  split <;> simp [isWritable_encode, isWritable_encode_default]

theorem decode_encode_column (column : Column) {levels : Nat}
    (h : (encode column).nesting ≤ levels) :
    decode levels (encode column) = column.reread := by
  obtain ⟨inner, rfl, hfields⟩ := Json.exists_levels_of_object h
  obtain ⟨hnamed, hlast⟩ := List.forall_mem_append.mp hfields
  simp only [List.forall_mem_cons] at hnamed
  obtain ⟨hname, htype, hnullable, hprimaryKey, -⟩ := hnamed
  have hread : ∀ default : Option Default,
      (do
        let name ← decode inner (encode column.name)
        let type ← decode inner (encode column.type)
        let nullable ← decode inner (encode column.nullable)
        let primaryKey ← decode inner (encode column.primaryKey)
        return ⟨name, type, nullable, primaryKey, ← default⟩ : Option Column) =
        default.map fun default => { column with default } := by
    intro default
    rw [decode_encode _ hname, decode_encode _ htype, decode_encode _ hnullable,
      decode_encode _ hprimaryKey]
    cases default <;> rfl
  rw [Column.reread, ← hread, encode_column]
  cases hunset : column.default.isUnset with
  | true =>
      have hdefault : column.default.reread = some .unset := by
        cases hdefault : column.default <;> simp_all [Default.isUnset, Default.reread]
      rw [hdefault]
      rfl
  | false =>
      rw [hunset] at hlast
      rw [← decode_encode_default _ (hlast _ List.mem_cons_self)]
      rfl

theorem nesting_encode_column_le (column : Column) : (encode column).nesting ≤ 3 := by
  refine Json.nesting_object_le_iff.mpr (List.forall_mem_append.mpr ⟨?_, ?_⟩)
  · simp only [List.forall_mem_cons]
    exact ⟨Nat.zero_le 2, nesting_encode_columnType_le column.type, Nat.zero_le 2, Nat.zero_le 2,
      List.forall_mem_nil _⟩
  · split
    · exact List.forall_mem_nil _
    · exact List.forall_mem_singleton.mpr
        (Nat.le_trans (nesting_encode_default_le column.default) (by decide))

/-! ## Indexes and constraints -/

instance : LawfulDescriptor IndexKind where
  isWritable_encode kind := by cases kind <;> exact .string _
  decode_encode kind _ _ := by cases kind <;> rfl

instance : LawfulDescriptor Index where
  isWritable_encode index := by
    obtain ⟨name, kind, columns⟩ := index
    refine .object ?_
    cases name <;> simp [isWritable_encode]
  decode_encode index levels h := by
    obtain ⟨name, kind, columns⟩ := index
    obtain ⟨inner, rfl, hfields⟩ := Json.exists_levels_of_object h
    obtain ⟨-, hnamed⟩ := List.forall_mem_append.mp hfields
    simp only [List.forall_mem_cons] at hnamed
    obtain ⟨hkind, hcolumns, -⟩ := hnamed
    have hread :
        (do return ⟨name, ← decode inner (encode kind), ← decode inner (encode columns)⟩ :
          Option Index) = some ⟨name, kind, columns⟩ := by
      rw [decode_encode kind hkind, decode_encode columns hcolumns]
      rfl
    rw [← hread]
    cases name <;> rfl

theorem nesting_encode_strings_le (strings : List String) : (encode strings).nesting ≤ 1 := by
  refine Json.nesting_array_le_iff.mpr ?_
  rw [List.forall_mem_map]
  exact fun s _ => Nat.le_of_eq rfl

theorem nesting_encode_index_le (index : Index) : (encode index).nesting ≤ 2 := by
  obtain ⟨name, kind, columns⟩ := index
  refine Json.nesting_object_le_iff.mpr (List.forall_mem_append.mpr ⟨?_, ?_⟩)
  · cases name with
    | none => exact List.forall_mem_nil _
    | some name => exact List.forall_mem_singleton.mpr (Nat.zero_le 1)
  · simp only [List.forall_mem_cons]
    refine ⟨?_, nesting_encode_strings_le columns, List.forall_mem_nil _⟩
    cases kind <;> exact Nat.zero_le 1

instance : LawfulDescriptor Constraint where
  isWritable_encode constraint := by
    cases constraint <;> exact isWritable_tagged (.object (by simp [isWritable_encode]))
  decode_encode constraint levels h := by
    cases constraint with
    | unique name columns =>
        obtain ⟨inner, rfl, hfields⟩ := Json.exists_levels_of_tagged_object h
        simp only [List.forall_mem_cons] at hfields
        obtain ⟨hname, hcolumns, -⟩ := hfields
        exact make_two_eq_some Constraint.unique (decode_encode name hname)
          (decode_encode columns hcolumns)
    | check name expression =>
        obtain ⟨inner, rfl, hfields⟩ := Json.exists_levels_of_tagged_object h
        simp only [List.forall_mem_cons] at hfields
        obtain ⟨hname, hexpression, -⟩ := hfields
        exact make_two_eq_some Constraint.check (decode_encode name hname)
          (decode_encode expression hexpression)

theorem nesting_encode_constraint_le (constraint : Constraint) :
    (encode constraint).nesting ≤ 3 := by
  cases constraint with
  | unique name columns =>
      refine Json.nesting_tagged_le_iff.mpr (Json.nesting_object_le_iff.mpr ?_)
      simp only [List.forall_mem_cons]
      exact ⟨Nat.zero_le 1, nesting_encode_strings_le columns, List.forall_mem_nil _⟩
  | check name expression => exact Nat.le_of_ble_eq_true rfl

/-! ## Tables -/

theorem isWritable_encode_table (table : Table) : (encode table).IsWritable := by
  refine .object ?_
  simp [isWritable_encode, isWritable_encode_list fun c _ => isWritable_encode_column c]

theorem decode_encode_table (table : Table) {levels : Nat}
    (h : (encode table).nesting ≤ levels) : decode levels (encode table) = table.reread := by
  obtain ⟨inner, rfl, hfields⟩ := Json.exists_levels_of_object h
  simp only [List.forall_mem_cons] at hfields
  obtain ⟨hname, hcolumns, hindexes, hconstraints, -⟩ := hfields
  show (do
    let name ← decode inner (encode table.name)
    let columns ← decode inner (encode table.columns)
    let indexes ← decode inner (encode table.indexes)
    let constraints ← decode inner (encode table.constraints)
    return ⟨name, columns, indexes, constraints⟩ : Option Table) = table.reread
  rw [decode_encode _ hname, decode_encode_list (fun c _ _ => decode_encode_column c) hcolumns,
    decode_encode _ hindexes, decode_encode _ hconstraints, Table.reread]
  cases table.columns.mapM Column.reread <;> rfl

theorem nesting_encode_table_le (table : Table) : (encode table).nesting ≤ 5 := by
  refine Json.nesting_object_le_iff.mpr ?_
  simp only [List.forall_mem_cons]
  have hindexes : (encode table.indexes).nesting ≤ 3 :=
    nesting_encode_list_le fun index _ => nesting_encode_index_le index
  exact ⟨Nat.zero_le 4, nesting_encode_list_le fun c _ => nesting_encode_column_le c,
    Nat.le_trans hindexes (by decide),
    nesting_encode_list_le fun c _ => nesting_encode_constraint_le c, List.forall_mem_nil _⟩

end Descriptor

/-! ## What is lost -/

namespace Schema

theorem Default.reread_eq_self_iff {default : Default} :
    default.reread = some default ↔ ∀ x ∈ default.floats, x.reread = some x := by
  cases default <;> simp [Default.reread, Default.floats]

theorem Default.isSome_reread_iff {default : Default} :
    default.reread.isSome = true ↔ ∀ x ∈ default.floats, x.isFinite = true := by
  cases default <;> simp [Default.reread, Default.floats, Binary64.isSome_reread_iff]

theorem Column.reread_eq_self_iff {column : Column} :
    column.reread = some column ↔ ∀ x ∈ column.default.floats, x.reread = some x := by
  rw [← Default.reread_eq_self_iff, Column.reread, Option.map_eq_some_iff]
  constructor
  · rintro ⟨default, hdefault, hcolumn⟩
    have hsame : default = column.default := congrArg Column.default hcolumn
    rw [hdefault, hsame]
  · intro hdefault
    exact ⟨column.default, hdefault, rfl⟩

theorem Table.reread_eq_self_iff {table : Table} :
    table.reread = some table ↔ ∀ x ∈ table.floats, x.reread = some x := by
  have hcolumns : table.reread = some table ↔
      table.columns.mapM Column.reread = some table.columns := by
    rw [Table.reread, Option.map_eq_some_iff]
    constructor
    · rintro ⟨columns, hcolumns, htable⟩
      have hsame : columns = table.columns := congrArg Table.columns htable
      rw [hcolumns, hsame]
    · intro hcolumns
      exact ⟨table.columns, hcolumns, rfl⟩
  rw [hcolumns, Descriptor.mapM_eq_some_self_iff, Table.floats, List.forall_mem_flatMap]
  exact forall₂_congr fun _ _ => Column.reread_eq_self_iff

theorem Table.isSome_reread_iff {table : Table} :
    table.reread.isSome = true ↔ ∀ x ∈ table.floats, x.isFinite = true := by
  rw [Table.reread, Option.isSome_map, Descriptor.isSome_mapM_iff, Table.floats,
    List.forall_mem_flatMap]
  refine forall₂_congr fun column _ => ?_
  rw [Column.reread, Option.isSome_map, Default.isSome_reread_iff]

end Schema

end Relational
