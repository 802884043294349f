import Relational.Migration.Lifecycle
import Relational.Proofs.Descriptor.Schema

/-!
# Migrations are read back

A migration is read back up to the floating-point defaults of its columns.  It cannot be
read at all if one of them is not finite, because such a number leaves no numeral behind.
-/

namespace Relational

namespace Migration

/-- The operation that is read where an operation has been written. -/
def Operation.reread : Operation → Option Operation
  | .createTable schema => schema.reread.map .createTable
  | .dropTable schema => schema.reread.map .dropTable
  | .addColumn table column => column.reread.map (.addColumn table)
  | .dropColumn table column => column.reread.map (.dropColumn table)
  | op => some op

/-- The floating-point numbers of an operation. -/
def Operation.floats : Operation → List Binary64
  | .createTable schema => schema.floats
  | .dropTable schema => schema.floats
  | .addColumn _ column => column.default.floats
  | .dropColumn _ column => column.default.floats
  | _ => []

/-- The migration that is read where a migration has been written. -/
def reread (m : Migration) : Option Migration :=
  (m.operations.mapM Operation.reread).map fun operations => { m with operations }

def floats (m : Migration) : List Binary64 := m.operations.flatMap Operation.floats

theorem Operation.reread_eq_self_iff {op : Operation} :
    op.reread = some op ↔ ∀ x ∈ op.floats, x.reread = some x := by
  cases op <;>
    simp [Operation.reread, Operation.floats, Schema.Table.reread_eq_self_iff,
      Schema.Column.reread_eq_self_iff]

theorem Operation.isSome_reread_iff {op : Operation} :
    op.reread.isSome = true ↔ ∀ x ∈ op.floats, x.isFinite = true := by
  cases op <;>
    simp [Operation.reread, Operation.floats, Schema.Table.isSome_reread_iff,
      Schema.Column.reread, Schema.Default.isSome_reread_iff]

theorem reread_eq_self_iff {m : Migration} :
    m.reread = some m ↔ ∀ x ∈ m.floats, x.reread = some x := by
  have hoperations : m.reread = some m ↔
      m.operations.mapM Operation.reread = some m.operations := by
    rw [reread, Option.map_eq_some_iff]
    constructor
    · rintro ⟨operations, hoperations, hm⟩
      have hsame : operations = m.operations := congrArg Migration.operations hm
      rw [hoperations, hsame]
    · intro hoperations
      exact ⟨m.operations, hoperations, rfl⟩
  rw [hoperations, Descriptor.mapM_eq_some_self_iff, floats, List.forall_mem_flatMap]
  exact forall₂_congr fun _ _ => Operation.reread_eq_self_iff

theorem isSome_reread_iff {m : Migration} :
    m.reread.isSome = true ↔ ∀ x ∈ m.floats, x.isFinite = true := by
  rw [reread, Option.isSome_map, Descriptor.isSome_mapM_iff, floats, List.forall_mem_flatMap]
  exact forall₂_congr fun _ _ => Operation.isSome_reread_iff

end Migration

namespace Descriptor

open Schema Migration

/-! ## Operations -/

section

variable {α : Type} [Descriptor α] {table part : String} {a : α}

theorem isWritable_encodePart (h : (encode a).IsWritable) :
    (encodePart table part a).IsWritable :=
  .object (by simp [isWritable_encode, h])

theorem nesting_encodePart_le {n : Nat} (h : (encode a).nesting ≤ n) :
    (encodePart table part a).nesting ≤ n + 1 := by
  refine Json.nesting_object_le_iff.mpr ?_
  simp only [List.forall_mem_cons]
  exact ⟨Nat.zero_le n, h, List.forall_mem_nil _⟩

/-- An operation on a part of a table is read as its part is. -/
theorem map_decodePart_encodePart (make : String → α → Operation) (hpart : part ≠ "table")
    {levels : Nat} {reread : Option α}
    (hreread : ∀ {inner}, (encode a).nesting ≤ inner → decode inner (encode a) = reread)
    (h : (encodePart table part a).nesting ≤ levels) :
    (decodePart part levels (encodePart table part a)).map (fun (table, a) => make table a) =
      reread.map (make table) := by
  obtain ⟨inner, rfl, hfields⟩ := Json.exists_levels_of_object h
  simp only [List.forall_mem_cons] at hfields
  obtain ⟨htable, ha, -⟩ := hfields
  have hsupplied : supplied ["table", part] (inner + 1) (encodePart table part a) =
      some (inner, [.given (encode table), .given (encode a)]) := by
    simp [supplied, encodePart, hpart.symm, List.lookup_cons, beq_false_of_ne hpart]
  simp only [decodePart, hsupplied, Supplied.required]
  rw [decode_encode table htable, hreread ha]
  cases reread <;> rfl

theorem decodeSchema_encode (table : Table) {levels : Nat}
    (h : (Json.object [("schema", encode table)]).nesting ≤ levels) :
    decodeSchema levels (.object [("schema", encode table)]) = table.reread := by
  obtain ⟨inner, rfl, hfields⟩ := Json.exists_levels_of_object h
  exact decode_encode_table table (hfields _ List.mem_cons_self)

end

theorem isWritable_encode_operation (op : Operation) : (encode op).IsWritable := by
  cases op with
  | createTable schema =>
      exact isWritable_tagged (.object (by simp [isWritable_encode_table]))
  | dropTable schema =>
      exact isWritable_tagged (.object (by simp [isWritable_encode_table]))
  | addColumn table column =>
      exact isWritable_tagged (isWritable_encodePart (isWritable_encode_column column))
  | dropColumn table column =>
      exact isWritable_tagged (isWritable_encodePart (isWritable_encode_column column))
  | createIndex table index =>
      exact isWritable_tagged (isWritable_encodePart (isWritable_encode index))
  | dropIndex table index =>
      exact isWritable_tagged (isWritable_encodePart (isWritable_encode index))
  | addConstraint table constraint =>
      exact isWritable_tagged (isWritable_encodePart (isWritable_encode constraint))
  | dropConstraint table constraint =>
      exact isWritable_tagged (isWritable_encodePart (isWritable_encode constraint))

theorem decode_encode_operation (op : Operation) {levels : Nat}
    (h : (encode op).nesting ≤ levels) : decode levels (encode op) = op.reread := by
  cases op with
  | createTable schema =>
      obtain ⟨inner, rfl, hinner⟩ := Json.exists_levels_of_tagged h
      exact congrArg (Option.map Operation.createTable) (decodeSchema_encode schema hinner)
  | dropTable schema =>
      obtain ⟨inner, rfl, hinner⟩ := Json.exists_levels_of_tagged h
      exact congrArg (Option.map Operation.dropTable) (decodeSchema_encode schema hinner)
  | addColumn table column =>
      obtain ⟨inner, rfl, hinner⟩ := Json.exists_levels_of_tagged h
      exact map_decodePart_encodePart Operation.addColumn (by decide) (decode_encode_column column)
        hinner
  | dropColumn table column =>
      obtain ⟨inner, rfl, hinner⟩ := Json.exists_levels_of_tagged h
      exact map_decodePart_encodePart Operation.dropColumn (by decide) (decode_encode_column column)
        hinner
  | createIndex table index =>
      obtain ⟨inner, rfl, hinner⟩ := Json.exists_levels_of_tagged h
      exact map_decodePart_encodePart Operation.createIndex (by decide) (decode_encode index) hinner
  | dropIndex table index =>
      obtain ⟨inner, rfl, hinner⟩ := Json.exists_levels_of_tagged h
      exact map_decodePart_encodePart Operation.dropIndex (by decide) (decode_encode index) hinner
  | addConstraint table constraint =>
      obtain ⟨inner, rfl, hinner⟩ := Json.exists_levels_of_tagged h
      exact map_decodePart_encodePart Operation.addConstraint (by decide) (decode_encode constraint)
        hinner
  | dropConstraint table constraint =>
      obtain ⟨inner, rfl, hinner⟩ := Json.exists_levels_of_tagged h
      exact map_decodePart_encodePart Operation.dropConstraint (by decide) (decode_encode constraint)
        hinner

theorem nesting_encode_operation_le (op : Operation) : (encode op).nesting ≤ 7 := by
  have hschema : ∀ schema : Table, (Json.object [("schema", encode schema)]).nesting ≤ 6 :=
    fun schema => Json.nesting_object_le_iff.mpr
      (List.forall_mem_singleton.mpr (nesting_encode_table_le schema))
  have hpart : ∀ {α : Type} [Descriptor α] {table part : String} {a : α},
      (encode a).nesting ≤ 3 → (encodePart table part a).nesting ≤ 6 :=
    fun h => Nat.le_trans (nesting_encodePart_le h) (by decide)
  have hindex : ∀ index : Index, (encode index).nesting ≤ 3 :=
    fun index => Nat.le_trans (nesting_encode_index_le index) (by decide)
  cases op with
  | createTable schema => exact Json.nesting_tagged_le_iff.mpr (hschema schema)
  | dropTable schema => exact Json.nesting_tagged_le_iff.mpr (hschema schema)
  | addColumn table column =>
      exact Json.nesting_tagged_le_iff.mpr (hpart (nesting_encode_column_le column))
  | dropColumn table column =>
      exact Json.nesting_tagged_le_iff.mpr (hpart (nesting_encode_column_le column))
  | createIndex table index => exact Json.nesting_tagged_le_iff.mpr (hpart (hindex index))
  | dropIndex table index => exact Json.nesting_tagged_le_iff.mpr (hpart (hindex index))
  | addConstraint table constraint =>
      exact Json.nesting_tagged_le_iff.mpr (hpart (nesting_encode_constraint_le constraint))
  | dropConstraint table constraint =>
      exact Json.nesting_tagged_le_iff.mpr (hpart (nesting_encode_constraint_le constraint))

/-! ## Migrations -/

instance : LawfulDescriptor Stage where
  isWritable_encode _ := .string _
  decode_encode stage _ _ := by cases stage <;> rfl

theorem isWritable_encode_migration (m : Migration) : (encode m).IsWritable :=
  .object (by
    simp [isWritable_encode, isWritable_encode_list fun op _ => isWritable_encode_operation op])

theorem decode_encode_migration (m : Migration) {levels : Nat}
    (h : (encode m).nesting ≤ levels) : decode levels (encode m) = m.reread := by
  obtain ⟨inner, rfl, hfields⟩ := Json.exists_levels_of_object h
  simp only [List.forall_mem_cons] at hfields
  obtain ⟨htable, hoperations, hstage, -⟩ := hfields
  show (do
    let table ← decode inner (encode m.table)
    let operations ← decode inner (encode m.operations)
    return ⟨table, operations, ← decode inner (encode m.stage)⟩ : Option Migration) = m.reread
  rw [decode_encode _ htable,
    decode_encode_list (fun op _ _ => decode_encode_operation op) hoperations,
    decode_encode _ hstage, Migration.reread]
  cases m.operations.mapM Operation.reread <;> rfl

theorem nesting_encode_migration_le (m : Migration) : (encode m).nesting ≤ 9 := by
  refine Json.nesting_object_le_iff.mpr ?_
  simp only [List.forall_mem_cons]
  exact ⟨Nat.zero_le 8, nesting_encode_list_le fun op _ => nesting_encode_operation_le op,
    Nat.zero_le 8, List.forall_mem_nil _⟩

end Descriptor

namespace Migration

/-- The file of a migration is read as the migration is read back; otherwise it is refused. -/
theorem ofFileText_toFileText (complaint : String → String) (m : Migration) :
    ofFileText complaint m.toFileText =
      m.reread.elim (.error (.unreadable (complaint m.toFileText))) .ok := by
  have hlevels : (Descriptor.encode m).nesting ≤ Descriptor.nestingLimit :=
    Nat.le_trans (Descriptor.nesting_encode_migration_le m) (by decide)
  unfold ofFileText toFileText
  rw [Descriptor.ofText_toPrettyText (Descriptor.isWritable_encode_migration m),
    Descriptor.decode_encode_migration m hlevels]
  cases m.reread <;> rfl

end Migration

end Relational
