import Relational.Proofs.Descriptor.Migration
import Relational.Proofs.Descriptor.Query

/-!
# Texts that are read back

Values without floating-point numbers are read back from their texts, and what becomes of
a floating-point default in the file of a migration.

Only conditions are nested without limit, and with them joins and scopes.  The texts of
all other values fit into the levels that are read.
-/

namespace Relational

namespace Descriptor

open Schema Migration Query

/-- Every table, operation and migration, and every value, condition, order, join and
scope is read back from its text on one line and from its indented text, if there are no
floating-point numbers in it and its text does not open more than the levels that are read. -/
theorem readsBack_of_no_floats :
    (∀ table : Table, table.floats = [] → ReadsBack table) ∧
    (∀ op : Operation, op.floats = [] → ReadsBack op) ∧
    (∀ m : Migration, m.floats = [] →
      ReadsBack m ∧ ∀ complaint, Migration.ofFileText complaint m.toFileText = .ok m) ∧
    (∀ value : Value, value.floats = [] → ReadsBack value) ∧
    (∀ c : Condition, c.floats = [] → (encode c).nesting ≤ nestingLimit → ReadsBack c) ∧
    (∀ order : Order, ReadsBack order) ∧
    (∀ join : Join, join.floats = [] → (encode join).nesting ≤ nestingLimit → ReadsBack join) ∧
    (∀ scope : Scope, scope.floats = [] → (encode scope).nesting ≤ nestingLimit →
      ReadsBack scope) := by
  refine ⟨?table, ?operation, ?migration, ?value, ?condition, ?order, ?join, ?scope⟩
  case table =>
    intro table hfloats
    have hreread : table.reread = some table := Table.reread_eq_self_iff.mpr (by simp [hfloats])
    have hlevels := Nat.le_trans (nesting_encode_table_le table) (show 5 ≤ nestingLimit by decide)
    exact readsBack_of_decode (isWritable_encode_table table)
      ((decode_encode_table table hlevels).trans hreread)
  case operation =>
    intro op hfloats
    have hreread : op.reread = some op := Operation.reread_eq_self_iff.mpr (by simp [hfloats])
    have hlevels := Nat.le_trans (nesting_encode_operation_le op) (show 7 ≤ nestingLimit by decide)
    exact readsBack_of_decode (isWritable_encode_operation op)
      ((decode_encode_operation op hlevels).trans hreread)
  case migration =>
    intro m hfloats
    have hreread : m.reread = some m := Migration.reread_eq_self_iff.mpr (by simp [hfloats])
    have hlevels := Nat.le_trans (nesting_encode_migration_le m) (show 9 ≤ nestingLimit by decide)
    constructor
    · exact readsBack_of_decode (isWritable_encode_migration m)
        ((decode_encode_migration m hlevels).trans hreread)
    · intro complaint
      rw [Migration.ofFileText_toFileText, hreread]
      rfl
  case value =>
    intro value hfloats
    have hlevels := Nat.le_trans (nesting_encode_value_le value) (show 2 ≤ nestingLimit by decide)
    exact readsBack_of_decode (isWritable_encode_value value)
      (decode_encode_value hfloats hlevels)
  case condition =>
    intro c hfloats hlevels
    exact readsBack_of_decode (isWritable_encode_condition c)
      (decode_encode_condition hfloats hlevels)
  case order =>
    intro order
    have hlevels := Nat.le_trans (nesting_encode_order_le order) (show 3 ≤ nestingLimit by decide)
    exact readsBack_of_decode (isWritable_encode order) (decode_encode order hlevels)
  case join =>
    intro join hfloats hlevels
    exact readsBack_of_decode (isWritable_encode_join join) (decode_encode_join hfloats hlevels)
  case scope =>
    intro scope hfloats hlevels
    exact readsBack_of_decode (isWritable_encode_scope scope)
      (decode_encode_scope hfloats hlevels)

/-- Names and strings with marks of the notation in them, and integers at the ends of their
range. -/
theorem readsBack_of_no_floats_odd_texts :
    ReadsBack (Table.mk "a \"b\""
      [{ name := "\\", type := .decimal 10 2, default := .string "\x00" }]
      [{ columns := ["é"] }] [.check "c" "x > 0"]) ∧
    ReadsBack (Operation.createIndex "t" { kind := .clustered, columns := ["\n"] }) ∧
    ReadsBack (Migration.mk "t" [.addColumn "t"
      { name := "a", type := .varchar 4294967295, default := .integer (-9223372036854775808) }]
      .reverted) ∧
    ReadsBack (Value.blob [0, 255]) ∧
    ReadsBack (Condition.junction .and
      [.within "a" [.int (-1), .null] true, .not (.like "b" "\u2028%" false)]) ∧
    ReadsBack (Order.mk [⟨"-a", .descending⟩]) ∧
    ReadsBack (Join.mk .leftOuter "u" (.compareColumns "t.a" .notEq "u.a")) ∧
    ReadsBack (Scope.mk (some (.not (.isNull "a" false))) none (-1)) :=
  have ⟨htable, hop, hm, hvalue, hc, horder, hjoin, hscope⟩ := readsBack_of_no_floats
  ⟨htable _ rfl, hop _ rfl, (hm _ rfl).1, hvalue _ rfl, hc _ rfl (Nat.le_of_ble_eq_true rfl),
    horder _, hjoin _ rfl (Nat.le_of_ble_eq_true rfl), hscope _ rfl (Nat.le_of_ble_eq_true rfl)⟩

end Descriptor

namespace Migration

/-- The file of a migration gives a migration exactly if all its floating-point defaults
are finite, and the same migration exactly if each of them is read as itself.  What it
gives is the same table in the same stage, with the operations up to these defaults. -/
theorem file_read_back (complaint : String → String) (m : Migration) :
    ((∃ read, ofFileText complaint m.toFileText = .ok read) ↔
      ∀ x ∈ m.floats, x.isFinite = true) ∧
    (ofFileText complaint m.toFileText = .ok m ↔ ∀ x ∈ m.floats, x.reread = some x) ∧
    ofFileText complaint m.toFileText = (m.operations.mapM Operation.reread).elim
      (.error (.unreadable (complaint m.toFileText)))
      fun operations => .ok { m with operations } := by
  rw [ofFileText_toFileText, ← isSome_reread_iff, ← reread_eq_self_iff]
  refine ⟨?loads, ?same, ?operations⟩
  case loads => cases m.reread <;> simp
  case same => cases m.reread <;> simp
  case operations =>
    rw [reread]
    cases m.operations.mapM Operation.reread <;> rfl

/-- A default value of one half comes back. -/
theorem file_read_back_half :
    ofFileText (fun _ => "invalid type: null, expected f64") (toFileText ⟨"t", [.addColumn "t"
      { name := "a", type := .double, default := .float ⟨0x3FE0000000000000⟩ }], .applied⟩) =
      .ok ⟨"t", [.addColumn "t"
        { name := "a", type := .double, default := .float ⟨0x3FE0000000000000⟩ }], .applied⟩ :=
  (file_read_back _ _).2.1.mpr (by decide +kernel)

/-- A default value of infinity is written and then refused, and of a default value that
is finite the last place may change. -/
theorem file_read_back_lost :
    let complaint : String → String := fun _ => "invalid type: null, expected f64"
    ofFileText complaint (toFileText ⟨"t", [.addColumn "t"
      { name := "a", type := .double, default := .float (.infinity false) }], .unapplied⟩) =
      .error (.unreadable "invalid type: null, expected f64") ∧
    ofFileText complaint (toFileText ⟨"t", [.addColumn "t"
      { name := "a", type := .double, default := .float ⟨0x3FF0000012345678⟩ }], .unapplied⟩) =
      .ok ⟨"t", [.addColumn "t"
        { name := "a", type := .double, default := .float ⟨0x3FF0000012345677⟩ }], .unapplied⟩ := by
  intro complaint
  rw [ofFileText_toFileText, ofFileText_toFileText]
  decide +kernel

end Migration

end Relational
