import Relational.Descriptor.Query
import Relational.Proofs.Descriptor.Basic
import Relational.Proofs.Query.Readability

/-!
# Queries are read back

A condition is read back if it holds no floating-point numbers and its text is not nested
too deeply; and so are joins and scopes, which are made of conditions.
-/

namespace Relational

/-- The floating-point numbers of a value. -/
def Value.floats : Value → List Binary64
  | .float x => [x]
  | _ => []

namespace Query

def Condition.floats (c : Condition) : List Binary64 := c.literals.flatMap Value.floats

def Join.floats (join : Join) : List Binary64 := join.on.floats

def Scope.floats (scope : Scope) : List Binary64 := scope.condition.toList.flatMap Condition.floats

end Query

namespace Descriptor

open Query

/-! ## Values -/

theorem isWritable_encode_value (value : Value) : (encode value).IsWritable := by
  cases value with
  | null => exact .string _
  | bool b => exact isWritable_tagged (isWritable_encode b)
  | int i => exact isWritable_tagged (isWritable_encode i)
  | float x => exact isWritable_tagged (isWritable_encode_binary64 x)
  | text s => exact isWritable_tagged (isWritable_encode s)
  | blob bytes => exact isWritable_tagged (isWritable_encode bytes)

theorem decode_encode_value {value : Value} (hfloats : value.floats = []) {levels : Nat}
    (h : (encode value).nesting ≤ levels) : decode levels (encode value) = some value := by
  cases value with
  | null => rfl
  | bool b =>
      obtain ⟨inner, rfl, hinner⟩ := Json.exists_levels_of_tagged h
      exact map_decode_encode Value.bool hinner
  | int i =>
      obtain ⟨inner, rfl, hinner⟩ := Json.exists_levels_of_tagged h
      exact map_decode_encode Value.int hinner
  | float x => cases hfloats
  | text s =>
      obtain ⟨inner, rfl, hinner⟩ := Json.exists_levels_of_tagged h
      exact map_decode_encode Value.text hinner
  | blob bytes =>
      obtain ⟨inner, rfl, hinner⟩ := Json.exists_levels_of_tagged h
      exact map_decode_encode Value.blob hinner

theorem decode_encode_values {values : List Value} (hfloats : values.flatMap Value.floats = [])
    {levels : Nat} (h : (encode values).nesting ≤ levels) :
    decode levels (encode values) = some values := by
  rw [List.flatMap_eq_nil_iff] at hfloats
  rw [decode_encode_list (fun value hmem _ => decode_encode_value (hfloats value hmem)) h]
  exact mapM_eq_some_self_iff.mpr fun _ _ => rfl

theorem nesting_encode_value_le (value : Value) : (encode value).nesting ≤ 2 := by
  cases value with
  | float x =>
      exact Json.nesting_tagged_le_iff.mpr
        (Nat.le_trans (Nat.le_of_eq (nesting_encode_binary64 x)) (by decide))
  | blob bytes =>
      exact Json.nesting_tagged_le_iff.mpr (nesting_encode_list_le fun _ _ => Nat.le_refl 0)
  | _ => exact Nat.le_of_ble_eq_true rfl

/-! ## Conditions -/

instance : LawfulDescriptor Comparison where
  isWritable_encode op := by cases op <;> exact .string _
  decode_encode op _ _ := by cases op <;> rfl

theorem encodeConditions_eq_map (cs : List Condition) :
    encodeConditions cs = cs.map encode := by
  induction cs with
  | nil => rfl
  | cons c cs ih =>
      rw [encodeConditions, ih]
      rfl

theorem encode_junction (kind : Junction) (operands : List Condition) :
    encode (Condition.junction kind operands) =
      tagged (match kind with | .and => "And" | .or => "Or") (encode operands) := by
  show encodeCondition _ = tagged _ (.array (operands.map encode))
  cases kind <;> rw [encodeCondition, encodeConditions_eq_map]

theorem isWritable_encode_condition (c : Condition) : (encode c).IsWritable := by
  induction c using Condition.induction with
  | leaf c hleaf =>
      cases c with
      | junction | not => cases hleaf
      | _ =>
          refine isWritable_tagged (.object ?_)
          simp [isWritable_encode, isWritable_encode_value,
            isWritable_encode_list fun v _ => isWritable_encode_value v]
  | junction kind operands ih =>
      rw [encode_junction]
      exact isWritable_tagged (isWritable_encode_list ih)
  | not operand ih => exact isWritable_tagged ih

theorem decode_encode_condition {c : Condition} (hfloats : c.floats = []) {levels : Nat}
    (h : (encode c).nesting ≤ levels) : decode levels (encode c) = some c := by
  induction c using Condition.induction generalizing levels with
  | leaf c hleaf =>
      cases c with
      | junction | not => cases hleaf
      | compare column op value =>
          obtain ⟨inner, rfl, hfields⟩ := Json.exists_levels_of_tagged_object h
          simp only [List.forall_mem_cons] at hfields
          obtain ⟨hcolumn, hop, hvalue, -⟩ := hfields
          have hnone : value.floats = [] := by
            simpa [Condition.floats, Condition.literals, Condition.bindings] using hfloats
          exact make_three_eq_some Condition.compare (decode_encode column hcolumn)
            (decode_encode op hop) (decode_encode_value hnone hvalue)
      | compareColumns left op right =>
          obtain ⟨inner, rfl, hfields⟩ := Json.exists_levels_of_tagged_object h
          simp only [List.forall_mem_cons] at hfields
          obtain ⟨hleft, hop, hright, -⟩ := hfields
          exact make_three_eq_some Condition.compareColumns (decode_encode left hleft)
            (decode_encode op hop) (decode_encode right hright)
      | isNull column negated =>
          obtain ⟨inner, rfl, hfields⟩ := Json.exists_levels_of_tagged_object h
          simp only [List.forall_mem_cons] at hfields
          obtain ⟨hcolumn, hnegated, -⟩ := hfields
          exact make_two_eq_some Condition.isNull (decode_encode column hcolumn)
            (decode_encode negated hnegated)
      | within column values negated =>
          obtain ⟨inner, rfl, hfields⟩ := Json.exists_levels_of_tagged_object h
          simp only [List.forall_mem_cons] at hfields
          obtain ⟨hcolumn, hvalues, hnegated, -⟩ := hfields
          have hnone : values.flatMap Value.floats = [] := by
            simpa [Condition.floats, Condition.literals, Condition.bindings] using hfloats
          exact make_three_eq_some Condition.within (decode_encode column hcolumn)
            (decode_encode_values hnone hvalues) (decode_encode negated hnegated)
      | like column pattern negated =>
          obtain ⟨inner, rfl, hfields⟩ := Json.exists_levels_of_tagged_object h
          simp only [List.forall_mem_cons] at hfields
          obtain ⟨hcolumn, hpattern, hnegated, -⟩ := hfields
          exact make_three_eq_some Condition.like (decode_encode column hcolumn)
            (decode_encode pattern hpattern) (decode_encode negated hnegated)
      | between column low high =>
          obtain ⟨inner, rfl, hfields⟩ := Json.exists_levels_of_tagged_object h
          simp only [List.forall_mem_cons] at hfields
          obtain ⟨hcolumn, hlow, hhigh, -⟩ := hfields
          have hnone : low.floats = [] ∧ high.floats = [] := by
            simpa [Condition.floats, Condition.literals, Condition.bindings] using hfloats
          exact make_three_eq_some Condition.between (decode_encode column hcolumn)
            (decode_encode_value hnone.1 hlow) (decode_encode_value hnone.2 hhigh)
  | junction kind operands ih =>
      rw [encode_junction] at h ⊢
      obtain ⟨outer, rfl, houter⟩ := Json.exists_levels_of_tagged h
      have hnone : ∀ c ∈ operands, c.floats = [] := by
        rw [Condition.floats, Condition.literals_junction, Condition.literalsOfList_eq_flatMap,
          List.flatMap_map, List.flatMap_assoc, List.flatMap_eq_nil_iff] at hfloats
        exact hfloats
      have hoperands : decode outer (encode operands) = some operands := by
        rw [decode_encode_list (fun c hmem _ => ih c hmem (hnone c hmem)) houter]
        exact mapM_eq_some_self_iff.mpr fun _ _ => rfl
      obtain ⟨inner, rfl, -⟩ := Json.exists_levels_of_array houter
      have hread := congrArg (Option.map (Condition.junction kind)) hoperands
      cases kind <;> exact hread
  | not operand ih =>
      obtain ⟨inner, rfl, hinner⟩ := Json.exists_levels_of_tagged h
      show (decode inner (encode operand)).map Condition.not = some (.not operand)
      rw [ih hfloats hinner]
      rfl

/-! ## Orders, joins and scopes -/

instance : LawfulDescriptor Direction where
  isWritable_encode direction := by cases direction <;> exact .string _
  decode_encode direction _ _ := by cases direction <;> rfl

instance : LawfulDescriptor SortKey where
  isWritable_encode key := .object (by simp [isWritable_encode])
  decode_encode key levels h := by
    obtain ⟨inner, rfl, hfields⟩ := Json.exists_levels_of_object h
    simp only [List.forall_mem_cons] at hfields
    obtain ⟨hcolumn, hdirection, -⟩ := hfields
    exact make_two_eq_some SortKey.mk (decode_encode key.column hcolumn)
      (decode_encode key.direction hdirection)

instance : LawfulDescriptor Order where
  isWritable_encode order := .object (by simp [isWritable_encode])
  decode_encode order levels h := by
    obtain ⟨inner, rfl, hfields⟩ := Json.exists_levels_of_object h
    have hkeys := hfields _ List.mem_cons_self
    show (do return ⟨← decode inner (encode order.keys)⟩ : Option Order) = some order
    rw [decode_encode _ hkeys]
    rfl

theorem nesting_encode_order_le (order : Order) : (encode order).nesting ≤ 3 := by
  refine Json.nesting_object_le_iff.mpr (List.forall_mem_singleton.mpr ?_)
  refine nesting_encode_list_le fun key _ => Json.nesting_object_le_iff.mpr ?_
  simp only [List.forall_mem_cons]
  refine ⟨Nat.zero_le 0, ?_, List.forall_mem_nil _⟩
  cases key.direction <;> exact Nat.zero_le 0

instance : LawfulDescriptor JoinKind where
  isWritable_encode kind := by cases kind <;> exact .string _
  decode_encode kind _ _ := by cases kind <;> rfl

theorem isWritable_encode_join (join : Join) : (encode join).IsWritable :=
  .object (by simp [isWritable_encode, isWritable_encode_condition])

theorem decode_encode_join {join : Join} (hfloats : join.floats = []) {levels : Nat}
    (h : (encode join).nesting ≤ levels) : decode levels (encode join) = some join := by
  obtain ⟨inner, rfl, hfields⟩ := Json.exists_levels_of_object h
  simp only [List.forall_mem_cons] at hfields
  obtain ⟨hkind, htarget, hon, -⟩ := hfields
  exact make_three_eq_some Join.mk (decode_encode join.kind hkind)
    (decode_encode join.target htarget) (decode_encode_condition hfloats hon)

theorem encode_condition_ne_null (c : Condition) : encode c ≠ .null := by
  cases c with
  | junction kind operands =>
      rw [encode_junction]
      exact nofun
  | _ => exact nofun

theorem isWritable_encode_scope (scope : Scope) : (encode scope).IsWritable := by
  obtain ⟨condition, order, limit⟩ := scope
  refine .object ?_
  simp only [List.forall_mem_cons]
  refine ⟨?_, ?_, isWritable_encode limit, List.forall_mem_nil _⟩
  · cases condition with
    | none => exact .null
    | some c => exact isWritable_encode_condition c
  · cases order with
    | none => exact .null
    | some order => exact isWritable_encode order

theorem decode_encode_scope {scope : Scope} (hfloats : scope.floats = []) {levels : Nat}
    (h : (encode scope).nesting ≤ levels) : decode levels (encode scope) = some scope := by
  obtain ⟨condition, order, limit⟩ := scope
  obtain ⟨inner, rfl, hfields⟩ := Json.exists_levels_of_object h
  simp only [List.forall_mem_cons] at hfields
  obtain ⟨hcondition, horder, hlimit, -⟩ := hfields
  have hconditionRead : decode inner (encode condition) = some condition := by
    cases condition with
    | none => rfl
    | some c =>
        have hnone : c.floats = [] := by simpa [Scope.floats] using hfloats
        exact (decode_option_of_ne_null (encode_condition_ne_null c) inner).trans
          (congrArg (Option.map some) (decode_encode_condition hnone hcondition))
  have horderRead : decode inner (encode order) = some order := by
    cases order with
    | none => rfl
    | some order => exact congrArg (Option.map some) (decode_encode order horder)
  exact make_three_eq_some Scope.mk hconditionRead horderRead (decode_encode limit hlimit)

end Descriptor

end Relational
