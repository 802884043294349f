import Relational.Descriptor.Basic
import Relational.Proofs.Json.Float
import Relational.Proofs.Json.Recovery

/-!
# Descriptors are read back

What a descriptor writes, it reads, as long as enough levels of nesting are left.

A descriptor is lawful if it reads each value back from the tree that it writes, and if
this tree stands for a text.  The laws are those of one level: a record leaves its
fields one level less than it has, and a list its items.
-/

namespace Relational

namespace Json

mutual

/-- How many lists and objects are open at most at one place of the text. -/
def nesting : Json → Nat
  | .array items => nestingOfItems items + 1
  | .object fields => nestingOfFields fields + 1
  | _ => 0

/-- How many are open at most inside of a list. -/
def nestingOfItems : List Json → Nat
  | [] => 0
  | item :: items => max (nesting item) (nestingOfItems items)

/-- How many are open at most inside of an object. -/
def nestingOfFields : List (String × Json) → Nat
  | [] => 0
  | (_, value) :: fields => max (nesting value) (nestingOfFields fields)

end

theorem nestingOfItems_le_iff {items : List Json} {n : Nat} :
    nestingOfItems items ≤ n ↔ ∀ item ∈ items, item.nesting ≤ n := by
  induction items with
  | nil => simp [nestingOfItems]
  | cons item items ih => simp [nestingOfItems, ih]

theorem nestingOfFields_le_iff {fields : List (String × Json)} {n : Nat} :
    nestingOfFields fields ≤ n ↔ ∀ field ∈ fields, field.2.nesting ≤ n := by
  induction fields with
  | nil => simp [nestingOfFields]
  | cons field fields ih => simp [nestingOfFields, ih]

theorem nesting_array_le_iff {items : List Json} {n : Nat} :
    (array items).nesting ≤ n + 1 ↔ ∀ item ∈ items, item.nesting ≤ n := by
  rw [nesting, Nat.add_le_add_iff_right, nestingOfItems_le_iff]

theorem nesting_object_le_iff {fields : List (String × Json)} {n : Nat} :
    (object fields).nesting ≤ n + 1 ↔ ∀ field ∈ fields, field.2.nesting ≤ n := by
  rw [nesting, Nat.add_le_add_iff_right, nestingOfFields_le_iff]

/-- Something is open in a list, so one level at least is needed. -/
theorem exists_levels_of_array {items : List Json} {levels : Nat}
    (h : (array items).nesting ≤ levels) :
    ∃ inner, levels = inner + 1 ∧ ∀ item ∈ items, item.nesting ≤ inner := by
  cases levels with
  | zero => simp [nesting] at h
  | succ inner => exact ⟨inner, rfl, nesting_array_le_iff.mp h⟩

theorem exists_levels_of_object {fields : List (String × Json)} {levels : Nat}
    (h : (object fields).nesting ≤ levels) :
    ∃ inner, levels = inner + 1 ∧ ∀ field ∈ fields, field.2.nesting ≤ inner := by
  cases levels with
  | zero => simp [nesting] at h
  | succ inner => exact ⟨inner, rfl, nesting_object_le_iff.mp h⟩

/-- What a choice carries has one level less. -/
theorem exists_levels_of_tagged {name : String} {json : Json} {levels : Nat}
    (h : (Descriptor.tagged name json).nesting ≤ levels) :
    ∃ inner, levels = inner + 1 ∧ json.nesting ≤ inner := by
  obtain ⟨inner, hlevels, hfields⟩ := exists_levels_of_object h
  exact ⟨inner, hlevels, hfields (name, json) List.mem_cons_self⟩

/-- A choice with named fields uses two levels. -/
theorem exists_levels_of_tagged_object {name : String} {fields : List (String × Json)}
    {levels : Nat} (h : (Descriptor.tagged name (.object fields)).nesting ≤ levels) :
    ∃ inner, levels = inner + 2 ∧ ∀ field ∈ fields, field.2.nesting ≤ inner := by
  obtain ⟨outer, rfl, houter⟩ := exists_levels_of_tagged h
  obtain ⟨inner, rfl, hfields⟩ := exists_levels_of_object houter
  exact ⟨inner, rfl, hfields⟩

theorem nesting_tagged_le_iff {name : String} {json : Json} {n : Nat} :
    (Descriptor.tagged name json).nesting ≤ n + 1 ↔ json.nesting ≤ n := by
  rw [Descriptor.tagged, nesting_object_le_iff, List.forall_mem_singleton]

end Json

namespace Binary64

/-- The number that is read where a number has been written, if one is. -/
def reread (x : Binary64) : Option Binary64 :=
  if x.isFinite then (Numeral.ofBinary64 x).toBinary64? else none

/-- Exactly the finite numbers are read back as some number. -/
theorem isSome_reread_iff {x : Binary64} : x.reread.isSome = true ↔ x.isFinite = true := by
  unfold reread
  split
  · next h => exact ⟨fun _ => h, fun _ => toBinary64?_ofBinary64_isSome h⟩
  · next h => exact ⟨nofun, fun hfinite => absurd hfinite h⟩

end Binary64

/-- A descriptor that reads what it writes. -/
class LawfulDescriptor (α : Type) [Descriptor α] : Prop where
  isWritable_encode (a : α) : (Descriptor.encode a).IsWritable
  decode_encode (a : α) {levels : Nat} (h : (Descriptor.encode a).nesting ≤ levels) :
    Descriptor.decode levels (Descriptor.encode a) = some a

namespace Descriptor

export LawfulDescriptor (isWritable_encode decode_encode)

theorem isWritable_tagged {name : String} {json : Json} (h : json.IsWritable) :
    (tagged name json).IsWritable :=
  .object (List.forall_mem_singleton.mpr h)

theorem map_decode_encode {α β : Type} [Descriptor α] [LawfulDescriptor α] (f : α → β) {a : α}
    {levels : Nat} (h : (encode a).nesting ≤ levels) :
    (decode levels (encode a)).map f = some (f a) := by
  rw [decode_encode a h, Option.map_some]

/-! ## Texts -/

section

variable {α : Type} [Descriptor α] {a : α}

/-- Reading a text is reading the tree that it was written from, in either layout. -/
theorem ofText_toText (h : (encode a).IsWritable) :
    (ofText (toText a) : Option α) = decode nestingLimit (encode a) := by
  unfold ofText toText Json.compact
  rw [String.toList_ofList, Json.ofText_write h, Option.bind_some]
  rfl

theorem ofText_toPrettyText (h : (encode a).IsWritable) :
    (ofText (toPrettyText a) : Option α) = decode nestingLimit (encode a) := by
  unfold ofText toPrettyText Json.pretty
  rw [String.toList_ofList, Json.ofText_write h, Option.bind_some]
  rfl

/-- The value is read from both of its texts. -/
def ReadsBack (a : α) : Prop :=
  ofText (toText a) = some a ∧ ofText (toPrettyText a) = some a

theorem readsBack_of_decode (h : (encode a).IsWritable)
    (hdecode : decode nestingLimit (encode a) = some a) : ReadsBack a :=
  ⟨(ofText_toText h).trans hdecode, (ofText_toPrettyText h).trans hdecode⟩

end

/-! ## Simple values -/

instance : LawfulDescriptor String where
  isWritable_encode s := .string s
  decode_encode _ _ _ := rfl

instance : LawfulDescriptor Bool where
  isWritable_encode b := .bool b
  decode_encode _ _ _ := rfl

theorem decodeInt_ofInt {low high i : Int} (hlow : low ≤ i) (hhigh : i ≤ high) :
    decodeInt low high (.number (.ofInt i)) = some i := by
  rw [decodeInt, Numeral.toInt?_ofInt, Option.filter_some, if_pos (by simp [hlow, hhigh])]

instance : LawfulDescriptor Int64 where
  isWritable_encode i := .number (Numeral.isWellFormed_ofInt i.toInt)
  decode_encode i _ _ := by
    show (decodeInt Int64.minValue.toInt Int64.maxValue.toInt (.number (.ofInt i.toInt))).map
      Int64.ofInt = some i
    rw [decodeInt_ofInt i.minValue_le_toInt i.toInt_le, Option.map_some, Int64.ofInt_toInt]

instance : LawfulDescriptor UInt32 where
  isWritable_encode n := .number (Numeral.isWellFormed_ofNat n.toNat)
  decode_encode n _ _ := by
    have hhigh := n.toNat_lt_size
    show (decodeInt 0 (UInt32.size - 1) (.number (.ofInt n.toNat))).map _ = some n
    rw [decodeInt_ofInt (by omega) (by omega), Option.map_some]
    simp

instance : LawfulDescriptor UInt8 where
  isWritable_encode n := .number (Numeral.isWellFormed_ofNat n.toNat)
  decode_encode n _ _ := by
    have hhigh := n.toNat_lt_size
    show (decodeInt 0 (UInt8.size - 1) (.number (.ofInt n.toNat))).map _ = some n
    rw [decodeInt_ofInt (by omega) (by omega), Option.map_some]
    simp

/-! ## Floating-point numbers -/

theorem isWritable_encode_binary64 (x : Binary64) : (encode x).IsWritable := by
  show (if x.isFinite then Json.number (.ofBinary64 x) else .null).IsWritable
  split
  · next h => exact .number (Binary64.isWellFormed_ofBinary64 h)
  · exact .null

theorem decode_encode_binary64 (x : Binary64) (levels : Nat) :
    decode levels (encode x) = x.reread := by
  show decode levels (if x.isFinite then Json.number (.ofBinary64 x) else .null) = x.reread
  unfold Binary64.reread
  split <;> rfl

theorem nesting_encode_binary64 (x : Binary64) : (encode x).nesting = 0 := by
  show (if x.isFinite then Json.number (.ofBinary64 x) else .null).nesting = 0
  split <;> rfl

/-! ## Lists -/

theorem mapM_eq_some_self_iff {α : Type} {f : α → Option α} {items : List α} :
    items.mapM f = some items ↔ ∀ a ∈ items, f a = some a := by
  induction items with
  | nil => simp
  | cons a items ih =>
      rw [List.forall_mem_cons, ← ih, List.mapM_cons]
      cases f a <;> cases items.mapM f <;> simp

theorem isSome_mapM_iff {α β : Type} {f : α → Option β} {items : List α} :
    (items.mapM f).isSome = true ↔ ∀ a ∈ items, (f a).isSome = true := by
  induction items with
  | nil => simp
  | cons a items ih =>
      rw [List.forall_mem_cons, ← ih, List.mapM_cons]
      cases f a <;> cases items.mapM f <;> simp

section

variable {α : Type} [Descriptor α]

theorem isWritable_encode_list {items : List α} (h : ∀ a ∈ items, (encode a).IsWritable) :
    (encode items).IsWritable := by
  refine .array ?_
  simpa using h

/-- A list is read as its items are. -/
theorem decode_encode_list {items : List α} {levels : Nat} {reread : α → Option α}
    (hitems : ∀ a ∈ items, ∀ inner, (encode a).nesting ≤ inner →
      decode inner (encode a) = reread a)
    (h : (encode items).nesting ≤ levels) :
    decode levels (encode items) = items.mapM reread := by
  obtain ⟨inner, rfl, hinner⟩ := Json.exists_levels_of_array h
  rw [List.forall_mem_map] at hinner
  show (items.map encode).mapM (decode inner) = items.mapM reread
  clear h
  induction items with
  | nil => rfl
  | cons a items ih =>
      rw [List.forall_mem_cons] at hitems hinner
      rw [List.map_cons, List.mapM_cons, List.mapM_cons, hitems.1 inner hinner.1,
        ih hitems.2 hinner.2]

instance [LawfulDescriptor α] : LawfulDescriptor (List α) where
  isWritable_encode _ := isWritable_encode_list fun a _ => isWritable_encode a
  decode_encode _ _ h := by
    rw [decode_encode_list (fun a _ _ => decode_encode a) h, mapM_eq_some_self_iff]
    exact fun _ _ => rfl

theorem nesting_encode_list_le {items : List α} {n : Nat}
    (h : ∀ a ∈ items, (encode a).nesting ≤ n) : (encode items).nesting ≤ n + 1 := by
  refine Json.nesting_array_le_iff.mpr ?_
  rwa [List.forall_mem_map]

/-! ## Optional values -/

/-- What is not null is read as a value that is there. -/
theorem decode_option_of_ne_null {json : Json} (h : json ≠ .null) (levels : Nat) :
    (decode levels json : Option (Option α)) = (decode levels json).map some := by
  cases json with
  | null => exact absurd rfl h
  | _ => rfl

end

/-! ## Records -/

section

variable {α β γ δ : Type} {a : α} {b : β} {c : γ} {first : Option α} {second : Option β}
  {third : Option γ}

/-- What is made of two fields is read if both of them are. -/
theorem make_two_eq_some (make : α → β → δ) (hfirst : first = some a)
    (hsecond : second = some b) :
    (do return make (← first) (← second) : Option δ) = some (make a b) := by
  rw [hfirst, hsecond]
  rfl

/-- What is made of three fields is read if each of them is. -/
theorem make_three_eq_some (make : α → β → γ → δ) (hfirst : first = some a)
    (hsecond : second = some b) (hthird : third = some c) :
    (do return make (← first) (← second) (← third) : Option δ) = some (make a b c) := by
  rw [hfirst, hsecond, hthird]
  rfl

end

end Descriptor

end Relational
