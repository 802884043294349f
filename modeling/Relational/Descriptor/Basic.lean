import Relational.Json.Number
import Relational.Json.Reader
import Relational.Json.Writer

/-!
# Descriptors

Descriptors: values as JSON.

A record is written as an object with its fields in order.  It is read from an
object with any further fields, or from an array of its fields.  A choice is
written as its name, or as an object from its name to what it carries.

Reading is limited in depth: each list, object or choice that is looked into
uses up one level of nesting.  Fields that are passed over have no limit.
-/

namespace Relational

/-- Types with a JSON form.  Reading takes the number of levels of nesting that
may still be opened. -/
class Descriptor (α : Type) where
  encode : α → Json
  decode : Nat → Json → Option α

namespace Descriptor

/-- The number of levels of nesting in a text. -/
def nestingLimit : Nat := 127

section

variable {α : Type} [Descriptor α]

/-- The JSON text on one line. -/
def toText (a : α) : String := (encode a).compact

/-- The indented JSON text. -/
def toPrettyText (a : α) : String := (encode a).pretty

/-- Reads a JSON value. -/
def ofJson (json : Json) : Option α := decode nestingLimit json

/-- Reads a JSON text. -/
def ofText (text : String) : Option α := (Json.ofText text.toList).bind ofJson

end

instance : Descriptor String where
  encode s := .string s
  decode
    | _, .string s => some s
    | _, _ => none

instance : Descriptor Bool where
  encode b := .bool b
  decode
    | _, .bool b => some b
    | _, _ => none

/-- Reads an integer with given bounds. -/
def decodeInt (low high : Int) : Json → Option Int
  | .number n => n.toInt?.filter fun i => low ≤ i ∧ i ≤ high
  | _ => none

instance : Descriptor Int64 where
  encode i := .number (.ofInt i.toInt)
  decode _ json := (decodeInt Int64.minValue.toInt Int64.maxValue.toInt json).map Int64.ofInt

instance : Descriptor UInt32 where
  encode n := .number (.ofNat n.toNat)
  decode _ json := (decodeInt 0 (UInt32.size - 1) json).map fun i => UInt32.ofNat i.toNat

instance : Descriptor UInt8 where
  encode n := .number (.ofNat n.toNat)
  decode _ json := (decodeInt 0 (UInt8.size - 1) json).map fun i => UInt8.ofNat i.toNat

/-- A number that is not finite is written as null, which is not read back. -/
instance : Descriptor Binary64 where
  encode x := if x.isFinite then .number (.ofBinary64 x) else .null
  decode
    | _, .number n => n.toBinary64?
    | _, _ => none

instance {α : Type} [Descriptor α] : Descriptor (List α) where
  encode items := .array (items.map encode)
  decode
    | levels + 1, .array items => items.mapM (decode levels)
    | _, _ => none

instance {α : Type} [Descriptor α] : Descriptor (Option α) where
  encode
    | some a => encode a
    | none => .null
  decode
    | _, .null => some none
    | levels, json => (decode levels json).map some

/-- What is written for a field of a record: its value, nothing among named
fields, or nothing because a list of fields has ended. -/
inductive Supplied where
  | given (json : Json)
  | absent
  | cut

/-- What is written for the named fields of a record, and the levels of nesting
that are left inside.  A list must not be longer than the record, and an
object must not repeat a field of the record. -/
def supplied (names : List String) : Nat → Json → Option (Nat × List Supplied)
  | levels + 1, .object fields =>
      if names.all fun name => fields.countP (fun field => field.1 == name) ≤ 1 then
        some (levels, names.map fun name =>
          match fields.lookup name with
          | some json => .given json
          | none => .absent)
      else none
  | levels + 1, .array items =>
      if items.length ≤ names.length then
        some (levels, items.map .given ++ List.replicate (names.length - items.length) .cut)
      else none
  | _, _ => none

namespace Supplied

variable {α : Type} [Descriptor α]

/-- Reads a field that must be written. -/
def required (levels : Nat) : Supplied → Option α
  | .given json => decode levels json
  | _ => none

/-- Reads a field that may be null, and that may be left out of an object. -/
def optional (levels : Nat) : Supplied → Option (Option α)
  | .given json => decode levels json
  | .absent => some none
  | .cut => none

/-- Reads a field with a value for when it is left out. -/
def orElse (default : α) (levels : Nat) : Supplied → Option α
  | .given json => decode levels json
  | _ => some default

end Supplied

/-- The name of a choice, what it carries, and the levels of nesting that are
left inside. -/
def choice : Nat → Json → Option (Nat × String × Option Json)
  | levels, .string name => some (levels, name, none)
  | levels + 1, .object [(name, json)] => some (levels, name, some json)
  | _, _ => none

/-- Whether a choice carries nothing; a null counts as nothing. -/
def carriesNothing : Option Json → Bool
  | none => true
  | some .null => true
  | some _ => false

/-- A choice that carries something. -/
def tagged (name : String) (json : Json) : Json := .object [(name, json)]

/-- Reads a choice among names that carry nothing. -/
def decodeName {α : Type} (names : List (String × α)) (levels : Nat) (json : Json) :
    Option α := do
  let (_, name, carried) ← choice levels json
  if carriesNothing carried then names.lookup name else none

end Descriptor

end Relational
