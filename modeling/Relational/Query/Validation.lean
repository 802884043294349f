import Relational.Query.Condition

/-!
# Validation of literals

Checking the literals of a condition before it is used.

A validator is asked about one literal after the other, from left to right,
until it rejects one.
-/

namespace Relational.Query

/-- Judges a value for a column; a rejection has a reason. -/
abbrev Validator := String → Value → Except String Unit

/-- What a validator has been asked, in order, and what came of it. -/
structure Inspection where
  asked : List (String × Value)
  result : Except Error Unit

namespace Inspection

/-- Nothing to ask. -/
def nothing : Inspection := ⟨[], .ok ()⟩

/-- One question. -/
def ask (validator : Validator) (column : String) (value : Value) : Inspection :=
  { asked := [(column, value)]
    result := match validator column value with
      | .ok () => .ok ()
      | .error message => .error (.rejected column message) }

/-- Goes on to a second inspection if the first rejected nothing. -/
def andThen (first second : Inspection) : Inspection :=
  match first.result with
  | .ok () => ⟨first.asked ++ second.asked, second.result⟩
  | .error _ => first

/-- One question for each value of a list. -/
def askAll (validator : Validator) (column : String) : List Value → Inspection
  | [] => nothing
  | value :: values => (ask validator column value).andThen (askAll validator column values)

end Inspection

namespace Condition

open Inspection

mutual

/-- Asks a validator about the literals of a condition. -/
def inspect (validator : Validator) : Condition → Inspection
  | .compare column _ value => ask validator column value
  | .compareColumns .. => nothing
  | .isNull .. => nothing
  | .within column values _ => askAll validator column values
  | .like column pattern _ => ask validator column (.text pattern)
  | .between column low high => (ask validator column low).andThen (ask validator column high)
  | .junction _ operands => inspectList validator operands
  | .not operand => inspect validator operand

/-- Asks a validator about the literals of a list of conditions. -/
def inspectList (validator : Validator) : List Condition → Inspection
  | [] => nothing
  | c :: cs => (inspect validator c).andThen (inspectList validator cs)

end

/-- Accepts a condition whose literals the validator accepts. -/
def validate (c : Condition) (validator : Validator) : Except Error Unit :=
  (c.inspect validator).result

mutual

/-- The literals of a condition with the columns they belong to, from left to
right. -/
def bindings : Condition → List (String × Value)
  | .compare column _ value => [(column, value)]
  | .compareColumns .. => []
  | .isNull .. => []
  | .within column values _ => values.map (column, ·)
  | .like column pattern _ => [(column, .text pattern)]
  | .between column low high => [(column, low), (column, high)]
  | .junction _ operands => bindingsOfList operands
  | .not operand => bindings operand

/-- The literals of a list of conditions. -/
def bindingsOfList : List Condition → List (String × Value)
  | [] => []
  | c :: cs => bindings c ++ bindingsOfList cs

end

end Condition

/-- A property that a value can be rejected for. -/
inductive ValueTest where
  | any
  | null
  | negative
  | emptyText
  | text
  | blob
  deriving DecidableEq

/-- Whether a value has the property. -/
def ValueTest.holds : ValueTest → Value → Bool
  | .any, _ => true
  | .null, .null => true
  | .negative, .int n => n < 0
  | .emptyText, .text s => s = ""
  | .text, .text _ => true
  | .blob, .blob _ => true
  | _, _ => false

/-- Rejects the values of a column, or of every column, that have a
property. -/
structure Rule where
  column : Option String
  test : ValueTest
  message : String

/-- The validator that follows the first rule that applies. -/
def Validator.ofRules (rules : List Rule) : Validator := fun column value =>
  let applies (rule : Rule) : Bool :=
    (rule.column.isNone || rule.column == some column) && rule.test.holds value
  match rules.find? applies with
  | some rule => .error rule.message
  | none => .ok ()

end Relational.Query
