/-!
# Events

Events that are reported while migrations are planned and run.
-/

namespace Relational.Migration

/-- How important an event is. -/
inductive Level where
  | debug
  | info
  | warn
  deriving DecidableEq

/-- An event with its fields in order. -/
structure Event where
  level : Level
  message : String
  fields : List (String × String)
  deriving DecidableEq

end Relational.Migration
