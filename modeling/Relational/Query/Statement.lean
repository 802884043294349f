import Relational.Value

/-!
# Statements with placeholders

SQL text with placeholders and the values bound to them.
-/

namespace Relational.Query

/-- A piece of SQL, with the values of its placeholders from left to right. -/
structure Statement where
  sql : String
  params : List Value
  deriving DecidableEq

end Relational.Query
