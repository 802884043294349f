import Relational.Query.Condition
import Relational.Query.Order

/-!
# Scopes

Which rows a query is about: a condition, an order and a limit.
-/

namespace Relational.Query

/-- The limit that means no limit. -/
def noLimit : Int64 := -1

/-- The rows that a query is about. -/
structure Scope where
  condition : Option Condition
  order : Option Order
  limit : Int64
  deriving DecidableEq, Hashable

namespace Scope

/-- All rows in any order. -/
def everything : Scope := ⟨none, none, noLimit⟩

instance : Inhabited Scope := ⟨everything⟩

/-- Whether there is no limit. -/
def isUnbounded (scope : Scope) : Bool := scope.limit == noLimit

end Scope

end Relational.Query
