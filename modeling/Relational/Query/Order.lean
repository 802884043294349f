import Relational.Query.Catalog

/-!
# Sort orders

Sort keys and the order they make up.
-/

namespace Relational.Query

/-- The direction of a sort key. -/
inductive Direction where
  | ascending
  | descending
  deriving DecidableEq, Hashable

/-- The SQL keyword. -/
def Direction.keyword : Direction → String
  | .ascending => "ASC"
  | .descending => "DESC"

/-- A column to sort by. -/
structure SortKey where
  column : String
  direction : Direction
  deriving DecidableEq, Hashable

namespace SortKey

/-- Sorts a column upwards. -/
def asc (column : String) : SortKey := ⟨column, .ascending⟩

/-- Sorts a column downwards. -/
def desc (column : String) : SortKey := ⟨column, .descending⟩

/-- Reads `name` as ascending and `-name` as descending. -/
def parse (spec : String) : SortKey :=
  match spec.toList with
  | '-' :: column => desc (String.ofList column)
  | _ => asc spec

/-- The column and its direction. -/
def sql (key : SortKey) : String := key.column ++ " " ++ key.direction.keyword

end SortKey

/-- Sort keys, the most significant first. -/
structure Order where
  keys : List SortKey
  deriving DecidableEq, Hashable

namespace Order

/-- The order without keys. -/
def empty : Order := ⟨[]⟩

/-- Adds a less significant key. -/
def thenBy (order : Order) (key : SortKey) : Order := ⟨order.keys ++ [key]⟩

/-- Adds an ascending key. -/
def sortAscending (order : Order) (column : String) : Order := order.thenBy (.asc column)

/-- Adds a descending key. -/
def sortDescending (order : Order) (column : String) : Order := order.thenBy (.desc column)

/-- Reads each key as `SortKey.parse` does. -/
def parse (specs : List String) : Order := ⟨specs.map SortKey.parse⟩

/-- Writes an order; one without keys is empty text. -/
def render (resolver : Option Resolver) (order : Order) : Except Error String :=
  if order.keys = [] then .ok ""
  else
    match order.keys.forM fun key => checkColumn resolver key.column key.sql with
    | .error e => .error e
    | .ok () => .ok ("ORDER BY " ++ ", ".intercalate (order.keys.map SortKey.sql))

/-- The SQL of an order, with any column names. -/
def build (order : Order) : Except Error String := order.render none

/-- The SQL of an order whose columns are all known to the catalog. -/
def buildChecked (order : Order) (catalog : Catalog) (table : String) : Except Error String :=
  order.render (some ⟨catalog, table⟩)

end Order

end Relational.Query
