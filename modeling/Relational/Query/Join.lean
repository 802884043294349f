import Relational.Query.Condition

/-!
# Joins

Joined tables.
-/

namespace Relational.Query

/-- Which rows without a partner a join keeps. -/
inductive JoinKind where
  | inner
  | leftOuter
  | rightOuter
  | fullOuter
  deriving DecidableEq, Hashable

/-- The SQL keywords. -/
def JoinKind.keyword : JoinKind → String
  | .inner => "JOIN"
  | .leftOuter => "LEFT OUTER JOIN"
  | .rightOuter => "RIGHT OUTER JOIN"
  | .fullOuter => "FULL OUTER JOIN"

/-- A table joined on a condition. -/
structure Join where
  kind : JoinKind
  target : String
  on : Condition
  deriving DecidableEq, Hashable

namespace Join

/-- Joins the rows that match. -/
def inner (target : String) (on : Condition) : Join := ⟨.inner, target, on⟩

/-- Keeps the rows of the left side that match nothing. -/
def leftOuter (target : String) (on : Condition) : Join := ⟨.leftOuter, target, on⟩

/-- Keeps the rows of the right side that match nothing. -/
def rightOuter (target : String) (on : Condition) : Join := ⟨.rightOuter, target, on⟩

/-- Keeps the rows of both sides that match nothing. -/
def fullOuter (target : String) (on : Condition) : Join := ⟨.fullOuter, target, on⟩

/-- Writes a join.  Its target is checked before its condition. -/
def render (resolver : Option Resolver) (join : Join) : Except Error Statement :=
  let keyword := join.kind.keyword
  if join.target = "" then .error (.invalidArgument "empty join target" keyword)
  else if resolver.any fun r => !r.catalog.hasTable join.target then
    .error (.unknownColumn join.target "*" (keyword ++ " " ++ join.target))
  else
    match join.on.render resolver with
    | .error e => .error e
    | .ok on => .ok ⟨keyword ++ " " ++ join.target ++ " ON " ++ on.sql, on.params⟩

/-- The SQL of a join, with any names. -/
def build (join : Join) : Except Error Statement := join.render none

/-- The SQL of a join whose names are all known to the catalog; unqualified
columns belong to `table`. -/
def buildChecked (join : Join) (catalog : Catalog) (table : String) : Except Error Statement :=
  join.render (some ⟨catalog, table⟩)

end Join

end Relational.Query
