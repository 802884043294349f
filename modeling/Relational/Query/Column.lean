import Relational.Query.Condition

/-!
# Conditions on a column

Conditions on one column, built from its name.
-/

namespace Relational.Query

/-- A column as it is written in SQL, with or without its table. -/
structure Column where
  name : String
  deriving DecidableEq

namespace Column

variable {α β : Type} [ToValue α] [ToValue β]

/-- The column equals a value. -/
def eq (c : Column) (value : α) : Condition := .compare c.name .eq (toValue value)

/-- The column differs from a value. -/
def notEq (c : Column) (value : α) : Condition := .compare c.name .notEq (toValue value)

/-- The column is below a value. -/
def lt (c : Column) (value : α) : Condition := .compare c.name .lt (toValue value)

/-- The column is at most a value. -/
def ltEq (c : Column) (value : α) : Condition := .compare c.name .ltEq (toValue value)

/-- The column is above a value. -/
def gt (c : Column) (value : α) : Condition := .compare c.name .gt (toValue value)

/-- The column is at least a value. -/
def gtEq (c : Column) (value : α) : Condition := .compare c.name .gtEq (toValue value)

/-- The column equals another column. -/
def eqColumn (c : Column) (other : String) : Condition := .compareColumns c.name .eq other

/-- The column differs from another column. -/
def notEqColumn (c : Column) (other : String) : Condition :=
  .compareColumns c.name .notEq other

/-- The column is below another column. -/
def ltColumn (c : Column) (other : String) : Condition := .compareColumns c.name .lt other

/-- The column is above another column. -/
def gtColumn (c : Column) (other : String) : Condition := .compareColumns c.name .gt other

/-- The column is null. -/
def isNull (c : Column) : Condition := .isNull c.name false

/-- The column is not null. -/
def isNotNull (c : Column) : Condition := .isNull c.name true

/-- The column is one of some values. -/
def inList (c : Column) (values : List α) : Condition :=
  .within c.name (values.map toValue) false

/-- The column is none of some values. -/
def notInList (c : Column) (values : List α) : Condition :=
  .within c.name (values.map toValue) true

/-- The column matches a pattern. -/
def like (c : Column) (pattern : String) : Condition := .like c.name pattern false

/-- The column does not match a pattern. -/
def notLike (c : Column) (pattern : String) : Condition := .like c.name pattern true

/-- The column has some text in it; wildcards in the text stay wildcards. -/
def contains (c : Column) (text : String) : Condition := c.like ("%" ++ text ++ "%")

/-- The column starts with some text; wildcards in the text stay wildcards. -/
def startsWith (c : Column) (text : String) : Condition := c.like (text ++ "%")

/-- The column lies between two values or equals one of them. -/
def between (c : Column) (low : α) (high : β) : Condition :=
  .between c.name (toValue low) (toValue high)

end Column

end Relational.Query
