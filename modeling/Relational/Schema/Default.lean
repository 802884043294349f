import Relational.Binary64.Text
import Relational.Schema.ColumnType
import Relational.Text.Doubled

/-!
# Default values

Default values of columns, as SQL and as the database reports them.
-/

namespace Relational.Schema

/-- The default value of a column. -/
inductive Default where
  | unset
  | null
  | bool (value : Bool)
  | integer (value : Int64)
  | float (value : Binary64)
  | string (text : String)
  | expression (sql : String)
  deriving DecidableEq

namespace Default

/-- Whether there is no default value. -/
def isUnset : Default → Bool
  | .unset => true
  | _ => false

/-- A string literal: apostrophes inside are doubled. -/
def stringLiteral (text : String) : String :=
  String.ofList ('\'' :: (Text.double '\'' text.toList ++ ['\'']))

/-- The SQL of a default value. -/
def toSql : Default → Option String
  | .unset => none
  | .null => some "NULL"
  | .bool value => some (if value then "1" else "0")
  | .integer value => some (toString value.toInt)
  | .float value => some (String.ofList value.toText)
  | .string text => some (stringLiteral text)
  | .expression sql => some sql

/-- Reads trimmed SQL: null, an integer, a floating-point number, text between
apostrophes, and otherwise an expression. -/
def ofTrimmed (cs : List Char) : Default :=
  if Text.sameLetters cs ['N', 'U', 'L', 'L'] then .null
  else
    match Text.readInt64 cs with
    | some value => .integer value
    | none =>
        match Binary64.ofText cs with
        | some value => .float value
        | none =>
            match Text.between '\'' '\'' cs with
            | some inner => .string (String.ofList (Text.halve '\'' inner))
            | none => .expression (String.ofList cs)

/-- Reads a default value as the database reports it. -/
def ofSql : Option String → Default
  | none => .unset
  | some sql => ofTrimmed (Text.trim sql.toList)

/-- Reads the default value of a column of some type.  Truth values are stored
as zero and one. -/
def ofSqlTyped (sql : Option String) (type : ColumnType) : Default :=
  match ofSql sql, type with
  | .integer value, .boolean =>
      if value = 0 then .bool false else if value = 1 then .bool true else .integer value
  | value, _ => value

/-- Equality of default values in which floating-point values are compared as
numbers. -/
def agrees : Default → Default → Bool
  | .float x, .float y => x.sameNumber y
  | a, b => a == b

end Default

end Relational.Schema
