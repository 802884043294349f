import Relational.Text.Blank
import Relational.Text.Letters
import Relational.Text.Number
import Relational.Text.Split

/-!
# Column types

Column types and their declared names.
-/

namespace Relational.Schema

/-- A logical column type.  A custom type is kept as it was declared. -/
inductive ColumnType where
  | integer
  | bigInt
  | smallInt
  | text
  | varchar (length : UInt32)
  | boolean
  | real
  | double
  | decimal (precision scale : UInt8)
  | blob
  | timestamp
  | date
  | custom (name : String)
  deriving DecidableEq

namespace ColumnType

/-- The declared name. -/
def sqlName : ColumnType → String
  | .integer => "INTEGER"
  | .bigInt => "BIGINT"
  | .smallInt => "SMALLINT"
  | .text => "TEXT"
  | .varchar length => "VARCHAR(" ++ toString length.toNat ++ ")"
  | .boolean => "BOOLEAN"
  | .real => "REAL"
  | .double => "DOUBLE"
  | .decimal precision scale =>
      "DECIMAL(" ++ toString precision.toNat ++ "," ++ toString scale.toNat ++ ")"
  | .blob => "BLOB"
  | .timestamp => "TIMESTAMP"
  | .date => "DATE"
  | .custom name => name

/-- The types whose name stands alone, by upper-case name. -/
def plainNames : List (String × ColumnType) :=
  [("INTEGER", .integer), ("INT", .integer), ("BIGINT", .bigInt), ("SMALLINT", .smallInt),
   ("TEXT", .text), ("BOOLEAN", .boolean), ("BOOL", .boolean), ("REAL", .real),
   ("DOUBLE", .double), ("BLOB", .blob), ("TIMESTAMP", .timestamp), ("DATE", .date)]

/-- The text before a closing parenthesis at the very end. -/
def beforeClosing (cs : List Char) : Option (List Char) :=
  if cs.getLast? = some ')' then some cs.dropLast else none

/-- A name and, if it is followed by a parenthesis that the end of the text
closes, what stands in the parentheses. -/
def splitArguments (cs : List Char) : List Char × Option (List Char) :=
  match Text.cut '(' cs with
  | some (name, rest) => (Text.trim name, beforeClosing rest)
  | none => (cs, none)

/-- The type of an upper-case name with its arguments. -/
def ofParts (name : String) (arguments : Option (List Char)) : Option ColumnType :=
  match arguments with
  | none => plainNames.lookup name
  | some arguments =>
      if name = "VARCHAR" then
        (Text.readBelow UInt32.size (Text.trim arguments)).map fun n => .varchar (UInt32.ofNat n)
      else if name = "DECIMAL" then do
        let (precision, scale) ← Text.cut ',' arguments
        let precision ← Text.readBelow UInt8.size (Text.trim precision)
        let scale ← Text.readBelow UInt8.size (Text.trim scale)
        return .decimal (UInt8.ofNat precision) (UInt8.ofNat scale)
      else none

/-- Reads a declared name in any letter case.  What is no known type is a
custom one. -/
def parse (declared : String) : ColumnType :=
  let trimmed := Text.trim declared.toList
  let (name, arguments) := splitArguments (Text.upper trimmed)
  match ofParts (String.ofList name) arguments with
  | some type => type
  | none => .custom (String.ofList trimmed)

end ColumnType

end Relational.Schema
