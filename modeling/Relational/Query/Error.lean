/-!
# Errors of queries

What can be wrong with a query or with a declared index.
-/

namespace Relational.Query

/-- A reason why no statement is produced.  The fragment is the part of the
statement that was being written. -/
inductive Error where
  | invalidArgument (message fragment : String)
  | unknownColumn (table column fragment : String)
  | rejected (column message : String)
  deriving DecidableEq

/-- The text shown for an error. -/
def Error.message : Error → String
  | .invalidArgument message fragment =>
      "invalid argument: " ++ message ++ " (in `" ++ fragment ++ "`)"
  | .unknownColumn table column fragment =>
      "unknown column '" ++ column ++ "' on table '" ++ table ++ "' (in `" ++ fragment ++ "`)"
  | .rejected column message =>
      "validation failed for '" ++ column ++ "': " ++ message

end Relational.Query
