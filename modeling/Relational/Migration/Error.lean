import Relational.Migration.Operation
import Relational.Query.Error

/-!
# Errors of migrations

Why a migration cannot be planned, written, run or read.
-/

namespace Relational.Migration

/-- A reason why a migration fails. -/
inductive Error where
  | query (error : Query.Error)
  /-- A statement of an operation failed, after other operations were
  completed. -/
  | failed (operation : Operation) (sql : String) (completed : List Operation)
      (rolledBack : Bool) (cause : String)
  | unsupported (operation dialect : String)
  | invalidState (text : String)
  /-- A database failed outside of the statements of a migration. -/
  | database (text : String)
  | io (text : String)
  /-- A text is not the JSON form of a migration; `text` is what its reader says of it. -/
  | unreadable (text : String)
  deriving DecidableEq

/-- The text shown for an error. -/
def Error.message : Error → String
  | .query error => "Query error: " ++ error.message
  | .failed operation sql completed rolledBack cause =>
      "Migration failed at '" ++ operation.description ++ "' (" ++
        toString completed.length ++ " operation(s) completed, rolled back: " ++
        (if rolledBack then "true" else "false") ++ "): " ++ cause ++ "\n  SQL: " ++ sql
  | .unsupported operation dialect =>
      "Operation '" ++ operation ++ "' is not supported by the " ++ dialect ++ " dialect"
  | .invalidState text => "Invalid migration state: " ++ text
  | .database text => "Database error: " ++ text
  | .io text => "IO error: " ++ text
  | .unreadable text => "Serialization error: " ++ text

end Relational.Migration
