import Relational.Migration.Backend

/-!
# Execution

Running operations against a database.

All statements are written before the first one runs.  Where the dialect allows
it, they run in one transaction, which a failure rolls back.
-/

namespace Relational.Migration

variable {σ : Type}

/-- A statement that failed, with its operation, the operations completed
before, and the error of the database. -/
structure Failure where
  operation : Operation
  sql : String
  completed : List Operation
  cause : Error

/-- Each operation with its statements. -/
def renderEach (d : Dialect) : List Operation → Except Error (List (Operation × List String))
  | [] => .ok []
  | op :: ops =>
      match d.render op with
      | .error e => .error e
      | .ok statements =>
          match renderEach d ops with
          | .error e => .error e
          | .ok rest => .ok ((op, statements) :: rest)

namespace Backend

/-- Runs statements up to the first that fails. -/
def runStatements (b : Backend σ) :
    List String → Connection σ → Option (String × Error) × Connection σ
  | [], c => (none, c)
  | sql :: rest, c =>
      match b.run (.execute sql) c with
      | (.ok (), c) => b.runStatements rest c
      | (.error e, c) => (some (sql, e), c)

/-- Runs the statements of operations up to the first that fails. -/
def runOperations (b : Backend σ) (completed : List Operation) :
    List (Operation × List String) → Connection σ → Option Failure × Connection σ
  | [], c => (none, c)
  | (op, statements) :: rest, c =>
      let c := c.report [⟨.debug, "Running operation", [("operation", op.description)]⟩]
      match b.runStatements statements c with
      | (none, c) => b.runOperations (completed ++ [op]) rest c
      | (some (sql, cause), c) => (some ⟨op, sql, completed, cause⟩, c)

/-- Ends what was begun after a failure, and says whether its effects are
gone. -/
def recover (b : Backend σ) (c : Connection σ) : Bool × Connection σ :=
  if b.dialect.isTransactional then
    match b.run .rollback c with
    | (.ok (), c) => (true, c)
    | (.error e, c) => (false, c.report [⟨.warn, "Rollback failed", [("error", e.message)]⟩])
  else (false, c)

/-- Begins a transaction if the dialect allows it. -/
def enter (b : Backend σ) (c : Connection σ) : Except Error Unit × Connection σ :=
  if b.dialect.isTransactional then b.run .begin c else (.ok (), c)

/-- Commits the transaction if the dialect allows one. -/
def leave (b : Backend σ) (c : Connection σ) : Except Error Unit × Connection σ :=
  if b.dialect.isTransactional then b.run .commit c else (.ok (), c)

/-- Runs operations with their statements, as one transaction if the dialect
allows it. -/
def runRendered (b : Backend σ) (rendered : List (Operation × List String))
    (c : Connection σ) : Except Error Unit × Connection σ :=
  match b.enter c with
  | (.error e, c) => (.error e, c)
  | (.ok (), c) =>
      match b.runOperations [] rendered c with
      | (none, c) => b.leave c
      | (some failure, c) =>
          let (rolledBack, c) := b.recover c
          (.error (.failed failure.operation failure.sql failure.completed rolledBack
            failure.cause.message), c)

/-- Runs operations.  One that the dialect cannot express fails before the
database is called. -/
def execute (b : Backend σ) (ops : List Operation) (c : Connection σ) :
    Except Error Unit × Connection σ :=
  let c := c.report (b.dialect.renderAllEvents ops)
  match renderEach b.dialect ops with
  | .error e => (.error e, c)
  | .ok rendered => b.runRendered rendered c

end Backend

end Relational.Migration
