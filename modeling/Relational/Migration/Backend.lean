import Relational.Migration.Dialect

/-!
# Databases

Databases that migrations run against, seen through the calls they answer.
-/

namespace Relational.Migration

open Schema

/-- What a database is told to do. -/
inductive Command where
  | begin
  | execute (sql : String)
  | commit
  | rollback
  deriving DecidableEq

/-- A database with states `σ`.  Every call has an answer and a next state. -/
structure Backend (σ : Type) where
  dialect : Dialect
  /-- The table with a name, if there is one. -/
  introspect : String → σ → Except Error (Option Table) × σ
  perform : Command → σ → Except Error Unit × σ

/-- Something that happened on a connection. -/
inductive Entry where
  | introspected (table : String)
  | ran (command : Command) (succeeded : Bool)
  | reported (event : Event)
  deriving DecidableEq

/-- The state of a database and what has happened so far, in order. -/
structure Connection (σ : Type) where
  state : σ
  history : List Entry

namespace Connection

variable {σ : Type}

/-- A connection on which nothing has happened. -/
def start (state : σ) : Connection σ := ⟨state, []⟩

/-- Adds events to the history. -/
def report (c : Connection σ) (events : List Event) : Connection σ :=
  { c with history := c.history ++ events.map .reported }

/-- The events of the history. -/
def events (c : Connection σ) : List Event :=
  c.history.filterMap fun
    | .reported event => some event
    | _ => none

end Connection

namespace Backend

variable {σ : Type}

/-- Asks for a table. -/
def find (b : Backend σ) (table : String) (c : Connection σ) :
    Except Error (Option Table) × Connection σ :=
  let (answer, state) := b.introspect table c.state
  (answer, ⟨state, c.history ++ [.introspected table]⟩)

/-- Gives a command. -/
def run (b : Backend σ) (command : Command) (c : Connection σ) :
    Except Error Unit × Connection σ :=
  let (answer, state) := b.perform command c.state
  (answer, ⟨state, c.history ++ [.ran command answer.isOk]⟩)

end Backend

end Relational.Migration
