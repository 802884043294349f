import Relational.Text.Blank
import Relational.Text.Letters
import Relational.Text.Number
import Relational.Text.Split
import Relational.Text.Word
import Relational.Text.Doubled
import Relational.Proofs.Text.Number
import Relational.Binary64.Basic
import Relational.Binary64.Decimal
import Relational.Binary64.Text
import Relational.Proofs.Binary64.Nearest
import Relational.Proofs.Binary64.Shortest
import Relational.Proofs.Binary64.Reading
import Relational.Proofs.Binary64.Whole
import Relational.Json.Basic
import Relational.Json.Number
import Relational.Json.Token
import Relational.Json.Writer
import Relational.Json.Reader
import Relational.Proofs.Json.Numeral
import Relational.Proofs.Json.Scan
import Relational.Proofs.Json.Float
import Relational.Proofs.Json.Recovery
import Relational.Value
import Relational.Query.Error
import Relational.Query.Statement
import Relational.Query.Catalog
import Relational.Query.Condition
import Relational.Query.Join
import Relational.Query.Order
import Relational.Query.Scope
import Relational.Query.Select
import Relational.Query.Validation
import Relational.Query.Column
import Relational.Proofs.Query.Rendering
import Relational.Proofs.Query.Accumulation
import Relational.Proofs.Query.Composition
import Relational.Proofs.Query.Resolution
import Relational.Proofs.Query.Diagnosis
import Relational.Proofs.Query.Inspection
import Relational.Proofs.Query.Placeholders
import Relational.Proofs.Query.Literals
import Relational.Proofs.Query.Chaining
import Relational.Proofs.Query.Readability
import Relational.Schema.ColumnType
import Relational.Schema.Default
import Relational.Schema.Column
import Relational.Schema.Index
import Relational.Schema.Table
import Relational.Schema.ConstraintScan
import Relational.Proofs.Schema.TypeNames
import Relational.Proofs.Schema.TypeGrammar
import Relational.Proofs.Schema.Defaults
import Relational.Proofs.Schema.Quoting
import Relational.Proofs.Schema.Balance
import Relational.Proofs.Schema.Closing
import Relational.Proofs.Schema.Scan
import Relational.Proofs.Schema.Beginning
import Relational.Proofs.Schema.Clause
import Relational.Proofs.Schema.ColumnLists
import Relational.Proofs.Schema.Recovery
import Relational.Proofs.Schema.Interference
import Relational.Descriptor.Basic
import Relational.Descriptor.Query
import Relational.Descriptor.Schema
import Relational.Descriptor.Migration
import Relational.Migration.Operation
import Relational.Migration.Basic
import Relational.Migration.Error
import Relational.Migration.Event
import Relational.Migration.Dialect
import Relational.Migration.Plan
import Relational.Migration.Backend
import Relational.Migration.Execution
import Relational.Migration.Lifecycle
import Relational.Migration.Rehearsal
import Relational.Proofs.Migration.Effect
import Relational.Proofs.Migration.Reversal
import Relational.Proofs.Migration.Convergence
import Relational.Proofs.Migration.Storage
import Relational.Proofs.Migration.Uniqueness
import Relational.Proofs.Migration.Monotonicity
import Relational.Proofs.Migration.Acceptance
import Relational.Proofs.Migration.Rejection
import Relational.Proofs.Migration.Freshness
import Relational.Proofs.Migration.Expressibility
import Relational.Proofs.Migration.Agreement
import Relational.Proofs.Migration.Course
import Relational.Proofs.Migration.Transaction
import Relational.Proofs.Migration.Life
import Relational.Proofs.Descriptor.Basic
import Relational.Proofs.Descriptor.Query
import Relational.Proofs.Descriptor.Schema
import Relational.Proofs.Descriptor.Migration
import Relational.Proofs.Descriptor.Recovery
