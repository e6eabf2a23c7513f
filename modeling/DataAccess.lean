import DataAccess.Coercion
import DataAccess.Comparison
import DataAccess.Context
import DataAccess.Dao.Document
import DataAccess.Dao.Error
import DataAccess.Dao.Key
import DataAccess.Dao.KeyValue
import DataAccess.Dao.Operation
import DataAccess.Dao.Relational
import DataAccess.Dict
import DataAccess.Document.Collection
import DataAccess.Document.Compile
import DataAccess.Document.Matching
import DataAccess.Document.Store
import DataAccess.Filter
import DataAccess.Filter.Codec
import DataAccess.Filter.Evaluate
import DataAccess.Fixture
import DataAccess.Json.Printer
import DataAccess.Json.Reader
import DataAccess.Json.Token
import DataAccess.KeyValue.Compile
import DataAccess.KeyValue.Condition
import DataAccess.KeyValue.Expression
import DataAccess.KeyValue.Store
import DataAccess.Mapping
import DataAccess.Number
import DataAccess.Number.Binary64
import DataAccess.Number.Shortest
import DataAccess.Object
import DataAccess.Object.Error
import DataAccess.Object.Timestamp
import DataAccess.Object.User
import DataAccess.Path
import DataAccess.Path.Assign
import DataAccess.Program
import DataAccess.Proofs.Cancellation
import DataAccess.Proofs.Coercion
import DataAccess.Proofs.Coercion.IntegerText
import DataAccess.Proofs.Commitment
import DataAccess.Proofs.Compilation
import DataAccess.Proofs.Conversation
import DataAccess.Proofs.Creation
import DataAccess.Proofs.Dict
import DataAccess.Proofs.Document.Agreement
import DataAccess.Proofs.Document.Collection
import DataAccess.Proofs.Document.Creation
import DataAccess.Proofs.Document.Deletion
import DataAccess.Proofs.Document.Keyed
import DataAccess.Proofs.Document.Listing
import DataAccess.Proofs.Document.Matching
import DataAccess.Proofs.Document.Refinement
import DataAccess.Proofs.Document.Removal
import DataAccess.Proofs.Document.Saving
import DataAccess.Proofs.Document.Search
import DataAccess.Proofs.Document.Sorting
import DataAccess.Proofs.Document.Transacted
import DataAccess.Proofs.Document.Uniqueness
import DataAccess.Proofs.Document.Upserting
import DataAccess.Proofs.Document.Writing
import DataAccess.Proofs.Duplicates
import DataAccess.Proofs.Except
import DataAccess.Proofs.Fetch
import DataAccess.Proofs.Filter
import DataAccess.Proofs.Interleaving
import DataAccess.Proofs.Json.Reading
import DataAccess.Proofs.Json.Token
import DataAccess.Proofs.KeyValue.Agreement
import DataAccess.Proofs.KeyValue.Creation
import DataAccess.Proofs.KeyValue.History
import DataAccess.Proofs.KeyValue.Key
import DataAccess.Proofs.KeyValue.Keyed
import DataAccess.Proofs.KeyValue.Listing
import DataAccess.Proofs.KeyValue.Map
import DataAccess.Proofs.KeyValue.Placeholders
import DataAccess.Proofs.KeyValue.Readability
import DataAccess.Proofs.KeyValue.Refinement
import DataAccess.Proofs.KeyValue.Rendering
import DataAccess.Proofs.KeyValue.Saving
import DataAccess.Proofs.KeyValue.Scanning
import DataAccess.Proofs.KeyValue.Slot
import DataAccess.Proofs.KeyValue.Table
import DataAccess.Proofs.Keyspace
import DataAccess.Proofs.Listing
import DataAccess.Proofs.NullTests
import DataAccess.Proofs.Number
import DataAccess.Proofs.Number.Layout
import DataAccess.Proofs.Number.Reading
import DataAccess.Proofs.Number.Rounding
import DataAccess.Proofs.Number.Shortest
import DataAccess.Proofs.Numeral
import DataAccess.Proofs.Numeral.Value
import DataAccess.Proofs.Object
import DataAccess.Proofs.Operation
import DataAccess.Proofs.OwnKey
import DataAccess.Proofs.Path
import DataAccess.Proofs.Path.Assign
import DataAccess.Proofs.Path.Dotted
import DataAccess.Proofs.Path.Grammar
import DataAccess.Proofs.Path.Keys
import DataAccess.Proofs.Path.Lens
import DataAccess.Proofs.Path.Marker
import DataAccess.Proofs.Program
import DataAccess.Proofs.Refinement
import DataAccess.Proofs.Registry
import DataAccess.Proofs.RowMapper
import DataAccess.Proofs.Schemaless
import DataAccess.Proofs.Sends
import DataAccess.Proofs.Shape
import DataAccess.Proofs.SharedColumns
import DataAccess.Proofs.Sorting
import DataAccess.Proofs.Sql.Alignment
import DataAccess.Proofs.Sql.Alike
import DataAccess.Proofs.Sql.Binding
import DataAccess.Proofs.Sql.Decoding
import DataAccess.Proofs.Sql.Erasure
import DataAccess.Proofs.Sql.Lexeme
import DataAccess.Proofs.Sql.Parameters
import DataAccess.Proofs.Sql.Readability
import DataAccess.Proofs.Sql.Replacement
import DataAccess.Proofs.Sql.Rows
import DataAccess.Proofs.Sql.Texts
import DataAccess.Proofs.Symbol
import DataAccess.Proofs.Transaction
import DataAccess.Proofs.Value
import DataAccess.Proofs.Value.Order
import DataAccess.RowMapper
import DataAccess.Sorting
import DataAccess.Sorting.Codec
import DataAccess.Sql.Cell
import DataAccess.Sql.Command
import DataAccess.Sql.Connection
import DataAccess.Sql.Database
import DataAccess.Sql.Failure
import DataAccess.Sql.Flavor
import DataAccess.Sql.Plan
import DataAccess.Sql.Plan.Access
import DataAccess.Sql.Plan.Condition
import DataAccess.Sql.Plan.Constraint
import DataAccess.Sql.Plan.Estimate
import DataAccess.Sql.Plan.Order
import DataAccess.Sql.Scope
import DataAccess.Sql.Scripted
import DataAccess.Sql.Selection
import DataAccess.Sql.Statement
import DataAccess.Sql.Table
import DataAccess.Sql.Token
import DataAccess.Store.Error
import DataAccess.Text.Blank
import DataAccess.Text.Decimal
import DataAccess.Text.Numeral
import DataAccess.Text.Quoted
import DataAccess.Text.Unprintable
import DataAccess.Text.Utf8
import DataAccess.Value
import DataAccess.Value.Field
import DataAccess.Value.Order
import DataAccess.Workload
