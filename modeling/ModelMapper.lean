import ModelMapper.Backend.Action
import ModelMapper.Lazy.Polling
import ModelMapper.Main
import ModelMapper.Models.Tour
import ModelMapper.Postgres.Parameter
import ModelMapper.Script.Play
import ModelMapper.Proofs.Query.Truth
import ModelMapper.Proofs.Sql.Formula
import ModelMapper.Proofs.Sql.Grouping
import ModelMapper.Proofs.Sql.WhereClause
import ModelMapper.Proofs.Result
import ModelMapper.Proofs.Sql.Translation
import ModelMapper.Proofs.Time.Calendar
import ModelMapper.Proofs.Time.Order
import ModelMapper.Proofs.Document.Literal
import ModelMapper.Proofs.Query.Meaning
import ModelMapper.Proofs.Document.Encoding
import ModelMapper.Proofs.Document.Filtering
import ModelMapper.Proofs.Backend.Simulation
import ModelMapper.Proofs.Memory.Replay
import ModelMapper.Proofs.Memory.Isolation
import ModelMapper.Proofs.Time.Reading
import ModelMapper.Proofs.Document.Decoding
import ModelMapper.Proofs.Sqlite.Like
import ModelMapper.Proofs.Query.Unknown
import ModelMapper.Proofs.Sqlite.Cells
import ModelMapper.Proofs.Sqlite.Conditions
import ModelMapper.Proofs.Schema.Numbers
import ModelMapper.Proofs.Sqlite.Visiting
import ModelMapper.Proofs.Sqlite.Rows
import ModelMapper.Proofs.Memory.Keeping
import ModelMapper.Proofs.Sqlite.Keeping
import ModelMapper.Proofs.Backend.Agreement
import ModelMapper.Proofs.Backend.Runs
import ModelMapper.Proofs.Memory.Steps
import ModelMapper.Proofs.Memory.Fidelity
import ModelMapper.Proofs.Memory.Constraints
import ModelMapper.Proofs.Memory.Failure
import ModelMapper.Proofs.Memory.Others
import ModelMapper.Proofs.Mapper.Scopes
import ModelMapper.Proofs.Mapper.Blocks
import ModelMapper.Proofs.Mapper.Atomic
import ModelMapper.Proofs.Memory.Nesting
import ModelMapper.Proofs.Memory.Levels
import ModelMapper.Proofs.Mapper.Operations
import ModelMapper.Proofs.Mapper.Handles
import ModelMapper.Proofs.Mapper.Tasks
import ModelMapper.Proofs.Mapper.Interleaving
import ModelMapper.Proofs.Sqlite.Adding
import ModelMapper.Proofs.Query.Windows
import ModelMapper.Proofs.Query.Selection
import ModelMapper.Proofs.Mapper.Batches
import ModelMapper.Proofs.Memory.Batches
import ModelMapper.Proofs.Mapper.Ties
import ModelMapper.Proofs.Memory.Numbering
import ModelMapper.Proofs.Query.Acceptance
import ModelMapper.Proofs.Query.Validation
import ModelMapper.Proofs.Lazy.Callers
import ModelMapper.Proofs.Lazy.Flight
import ModelMapper.Proofs.Sql.Parameters
import ModelMapper.Proofs.Sqlite.Working
import ModelMapper.Proofs.Sqlite.Demands
import ModelMapper.Proofs.Sqlite.Scopes
import ModelMapper.Proofs.Memory.Sorting
import ModelMapper.Proofs.Decimal.Shortest
import ModelMapper.Proofs.Decimal.Texts
import ModelMapper.Proofs.Backend.Showing
import ModelMapper.Proofs.Memory.Showing
import ModelMapper.Proofs.Value.Texts
import ModelMapper.Proofs.Lazy.Keys
import ModelMapper.Proofs.Lazy.Relations
import ModelMapper.Proofs.Lazy.Single
import ModelMapper.Proofs.Sqlite.Showing
import ModelMapper.Proofs.Lazy.Association
import ModelMapper.Proofs.Lazy.Unset
import ModelMapper.Proofs.Memory.FreshKeys
import ModelMapper.Proofs.Backend.Generated
import ModelMapper.Proofs.Sqlite.Declared
import ModelMapper.Proofs.Sql.Counts
import ModelMapper.Proofs.Backend.Paging
import ModelMapper.Proofs.Query.Building
import ModelMapper.Proofs.Query.Nulls
import ModelMapper.Proofs.Memory.First
import ModelMapper.Proofs.Binary64.Rounding
import ModelMapper.Proofs.Document.SortOrder
import ModelMapper.Proofs.Memory.Places
import ModelMapper.Proofs.Memory.Changing
import ModelMapper.Proofs.Document.Keyed
import ModelMapper.Proofs.Mapper.Addressing
import ModelMapper.Proofs.Mapper.Persisting
import ModelMapper.Proofs.Memory.AllOrNone
import ModelMapper.Proofs.Sql.Pieces
import ModelMapper.Proofs.Sql.Searching
import ModelMapper.Proofs.Sql.Quoting
import ModelMapper.Proofs.Sql.Blanking
import ModelMapper.Proofs.Sql.Identifiers
import ModelMapper.Proofs.Sqlite.Sorting
import ModelMapper.Proofs.Backend.Moments
import ModelMapper.Proofs.Backend.Chronology
import ModelMapper.Proofs.Backend.Carrying
import ModelMapper.Proofs.Memory.Collections
import ModelMapper.Proofs.Mapper.FailedCommits
import ModelMapper.Proofs.Mapper.Registered
import ModelMapper.Proofs.Mapper.Fetches
import ModelMapper.Proofs.Config.ConnectionText
import ModelMapper.Proofs.Postgres.Certificates
import ModelMapper.Proofs.Lazy.Distinct
import ModelMapper.Proofs.Mapper.Answers
