import RecordMapper.Condition
import RecordMapper.Condition.FieldRef
import RecordMapper.Condition.Json
import RecordMapper.Condition.Operator
import RecordMapper.Dialect
import RecordMapper.Dialect.Literal
import RecordMapper.Dialect.Quoting
import RecordMapper.Dialect.TypeTable
import RecordMapper.EmbedTree
import RecordMapper.Entity
import RecordMapper.Entity.Collection
import RecordMapper.Entity.Json
import RecordMapper.Entity.Path
import RecordMapper.Entity.ThroughView
import RecordMapper.Error
import RecordMapper.Field
import RecordMapper.Field.Json
import RecordMapper.Field.Tagged
import RecordMapper.Json
import RecordMapper.Json.Access
import RecordMapper.Json.Reader
import RecordMapper.Json.Token
import RecordMapper.Keyword
import RecordMapper.Naming
import RecordMapper.Number.Binary64
import RecordMapper.Number.Layout
import RecordMapper.Number.Power
import RecordMapper.Number.Reading
import RecordMapper.Number.Shortest
import RecordMapper.Proofs.Condition.Accumulating
import RecordMapper.Proofs.Condition.Anchoring
import RecordMapper.Proofs.Condition.Arithmetic
import RecordMapper.Proofs.Condition.CanonicalTexts
import RecordMapper.Proofs.Condition.Carrying
import RecordMapper.Proofs.Condition.Conjuncts
import RecordMapper.Proofs.Condition.Constrained
import RecordMapper.Proofs.Condition.Formula
import RecordMapper.Proofs.Condition.Frames
import RecordMapper.Proofs.Condition.Guarded
import RecordMapper.Proofs.Condition.Membership
import RecordMapper.Proofs.Condition.Nodes
import RecordMapper.Proofs.Condition.Normal
import RecordMapper.Proofs.Condition.Operands
import RecordMapper.Proofs.Condition.Phrases
import RecordMapper.Proofs.Condition.Pieces
import RecordMapper.Proofs.Condition.Reading
import RecordMapper.Proofs.Condition.Standing
import RecordMapper.Proofs.Condition.Traces
import RecordMapper.Proofs.Condition.Truth
import RecordMapper.Proofs.Condition.WholeNumbers
import RecordMapper.Proofs.Dialect.ColumnNames
import RecordMapper.Proofs.Dialect.Lexemes
import RecordMapper.Proofs.Dialect.Quotes
import RecordMapper.Proofs.Dialect.Unquoting
import RecordMapper.Proofs.EmbedTree
import RecordMapper.Proofs.EmbedTree.Union
import RecordMapper.Proofs.Entity.Covering
import RecordMapper.Proofs.Entity.History
import RecordMapper.Proofs.Entity.ListView
import RecordMapper.Proofs.Entity.Opening
import RecordMapper.Proofs.Entity.Undefined
import RecordMapper.Proofs.Failures
import RecordMapper.Proofs.Field.Rereading
import RecordMapper.Proofs.Number.Denoted
import RecordMapper.Proofs.Number.Reading
import RecordMapper.Proofs.Number.Rounding
import RecordMapper.Proofs.Number.Shortest
import RecordMapper.Proofs.Number.Uniqueness
import RecordMapper.Proofs.Number.WholeWords
import RecordMapper.Proofs.Registry
import RecordMapper.Proofs.Registry.Circles
import RecordMapper.Proofs.Registry.Ends
import RecordMapper.Proofs.Row.History
import RecordMapper.Proofs.Row.Insertions
import RecordMapper.Proofs.Rows
import RecordMapper.Proofs.Schema.ArrayColumns
import RecordMapper.Proofs.Schema.CastRows
import RecordMapper.Proofs.Schema.Creation
import RecordMapper.Proofs.Schema.Declarations
import RecordMapper.Proofs.Schema.FieldIndex
import RecordMapper.Proofs.Schema.Forms
import RecordMapper.Proofs.Schema.IntegralCasts
import RecordMapper.Proofs.Session.Accounting
import RecordMapper.Proofs.Session.Acknowledged
import RecordMapper.Proofs.Session.Attaching
import RecordMapper.Proofs.Session.Batching
import RecordMapper.Proofs.Session.Cascade
import RecordMapper.Proofs.Session.Children
import RecordMapper.Proofs.Session.Claiming
import RecordMapper.Proofs.Session.Clean
import RecordMapper.Proofs.Session.CopiedKeys
import RecordMapper.Proofs.Session.Counting
import RecordMapper.Proofs.Session.FarEntities
import RecordMapper.Proofs.Session.FetchedColumns
import RecordMapper.Proofs.Session.FirstRow
import RecordMapper.Proofs.Session.Flushing
import RecordMapper.Proofs.Session.Gallery
import RecordMapper.Proofs.Session.GivenKeys
import RecordMapper.Proofs.Session.KeyScope
import RecordMapper.Proofs.Session.LoadedPaths
import RecordMapper.Proofs.Session.Loading
import RecordMapper.Proofs.Session.Meeting
import RecordMapper.Proofs.Session.Outline
import RecordMapper.Proofs.Session.Overwriting
import RecordMapper.Proofs.Session.Persisting
import RecordMapper.Proofs.Session.Pivots
import RecordMapper.Proofs.Session.QueryCalls
import RecordMapper.Proofs.Session.Quiet
import RecordMapper.Proofs.Session.ReadableRoutes
import RecordMapper.Proofs.Session.Reloading
import RecordMapper.Proofs.Session.Retrying
import RecordMapper.Proofs.Session.RoundTrip
import RecordMapper.Proofs.Session.Runs
import RecordMapper.Proofs.Session.SavedAlone
import RecordMapper.Proofs.Session.SelectionCount
import RecordMapper.Proofs.Session.Sending
import RecordMapper.Proofs.Session.Settling
import RecordMapper.Proofs.Session.Shapes
import RecordMapper.Proofs.Session.Spelling
import RecordMapper.Proofs.Session.Stages
import RecordMapper.Proofs.Session.StaleCondition
import RecordMapper.Proofs.Session.StaleRows
import RecordMapper.Proofs.Session.Targeting
import RecordMapper.Proofs.Session.Unmodified
import RecordMapper.Proofs.Session.UsableRoutes
import RecordMapper.Proofs.Statement.Calls
import RecordMapper.Proofs.Statement.Clause
import RecordMapper.Proofs.Statement.ColumnLists
import RecordMapper.Proofs.Statement.ColumnShapes
import RecordMapper.Proofs.Statement.Failures
import RecordMapper.Proofs.Statement.InsertedRows
import RecordMapper.Proofs.Statement.Kind
import RecordMapper.Proofs.Statement.Layouts
import RecordMapper.Proofs.Statement.ModifierOrder
import RecordMapper.Proofs.Statement.Paging
import RecordMapper.Proofs.Value.Agreement
import RecordMapper.Proofs.Value.Equality
import RecordMapper.Proofs.Value.Identity
import RecordMapper.Registry
import RecordMapper.Relation
import RecordMapper.Row
import RecordMapper.Schema
import RecordMapper.Schema.ArrayLiteral
import RecordMapper.Schema.Cast
import RecordMapper.Session.Database
import RecordMapper.Session.Edit
import RecordMapper.Session.Embedding
import RecordMapper.Session.Query
import RecordMapper.Session.Reconciling
import RecordMapper.Session.Replay
import RecordMapper.Session.Saving
import RecordMapper.Session.Writing
import RecordMapper.Statement.Delete
import RecordMapper.Statement.Insert
import RecordMapper.Statement.Rendering
import RecordMapper.Statement.Select
import RecordMapper.Statement.Table
import RecordMapper.Statement.Update
import RecordMapper.Text.Blank
import RecordMapper.Text.Hex
import RecordMapper.Text.LetterCase
import RecordMapper.Text.LetterTable
import RecordMapper.Text.Segment
import RecordMapper.Text.SnakeCase
import RecordMapper.Value
import RecordMapper.Value.Key
import RecordMapper.Value.KeyMap
import RecordMapper.Value.Tagged
