import RSQLite.Library.Binary64
import RSQLite.Column.Counter
import RSQLite.Column.Column
import RSQLite.Column.Refinement
import RSQLite.Column.Copy
import RSQLite.Column.Exact
import RSQLite.Column.Integers
import RSQLite.Library.Traverse
import RSQLite.Result.DataFrame
import RSQLite.Library.Chunked
import RSQLite.R.Parameter
import RSQLite.Result.Impl
import RSQLite.Result.Stream
import RSQLite.Result.Fetch
import RSQLite.Result.Bind
import RSQLite.Result.Rows
import RSQLite.Library.Grows
import RSQLite.Result.Failure
import RSQLite.Library.Simulation
import RSQLite.Result.FailedBind
import RSQLite.Result.Affected
import RSQLite.Bind.DbBind
import RSQLite.Bind.Numbered
import RSQLite.Bind.Named
import RSQLite.Library.Savepoint
import RSQLite.Result.Quiet
import RSQLite.Connection.AppendTable
import RSQLite.Connection.ImportFile
import RSQLite.Connection.WriteTable
import RSQLite.Connection.Atomic
import RSQLite.Connection.Nested
import RSQLite.Library.Delimited
import RSQLite.Connection.ImportLines
import RSQLite.Library.Buffers
import RSQLite.Http.File
import RSQLite.Library.Recent
import RSQLite.Http.Page
import RSQLite.Http.Cache
import RSQLite.Http.Prefetch
import RSQLite.Http.GetPage
import RSQLite.Http.Read
import RSQLite.Http.Alive
import RSQLite.Http.Mirror
import RSQLite.Http.Exact
import RSQLite.Http.Agree
import RSQLite.Http.Fallback
import RSQLite.Library.Quoted
import RSQLite.Sqlite.Tokenize
import RSQLite.Connection.Quote
import RSQLite.Connection.Listing
import RSQLite.Column.Start
import RSQLite.Result.Start
import RSQLite.Result.Look
import RSQLite.Library.Commuting
import RSQLite.Result.Ahead
import RSQLite.Result.Counted
import RSQLite.Result.History
import RSQLite.Result.Rebind
import RSQLite.Library.Window
import RSQLite.Column.Affinity
import RSQLite.Library.Regex
import RSQLite.Connection.Identifier
import RSQLite.Connection.ImportSplit
import RSQLite.Connection.ImportMarker
import RSQLite.Connection.ImportLast
import RSQLite.Connection.ImportExits
import RSQLite.Library.Weakest
import RSQLite.Library.Runs
import RSQLite.Connection.DbConnection
import RSQLite.Connection.Lifetime
import RSQLite.Connection.Operations
import RSQLite.Connection.LiveHandles
import RSQLite.Connection.BusyHandler
import RSQLite.Connection.SendQuery
import RSQLite.Column.Uniform
import RSQLite.Result.RoundTrip
import RSQLite.Result.Upward
import RSQLite.Column.Extended
import RSQLite.Result.Extended
import RSQLite.Connection.Matching
import RSQLite.Http.Headers
import RSQLite.Http.WriteBuffer
import RSQLite.Http.Config
import RSQLite.Http.Remote
import RSQLite.Connection.CopyDatabase
import RSQLite.Http.Lru
import RSQLite.Connection.LineBuffer
import RSQLite.Http.Capacity
import RSQLite.Library.Lockstep
import RSQLite.Regexp.Input
import RSQLite.Regexp.Match
import RSQLite.Library.Fragments
import RSQLite.Library.Returns
import RSQLite.Regexp.Automaton
import RSQLite.Regexp.Closed
import RSQLite.Regexp.Function
import RSQLite.Library.Progression
import RSQLite.Series.BestIndex
import RSQLite.Series.Query
import RSQLite.Csv.Fields
import RSQLite.Csv.Records
import RSQLite.Csv.Scan
import RSQLite.Csv.Document
import RSQLite.Sqlite.Uuid
import RSQLite.Library.Numeral
