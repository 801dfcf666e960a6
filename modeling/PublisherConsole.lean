import PublisherConsole.Api.Access
import PublisherConsole.Api.Record
import PublisherConsole.Api.RecordFormat
import PublisherConsole.Api.TextField
import PublisherConsole.Command.Grammar
import PublisherConsole.Command.Invocation
import PublisherConsole.Command.Perform
import PublisherConsole.Command.RandomId
import PublisherConsole.Command.Report
import PublisherConsole.Command.Work
import PublisherConsole.Configuration
import PublisherConsole.Console.App
import PublisherConsole.Console.Drawing
import PublisherConsole.Console.EditorScreen
import PublisherConsole.Console.Event
import PublisherConsole.Console.Key
import PublisherConsole.Console.OverviewScreen
import PublisherConsole.Console.Tasks
import PublisherConsole.Decimal.Shortest
import PublisherConsole.Definition.Directory
import PublisherConsole.Definition.Document
import PublisherConsole.Definition.Publisher
import PublisherConsole.Definition.ServerList
import PublisherConsole.Editing.Editor
import PublisherConsole.Editing.Session
import PublisherConsole.Editing.TextBuffer
import PublisherConsole.Json.Cursor
import PublisherConsole.Json.Fault
import PublisherConsole.Json.Print
import PublisherConsole.Json.Shape
import PublisherConsole.Json.Value
import PublisherConsole.Main
import PublisherConsole.Markdown.Block
import PublisherConsole.Markdown.Definition
import PublisherConsole.Markdown.Document
import PublisherConsole.Markdown.Entity
import PublisherConsole.Markdown.EntityNames
import PublisherConsole.Markdown.Event
import PublisherConsole.Markdown.Html
import PublisherConsole.Markdown.Inline
import PublisherConsole.Markdown.Interrupt
import PublisherConsole.Markdown.Link
import PublisherConsole.Markdown.Margin
import PublisherConsole.Markdown.Piece
import PublisherConsole.Markdown.Preview
import PublisherConsole.Markdown.Render
import PublisherConsole.Markdown.Source
import PublisherConsole.Markdown.Stream
import PublisherConsole.Markdown.Styles
import PublisherConsole.Screen.Buffer
import PublisherConsole.Screen.Frame
import PublisherConsole.Screen.Help
import PublisherConsole.Screen.Line
import PublisherConsole.Screen.Paragraph
import PublisherConsole.Screen.Rect
import PublisherConsole.Screen.ServerSection
import PublisherConsole.Screen.StatusBar
import PublisherConsole.Screen.Style
import PublisherConsole.Screen.TextArea
import PublisherConsole.Screen.Theme
import PublisherConsole.Screen.Wrap
import PublisherConsole.Simulation.Backend
import PublisherConsole.Simulation.Rehearsal
import PublisherConsole.Simulation.Typist
import PublisherConsole.Storage.ConfigurationFile
import PublisherConsole.Storage.Fault
import PublisherConsole.Storage.FileStore
import PublisherConsole.Storage.FileTree
import PublisherConsole.Storage.Script
import PublisherConsole.Storage.Shared
import PublisherConsole.Storage.SystemFault
import PublisherConsole.Terminal.Host
import PublisherConsole.Terminal.Input
import PublisherConsole.Terminal.Output
import PublisherConsole.Text.ColumnMinima
import PublisherConsole.Text.Escapes
import PublisherConsole.Text.Fill
import PublisherConsole.Text.Quoted
import PublisherConsole.Text.Rows
import PublisherConsole.Text.Total
import PublisherConsole.Text.Truncate
import PublisherConsole.Text.Utf8
import PublisherConsole.Text.Words
import PublisherConsole.Time.Instant
import PublisherConsole.Time.Span
import PublisherConsole.Time.Timestamp
import PublisherConsole.Unicode.Alphanumeric
import PublisherConsole.Unicode.Punctuation
import PublisherConsole.Unicode.BreakClass
import PublisherConsole.Unicode.CaseFold
import PublisherConsole.Unicode.CellWidth
import PublisherConsole.Unicode.Cluster
import PublisherConsole.Unicode.Emoji
import PublisherConsole.Unicode.LineBreak
import PublisherConsole.Unicode.Printable
import PublisherConsole.Unicode.Ranges
import PublisherConsole.Unicode.TextWidth
import PublisherConsole.Proofs.Console.Phase
import PublisherConsole.Proofs.Console.Coherence
import PublisherConsole.Proofs.Console.Saving
import PublisherConsole.Proofs.Storage.Catalogue
import PublisherConsole.Proofs.Storage.Refinement
import PublisherConsole.Proofs.Storage.Update
import PublisherConsole.Proofs.Console.OnScreen
import PublisherConsole.Proofs.Console.Archive
import PublisherConsole.Proofs.Console.Agreement
import PublisherConsole.Proofs.Api.RoundTrip
import PublisherConsole.Proofs.Definition.Mounting
import PublisherConsole.Proofs.Console.Feed
import PublisherConsole.Proofs.Console.Fetching
import PublisherConsole.Proofs.Console.Leaving
import PublisherConsole.Proofs.Storage.Serial
import PublisherConsole.Proofs.Storage.Sequence
import PublisherConsole.Proofs.Storage.Concurrent
import PublisherConsole.Proofs.Storage.AllOrNothing
import PublisherConsole.Proofs.Editing.Editor
import PublisherConsole.Proofs.Editing.History
import PublisherConsole.Proofs.Editing.Session
import PublisherConsole.Proofs.Editing.Halves
import PublisherConsole.Proofs.Definition.Unread
import PublisherConsole.Proofs.Definition.Resolution
import PublisherConsole.Proofs.Command.Edit
import PublisherConsole.Proofs.Console.Restriction
import PublisherConsole.Proofs.Screen.Wrap
import PublisherConsole.Proofs.Definition.Directory
import PublisherConsole.Proofs.Storage.Entering
import PublisherConsole.Proofs.Command.Add
import PublisherConsole.Proofs.Markdown.Leaves
import PublisherConsole.Proofs.Markdown.Markers
import PublisherConsole.Proofs.Markdown.Tables
import PublisherConsole.Proofs.Markdown.Tasks
import PublisherConsole.Proofs.Markdown.LineEnds.Documents
import PublisherConsole.Proofs.Editing.Positions
import PublisherConsole.Proofs.Screen.Cursor
import PublisherConsole.Proofs.Screen.Fitting
import PublisherConsole.Proofs.Console.Typing
import PublisherConsole.Proofs.Storage.ConfigurationFile
import PublisherConsole.Proofs.Storage.Listing
import PublisherConsole.Proofs.Text.Truncation
import PublisherConsole.Proofs.Markdown.Separators
import PublisherConsole.Proofs.Screen.Grouping
import PublisherConsole.Proofs.Screen.StatusBar
