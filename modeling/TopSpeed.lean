import TopSpeed.Text.Hex
import TopSpeed.Text.Unicode
import TopSpeed.Text.Escape
import TopSpeed.Text.Latin1
import TopSpeed.Text.Regex.Syntax
import TopSpeed.Text.Regex.Reader
import TopSpeed.Text.Regex.Parse
import TopSpeed.Text.Regex
import TopSpeed.Error
import TopSpeed.Bytes.Word
import TopSpeed.Bytes.Reader
import TopSpeed.RunLength
import TopSpeed.Cipher
import TopSpeed.Policy
import TopSpeed.Log
import TopSpeed.Yield
import TopSpeed.Json
import TopSpeed.Number.Binary
import TopSpeed.Number.Shortest
import TopSpeed.Number.Notation
import TopSpeed.Storage.FileHeader
import TopSpeed.Storage.Page
import TopSpeed.Storage.Leaf
import TopSpeed.Storage.Directory
import TopSpeed.Storage.Image
import TopSpeed.Storage.Walk
import TopSpeed.Record.Header
import TopSpeed.Record.Basic
import TopSpeed.Schema.Field
import TopSpeed.Schema.Definition
import TopSpeed.Schema.Json
import TopSpeed.Value.Calendar
import TopSpeed.Value.Decimal
import TopSpeed.Value.Basic
import TopSpeed.Value.Decode
import TopSpeed.Value.Json
import TopSpeed.Record.Data
import TopSpeed.Record.Memo
import TopSpeed.Database.Records
import TopSpeed.Database.Definitions
import TopSpeed.Database.Memos
import TopSpeed.Database.Rows
import TopSpeed.Database.Json
import TopSpeed.Cli.Similar
import TopSpeed.Cli.Spec
import TopSpeed.Cli.Help
import TopSpeed.Cli.Parse
import TopSpeed.Config.Toml.Tree
import TopSpeed.Config.Toml.Scan
import TopSpeed.Config.Toml.Value
import TopSpeed.Config.Toml
import TopSpeed.Config.Settings
import TopSpeed.Dump.LogFilter
import TopSpeed.Dump.Report
import TopSpeed.Dump.Workspace
import TopSpeed.Dump.Command
import TopSpeed.Dump.Listing
import TopSpeed.Dump.Run
import TopSpeed.Dump.Machine
import TopSpeed.Main
import TopSpeed.Proofs.ResumableWalk
import TopSpeed.Proofs.WalkTermination
import TopSpeed.Proofs.Pruning
import TopSpeed.Proofs.RowJoin
import TopSpeed.Proofs.MemoFetch
import TopSpeed.Writer.File
import TopSpeed.Proofs.StrictRuns
import TopSpeed.Proofs.PolicyCoherence
import TopSpeed.Proofs.FieldDecoding
import TopSpeed.Proofs.DepthFirst
import TopSpeed.Proofs.DefinitionScan
import TopSpeed.Proofs.ByteCodec
import TopSpeed.Proofs.LeafSpelling
import TopSpeed.Proofs.RunLengthGrammar
import TopSpeed.Proofs.CipherRoundTrip
import TopSpeed.Proofs.PageRoundTrip
import TopSpeed.Proofs.WriterLayout
import TopSpeed.Proofs.WrittenFile
import TopSpeed.Proofs.FileRoundTrip
import TopSpeed.Proofs.HeaderKeys
import TopSpeed.Proofs.MemoAssembly
import TopSpeed.Proofs.GroupNesting
import TopSpeed.Proofs.DefinitionCodec
import TopSpeed.Proofs.PackedDecimal
import TopSpeed.Proofs.DecimalText
import TopSpeed.Proofs.ReaderCursor
import TopSpeed.Proofs.CalendarWords
import TopSpeed.Proofs.StringRules
import TopSpeed.Proofs.MemoGrouping
