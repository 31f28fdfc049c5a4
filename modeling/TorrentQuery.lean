import TorrentQuery.Text.Case
import TorrentQuery.Text.Columns
import TorrentQuery.Text.Quoted
import TorrentQuery.Text.Path
import TorrentQuery.Number.Scalar
import TorrentQuery.Number.Hex
import TorrentQuery.Json.Printer
import TorrentQuery.Json.Reader
import TorrentQuery.Toml.Reader
import TorrentQuery.Query.Reading
import TorrentQuery.Query.Arguments
import TorrentQuery.Pattern.Glob
import TorrentQuery.Pattern.Needle
import TorrentQuery.Pattern.Template
import TorrentQuery.Field.Catalogue
import TorrentQuery.Filter.Matcher
import TorrentQuery.Daemon.Call
import TorrentQuery.Daemon.Reply
import TorrentQuery.Daemon.Session
import TorrentQuery.Daemon.Snapshot
import TorrentQuery.Settings.Alias
import TorrentQuery.Settings.Files
import TorrentQuery.Torrent.Release
import TorrentQuery.Torrent.Activity
import TorrentQuery.Torrent.FileKinds
import TorrentQuery.Torrent.Selection
import TorrentQuery.Rpc.Frame
import TorrentQuery.Rpc.Endpoint
import TorrentQuery.Rpc.Client
import TorrentQuery.Cli.Output
import TorrentQuery.Cli.Error
import TorrentQuery.Cli.Program
import TorrentQuery.Main
import TorrentQuery.Proofs.Daemon.Meaning
import TorrentQuery.Proofs.Daemon.Readable
import TorrentQuery.Proofs.Filter.Soundness
import TorrentQuery.Proofs.Number.Integer
import TorrentQuery.Proofs.Text.Lower
import TorrentQuery.Proofs.Number.Exact
import TorrentQuery.Proofs.Filter.Threshold
import TorrentQuery.Proofs.Filter.Leaf
import TorrentQuery.Proofs.Field.Denotation
import TorrentQuery.Proofs.Filter.Evaluation
import TorrentQuery.Proofs.Torrent.Reading
import TorrentQuery.Proofs.Torrent.Selection
import TorrentQuery.Proofs.Torrent.Snapshot
import TorrentQuery.Proofs.Query.Legible
import TorrentQuery.Proofs.Query.Written
import TorrentQuery.Proofs.Query.RoundTrip
import TorrentQuery.Proofs.Query.Grammar
import TorrentQuery.Proofs.Query.Leaves
import TorrentQuery.Proofs.Filter.Canonical
import TorrentQuery.Proofs.Filter.Display
import TorrentQuery.Proofs.Filter.Fields
import TorrentQuery.Proofs.Filter.Compilation
import TorrentQuery.Proofs.Filter.FieldOrder
import TorrentQuery.Proofs.Filter.Algebra
import TorrentQuery.Proofs.Filter.Signs
import TorrentQuery.Proofs.Daemon.Transcript
import TorrentQuery.Proofs.Torrent.Questions
import TorrentQuery.Proofs.Torrent.Calls
import TorrentQuery.Proofs.Torrent.Visits
import TorrentQuery.Proofs.Torrent.Cache
import TorrentQuery.Proofs.Cli.Prefetch
import TorrentQuery.Proofs.Rpc.Framing
import TorrentQuery.Proofs.Rpc.Attribution
import TorrentQuery.Proofs.Field.Interleaving
import TorrentQuery.Proofs.Daemon.Nesting
import TorrentQuery.Proofs.Torrent.Gate
import TorrentQuery.Proofs.Torrent.Capabilities
import TorrentQuery.Proofs.Filter.Levels
import TorrentQuery.Proofs.Text.Split
import TorrentQuery.Proofs.Rpc.Response
import TorrentQuery.Proofs.Pattern.GlobNeedle
import TorrentQuery.Proofs.Pattern.Plain
import TorrentQuery.Proofs.Pattern.Scan
import TorrentQuery.Proofs.Pattern.Literal
import TorrentQuery.Proofs.Pattern.RegexNeedle
import TorrentQuery.Proofs.Query.Scanning
import TorrentQuery.Proofs.Query.Spacing
import TorrentQuery.Proofs.Query.Arguments
import TorrentQuery.Proofs.Filter.TimeSpan
import TorrentQuery.Proofs.Torrent.Activity
import TorrentQuery.Proofs.Torrent.FileKinds
import TorrentQuery.Proofs.Settings.Alias
import TorrentQuery.Proofs.Text.Blank
import TorrentQuery.Proofs.Settings.DaemonFile
import TorrentQuery.Proofs.Number.Padded
import TorrentQuery.Proofs.Filter.Calendar
import TorrentQuery.Proofs.Filter.Moment
import TorrentQuery.Proofs.Daemon.Respelling
import TorrentQuery.Proofs.Paired
import TorrentQuery.Proofs.Torrent.Respelling
import TorrentQuery.Proofs.Torrent.Release
