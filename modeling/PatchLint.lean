import PatchLint.Arguments
import PatchLint.Cache.Basic
import PatchLint.Cache.File
import PatchLint.Check
import PatchLint.Diff.Header
import PatchLint.Diff.LineMap
import PatchLint.Diff.Record
import PatchLint.Error
import PatchLint.FileFilter
import PatchLint.Files.AtomicWrite
import PatchLint.Files.Path
import PatchLint.Files.Tree
import PatchLint.Glob.Match
import PatchLint.Glob.Pattern
import PatchLint.Json.Printer
import PatchLint.Json.Reader
import PatchLint.Json.Typed
import PatchLint.Json.Value
import PatchLint.Lint.Input
import PatchLint.Lint.Introduced
import PatchLint.Lint.Message
import PatchLint.Lint.Record
import PatchLint.Linter
import PatchLint.Main
import PatchLint.Number.Binary64
import PatchLint.Number.Shortest
import PatchLint.Program
import PatchLint.Report
import PatchLint.Repository
import PatchLint.Session
import PatchLint.Settings.Basic
import PatchLint.Settings.Printer
import PatchLint.Settings.Reader
import PatchLint.Text.Basic
import PatchLint.Text.Octets
import PatchLint.Text.Quoted
import PatchLint.Time.Instant
import PatchLint.Time.Reader
import PatchLint.Vcs.Call
import PatchLint.Vcs.Git
import PatchLint.Vcs.Svn
import PatchLint.Words
import PatchLint.Yaml.Cursor
import PatchLint.Yaml.Node
import PatchLint.Yaml.Scalar
import PatchLint.Yaml.Token
import PatchLint.Yaml.Typed
import PatchLint.Proofs.Lists
import PatchLint.Proofs.Diff.Header
import PatchLint.Proofs.Diff.Body
import PatchLint.Proofs.Diff.Lookup
import PatchLint.Proofs.Diff.Mapping
import PatchLint.Proofs.Lint.Introduced
import PatchLint.Proofs.Diff.Trailing
import PatchLint.Proofs.Json.Numbers
import PatchLint.Proofs.Json.Strings
import PatchLint.Proofs.Json.Lists
import PatchLint.Proofs.Json.Reread
import PatchLint.Proofs.Lint.Record
import PatchLint.Proofs.Cache.Reread
import PatchLint.Proofs.Cache.Sound
import PatchLint.Proofs.Check.Cached
import PatchLint.Proofs.Check.Runs
import PatchLint.Proofs.Diff.Blocks
import PatchLint.Proofs.Lint.Merged
import PatchLint.Proofs.Json.Members
import PatchLint.Proofs.Json.Stable
import PatchLint.Proofs.Lint.Reading
import PatchLint.Proofs.Lint.Report
import PatchLint.Proofs.Check.Filtered
import PatchLint.Proofs.Diff.OldLines
import PatchLint.Proofs.Diff.Agreement
import PatchLint.Proofs.Diff.SecondFile
import PatchLint.Proofs.Lint.Anchored
import PatchLint.Proofs.Files.Names
import PatchLint.Proofs.Files.Walk
import PatchLint.Proofs.Files.Places
import PatchLint.Proofs.Files.Upward
import PatchLint.Proofs.Files.Interrupted
import PatchLint.Proofs.Files.Settled
import PatchLint.Proofs.Files.Replaced
import PatchLint.Proofs.Cache.Lasting
import PatchLint.Proofs.Cache.Store
import PatchLint.Proofs.Cache.Latest
import PatchLint.Proofs.Diff.Endings
import PatchLint.Proofs.Lint.Dropped
import PatchLint.Proofs.Json.Fields
import PatchLint.Proofs.Lint.Findings
import PatchLint.Proofs.Files.Plain
import PatchLint.Proofs.Files.Untorn
import PatchLint.Proofs.Files.Interleaved
import PatchLint.Proofs.Files.Orderly
import PatchLint.Proofs.Text.Names
import PatchLint.Proofs.Diff.LineZero
import PatchLint.Proofs.Diff.Target
import PatchLint.Proofs.Lint.Labelled
import PatchLint.Proofs.Vcs.Listed
import PatchLint.Proofs.Check.Renewed
import PatchLint.Proofs.Check.Effect
import PatchLint.Proofs.Check.Histories
import PatchLint.Proofs.Files.Canonical
import PatchLint.Proofs.Check.Selected
import PatchLint.Proofs.Files.Traces
import PatchLint.Proofs.Report.Groups
import PatchLint.Proofs.Report.Lines
import PatchLint.Proofs.Vcs.Summary
import PatchLint.Proofs.Text.Pieces
import PatchLint.Proofs.Linter
import PatchLint.Proofs.Diff.Grammar
