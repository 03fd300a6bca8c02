import CallCensus.Aggregate
import CallCensus.App.Arguments
import CallCensus.App.CommandLine
import CallCensus.App.Config
import CallCensus.App.Index
import CallCensus.App.Languages
import CallCensus.App.Layout
import CallCensus.App.Output
import CallCensus.App.Problem
import CallCensus.App.Reading
import CallCensus.App.Run
import CallCensus.Archive.Bits
import CallCensus.Archive.Checksum
import CallCensus.Archive.Contents
import CallCensus.Archive.Extract
import CallCensus.Archive.Fault
import CallCensus.Archive.Gzip
import CallCensus.Archive.Header
import CallCensus.Archive.Huffman
import CallCensus.Archive.Inflate
import CallCensus.Archive.Listing
import CallCensus.Archive.Pax
import CallCensus.Archive.Sparse
import CallCensus.Audit
import CallCensus.CallSite
import CallCensus.CallSite.Bytes
import CallCensus.CallSite.Pattern
import CallCensus.CallSite.Scan
import CallCensus.Census.Run
import CallCensus.Census.Settings
import CallCensus.Census.Stages
import CallCensus.Comment
import CallCensus.Comment.Bytes
import CallCensus.Comment.Pattern
import CallCensus.Comment.Scan
import CallCensus.Dict
import CallCensus.Error
import CallCensus.Evidence
import CallCensus.FileTree
import CallCensus.FileTree.Path
import CallCensus.Json.Reader
import CallCensus.Json.Token
import CallCensus.Json.Writer
import CallCensus.Literal
import CallCensus.Literal.Bytes
import CallCensus.Literal.Pattern
import CallCensus.Literal.Scan
import CallCensus.Loop
import CallCensus.Main
import CallCensus.Notice
import CallCensus.Operators
import CallCensus.Pattern.Basic
import CallCensus.Pattern.Machine
import CallCensus.Pattern.Meaning
import CallCensus.Pattern.Notation
import CallCensus.Pattern.Search
import CallCensus.Pipeline.Broadcaster
import CallCensus.Pipeline.Handles
import CallCensus.Pipeline.Pool
import CallCensus.Pipeline.Run
import CallCensus.Pipeline.State
import CallCensus.Pipeline.Worker
import CallCensus.Proofs.Aggregate.Arrival
import CallCensus.Proofs.Aggregate.Refusal
import CallCensus.Proofs.App.Effects
import CallCensus.Proofs.App.Saving
import CallCensus.Proofs.Archive.Extraction
import CallCensus.Proofs.Archive.Stored
import CallCensus.Proofs.CallSite.Agreement
import CallCensus.Proofs.CallSite.Bytes
import CallCensus.Proofs.CallSite.Positions
import CallCensus.Proofs.CallSite.Sites
import CallCensus.Proofs.Census.Account
import CallCensus.Proofs.Census.Bounds
import CallCensus.Proofs.Census.Coverage
import CallCensus.Proofs.Census.Exclusion
import CallCensus.Proofs.Census.Meaning
import CallCensus.Proofs.Census.Refinement
import CallCensus.Proofs.Census.Tallies
import CallCensus.Proofs.Census.Totals
import CallCensus.Proofs.Cleaning.Bytes
import CallCensus.Proofs.Cleaning.CommentFree
import CallCensus.Proofs.Cleaning.Escapes
import CallCensus.Proofs.Cleaning.Exact
import CallCensus.Proofs.Cleaning.Fallback
import CallCensus.Proofs.Cleaning.Lengths
import CallCensus.Proofs.Cleaning.Protection
import CallCensus.Proofs.Cleaning.Respacing
import CallCensus.Proofs.Cleaning.SideBySide
import CallCensus.Proofs.Comment.Bytes
import CallCensus.Proofs.Comment.Cuts
import CallCensus.Proofs.Comment.Rendering
import CallCensus.Proofs.Comment.Tokens
import CallCensus.Proofs.Dict
import CallCensus.Proofs.Evidence
import CallCensus.Proofs.FileTree.Entries
import CallCensus.Proofs.FileTree.Paths
import CallCensus.Proofs.FileTree.Writing
import CallCensus.Proofs.Json.RoundTrip
import CallCensus.Proofs.Literal.Agreement
import CallCensus.Proofs.Literal.Bytes
import CallCensus.Proofs.Literal.Lines
import CallCensus.Proofs.Literal.Reopening
import CallCensus.Proofs.Loop
import CallCensus.Proofs.Operators.Choice
import CallCensus.Proofs.Operators.Names
import CallCensus.Proofs.Pattern.Ends
import CallCensus.Proofs.Pattern.Machine
import CallCensus.Proofs.Pattern.Notation
import CallCensus.Proofs.Pipeline.Broadcast
import CallCensus.Proofs.Pipeline.Chain
import CallCensus.Proofs.Pipeline.Executions
import CallCensus.Proofs.Pipeline.Flow
import CallCensus.Proofs.Pipeline.Handles
import CallCensus.Proofs.Pipeline.Loss
import CallCensus.Proofs.Pipeline.Order
import CallCensus.Proofs.Pipeline.Progress
import CallCensus.Proofs.Pipeline.Renaming
import CallCensus.Proofs.Pipeline.RootCause
import CallCensus.Proofs.Pipeline.Turns
import CallCensus.Proofs.Pool.Calls
import CallCensus.Proofs.Pool.Forgetting
import CallCensus.Proofs.Pool.Sharing
import CallCensus.Proofs.Table.Encoding
import CallCensus.Proofs.Text.Offsets
import CallCensus.Proofs.Text.Pass
import CallCensus.Proofs.Text.Utf8
import CallCensus.Record
import CallCensus.Table
import CallCensus.Text.Basic
import CallCensus.Text.Offsets
import CallCensus.Text.Pieces
import CallCensus.Text.Utf8
import CallCensus.Unicode.Alphabetic
import CallCensus.Unicode.CaseContext
import CallCensus.Unicode.CaseRuns
import CallCensus.Unicode.Classes
import CallCensus.Unicode.Folding
import CallCensus.Unicode.Lowercase
import CallCensus.Unicode.Mark
import CallCensus.Unicode.Numeric
import CallCensus.Unicode.Ranges
