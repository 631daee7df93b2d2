import CommandShell.Arguments
import CommandShell.Attributes
import CommandShell.Builtin
import CommandShell.Command
import CommandShell.Completion
import CommandShell.Decimal.Exact
import CommandShell.Decimal.Shortest
import CommandShell.Decimal.Text
import CommandShell.Disk
import CommandShell.Dispatch
import CommandShell.Document
import CommandShell.Document.Draft
import CommandShell.Document.Item
import CommandShell.Document.Quotation
import CommandShell.Document.Scalar
import CommandShell.Document.Scan
import CommandShell.Editor
import CommandShell.Environment
import CommandShell.Fault
import CommandShell.Help
import CommandShell.Hint
import CommandShell.Journal
import CommandShell.Journal.Level
import CommandShell.Journal.Style
import CommandShell.Launch
import CommandShell.Launch.Report
import CommandShell.Loop
import CommandShell.Machine
import CommandShell.Main
import CommandShell.Note
import CommandShell.Numeral
import CommandShell.Outline
import CommandShell.Path
import CommandShell.Proofs.Help.Routes
import CommandShell.Proofs.Help.Rows
import CommandShell.Proofs.Journal.Destinations
import CommandShell.Proofs.Journal.Fileless
import CommandShell.Proofs.Line.Completion
import CommandShell.Proofs.Line.Terminator
import CommandShell.Proofs.Line.Segments
import CommandShell.Proofs.Run.Abort
import CommandShell.Proofs.Run.Answers
import CommandShell.Proofs.Run.Builtins
import CommandShell.Proofs.Run.Delegation
import CommandShell.Proofs.Run.Depth
import CommandShell.Proofs.Run.Indifference
import CommandShell.Proofs.Run.Nesting
import CommandShell.Proofs.Run.Oblivious
import CommandShell.Proofs.Run.Script
import CommandShell.Proofs.Run.Steps
import CommandShell.Proofs.Run.Termination
import CommandShell.Proofs.Run.Trace
import CommandShell.Proofs.Run.Triple
import CommandShell.Proofs.Store.Acyclic
import CommandShell.Proofs.Store.Change
import CommandShell.Proofs.Store.Demolition
import CommandShell.Proofs.Store.Duplicate
import CommandShell.Proofs.Store.Frame
import CommandShell.Proofs.Store.Keywords
import CommandShell.Proofs.Store.Operation
import CommandShell.Proofs.Store.Ownership
import CommandShell.Proofs.Store.Reach
import CommandShell.Proofs.Store.Roster
import CommandShell.Proofs.Store.Sharing
import CommandShell.Routine
import CommandShell.Script
import CommandShell.Settings
import CommandShell.Settings.Likeness
import CommandShell.Settings.Load
import CommandShell.Settings.Schema
import CommandShell.Settings.Validation
import CommandShell.Shell
import CommandShell.Status
import CommandShell.Store.Alias
import CommandShell.Store.Basic
import CommandShell.Store.Copy
import CommandShell.Store.Destroy
import CommandShell.Store.Lookup
import CommandShell.Store.Reach
import CommandShell.Store.Register
import CommandShell.Text.Blank
import CommandShell.Text.Digit
import CommandShell.Text.Lines
import CommandShell.Text.Octets
import CommandShell.Text.Printable
import CommandShell.Text.Quoted
import CommandShell.Value
import CommandShell.Value.Moment
import CommandShell.Words
import CommandShell.Proofs.Run.Typed
import CommandShell.Proofs.Store.Extension
import CommandShell.Proofs.Store.Finality
import CommandShell.Proofs.Store.Residence
import CommandShell.Proofs.Store.Registration
import CommandShell.Proofs.Store.Removal
import CommandShell.Proofs.Run.Resolution
import CommandShell.Proofs.Settings.Passing
import CommandShell.Proofs.Settings.Loading
import CommandShell.Proofs.Settings.Usable
import CommandShell.Proofs.Run.Launching
import CommandShell.Proofs.Run.Attained
import CommandShell.Proofs.Store.Aliasing
import CommandShell.Proofs.Run.Aliases
import CommandShell.Proofs.Line.Offer
import CommandShell.Proofs.Line.Hints
import CommandShell.Proofs.Line.Insertion
import CommandShell.Proofs.Journal.Levels
import CommandShell.Proofs.Settings.Refusal
import CommandShell.Proofs.Run.Composure
import CommandShell.Proofs.Run.Scripts
import CommandShell.Proofs.Store.Search
import CommandShell.Proofs.Help.Widths
import CommandShell.Proofs.Run.Arguments
import CommandShell.Proofs.Run.Conversation
import CommandShell.Proofs.Run.Console
