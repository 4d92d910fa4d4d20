import ScriptConsole.Parse.Script
import ScriptConsole.Script.Outline
import ScriptConsole.Eval.Run
import ScriptConsole.Snapshot.Binary
import ScriptConsole.Snapshot.Restore
import ScriptConsole.Proofs.Namespaces.Views
import ScriptConsole.Proofs.Walk
import ScriptConsole.Proofs.Namespaces.Links
import ScriptConsole.Proofs.Eval.Results
import ScriptConsole.Proofs.Namespaces.Fewer
import ScriptConsole.Proofs.Objects.Containment
import ScriptConsole.Proofs.Console.Changes
import ScriptConsole.Proofs.Console.Keeping
import ScriptConsole.Proofs.Eval.Calls
import ScriptConsole.Proofs.Eval.Evolution
import ScriptConsole.Proofs.Eval.Limits
import ScriptConsole.Proofs.Objects.Removal
import ScriptConsole.Proofs.Namespaces.Stacks
import ScriptConsole.Proofs.Objects.Links
import ScriptConsole.Proofs.Console.Attachment
import ScriptConsole.Proofs.Namespaces.Search
import ScriptConsole.Proofs.Script.Marks
import ScriptConsole.Proofs.Parse.Agree
import ScriptConsole.Proofs.Parse.Expression
import ScriptConsole.Proofs.Parse.Statement
import ScriptConsole.Proofs.Token.Lengths
import ScriptConsole.Proofs.Token.Solid
import ScriptConsole.Proofs.Token.Cut
import ScriptConsole.Proofs.Token.Ranges
import ScriptConsole.Proofs.Token.Spacing
import ScriptConsole.Proofs.Parse.Layout
import ScriptConsole.Proofs.Script.Printing
import ScriptConsole.Proofs.Text.Utf8
import ScriptConsole.Proofs.Text.Strict
import ScriptConsole.Proofs.Snapshot.Binary
import ScriptConsole.Proofs.Token.Spelling
import ScriptConsole.Proofs.Parse.Reads
import ScriptConsole.Proofs.Parse.Levels
import ScriptConsole.Proofs.Parse.Operands
import ScriptConsole.Proofs.Parse.RoundTrip
import ScriptConsole.Proofs.Symbol
import ScriptConsole.Proofs.Script.Heap
import ScriptConsole.Proofs.Parse.Builds
import ScriptConsole.Proofs.Parse.Nodes
import ScriptConsole.Proofs.Parse.Compiled
import ScriptConsole.Proofs.Objects.Shape
import ScriptConsole.Proofs.Namespaces.Functions
import ScriptConsole.Proofs.Console.Orderly
import ScriptConsole.Proofs.Eval.Guarded
import ScriptConsole.Proofs.Eval.Following
import ScriptConsole.Proofs.Eval.Safety
import ScriptConsole.Proofs.Objects.Tidy
import ScriptConsole.Proofs.Console.Symbols
import ScriptConsole.Proofs.Console.Classes
import ScriptConsole.Proofs.Console.Labels
import ScriptConsole.Proofs.Console.Fresh
import ScriptConsole.Proofs.Eval.Sessions
import ScriptConsole.Proofs.Snapshot.Capture
import ScriptConsole.Proofs.Snapshot.Fields
import ScriptConsole.Proofs.Snapshot.Dynamic
import ScriptConsole.Proofs.Snapshot.Restore
import ScriptConsole.Proofs.Snapshot.Transfer
import ScriptConsole.Proofs.Tag.Counting
import ScriptConsole.Proofs.Console.Functions
import ScriptConsole.Proofs.Console.Journals
import ScriptConsole.Proofs.Eval.Twins
import ScriptConsole.Proofs.Eval.Raising
import ScriptConsole.Proofs.Eval.Silence
import ScriptConsole.Proofs.Eval.Isolation
import ScriptConsole.Proofs.Objects.Histories
import ScriptConsole.Proofs.Objects.Numbers
import ScriptConsole.Proofs.Eval.Packages
import ScriptConsole.Proofs.Objects.Conformance
import ScriptConsole.Proofs.Console.Conforming
import ScriptConsole.Proofs.Eval.Upholding
import ScriptConsole.Proofs.Eval.Conformance
import ScriptConsole.Proofs.Namespaces.Activation
import ScriptConsole.Proofs.Objects.Access
import ScriptConsole.Proofs.Objects.Extent
import ScriptConsole.Proofs.Eval.Redeclaring
import ScriptConsole.Proofs.Eval.Yielding
import ScriptConsole.Proofs.Eval.Compound
import ScriptConsole.Proofs.Parse.Switches
import ScriptConsole.Proofs.Eval.Switching
import ScriptConsole.Proofs.Snapshot.Aborting
import ScriptConsole.Proofs.Console.Naming
import ScriptConsole.Proofs.Eval.Jumps
import ScriptConsole.Proofs.Parse.Nesting
import ScriptConsole.Proofs.Parse.Numbering
import ScriptConsole.Proofs.Token.Quoting
import ScriptConsole.Proofs.Token.Numbers
import ScriptConsole.Proofs.Numeric.Digits
import ScriptConsole.Proofs.Tag.Wire
import ScriptConsole.Proofs.Eval.Tagging
import ScriptConsole.Proofs.Source.Lines
import ScriptConsole.Proofs.Source.Reports
import ScriptConsole.Proofs.Token.Places
import ScriptConsole.Proofs.Parse.Places
import ScriptConsole.Proofs.Parse.Faults
import ScriptConsole.Proofs.Source.Markers
import ScriptConsole.Proofs.Symbols.Calls
import ScriptConsole.Proofs.Symbols.Addresses
import ScriptConsole.Proofs.Text.Segments
import ScriptConsole.Proofs.Objects.Paths
