import Combinational.Assignments
import Combinational.Bar
import Combinational.Circuit.Assembly
import Combinational.Circuit.Basic
import Combinational.Circuit.Evaluation
import Combinational.Circuit.Family
import Combinational.Circuit.Netlist
import Combinational.Circuit.Order
import Combinational.Circuit.Random
import Combinational.Circuit.Simulation
import Combinational.Circuit.Statistics
import Combinational.CommandLine.Arguments
import Combinational.CommandLine.Command
import Combinational.CommandLine.Environment
import Combinational.CommandLine.Execution
import Combinational.CommandLine.Outcome
import Combinational.CommandLine.Parameter
import Combinational.CommandLine.TableWriter
import Combinational.CommandLine.Usage
import Combinational.Device.Basic
import Combinational.Device.Id
import Combinational.Directory
import Combinational.FileError
import Combinational.Files
import Combinational.Lcf.Description
import Combinational.Lcf.File
import Combinational.Lcf.Loading
import Combinational.Lcf.Reading
import Combinational.Line
import Combinational.LoadError
import Combinational.Log
import Combinational.LookupTable
import Combinational.Main
import Combinational.Menu.Command
import Combinational.Menu.Dialogue
import Combinational.Menu.Session
import Combinational.Misuse
import Combinational.Pattern
import Combinational.Proofs.Acceptance
import Combinational.Proofs.Arena
import Combinational.Proofs.Arguments
import Combinational.Proofs.Arities
import Combinational.Proofs.Assembled
import Combinational.Proofs.Attempts
import Combinational.Proofs.Building
import Combinational.Proofs.Canonical
import Combinational.Proofs.CarryLess
import Combinational.Proofs.Chains
import Combinational.Proofs.Classes
import Combinational.Proofs.Completion
import Combinational.Proofs.Cones
import Combinational.Proofs.Construction
import Combinational.Proofs.Consultation
import Combinational.Proofs.Copies
import Combinational.Proofs.Counting
import Combinational.Proofs.DecoderLayout
import Combinational.Proofs.Decoders
import Combinational.Proofs.Depth
import Combinational.Proofs.Dialogues
import Combinational.Proofs.Digits
import Combinational.Proofs.Draws
import Combinational.Proofs.Enumeration
import Combinational.Proofs.Equations
import Combinational.Proofs.Evaluation
import Combinational.Proofs.Execution
import Combinational.Proofs.Form
import Combinational.Proofs.FrontEnds
import Combinational.Proofs.Generation
import Combinational.Proofs.Grammar
import Combinational.Proofs.Graph
import Combinational.Proofs.Grouping
import Combinational.Proofs.Growth
import Combinational.Proofs.History
import Combinational.Proofs.IgnoredReferences
import Combinational.Proofs.InPlace
import Combinational.Proofs.Indexing
import Combinational.Proofs.Iterations
import Combinational.Proofs.Layout
import Combinational.Proofs.Loading
import Combinational.Proofs.Lockstep
import Combinational.Proofs.Loops
import Combinational.Proofs.Moves
import Combinational.Proofs.NetlistText
import Combinational.Proofs.Numbering
import Combinational.Proofs.Obstacles
import Combinational.Proofs.Outcomes
import Combinational.Proofs.OutputFunctions
import Combinational.Proofs.Passes
import Combinational.Proofs.Patterns
import Combinational.Proofs.Period
import Combinational.Proofs.Permutation
import Combinational.Proofs.PinDialogues
import Combinational.Proofs.Pins
import Combinational.Proofs.Powers
import Combinational.Proofs.Readiness
import Combinational.Proofs.Records
import Combinational.Proofs.Renumbering
import Combinational.Proofs.Requests
import Combinational.Proofs.Resorting
import Combinational.Proofs.RoundTrip
import Combinational.Proofs.Sessions
import Combinational.Proofs.SignalPaths
import Combinational.Proofs.Sinks
import Combinational.Proofs.Sorting
import Combinational.Proofs.Streaming
import Combinational.Proofs.Sweeps
import Combinational.Proofs.TableColumns
import Combinational.Proofs.TableText
import Combinational.Proofs.Tabulation
import Combinational.Proofs.Traversal
import Combinational.Proofs.Valuation
import Combinational.Proofs.Verdict
import Combinational.Proofs.Writing
import Combinational.Random.Generator
import Combinational.Random.Uniform
import Combinational.Random.Xoshiro
import Combinational.Statement
import Combinational.Text.Blank
import Combinational.Text.Numeral
import Combinational.TruthTable
