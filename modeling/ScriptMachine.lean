import ScriptMachine.CommandLine.Files
import ScriptMachine.CommandLine.ImageTools
import ScriptMachine.CommandLine.Runner
import ScriptMachine.CommandLine.Tool
import ScriptMachine.Compiler.Basic
import ScriptMachine.Compiler.Binding
import ScriptMachine.Compiler.Code
import ScriptMachine.Compiler.FreeVariables
import ScriptMachine.Compiler.Lowering
import ScriptMachine.Dictionary
import ScriptMachine.Embedding.Basic
import ScriptMachine.Embedding.Sequence
import ScriptMachine.Engine.Basic
import ScriptMachine.Engine.Lifecycle
import ScriptMachine.Engine.Machine
import ScriptMachine.Engine.Stack
import ScriptMachine.Fault
import ScriptMachine.Host.Function
import ScriptMachine.Host.Library
import ScriptMachine.Host.Overload
import ScriptMachine.Host.Registry
import ScriptMachine.Host.TypeRef
import ScriptMachine.Image.Bytes
import ScriptMachine.Image.Decode
import ScriptMachine.Image.Encode
import ScriptMachine.Json.Basic
import ScriptMachine.Json.Number
import ScriptMachine.Json.Parser
import ScriptMachine.Json.View
import ScriptMachine.Main
import ScriptMachine.Number.Binary64
import ScriptMachine.Number.Layout
import ScriptMachine.Number.Reading
import ScriptMachine.Number.Shortest
import ScriptMachine.Options.Document
import ScriptMachine.Options.Moment
import ScriptMachine.Options.Quoted
import ScriptMachine.Options.Reader
import ScriptMachine.Options.Reads
import ScriptMachine.Options.Setting
import ScriptMachine.Program.Basic
import ScriptMachine.Program.Instruction
import ScriptMachine.Program.Namespace
import ScriptMachine.Proofs.Balance.Captures
import ScriptMachine.Proofs.Balance.Changes
import ScriptMachine.Proofs.Balance.Code
import ScriptMachine.Proofs.Balance.Frames
import ScriptMachine.Proofs.Balance.Handling
import ScriptMachine.Proofs.Balance.Internal
import ScriptMachine.Proofs.Balance.Mirrors
import ScriptMachine.Proofs.Balance.Ownership
import ScriptMachine.Proofs.Balance.Passages
import ScriptMachine.Proofs.Balance.Points
import ScriptMachine.Proofs.Balance.Programs
import ScriptMachine.Proofs.Balance.Returns
import ScriptMachine.Proofs.Balance.Runs
import ScriptMachine.Proofs.Balance.Steps
import ScriptMachine.Proofs.Balance.Traces
import ScriptMachine.Proofs.Compiler.Acceptance
import ScriptMachine.Proofs.Compiler.Blocks
import ScriptMachine.Proofs.Compiler.Closures
import ScriptMachine.Proofs.Compiler.Directories
import ScriptMachine.Proofs.Compiler.Entries
import ScriptMachine.Proofs.Compiler.FreeNames
import ScriptMachine.Proofs.Compiler.Layout
import ScriptMachine.Proofs.Compiler.Literals
import ScriptMachine.Proofs.Compiler.Loops
import ScriptMachine.Proofs.Compiler.Lowered
import ScriptMachine.Proofs.Compiler.Mentions
import ScriptMachine.Proofs.Compiler.Occurrences
import ScriptMachine.Proofs.Compiler.Pieces
import ScriptMachine.Proofs.Compiler.Scoping
import ScriptMachine.Proofs.Embedding.Outcomes
import ScriptMachine.Proofs.Embedding.Sessions
import ScriptMachine.Proofs.Engine.Addresses
import ScriptMachine.Proofs.Engine.Anatomy
import ScriptMachine.Proofs.Engine.Capacities
import ScriptMachine.Proofs.Engine.Carriers
import ScriptMachine.Proofs.Engine.Closures
import ScriptMachine.Proofs.Engine.Disciplines
import ScriptMachine.Proofs.Engine.Effects
import ScriptMachine.Proofs.Engine.Entering
import ScriptMachine.Proofs.Engine.Fleets
import ScriptMachine.Proofs.Engine.LargerStacks
import ScriptMachine.Proofs.Engine.Lives
import ScriptMachine.Proofs.Engine.Notes
import ScriptMachine.Proofs.Engine.Pairs
import ScriptMachine.Proofs.Engine.Parallel
import ScriptMachine.Proofs.Engine.Privacy
import ScriptMachine.Proofs.Engine.Shortcuts
import ScriptMachine.Proofs.Engine.Stacks
import ScriptMachine.Proofs.Engine.Steps
import ScriptMachine.Proofs.Engine.Turns
import ScriptMachine.Proofs.Engine.Writes
import ScriptMachine.Proofs.Host.Generics
import ScriptMachine.Proofs.Host.Invariance
import ScriptMachine.Proofs.Host.Lineages
import ScriptMachine.Proofs.Host.Preparation
import ScriptMachine.Proofs.Host.Progressions
import ScriptMachine.Proofs.Host.Purity
import ScriptMachine.Proofs.Host.Selection
import ScriptMachine.Proofs.Image.Arrangements
import ScriptMachine.Proofs.Image.Bindings
import ScriptMachine.Proofs.Image.Counts
import ScriptMachine.Proofs.Image.Instructions
import ScriptMachine.Proofs.Image.Jumps
import ScriptMachine.Proofs.Image.Listings
import ScriptMachine.Proofs.Image.Namespaces
import ScriptMachine.Proofs.Image.Prefixes
import ScriptMachine.Proofs.Image.Progress
import ScriptMachine.Proofs.Image.Reading
import ScriptMachine.Proofs.Image.RoundTrip
import ScriptMachine.Proofs.Image.Varints
import ScriptMachine.Proofs.Loops.Awaits
import ScriptMachine.Proofs.Loops.Hosts
import ScriptMachine.Proofs.Loops.Laps
import ScriptMachine.Proofs.Loops.Ranges
import ScriptMachine.Proofs.Loops.Slots
import ScriptMachine.Proofs.Meaning.Evaluation
import ScriptMachine.Proofs.Meaning.Scripts
import ScriptMachine.Proofs.Program.Tables
import ScriptMachine.Proofs.Program.Walk
import ScriptMachine.Proofs.Simulation.Bodies
import ScriptMachine.Proofs.Simulation.Calls
import ScriptMachine.Proofs.Simulation.Constructs
import ScriptMachine.Proofs.Simulation.Functions
import ScriptMachine.Proofs.Simulation.Linking
import ScriptMachine.Proofs.Simulation.Parts
import ScriptMachine.Proofs.Simulation.Programs
import ScriptMachine.Proofs.Simulation.Rules
import ScriptMachine.Proofs.Simulation.Stages
import ScriptMachine.Proofs.Simulation.Turns
import ScriptMachine.Proofs.Simulation.Walks
import ScriptMachine.Proofs.Source.Rereading
import ScriptMachine.Proofs.Value.Arithmetic
import ScriptMachine.Proofs.Value.Dictionary
import ScriptMachine.Proofs.Value.Likeness
import ScriptMachine.Proofs.Value.PairLists
import ScriptMachine.Proofs.Value.Pairings
import ScriptMachine.Proofs.Value.Pictures
import ScriptMachine.Proofs.Value.Store
import ScriptMachine.Proofs.Value.Texts
import ScriptMachine.Source.Basic
import ScriptMachine.Source.Reader
import ScriptMachine.Source.Writer
import ScriptMachine.Text.Character
import ScriptMachine.Text.Quoted
import ScriptMachine.Value.Basic
import ScriptMachine.Value.Iterator
import ScriptMachine.Value.Operators
import ScriptMachine.Value.Rendering
