import TapeMachine.Main
import TapeMachine.Program.Meaning
import TapeMachine.Proofs.Code
import TapeMachine.Proofs.Places
import TapeMachine.Proofs.Linking
import TapeMachine.Proofs.Compilation
import TapeMachine.Proofs.Unbalanced
import TapeMachine.Proofs.Loops
import TapeMachine.Proofs.Ticks
import TapeMachine.Proofs.BlockTicks
import TapeMachine.Proofs.Stepping
import TapeMachine.Proofs.PlainRun
import TapeMachine.Proofs.Correctness
import TapeMachine.Proofs.Drivers
import TapeMachine.Proofs.Gating
import TapeMachine.Proofs.Outcomes
import TapeMachine.Proofs.Locality
import TapeMachine.Proofs.Relocation
import TapeMachine.Proofs.Snippets
import TapeMachine.Proofs.Entries
import TapeMachine.Proofs.Engine
import TapeMachine.Proofs.Requests
import TapeMachine.Proofs.Atomicity
import TapeMachine.Proofs.Watching
import TapeMachine.Proofs.Lifecycle
import TapeMachine.Proofs.Operations
import TapeMachine.Proofs.DebugStates
import TapeMachine.Proofs.Invariants
import TapeMachine.Proofs.Cancelling
import TapeMachine.Proofs.Halting
import TapeMachine.Proofs.DebugRuns
import TapeMachine.Proofs.TypedLines
import TapeMachine.Proofs.ShellTurns
import TapeMachine.Proofs.ShellSessions
import TapeMachine.Proofs.Paths
import TapeMachine.Proofs.PlainExits
import TapeMachine.Proofs.DebugSessions
import TapeMachine.Proofs.DebugView
import TapeMachine.Proofs.Cells
import TapeMachine.Proofs.Regions
import TapeMachine.Proofs.TextInput
import TapeMachine.Proofs.OpenLoops
import TapeMachine.Proofs.Retrying
import TapeMachine.Proofs.Reusing
import TapeMachine.Proofs.PromptedReads
import TapeMachine.Proofs.EntryBrackets
import TapeMachine.Proofs.Tracing
import TapeMachine.Proofs.TraceLines
import TapeMachine.Proofs.TracedOperations
import TapeMachine.Proofs.Changes
import TapeMachine.Proofs.Listings
import TapeMachine.Proofs.Scanning
import TapeMachine.Proofs.Frames
