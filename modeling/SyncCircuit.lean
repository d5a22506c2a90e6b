import SyncCircuit.ScopeTree
import SyncCircuit.Simulation.Bench
import SyncCircuit.Proofs.Reads
import SyncCircuit.Proofs.Strictness
import SyncCircuit.Proofs.CallDepth
import SyncCircuit.Proofs.Writes
import SyncCircuit.Proofs.Phases
import SyncCircuit.Proofs.Equations
import SyncCircuit.Proofs.WellFormed
import SyncCircuit.Proofs.Cycles
import SyncCircuit.Proofs.Passes
import SyncCircuit.Proofs.Failures
import SyncCircuit.Proofs.Outcomes
import SyncCircuit.Proofs.Dumping
import SyncCircuit.Proofs.Runs
import SyncCircuit.Proofs.Invariants
import SyncCircuit.Proofs.NameClashes
import SyncCircuit.Proofs.Results
import SyncCircuit.Proofs.Publication
import SyncCircuit.Proofs.TraceLengths
import SyncCircuit.Proofs.Progress
import SyncCircuit.Proofs.LatchMemory
import SyncCircuit.Proofs.Lockstep
import SyncCircuit.Proofs.TwoRuns
import SyncCircuit.Proofs.Reuse
import SyncCircuit.Proofs.Synchronous
import SyncCircuit.Proofs.Resampling
import SyncCircuit.Proofs.Causality
import SyncCircuit.Proofs.Influence
import SyncCircuit.Proofs.UpdateOrder
import SyncCircuit.Proofs.Benches
import SyncCircuit.Proofs.Transparency
import SyncCircuit.Proofs.Blocks
import SyncCircuit.Proofs.Following
import SyncCircuit.Proofs.Replay
import SyncCircuit.Proofs.Simulations
import SyncCircuit.Proofs.Declarations
import SyncCircuit.Proofs.Visibility
import SyncCircuit.Proofs.Evaluation
import SyncCircuit.Proofs.CallChains
import SyncCircuit.Proofs.Inlining
import SyncCircuit.Proofs.HookProtocol
import SyncCircuit.Proofs.Renaming
import SyncCircuit.Proofs.SharedScopes
import SyncCircuit.Proofs.Violations
import SyncCircuit.Proofs.SignalOrder
import SyncCircuit.Proofs.Identifiers
import SyncCircuit.Proofs.Sections
import SyncCircuit.Proofs.TraceText
