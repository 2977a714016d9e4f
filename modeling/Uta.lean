import Uta.Operations.Rows
import Uta.Lib.Book
import Uta.Operations.Effects
import Uta.Lib.Run
import Uta.Operations.Laws
import Uta.Enforce.Mutation
import Uta.Enforce.Diff
import Uta.Enforce.Rollup
import Uta.Enforce.DiffLaws
import Uta.Lib.Chain
import Uta.Operations.Envelope
import Uta.Operations.Adoption
import Uta.Operations.Slots
import Uta.Lib.Interleave
import Uta.Tasks.Rows
import Uta.Tasks.Statements
import Uta.Tasks.Lifecycle
import Uta.Tasks.Daemon
import Uta.Lib.Exclusive
import Uta.Tasks.Board
import Uta.Tasks.Exclusion
import Uta.Tasks.Terminal
import Uta.Tasks.Ownership
import Uta.Enforce.Candidates
import Uta.Enforce.Policy
import Uta.Enforce.Batching
import Uta.Enforce.BatchingLaws
import Uta.Lib.Json
import Uta.Lib.JsonLaws
import Uta.Enforce.Equivalence
import Uta.Enforce.Grant
import Uta.Generation.Batches
import Uta.Generation.BatchLaws
import Uta.Generation.Rerun
import Uta.Generation.Upkeep
import Uta.Generation.RerunLaws
import Uta.Generation.Stability
import Uta.Generation.Selection
import Uta.Generation.Soundness
import Uta.Generation.Renewal
import Uta.Generation.RepairProgress
import Uta.Generation.RepairTrace
import Uta.Ci.Service
import Uta.Lib.Permits
import Uta.Ci.Discipline
import Uta.Ci.Queue
import Uta.Ci.Checks
import Uta.Ci.ParallelLimit
import Uta.Ci.Stops
import Uta.Tasks.Closing
import Uta.Lib.Places
import Uta.Lib.Scan
import Uta.Ci.Store
import Uta.Ci.Extraction
import Uta.Ci.Summaries
import Uta.Repair.Locking
import Uta.Tasks.Progress
import Uta.Tasks.Quarantine
import Uta.Tasks.Preemption
import Uta.Repair.Sessions
import Uta.Repair.Reports
import Uta.Repair.Keeping
import Uta.Repair.Repetition
import Uta.Repair.Fingerprints
import Uta.PythonCi.Handler
import Uta.PythonCi.Verdict
import Uta.Generation.Runs
import Uta.Retention.Prune
import Uta.Retention.Sparing
import Uta.PythonGate.Payload
import Uta.PythonGate.Projection
import Uta.PythonGate.Sampling
import Uta.PythonGate.Binding
import Uta.PythonGate.Enforcement
import Uta.PythonGate.Validation
import Uta.PythonGate.Agreement
import Uta.Repair.Duplicates
import Uta.Repair.Deferred
import Uta.JavaGate.Scope
import Uta.JavaGate.ScopeLaws
import Uta.JavaGate.Hanging
import Uta.JavaGate.Runner
import Uta.JavaGate.Evidence
import Uta.JavaGate.Quarantine
import Uta.JavaGate.Output
import Uta.JavaGate.Log
import Uta.JavaGate.Readings
import Uta.JavaGate.Verdict
import Uta.Ci.Callback
import Uta.Lib.Sorting
import Uta.Enforce.Partition
import Uta.Operations.CostGate
import Uta.Operations.Restart
import Uta.Operations.Prerequisites
import Uta.Operations.Pauses
import Uta.Enforce.Selection
import Uta.Enforce.CandidatePlan
import Uta.Enforce.PlanAccounting
import Uta.Operations.Artifact
import Uta.Operations.ArtifactLaws
import Uta.Operations.Rehydrate
import Uta.Operations.RehydrateLaws
import Uta.Lib.History
import Uta.Delivery.Git
import Uta.Delivery.Push
import Uta.Lib.Hoare
import Uta.Delivery.Effects
import Uta.Delivery.Rebase
import Uta.Delivery.Shelf
import Uta.Delivery.Published
import Uta.Delivery.Consistency
import Uta.Cycle.Topology
import Uta.Cycle.Java
import Uta.Cycle.Edges
import Uta.Lib.Potential
import Uta.Cycle.Budget
import Uta.Cycle.Turns
import Uta.Cycle.Verified
import Uta.Cycle.Longest
import Uta.Cycle.Ending
import Uta.Enforce.Verdicts
import Uta.Tasks.Acquiring
import Uta.Enforce.Coverage
import Uta.Delivery.RdcRepair
import Uta.PythonGate.Walk
import Uta.Tasks.TurnBudget
import Uta.Tasks.SessionTotals
import Uta.Enforce.PlanRollup
import Uta.Enforce.CopiedBytes
import Uta.Lib.Lines
import Uta.Lib.Toml
import Uta.Enforce.MutmutConfig
import Uta.Enforce.MutmutSection
import Uta.Lib.Leading
import Uta.JavaGate.Reasons
import Uta.JavaGate.Surefire
import Uta.JavaGate.SurefireLaws
import Uta.JavaGate.Unfinished
import Uta.Lib.Sql
import Uta.Tasks.Identity
import Uta.Cycle.MutationGate
import Uta.Cycle.Python
import Uta.Cycle.PythonRuns
import Uta.Repair.Summaries
import Uta.Repair.Granting
import Uta.JavaGate.Survivors
import Uta.Lib.RoundRobin
import Uta.PythonGate.ReportSampling
import Uta.Lib.Skipping
import Uta.JavaGate.Arguments
import Uta.JavaGate.ArgumentLaws
import Uta.JavaGate.Rewriting
import Uta.Lib.Placing
import Uta.Enforce.MutationRepair
import Uta.Enforce.RepairFiles
import Uta.Lib.CompactJson
import Uta.Lib.Occurrences
import Uta.Ci.Scanning
import Uta.Lib.Stamped
import Uta.Cycle.Review
import Uta.Cycle.ReviewRuns
import Uta.Lib.NestedSums
import Uta.Lib.FirstSeen
import Uta.Lib.Before
import Uta.Generation.TurnAccounting
import Uta.Generation.AccountingLaws
import Uta.Lib.Finding
import Uta.JavaGate.Flags
import Uta.JavaGate.GateLines
import Uta.JavaGate.GateSummary
import Uta.JavaGate.FlagsLaws
import Uta.PythonGate.Flags
import Uta.Repair.MutationOnly
import Uta.Lib.Search
import Uta.Workspace.Scan
import Uta.Workspace.Paths
import Uta.Workspace.CopyPaths
import Uta.Overlay.Manifest
import Uta.Overlay.Install
import Uta.Overlay.Cache
import Uta.Overlay.CacheLaws
