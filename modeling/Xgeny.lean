import Xgeny.Admission.Admitted
import Xgeny.Admission.Facts
import Xgeny.Admission.Invocation
import Xgeny.AgentLoop.Conflicts
import Xgeny.AgentLoop.Context
import Xgeny.AgentLoop.Discipline
import Xgeny.AgentLoop.Documents
import Xgeny.AgentLoop.PlannerCalls
import Xgeny.AgentLoop.Presentation
import Xgeny.AgentLoop.Proposal
import Xgeny.AgentLoop.Structure
import Xgeny.AgentLoop.Tick
import Xgeny.Capability
import Xgeny.Cli.AllowFile
import Xgeny.Cli.Commitment
import Xgeny.Cli.RecipeLaws
import Xgeny.Cli.Recipes
import Xgeny.Digest
import Xgeny.Driver.Calls
import Xgeny.Driver.Driver
import Xgeny.Driver.Egress
import Xgeny.Event
import Xgeny.Filesystem.ApplyPatch
import Xgeny.Filesystem.AtomicCommit
import Xgeny.Filesystem.CommitLaws
import Xgeny.Filesystem.CommitLedger
import Xgeny.Frontier.Classification
import Xgeny.Frontier.Exact
import Xgeny.Frontier.Graph
import Xgeny.Frontier.Model
import Xgeny.Frontier.Progress
import Xgeny.Lib.EventLog
import Xgeny.Lib.HashChain
import Xgeny.Lib.KeyedMap
import Xgeny.Lib.Mutation
import Xgeny.Lib.Outcome
import Xgeny.Lib.Process
import Xgeny.Lib.Search
import Xgeny.Lib.Topological
import Xgeny.Lib.Utf8
import Xgeny.Lib.Word
import Xgeny.Planning
import Xgeny.Policy.Broker
import Xgeny.Policy.Coverage
import Xgeny.Policy.Documents
import Xgeny.Policy.Pointers
import Xgeny.Policy.Resolution
import Xgeny.Receipt
import Xgeny.Reducer.Apply
import Xgeny.Reducer.Effects
import Xgeny.Reducer.Intent
import Xgeny.Reducer.ModelCalls
import Xgeny.Reducer.Plan
import Xgeny.Routing
import Xgeny.Routing.Determinism
import Xgeny.Routing.Ranking
import Xgeny.Runs.AtMostOnce
import Xgeny.Runs.Authorization
import Xgeny.Runs.Budgets
import Xgeny.Runs.CallProgress
import Xgeny.Runs.Completion
import Xgeny.Runs.Evidence
import Xgeny.Runs.History
import Xgeny.Runs.ModelCalls
import Xgeny.Runs.Ownership
import Xgeny.Runs.Schedulable
import Xgeny.Runs.TamperEvidence
import Xgeny.Runtime.Executions
import Xgeny.Runtime.Executor
import Xgeny.Runtime.Operations
import Xgeny.Runtime.Recovery
import Xgeny.Runtime.Settlement
import Xgeny.Runtime.Verdicts
import Xgeny.Runtime.World
import Xgeny.Sidecar
import Xgeny.SidecarChecks
import Xgeny.Sidecars.Binding
import Xgeny.Sidecars.Encoding
import Xgeny.Sidecars.JsonText
import Xgeny.Sidecars.Limits
import Xgeny.Snapshots.Planning
import Xgeny.Snapshots.Points
import Xgeny.Snapshots.Verification
import Xgeny.State
import Xgeny.Store.Anchors
import Xgeny.Store.Atomicity
import Xgeny.Store.Checks
import Xgeny.Store.Chronology
import Xgeny.Store.Coherent
import Xgeny.Store.Commit
import Xgeny.Store.Index
import Xgeny.Store.Journal
import Xgeny.Store.Memory
import Xgeny.Store.Receipts
import Xgeny.Store.Refinement
import Xgeny.Store.Sidecars
import Xgeny.Store.Snapshots
import Xgeny.Text
import Xgeny.Transition.Inversion
import Xgeny.Transition.Relation
import Xgeny.Transition.Run
import Xgeny.Transition.Steps
import Xgeny.Verification.Agreement
import Xgeny.Verification.Report
import Xgeny.Verification.Runner
import Xgeny.Workspace.Arguments
import Xgeny.Workspace.Catalog
import Xgeny.Workspace.Containment
import Xgeny.Workspace.Grammar
import Xgeny.Workspace.Paths
import Xgeny.AgentLoop.ContextText
import Xgeny.Store.Attempts
import Xgeny.Adapter.ProcessEnvironment
import Xgeny.Cli.ModelProfiles
import Xgeny.Cli.ProfileSaves
import Xgeny.Cli.Repl
import Xgeny.Cli.ReplConsent
import Xgeny.Lib.Worklist
import Xgeny.Protocol.WorkGraph
import Xgeny.Provider.Artifacts
import Xgeny.Provider.ProfileDigest
import Xgeny.Cli.CredentialReferences
import Xgeny.Cli.OrphanSecrets
import Xgeny.Provider.RequestSize
import Xgeny.Provider.SentContexts
import Xgeny.Adapter.Capture
import Xgeny.Cli.BoundedLines
import Xgeny.Filesystem.QueryOutput
import Xgeny.Filesystem.SearchLaws
import Xgeny.Snapshots.Context
import Xgeny.Admission.PlannedFacts
import Xgeny.Sqlite.Constraints
import Xgeny.Cli.ProcessTooling
import Xgeny.Cli.Approval
import Xgeny.Driver.ConsentRuns
