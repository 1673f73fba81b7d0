import LlmDRl.Library.OrderedDict
import LlmDRl.Library.MergeEntries
import LlmDRl.Library.Runs
import LlmDRl.Library.History
import LlmDRl.Library.ListScheduling
import LlmDRl.Library.Makespan
import LlmDRl.Library.Statistics
import LlmDRl.Admission.Estimator
import LlmDRl.Admission.Ledger
import LlmDRl.Admission.Accounting
import LlmDRl.Admission.Acquire
import LlmDRl.Admission.Branches
import LlmDRl.Admission.Calls
import LlmDRl.Admission.Client
import LlmDRl.Admission.Effects
import LlmDRl.Admission.Balance
import LlmDRl.Admission.LaterTurns
import LlmDRl.Admission.MoveBack
import LlmDRl.Admission.Capacity
import LlmDRl.Admission.Stagger
import LlmDRl.Admission.LeaderOutcome
import LlmDRl.Admission.LptWindow
import LlmDRl.Admission.Replicas
import LlmDRl.Admission.RaisingCalls
import LlmDRl.Admission.FleetSize
import LlmDRl.Admission.ClosedForm
import LlmDRl.Admission.TracePlayer
import LlmDRl.Admission.TraceHints
import LlmDRl.Admission.WindowRuns
import LlmDRl.Admission.Leftovers
import LlmDRl.Admission.Residue
import LlmDRl.Admission.Decisions
import LlmDRl.Admission.LptBound
import LlmDRl.Admission.GroupKeys
import LlmDRl.Admission.Assignments
import LlmDRl.Admission.Batches
import LlmDRl.Admission.BatchRuns
import LlmDRl.Sidecar.SamplingParams
import LlmDRl.Registration.Endpoints
import LlmDRl.Registration.Shim
import LlmDRl.Registration.Handles
import LlmDRl.Registration.Concurrent
import LlmDRl.Pool.EnginePool
import LlmDRl.Pool.UpdateWeights
import LlmDRl.Pool.Membership
import LlmDRl.Pool.Health
import LlmDRl.Discovery.PodWatcher
import LlmDRl.Rollout.Controller
import LlmDRl.Rollout.Counters
import LlmDRl.Rollout.Phases
import LlmDRl.Rollout.Labels
import LlmDRl.Rollout.AtRest
import LlmDRl.Library.LastTouch
import LlmDRl.Library.Utf8
import LlmDRl.EppConfig.Merge
import LlmDRl.EppConfig.Spelling
import LlmDRl.EppConfig.Children
import LlmDRl.EppConfig.Paths
import LlmDRl.EppConfig.Layers
import LlmDRl.Wire.Varint
import LlmDRl.Wire.Fields
import LlmDRl.Wire.Headers
import LlmDRl.Wire.Endings
import LlmDRl.Wire.Prefixes
import LlmDRl.Routing.TrackedStream
import LlmDRl.Routing.Pick
import LlmDRl.Library.Rounding
import LlmDRl.Library.BinaryRounding
import LlmDRl.Weka.Linearize
import LlmDRl.Weka.Selection
import LlmDRl.Weka.Rows
import LlmDRl.Registration.Grammar
import LlmDRl.Registration.Roles
import LlmDRl.Registration.Renaming
import LlmDRl.Launcher.RouterStack
import LlmDRl.Launcher.RayRouter
import LlmDRl.Routing.Fleet
import LlmDRl.Overrides.Expand
import LlmDRl.Overrides.Modes
import LlmDRl.Rollout.GenerateRequest
import LlmDRl.Rollout.Asked
import LlmDRl.Rollout.Completions
import LlmDRl.Rollout.Responses
import LlmDRl.Checkpoint.WeightVersion
import LlmDRl.Library.Generator
import LlmDRl.Replay.NestedPrompts
import LlmDRl.Replay.Player
import LlmDRl.Library.Json
import LlmDRl.Library.JsonRoundTrip
import LlmDRl.Library.JsonLines
import LlmDRl.Library.Decimal
import LlmDRl.Replay.Trace
import LlmDRl.Replay.WekaRows
import LlmDRl.Routing.RequestBody
import LlmDRl.Telemetry.Reqlog
import LlmDRl.Admission.KvSource
import LlmDRl.Admission.Opening
import LlmDRl.Rollout.Versions
import LlmDRl.Checkpoint.WeightSync
import LlmDRl.Checkpoint.Rendezvous
import LlmDRl.Discovery.Deployment
import LlmDRl.Library.Loops
import LlmDRl.Library.Batches
import LlmDRl.Search.Retrieval
import LlmDRl.Search.SearchTool
