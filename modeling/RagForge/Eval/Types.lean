import RagForge.Py.Value

/-
The documents of the eval harness (`rag/app/services/eval_store.py`, `eval_runner.py` and
`benchmark_runner.py`).  Metric values, latencies and the texts of answers are left out.
-/

namespace RagForge.Eval

open Py

/-- The exceptions the harness tells apart. -/
inductive Err
  | cancelled
  | timeout (cls text : String)
  | validation (text : String)
  | notFound (text : String)
  | accessDenied (text : String)
  | failure (cls text : String)

def Err.text : Err → String
  | .cancelled => ""
  | .timeout _ text => text
  | .validation text => text
  | .notFound text => text
  | .accessDenied text => text
  | .failure _ text => text

def Err.className : Err → String
  | .cancelled => "CancelledError"
  | .timeout cls _ => cls
  | .validation _ => "EvalValidationError"
  | .notFound _ => "EvalNotFound"
  | .accessDenied _ => "EvalAccessDenied"
  | .failure cls _ => cls

/-- A cancellation, which `except Exception` lets pass. -/
def Err.isCancelled : Err → Bool
  | .cancelled => true
  | _ => false

def Err.isTimeout : Err → Bool
  | .timeout _ _ => true
  | _ => false

inductive Mode
  | retrieval
  | endToEnd
  deriving DecidableEq

inductive Pipeline
  | regular
  | extended

inductive MatchMode
  | chunk
  | file
  | mixed
  deriving DecidableEq

structure Item where
  itemId : Option String
  query : String
  relevantChunkIds : List String
  relevantFileIds : List String
  expectedFileNames : List String

inductive Outcome
  | success
  | guardrailBlocked
  | failed
  | timedOut
  deriving DecidableEq

structure Row where
  itemId : Option String
  query : String
  matchMode : MatchMode
  expectedIds : List String
  retrievedIds : List String
  firstHitRank : Option Nat
  /-- The row has `scores`. -/
  scored : Bool
  skipped : Bool
  unscorable : Bool
  error : Option String
  errorClass : Option String
  failedNode : Option String
  outcome : Outcome
  guardrailStage : Option String
  timedOut : Bool

structure FinalContext where
  keptCount : Option Nat
  candidateCount : Nat
  ids : List String

/-- The result of a graph run.  `sources` counts the source records, if there is a list of them, and
`ids` are those of the eligible ones. -/
structure GraphResult where
  outcome : Option Outcome
  error : Option String
  errorClass : Option String
  failedNode : Option String
  guardrailStage : Option String
  sources : Option Nat
  ids : List String
  finalContext : Option FinalContext

/-! ## Labels -/

inductive StalePolicy
  | fail
  | markUnscorable
  deriving DecidableEq

/-- The reply of the vector service for the ids of one field. -/
structure FieldReport where
  present : List String
  retrievable : List String
  missing : List String

structure Verified where
  chunkIds : FieldReport
  fileIds : FieldReport

structure LabelSummary where
  checked : Bool
  reason : Option String
  error : Option String
  policy : StalePolicy
  labelsChecked : Option Nat
  staleLabelCount : Option Nat
  staleItemCount : Option Nat
  staleIds : List String
  staleItemIds : List String
  unretrievableLabelCount : Option Nat
  unretrievableItemCount : Option Nat
  unretrievableIds : List String
  unscorableItemCount : Nat
  truncated : Bool

structure LabelReport where
  summary : LabelSummary
  unscorable : List String

def LabelReport.blocking (r : LabelReport) : Bool :=
  decide (r.summary.policy = .fail) && decide (r.summary.unscorableItemCount ≠ 0)

/-! ## Runs -/

structure ExecutionCounts where
  total : Nat
  succeeded : Nat
  guardrailBlocked : Nat
  failed : Nat
  timedOut : Nat
  interrupted : Nat
  deriving DecidableEq

structure ScoringCounts where
  datasetItems : Nat
  scored : Nat
  skipped : Nat
  unscorable : Nat
  deriving DecidableEq

/-- The counters of `aggregate`. -/
structure Results where
  itemsEvaluated : Nat
  itemsSkipped : Nat
  itemsUnscorable : Nat
  itemsGuardrailBlocked : Nat
  itemsFailed : Nat
  execution : ExecutionCounts
  scoring : ScoringCounts
  deriving DecidableEq

inductive RunStatus
  | running
  | completed
  | failed
  | interrupted
  deriving DecidableEq

structure Lease where
  ownerId : Option String
  heartbeatAt : Nat
  expiresAt : Option Nat

/-- Who claimed a stale run, and when. -/
structure Recovery where
  ownerId : String
  claimedAt : Nat

structure RunDoc where
  status : RunStatus
  mode : Mode
  pipelineMode : Option Pipeline
  matchMode : MatchMode
  benchmarkId : Option String
  labelValidation : Option LabelSummary
  /-- `none` is the empty dictionary. -/
  results : Option Results
  perItem : List Row
  error : Option String
  lease : Option Lease
  recovery : Option Recovery
  finishedAt : Option Nat

/-- How one run closed, for a caller that awaited it. -/
structure RunSummary where
  runId : String
  status : RunStatus
  results : Option Results
  error : Option String

/-! ## Benchmarks -/

inductive PhaseStatus
  | queued
  | running
  | completed
  | partial_
  | failed
  | skipped
  | unsupported
  | interrupted
  deriving DecidableEq

inductive BenchmarkStatus
  | queued
  | running
  | completed
  | partial_
  | failed
  | interrupted
  deriving DecidableEq

def BenchmarkStatus.terminal : BenchmarkStatus → Bool
  | .queued => false
  | .running => false
  | _ => true

structure ItemProgress where
  itemsCompleted : Int
  itemsInFlight : Int
  itemsSucceeded : Int
  itemsGuardrailBlocked : Int
  itemsFailed : Int
  itemsTimedOut : Int

structure Phase where
  name : String
  evaluationMode : Mode
  pipelineMode : Option Pipeline
  status : PhaseStatus
  reason : Option String
  runId : Option String
  error : Option String
  results : Option Results
  itemProgress : Option ItemProgress

structure Progress where
  totalPhases : Nat
  executablePhases : Nat
  completedPhases : Nat
  partialPhases : Nat
  failedPhases : Nat
  skippedPhases : Nat
  unsupportedPhases : Nat
  interruptedPhases : Nat
  currentPhase : Option String
  itemsPerPhase : Nat
  itemsTotal : Nat
  itemsCompleted : Int
  itemsSucceeded : Int
  itemsGuardrailBlocked : Int
  itemsFailed : Int
  itemsTimedOut : Int
  itemsInFlight : Int

structure OperationalMetrics where
  before : Option Json
  after : Option Json

structure BenchmarkDoc where
  status : BenchmarkStatus
  phases : List Phase
  progress : Progress
  operationalMetrics : OperationalMetrics
  error : Option String
  lease : Option Lease
  startedAt : Option Nat
  finishedAt : Option Nat

end RagForge.Eval
