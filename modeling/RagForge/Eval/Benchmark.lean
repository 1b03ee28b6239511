import RagForge.Eval.Runner

/-
The benchmark runner (`benchmark_runner.py`): one background execution runs the phases of a
benchmark in order, and every finished item writes the progress of the whole benchmark.
-/

namespace RagForge.Eval

open Py Effect Async

/-! ## Progress -/

def countPhases (phases : List Phase) (status : PhaseStatus) : Nat :=
  (phases.filter fun p => p.status = status).length

def phaseItemCount (p : Phase) : Nat := (p.results.map fun r => r.execution.total).getD 0

/-- What one phase adds to the counters of `_item_progress`.  A phase without counters of its own
is counted by its results. -/
def phaseCounters (p : Phase) : ItemProgress :=
  match p.itemProgress with
  | some progress => progress
  | none =>
    { itemsCompleted := phaseItemCount p
      itemsInFlight := 0
      itemsSucceeded := ((p.results.map Results.itemsEvaluated).getD 0 : Nat)
      itemsGuardrailBlocked := ((p.results.map Results.itemsGuardrailBlocked).getD 0 : Nat)
      itemsFailed := ((p.results.map Results.itemsFailed).getD 0 : Nat)
      itemsTimedOut := 0 }

def itemsInFlight (phases : List Phase) : Int :=
  match (phases.filter fun p => p.status = .running).getLast? with
  | some p => (p.itemProgress.map ItemProgress.itemsInFlight).getD 0
  | none => 0

def buildProgress (phases : List Phase) (itemCount : Nat) : Progress :=
  let executable := (phases.filter fun p => p.status ≠ .unsupported).length
  let total (f : ItemProgress → Int) : Int := (phases.map fun p => f (phaseCounters p)).sum
  { totalPhases := phases.length
    executablePhases := executable
    completedPhases := countPhases phases .completed
    partialPhases := countPhases phases .partial_
    failedPhases := countPhases phases .failed
    skippedPhases := countPhases phases .skipped
    unsupportedPhases := countPhases phases .unsupported
    interruptedPhases := countPhases phases .interrupted
    currentPhase := (phases.find? fun p => p.status = .running).map Phase.name
    itemsPerPhase := itemCount
    itemsTotal := itemCount * executable
    itemsCompleted := total ItemProgress.itemsCompleted
    itemsSucceeded := total ItemProgress.itemsSucceeded
    itemsGuardrailBlocked := total ItemProgress.itemsGuardrailBlocked
    itemsFailed := total ItemProgress.itemsFailed
    itemsTimedOut := total ItemProgress.itemsTimedOut
    itemsInFlight := itemsInFlight phases }

def initialPhaseProgress (itemCount : Nat) : ItemProgress := ⟨0, itemCount, 0, 0, 0, 0⟩

/-- Count one finished item (`_item_outcome_key`). -/
def ItemProgress.note (p : ItemProgress) (outcome : Outcome) : ItemProgress :=
  let p := { p with
    itemsCompleted := p.itemsCompleted + 1
    itemsInFlight := p.itemsInFlight - 1 }
  match outcome with
  | .timedOut => { p with itemsTimedOut := p.itemsTimedOut + 1 }
  | .guardrailBlocked => { p with itemsGuardrailBlocked := p.itemsGuardrailBlocked + 1 }
  | .failed => { p with itemsFailed := p.itemsFailed + 1 }
  | .success => { p with itemsSucceeded := p.itemsSucceeded + 1 }

def benchmarkStatus (phases : List Phase) : BenchmarkStatus :=
  if phases.any fun p => p.status = .interrupted then .interrupted
  else if !phases.any fun p => p.status = .completed || p.status = .partial_ then .failed
  else if phases.any fun p =>
      p.status = .partial_ || p.status = .failed || p.status = .skipped then .partial_
  else .completed

def firstPhaseError (phases : List Phase) : Option String :=
  (phases.find? fun p => p.status = .failed).bind Phase.error

/-! ## Phases -/

structure BenchmarkSpec where
  key : Key
  owner : String
  caller : Caller
  /-- The items of the dataset snapshot. -/
  items : List Item
  itemCount : Nat

section

variable (b : BenchmarkSpec) (before : Json) (region : Region)

def recordItem (i : Nat) (row : Row) : ItemM Unit := do
  let phases : List Phase ← ItemM.now (.phaseTable b.key)
  let phases := phases.modify i fun p =>
    { p with itemProgress := p.itemProgress.map fun progress => progress.note row.outcome }
  ItemM.now (.setPhaseTable b.key phases)
  ItemM.now (.recordBenchmarkProgress b.key .running phases (buildProgress phases b.itemCount)
    false)
  let _ ← ItemM.now (.heartbeatBenchmark b.key b.owner .body)

def updatePhase (i : Nat) (f : Phase → Phase) : MainM Unit := do
  let phases : List Phase ← MainM.now (.phaseTable b.key)
  MainM.now (.setPhaseTable b.key (phases.modify i f))

/-- Close a phase: why the remaining phases are skipped, if they are. -/
def endPhase (i : Nat) (f : Phase → Phase × Option String) : MainM (Option String) := do
  let phases : List Phase ← MainM.now (.phaseTable b.key)
  MainM.now (.setPhaseTable b.key (phases.modify i fun p => (f p).1))
  return phases[i]?.bind fun p => (f p).2

/-- Write the phase table and the counters, with the benchmark running. -/
def writeProgress (started : Bool) : MainM Unit := do
  let phases : List Phase ← MainM.now (.phaseTable b.key)
  MainM.now (.recordBenchmarkProgress b.key .running phases (buildProgress phases b.itemCount)
    started)

def Err.isRefusal : Err → Bool
  | .validation _ => true
  | .notFound _ => true
  | .accessDenied _ => true
  | _ => false

def openPhase (cfg : Config) (b : BenchmarkSpec) (p : Phase) : MainM (Except Err RunSpec) :=
  Proc.handle
    (do return .ok (← openRun cfg b.caller b.items p.evaluationMode p.pipelineMode (some b.key.id)))
    fun e => if Err.isRefusal e then pure (.error (e : Err)) else Proc.raise e

def runPhase (cfg : Config) (b : BenchmarkSpec) (i : Nat) (p : Phase) : MainM (Option String) := do
  updatePhase b i fun p =>
    { p with status := .running, itemProgress := some (initialPhaseProgress b.itemCount) }
  writeProgress b false
  match ← openPhase cfg b p with
  | .error e => endPhase b i fun p => failPhase p e.text
  | .ok x =>
    updatePhase b i fun p => { p with runId := some x.run.id }
    let summary ← executeRun cfg x (recordItem b i)
    endPhase b i fun p => closePhase b.itemCount p summary

def runPhases (cfg : Config) (b : BenchmarkSpec) : List Nat → Option String → MainM Unit
  | [], _ => pure ()
  | i :: rest, aborted => do
      let phases : List Phase ← MainM.now (.phaseTable b.key)
      match phases[i]? with
      | none => runPhases cfg b rest aborted
      | some p =>
        if p.status = .unsupported then runPhases cfg b rest aborted
        else
          match aborted with
          | some reason =>
            updatePhase b i fun p => { p with status := .skipped, reason := some reason }
            runPhases cfg b rest aborted
          | none =>
            let aborted ← runPhase cfg b i p
            runPhases cfg b rest aborted

/-! ## Executions -/

/-- `_capture_snapshot`: a snapshot that fails is an empty one. -/
def captureSnapshot : MainM Json :=
  exceptException Err.isCancelled (MainM.await (.snapshot region)) fun _ => pure (.obj [])

def closeBenchmark
    (status : BenchmarkStatus) (error : List Phase → Option String) : MainM BenchmarkStatus := do
  let after ← captureSnapshot region
  MainM.now (.recordOperationalMetrics b.key ⟨some before, some after⟩ region)
  let phases : List Phase ← MainM.now (.phaseTable b.key)
  MainM.now (.finishBenchmarkRun b.key status phases (buildProgress phases b.itemCount)
    (error phases) region)
  return status

/-- The `try` of `_execute`. -/
def runBenchmark (cfg : Config) (b : BenchmarkSpec) (before : Json) : MainM BenchmarkStatus := do
  writeProgress b true
  let _ ← MainM.now (.heartbeatBenchmark b.key b.owner .body)
  let phases : List Phase ← MainM.now (.phaseTable b.key)
  runPhases cfg b (List.range phases.length) none
  let phases : List Phase ← MainM.now (.phaseTable b.key)
  let status := benchmarkStatus phases
  closeBenchmark b before .body status fun phases =>
    if status = .completed then none else firstPhaseError phases

def interruptPhase (p : Phase) : Phase :=
  if p.status = .running || p.status = .queued then
    { p with
      status := .interrupted
      reason := some "The benchmark was cancelled before this phase finished" }
  else p

/-- The handlers of `_execute`. -/
def abandonBenchmark (e : Err) : MainM BenchmarkStatus :=
  if e.isCancelled then do
    let phases : List Phase ← MainM.now (.phaseTable b.key)
    MainM.now (.setPhaseTable b.key (phases.map interruptPhase))
    let _ ← closeBenchmark b before .closing .interrupted fun _ =>
      some "The benchmark was cancelled before it finished"
    Proc.raise e
  else closeBenchmark b before .closing .failed fun _ => some e.text

end

/-- `_execute`. -/
def executeBenchmark (cfg : Config) (b : BenchmarkSpec) : MainM BenchmarkStatus := do
  let _ ← MainM.now (.heartbeatBenchmark b.key b.owner .opening)
  let before ← captureSnapshot .opening
  MainM.now (.recordOperationalMetrics b.key ⟨some before, none⟩ .opening)
  (runBenchmark cfg b before).handle (abandonBenchmark b before)

end RagForge.Eval
