import RagForge.Async.Tasks
import RagForge.Eval.Types
import RagForge.Store.Table

/-
The store of the eval harness (`eval_store.py`) and what its coroutines await.

A write by id changes a document whatever its status is; renewing a lease, claiming a stale run and
interrupting a claimed one are conditional updates.  Which store call fails is up to the
environment, and a call that fails may have taken effect before.
-/

namespace RagForge.Eval

open Py Effect Async Store

/-- Documents are found by tenant and id. -/
structure Key where
  tenant : String
  id : String
  deriving DecidableEq

structure World where
  runs : Table Key RunDoc
  benchmarks : Table Key BenchmarkDoc
  /-- The phase table that an execution and the items of its phases share in memory. -/
  tables : Key → List Phase
  clock : Nat
  /-- How many store calls were made. -/
  tick : Nat
  /-- How many ids were drawn. -/
  drawn : Nat

/-- The part of `_execute` a call stands in: before its `try`, inside, or in a handler that closes
the benchmark. -/
inductive Region
  | opening
  | body
  | closing
  deriving DecidableEq

/-! ## Operations -/

/-- What is performed at once: store calls, the clock and the phase table in memory. -/
inductive Now
  | heartbeatRun (run : Key) (owner : String)
  | recordLabelValidation (run : Key) (summary : LabelSummary)
  | appendItemResult (run : Key) (row : Row)
  | finishRun (run : Key) (status : RunStatus) (results : Option Results) (error : Option String)
  | createRun (tenant owner : String) (mode : Mode) (pipeline : Option Pipeline)
      (matchMode : MatchMode) (benchmarkId : Option String)
  | runningRuns
  | claimStaleRun (run : Key) (at_ : Nat) (owner : String)
  | interruptClaimedRun (run : Key) (owner : String)
  | heartbeatBenchmark (benchmark : Key) (owner : String) (region : Region)
  | recordOperationalMetrics (benchmark : Key) (metrics : OperationalMetrics) (region : Region)
  | recordBenchmarkProgress (benchmark : Key) (status : BenchmarkStatus) (phases : List Phase)
      (progress : Progress) (started : Bool)
  | finishBenchmarkRun (benchmark : Key) (status : BenchmarkStatus) (phases : List Phase)
      (progress : Progress) (error : Option String) (region : Region)
  | time
  | phaseTable (benchmark : Key)
  | setPhaseTable (benchmark : Key) (phases : List Phase)

def Now.Reply : Now → Type
  | .heartbeatRun .. => Bool
  | .recordLabelValidation .. => Unit
  | .appendItemResult .. => Unit
  | .finishRun .. => Unit
  | .createRun .. => String
  | .runningRuns => List (Key × RunDoc)
  | .claimStaleRun .. => Bool
  | .interruptClaimedRun .. => Bool
  | .heartbeatBenchmark .. => Bool
  | .recordOperationalMetrics .. => Unit
  | .recordBenchmarkProgress .. => Unit
  | .finishBenchmarkRun .. => Unit
  | .time => Nat
  | .phaseTable _ => List Phase
  | .setPhaseTable .. => Unit

def Now.isStore : Now → Bool
  | .time => false
  | .phaseTable _ => false
  | .setPhaseTable .. => false
  | _ => true

/-- What is awaited.  Searching, gating and reranking for an item are one await. -/
inductive Later
  | snapshot (region : Region)
  | verifyLabelIds (chunkIds fileIds : List String)
  | acquire
  | retrieve (query : String)
  | runGraph (query : String) (pipeline : Pipeline)

def Later.Reply : Later → Type
  | .snapshot _ => Json
  | .verifyLabelIds .. => Verified
  | .acquire => Unit
  | .retrieve _ => List String
  | .runGraph .. => GraphResult

def iface : Interface := ⟨Now, Now.Reply, Later, Later.Reply, Err, .cancelled⟩

abbrev ItemM (α : Type) : Type := Proc iface.child Unit α

abbrev MainM (α : Type) : Type := Proc (iface.main Row) Unit α

def ItemM.now (op : Now) : ItemM op.Reply := Proc.perform (S := iface.child) (.now op)

def ItemM.await (w : Later) : ItemM w.Reply := Proc.perform (S := iface.child) (.later w)

def MainM.now (op : Now) : MainM op.Reply := Proc.perform (S := iface.main Row) (.now op)

def MainM.await (w : Later) : MainM w.Reply := Proc.perform (S := iface.main Row) (.later w)

def MainM.gather (children : List (ItemM Row)) : MainM (List Row) :=
  Proc.perform (S := iface.main Row) (.gather (children.map Coroutine.of))

/-! ## Effects -/

structure Fault where
  cls : String
  text : String
  applied : Bool

structure Env where
  /-- Which store call fails: its number and what it is. -/
  fault : Nat → Now → Option Fault
  newId : Nat → String
  leaseSeconds : Nat

def Env.leaseExpiry (env : Env) (now : Nat) : Nat := now + max 1 env.leaseSeconds

def Env.lease (env : Env) (owner : String) (now : Nat) : Lease :=
  ⟨some owner, now, some (env.leaseExpiry now)⟩

def expired (lease : Option Lease) (now : Nat) : Bool :=
  match lease.bind Lease.expiresAt with
  | none => true
  | some t => decide (t ≤ now)

def leasedTo (lease : Option Lease) (owner : String) : Bool :=
  decide (lease.bind Lease.ownerId = some owner)

def Lease.renew (env : Env) (now : Nat) (l : Lease) : Lease :=
  { l with heartbeatAt := now, expiresAt := some (env.leaseExpiry now) }

namespace World

variable (w : World)

/-- `_update_one` on a run, under a condition. -/
def updateRun (run : Key) (cond : RunDoc → Bool) (f : RunDoc → RunDoc) : World :=
  { w with runs := w.runs.update cond run f }

/-- Insert a run.  Where the key is taken, the document that was there is the one that is found. -/
def insertRun (run : Key) (d : RunDoc) : World :=
  if (w.runs.lookup run).isSome then w else { w with runs := w.runs.insert run d }

def matchesRun (run : Key) (cond : RunDoc → Bool) : Bool := (w.runs.find cond run).isSome

def updateBenchmark (benchmark : Key) (cond : BenchmarkDoc → Bool)
    (f : BenchmarkDoc → BenchmarkDoc) : World :=
  { w with benchmarks := w.benchmarks.update cond benchmark f }

end World

def ownsRun (owner : String) (d : RunDoc) : Bool :=
  decide (d.status = .running) && leasedTo d.lease owner

def isStale (now : Nat) (d : RunDoc) : Bool := decide (d.status = .running) && expired d.lease now

def anyDoc {α : Type} (_ : α) : Bool := true

def Now.effect (env : Env) : (op : Now) → World → op.Reply × World
  | .heartbeatRun run owner, w =>
    (w.matchesRun run (ownsRun owner),
      w.updateRun run (ownsRun owner) fun d =>
        { d with lease := d.lease.map (Lease.renew env w.clock) })
  | .recordLabelValidation run summary, w =>
    ((), w.updateRun run anyDoc fun d => { d with labelValidation := some summary })
  | .appendItemResult run row, w =>
    ((), w.updateRun run anyDoc fun d => { d with perItem := d.perItem ++ [row] })
  | .finishRun run status results error, w =>
    ((), w.updateRun run anyDoc fun d =>
      { d with
        status := status
        results := results
        error := error
        finishedAt := some w.clock })
  | .createRun tenant owner mode pipeline matchMode benchmarkId, w =>
    let id := env.newId w.drawn
    (id, { w.insertRun ⟨tenant, id⟩
      { status := .running
        mode := mode
        pipelineMode := pipeline
        matchMode := matchMode
        benchmarkId := benchmarkId
        labelValidation := none
        results := none
        perItem := []
        error := none
        lease := some (env.lease owner w.clock)
        recovery := none
        finishedAt := none } with drawn := w.drawn + 1 })
  | .runningRuns, w =>
    ((w.runs.entries.filter fun e => decide (e.2.status = .running)).map fun e => (e.1, e.2), w)
  | .claimStaleRun run now owner, w =>
    (w.matchesRun run (isStale now),
      w.updateRun run (isStale now) fun d =>
        { d with lease := some (env.lease owner now), recovery := some ⟨owner, now⟩ })
  | .interruptClaimedRun run owner, w =>
    (w.matchesRun run (ownsRun owner),
      w.updateRun run (ownsRun owner) fun d =>
        { d with
          status := .interrupted
          results := none
          error := some "Eval run interrupted after its worker lease expired"
          finishedAt := some w.clock })
  | .heartbeatBenchmark benchmark owner _, w =>
    ((w.benchmarks.find (fun d => leasedTo d.lease owner) benchmark).isSome,
      w.updateBenchmark benchmark (fun d => leasedTo d.lease owner) fun d =>
        { d with lease := d.lease.map (Lease.renew env w.clock) })
  | .recordOperationalMetrics benchmark metrics _, w =>
    ((), w.updateBenchmark benchmark anyDoc fun d => { d with operationalMetrics := metrics })
  | .recordBenchmarkProgress benchmark status phases progress started, w =>
    ((), w.updateBenchmark benchmark anyDoc fun d =>
      { d with
        status := status
        phases := phases
        progress := progress
        startedAt := if started then some w.clock else d.startedAt })
  | .finishBenchmarkRun benchmark status phases progress error _, w =>
    ((), w.updateBenchmark benchmark anyDoc fun d =>
      { d with
        status := status
        phases := phases
        progress := progress
        error := error
        finishedAt := some w.clock })
  | .time, w => (w.clock, w)
  | .phaseTable benchmark, w => (w.tables benchmark, w)
  | .setPhaseTable benchmark phases, w =>
    ((), { w with tables := Function.update w.tables benchmark phases })

def World.tock (w : World) : World := { w with tick := w.tick + 1 }

def serve (env : Env) : iface.Service World := fun op w =>
  let out := Now.effect env op w
  if Now.isStore op then
    match env.fault w.tick op with
    | none => (.ok out.1, out.2.tock)
    | some f => (.error (.failure f.cls f.text), (if f.applied then out.2 else w).tock)
  else (.ok out.1, out.2)

end RagForge.Eval
