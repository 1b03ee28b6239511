import Mathlib.Algebra.GroupWithZero.Nat
import RagForge.Eval.Scoring
import RagForge.Eval.Store

/-
The eval runner (`eval_runner.py`): checking the labels of a dataset, executing its items under
`asyncio.gather`, closing the run, and the recovery of runs whose worker is gone.
-/

namespace RagForge.Eval

open Py Effect Async

structure Config where
  validateLabels : Bool
  staleLabelPolicy : String
  maxReportedStaleIds : Nat
  graphAvailable : Bool

/-! ## Labels -/

section

variable (cfg : Config) (x : RunSpec)

/-- `stale_label_policy`: an unknown value is the strict policy. -/
def Config.stalePolicy : StalePolicy :=
  if cfg.staleLabelPolicy = "mark_unscorable" then .markUnscorable else .fail

section

variable (items : List Item) (mode : MatchMode) (v : Verified)

/-- `label_targets`: the chunk ids and the file ids a run is scored against. -/
def labelTargets : List String × List String :=
  let idsOf (m : MatchMode) := (items.filter fun i => itemMatchMode i mode = m).flatMap fun i =>
    relevantIds i mode
  ((idsOf .chunk).dedup, (idsOf .file).dedup)

def uncheckedReport (reason : String) (policy : StalePolicy) (error : Option String) :
    LabelReport where
  summary :=
    { checked := false
      reason := some reason
      error := error
      policy := policy
      labelsChecked := none
      staleLabelCount := none
      staleItemCount := none
      staleIds := []
      staleItemIds := []
      unretrievableLabelCount := none
      unretrievableItemCount := none
      unretrievableIds := []
      unscorableItemCount := 0
      truncated := false }
  unscorable := []

def Verified.field (item : Item) (mode : MatchMode) : FieldReport :=
  if itemMatchMode item mode = .chunk then v.chunkIds else v.fileIds

def missingIds (mode : MatchMode) (item : Item) : List String :=
  (relevantIds item mode).filter fun x => x ∈ (v.field item mode).missing

def barredIds (mode : MatchMode) (item : Item) : List String :=
  (relevantIds item mode).filter fun x =>
    x ∈ (v.field item mode).present && x ∉ (v.field item mode).retrievable

/-- `str(item.get("item_id") or "")`. -/
def Item.key (item : Item) : String := item.itemId.getD ""

def classifyLabels (policy : StalePolicy) (maxReported : Nat) : LabelReport :=
  let stale := (items.flatMap (missingIds v mode)).dedup
  let barred := (items.flatMap (barredIds v mode)).dedup
  let staleItems := ((items.filter fun i => !(missingIds v mode i).isEmpty).map Item.key).dedup
  let barredItems := ((items.filter fun i => !(barredIds v mode i).isEmpty).map Item.key).dedup
  let unscorable := (staleItems ++ barredItems).dedup
  { summary :=
      { checked := true
        reason := none
        error := none
        policy := policy
        labelsChecked := some (items.map fun i => (relevantIds i mode).length).sum
        staleLabelCount := some stale.length
        staleItemCount := some staleItems.length
        staleIds := (sorted stale).take maxReported
        staleItemIds := (sorted unscorable).take maxReported
        unretrievableLabelCount := some barred.length
        unretrievableItemCount := some barredItems.length
        unretrievableIds := (sorted barred).take maxReported
        unscorableItemCount := unscorable.length
        truncated := decide (maxReported < stale.length) || decide (maxReported < barred.length) ||
          decide (maxReported < unscorable.length) }
    unscorable := unscorable }

def countText (n : Option Nat) : String :=
  match n with
  | none => "None"
  | some n => toString n

def staleLabelError (s : LabelSummary) : String :=
  "Refused before scoring: " ++ toString s.unscorableItemCount ++ " item(s) " ++
    "reference golden-set labels the active index cannot return " ++
    "(" ++ countText s.staleLabelCount ++ " label(s) no longer exist, " ++
    countText s.unretrievableLabelCount ++ " exist but are excluded from " ++
    "retrieval). Re-label the dataset against the current index, or set " ++
    "eval_stale_label_policy to 'mark_unscorable' to score the " ++
    "remaining items and report these separately."

/-- Run `p`, and `h` on an exception that is not a cancellation (`except Exception`). -/
def exceptException {S : Sig} {L α : Type} (isCancelled : S.Err → Bool) (p : Proc S L α)
    (h : S.Err → Proc S L α) : Proc S L α :=
  p.handle fun e => if isCancelled e then Proc.raise e else h e

def validateLabels : MainM LabelReport :=
  let policy := cfg.stalePolicy
  let targets := labelTargets items mode
  if !cfg.validateLabels then pure (uncheckedReport "disabled" policy none)
  else if targets.1.isEmpty && targets.2.isEmpty then pure (uncheckedReport "no_labels" policy none)
  else
    exceptException Err.isCancelled
      (do
        let verified : Verified ← MainM.await (.verifyLabelIds (sorted targets.1)
          (sorted targets.2))
        return classifyLabels items mode verified policy cfg.maxReportedStaleIds)
      fun e => pure (uncheckedReport "unavailable" policy (some (Err.text e)))

end

/-! ## Items -/

structure RunSpec where
  run : Key
  owner : String
  items : List Item
  matchMode : MatchMode
  mode : Mode
  pipelineMode : Option Pipeline

def persistItemResult (onItemCompleted : Row → ItemM Unit) (row : Row) : ItemM Unit := do
  ItemM.now (.appendItemResult x.run row)
  let _ ← ItemM.now (.heartbeatRun x.run x.owner)
  onItemCompleted row

def executeItem (item : Item) : ItemM Execution := do
  ItemM.await .acquire
  match x.mode with
  | .endToEnd =>
    let result : GraphResult ←
      ItemM.await (.runGraph item.query (x.pipelineMode.getD .regular))
    return .graph result
  | .retrieval =>
    let ids : List String ← ItemM.await (.retrieve item.query)
    return .retrieved ids

def attemptItem (item : Item) : ItemM (Except Err Execution) :=
  exceptException Err.isCancelled (do return .ok (← executeItem x item))
    fun e => pure (.error (e : Err))

def scoreItem (onItemCompleted : Row → ItemM Unit) (unscorable : Bool)
    (item : Item) : ItemM Row := do
  let row := newRow item x.matchMode unscorable
  if unscorable then
    persistItemResult x onItemCompleted row
    return row
  else
    let execution ← attemptItem x item
    let row := finishRow item x.matchMode row execution
    persistItemResult x onItemCompleted row
    return row

/-! ## Runs -/

/-- The `try` of `execute_run`. -/
def scoreItems (onItemCompleted : Row → ItemM Unit) : MainM RunSummary := do
  let report ← validateLabels cfg x.items x.matchMode
  MainM.now (.recordLabelValidation x.run report.summary)
  if report.blocking then
    let error := staleLabelError report.summary
    MainM.now (.finishRun x.run .failed none (some error))
    return ⟨x.run.id, .failed, none, some error⟩
  else
    let rows ← MainM.gather (x.items.map fun item =>
      scoreItem x onItemCompleted (item.key ∈ report.unscorable) item)
    let summary := summarize x.run.id rows
    MainM.now (.finishRun x.run summary.status summary.results summary.error)
    return summary

/-- The handlers of `execute_run`: the run is closed whatever happened. -/
def closeRun (e : Err) : MainM RunSummary :=
  if e.isCancelled then do
    MainM.now (.finishRun x.run .failed none (some "Eval run was cancelled before it finished"))
    Proc.raise e
  else do
    MainM.now (.finishRun x.run .failed none (some e.text))
    return ⟨x.run.id, .failed, none, some e.text⟩

def executeRun (onItemCompleted : Row → ItemM Unit) : MainM RunSummary := do
  let _ ← MainM.now (.heartbeatRun x.run x.owner)
  (scoreItems cfg x onItemCompleted).handle (closeRun x)

structure Caller where
  tenant : String
  isAdmin : Bool
  owner : String

def Item.unresolved (i : Item) : Bool :=
  !i.expectedFileNames.isEmpty && i.relevantChunkIds.isEmpty && i.relevantFileIds.isEmpty

def unresolvedItems (items : List Item) : List String :=
  (items.zipIdx.filter fun x => x.1.unresolved).map fun x => optOr x.1.itemId (toString x.2)

/-- The checks of `open_run` on the items, before anything is written. -/
def refusal (caller : Caller) (mode : Mode) (pipeline : Option Pipeline)
    (items : List Item) : Option Err :=
  if mode = .endToEnd && !cfg.graphAvailable then
    some (.validation "end_to_end runs are unavailable: no conversation graph is wired")
  else if pipeline.isSome && decide (mode ≠ .endToEnd) then
    some (.validation ("pipeline_mode applies to end_to_end runs only: a retrieval " ++
      "run issues one pipeline-independent search"))
  else if items.isEmpty then some (.validation "Dataset has no items to evaluate")
  else if !(unresolvedItems items).isEmpty then
    some (.validation ("Dataset has unresolved expected_file_names; resolve filenames " ++
      "before running it (items: " ++ ", ".intercalate ((unresolvedItems items).take 10) ++ ")"))
  else if !caller.isAdmin then
    some (.accessDenied "Administrator role required for eval datasets")
  else none

/-- `open_run` over the items of a snapshot. -/
def openRun (caller : Caller) (items : List Item) (mode : Mode)
    (pipeline : Option Pipeline) (benchmarkId : Option String) : MainM RunSpec :=
  match refusal cfg caller mode pipeline items with
  | some e => Proc.raise e
  | none => do
      let pipeline := if mode = .endToEnd then some (pipeline.getD .regular) else pipeline
      let matchMode := datasetMatchMode items
      let id : String ←
        MainM.now (.createRun caller.tenant caller.owner mode pipeline matchMode benchmarkId)
      return ⟨⟨caller.tenant, id⟩, caller.owner, items, matchMode, mode, pipeline⟩

end

/-! ## Recovery -/

def recoverRows (owner : String) : List (Key × RunDoc) → MainM (List Key)
  | [] => pure []
  | (run, doc) :: rest => do
      let now : Nat ← MainM.now .time
      if !expired doc.lease now then recoverRows owner rest
      else
        let claimed : Bool ← MainM.now (.claimStaleRun run now owner)
        if !claimed then recoverRows owner rest
        else
          let closed : Bool ← MainM.now (.interruptClaimedRun run owner)
          let others ← recoverRows owner rest
          return if closed then run :: others else others

def recoverStaleRuns (owner : String) : MainM (List Key) := do
  let rows : List (Key × RunDoc) ← MainM.now .runningRuns
  recoverRows owner rows

end RagForge.Eval
