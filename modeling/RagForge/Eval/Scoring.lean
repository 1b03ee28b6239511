import Mathlib.Data.List.Sort
import RagForge.Eval.Types

/-
From what an item's execution gave to the status of the phase it belongs to: the row of the item
(`_score_item`, `_run_graph_item`), the counters of the run (`aggregate`) and the closing of the
phase (`_run_phase`).
-/

namespace RagForge.Eval

open Py

/-! ## Labels of an item -/

section

variable (item : Item) (mode : MatchMode) (row : Row) (x : Evidence)

def relevantIds : List String :=
  match mode with
  | .chunk => item.relevantChunkIds.dedup
  | .file => item.relevantFileIds.dedup
  | .mixed =>
    if item.relevantChunkIds.isEmpty then item.relevantFileIds.dedup
    else item.relevantChunkIds.dedup

def itemMatchMode : MatchMode :=
  match mode with
  | .mixed => if item.relevantChunkIds.isEmpty then .file else .chunk
  | mode => mode

def datasetMatchMode (items : List Item) : MatchMode :=
  if items.all fun i => !i.relevantChunkIds.isEmpty then .chunk
  else if items.all fun i => !i.relevantFileIds.isEmpty then .file
  else .mixed

/-- Sets of ids are lists without repetition, written out in order. -/
def sorted (ids : List String) : List String := ids.insertionSort (· ≤ ·)

/-! ## Rows -/

def maxRowIds : Nat := 20

def newRow (unscorable : Bool) : Row where
  itemId := item.itemId
  query := item.query
  matchMode := itemMatchMode item mode
  expectedIds := sorted (relevantIds item mode)
  retrievedIds := []
  firstHitRank := none
  scored := false
  skipped := (relevantIds item mode).isEmpty
  unscorable := unscorable
  error := none
  errorClass := none
  failedNode := none
  outcome := .success
  guardrailStage := none
  timedOut := false

/-- What the execution of an item gives: the ids a search retrieved, or the result of the graph. -/
inductive Execution
  | retrieved (ids : List String)
  | graph (result : GraphResult)

structure Evidence where
  ids : List String
  retrievalMeasured : Bool

/-- The outcome of a graph result that may carry an error and no outcome. -/
def GraphResult.outcomeOrDefault (r : GraphResult) : Outcome :=
  r.outcome.getD (if optOr r.error "" = "" then .success else .failed)

def GraphResult.evidenceConsistent (r : GraphResult) : Bool :=
  match r.sources, r.finalContext with
  | some count, some context =>
    decide (context.keptCount = some count) && decide (r.ids.length = count) &&
      decide (context.ids.length = context.candidateCount) &&
      decide (context.ids = r.ids.take context.ids.length)
  | _, _ => false

/-- The part of `_run_graph_item` that writes the row. -/
def recordGraph (r : GraphResult) : Row :=
  let row := { row with outcome := r.outcomeOrDefault, guardrailStage := r.guardrailStage }
  match r.outcomeOrDefault with
  | .success | .guardrailBlocked => row
  | .failed | .timedOut =>
    { row with
      error := some (r.error.getD "conversation graph failed")
      errorClass := some (optOr r.errorClass "ConversationGraphError")
      failedNode := r.failedNode.filter (· ≠ "") }

/-- What `_run_graph_item` returns, or the exception it raises. -/
def graphEvidence (r : GraphResult) : Except Err Evidence :=
  match r.outcomeOrDefault with
  | .guardrailBlocked => .ok ⟨r.ids, false⟩
  | .success =>
    if r.evidenceConsistent then .ok ⟨r.ids, true⟩
    else .error (.failure "EvalEvidenceConsistencyError"
      ("Successful end-to-end graph result is missing or inconsistent " ++
        "final-context evidence"))
  | .failed | .timedOut => .ok ⟨r.ids, r.finalContext.isSome⟩

def failRow (e : Err) : Row :=
  { row with
    error := some e.text
    errorClass := some e.className
    timedOut := e.isTimeout
    outcome := if e.isTimeout then .timedOut else .failed }

def scoreRow : Row :=
  let row := { row with retrievedIds := x.ids.take maxRowIds }
  let relevant := relevantIds item mode
  if row.outcome = .guardrailBlocked || !x.retrievalMeasured || relevant.isEmpty then row
  else
    { row with
      scored := true
      firstHitRank := ((x.ids.reverse.dedup.reverse).findIdx? (· ∈ relevant)).map (· + 1) }

def finishRow : Except Err Execution → Row
  | .error e => failRow row e
  | .ok (.retrieved ids) => scoreRow item mode row ⟨ids, true⟩
  | .ok (.graph r) =>
    match graphEvidence r with
    | .error e => failRow (recordGraph row r) e
    | .ok x => scoreRow item mode (recordGraph row r) x

end

/-! ## Runs -/

section

variable (itemCount : Nat) (p : Phase) (runId : String) (rows : List Row)

def countRows (p : Row → Bool) : Nat := (rows.filter p).length

def aggregate : Results where
  itemsEvaluated := countRows rows fun r => r.scored
  itemsSkipped := countRows rows fun r => r.skipped
  itemsUnscorable := countRows rows fun r => r.unscorable
  itemsGuardrailBlocked := countRows rows fun r => r.outcome = .guardrailBlocked
  itemsFailed := countRows rows fun r => r.outcome = .failed
  execution :=
    { total := rows.length
      succeeded := countRows rows fun r => r.outcome = .success
      guardrailBlocked := countRows rows fun r => r.outcome = .guardrailBlocked
      failed := countRows rows fun r => r.outcome = .failed
      timedOut := countRows rows fun r => r.outcome = .timedOut
      interrupted := 0 }
  scoring :=
    { datasetItems := rows.length
      scored := countRows rows fun r => r.scored
      skipped := countRows rows fun r => !r.scored && r.skipped
      unscorable := countRows rows fun r => !r.scored && !r.skipped }

def Row.hasError (r : Row) : Bool := decide (optOr r.error "" ≠ "")

def allFailed : Bool := !rows.isEmpty && rows.all Row.hasError

def firstError : Option String := (rows.find? Row.hasError).bind Row.error

def summarize : RunSummary :=
  let failed := allFailed rows
  { runId := runId
    status := if failed then .failed else .completed
    results := some (aggregate rows)
    error := if failed then firstError rows else none }

/-! ## Phases -/

/-- `_fail_phase`: the phase and why the remaining ones are skipped. -/
def failPhase (error : String) : Phase × Option String :=
  ({ p with status := .failed, error := some error },
    some ("Skipped after phase " ++ p.name ++ " failed: " ++ error))

/-- The end of `_run_phase`: close the phase with the summary of its run. -/
def closePhase (s : RunSummary) : Phase × Option String :=
  let p := { p with results := s.results }
  if s.status = .failed then failPhase p (optOr s.error "The phase produced no results")
  else
    let failedItems := (s.results.map Results.itemsFailed).getD 0
    if failedItems ≠ 0 then
      ({ p with
          status := .partial_
          reason := some (toString failedItems ++ " of " ++ toString itemCount ++
            " items failed and are excluded " ++ "from this phase's means") }, none)
    else ({ p with status := .completed }, none)

/-! ## The status a phase closes with -/

def Row.errored (r : Row) : Bool := decide (r.outcome = .failed) || decide (r.outcome = .timedOut)

structure Attempt where
  item : Item
  unscorable : Bool
  execution : Except Err Execution

def Attempt.row (mode : MatchMode) (a : Attempt) : Row :=
  let row := newRow a.item mode a.unscorable
  if a.unscorable then row else finishRow a.item mode row a.execution

/-- A phase closes as completed only without errors, and as partial if some but not all items
ended with one. -/
def ClosesTruthfully (status : PhaseStatus) : Prop :=
  (status = .completed → ∀ r ∈ rows, r.errored = false) ∧
    ((∃ r ∈ rows, r.errored = true) → (∃ r ∈ rows, r.errored = false) → status = .partial_)

theorem failRow_errored (row : Row) (e : Err) : (failRow row e).errored = true := by
  cases htimeout : e.isTimeout with
  | true => simp only [failRow, htimeout, if_true, Row.errored, decide_true, Bool.or_true]
  | false =>
    simp only [failRow, htimeout, Bool.false_eq_true, if_false, Row.errored, decide_true,
      Bool.true_or]

theorem scoreRow_errored (item : Item) (mode : MatchMode) (row : Row) (x : Evidence) :
    (scoreRow item mode row x).hasError = row.hasError ∧
      (scoreRow item mode row x).errored = row.errored := by
  unfold scoreRow
  dsimp only
  split <;> exact ⟨rfl, rfl⟩

theorem hasError_of_error_none {row : Row} (h : row.error = none) : row.hasError = false := by
  rw [Row.hasError, h]
  rfl

theorem recordGraph_errored {row : Row} {r : GraphResult} (hrow : row.error = none)
    (h : (recordGraph row r).hasError = true) : (recordGraph row r).errored = true := by
  unfold recordGraph at h ⊢
  cases hout : r.outcomeOrDefault with
  | success | guardrailBlocked =>
    rw [hout] at h
    have hnone : Row.hasError _ = false := hasError_of_error_none hrow
    exact absurd (hnone.symm.trans h) Bool.false_ne_true
  | failed | timedOut => rfl

theorem Attempt.row_errored (mode : MatchMode) (a : Attempt)
    (h : (a.row mode).hasError = true) : (a.row mode).errored = true := by
  have hnew : (newRow a.item mode a.unscorable).error = none := rfl
  unfold Attempt.row at h ⊢
  split at h
  · rw [hasError_of_error_none hnew] at h
    cases h
  · next hscorable =>
    rw [if_neg hscorable]
    cases hx : a.execution with
    | error e => exact failRow_errored _ e
    | ok x =>
      rw [hx] at h
      cases x with
      | retrieved ids =>
        have hsame := scoreRow_errored a.item mode (newRow a.item mode a.unscorable) ⟨ids, true⟩
        simp only [finishRow, hsame.1, hasError_of_error_none hnew] at h
        cases h
      | graph r =>
        simp only [finishRow] at h ⊢
        cases hevidence : graphEvidence r with
        | error e => exact failRow_errored _ e
        | ok evidence =>
          have hsame := scoreRow_errored a.item mode
            (recordGraph (newRow a.item mode a.unscorable) r) evidence
          rw [hevidence] at h
          rw [hsame.1] at h
          rw [hsame.2]
          exact recordGraph_errored hnew h

theorem countRows_ne_zero_iff (p : Row → Bool) : countRows rows p ≠ 0 ↔ ∃ r ∈ rows, p r = true := by
  unfold countRows
  rw [Ne, List.length_eq_zero_iff, List.filter_eq_nil_iff]
  simp only [not_forall, not_not, exists_prop]

theorem closePhase_status : (closePhase itemCount p (summarize runId rows)).1.status =
      if allFailed rows then .failed
      else if (aggregate rows).itemsFailed ≠ 0 then .partial_ else .completed := by
  unfold closePhase summarize
  cases allFailed rows with
  | true => rfl
  | false =>
    show (if (aggregate rows).itemsFailed ≠ 0 then _ else _ : Phase × Option String).1.status = _
    by_cases hfailed : (aggregate rows).itemsFailed ≠ 0
    · rw [if_pos hfailed, if_neg Bool.false_ne_true, if_pos hfailed]
    · rw [if_neg hfailed, if_neg Bool.false_ne_true, if_neg hfailed]

end

/-- A phase closes truthfully exactly if no item ended with an error, or every item has an error
text, or one of the errors was not a timeout: only those are counted. -/
theorem phase_closes_truthfully_iff (itemCount : Nat) (p : Phase) (runId : String)
    (mode : MatchMode) (attempts : List Attempt) :
    ClosesTruthfully (attempts.map (Attempt.row mode))
        (closePhase itemCount p (summarize runId (attempts.map (Attempt.row mode)))).1.status ↔
      (∀ r ∈ attempts.map (Attempt.row mode), r.errored = false) ∨
        allFailed (attempts.map (Attempt.row mode)) = true ∨
        ∃ r ∈ attempts.map (Attempt.row mode), r.outcome = .failed := by
  have hsound : ∀ r ∈ attempts.map (Attempt.row mode), r.hasError = true → r.errored = true := by
    intro r hr
    obtain ⟨a, -, rfl⟩ := List.mem_map.mp hr
    exact a.row_errored mode
  generalize attempts.map (Attempt.row mode) = rows at hsound
  have hcount : (aggregate rows).itemsFailed ≠ 0 ↔ ∃ r ∈ rows, r.outcome = .failed := by
    rw [aggregate, countRows_ne_zero_iff]
    simp only [decide_eq_true_eq]
  rw [closePhase_status]
  by_cases hall : allFailed rows = true
  · -- Every item ended with an error, so neither half of the statement asks for anything.
    rw [if_pos hall]
    refine iff_of_true ⟨(fun h => nomatch h), ?_⟩ (.inr (.inl hall))
    intro _ hsome
    obtain ⟨r, hr, hok⟩ := hsome
    simp only [allFailed, Bool.and_eq_true, List.all_eq_true] at hall
    rw [hsound r hr (hall.2 r hr)] at hok
    cases hok
  · rw [if_neg hall]
    by_cases hfailed : ∃ r ∈ rows, r.outcome = .failed
    · rw [if_pos (hcount.mpr hfailed)]
      exact iff_of_true ⟨(fun h => nomatch h), fun _ _ => rfl⟩ (.inr (.inr hfailed))
    · rw [if_neg (mt hcount.mp hfailed)]
      constructor
      · exact fun h => .inl (h.1 rfl)
      · intro h
        have hnone := h.resolve_right fun h => h.elim hall hfailed
        refine ⟨fun _ => hnone, ?_⟩
        intro hsome
        obtain ⟨r, hr, herr⟩ := hsome
        rw [hnone r hr] at herr
        cases herr

def plainItem (query : String) : Item := ⟨some query, query, [query], [], []⟩

def basePhase : Phase :=
  ⟨"retrieval_base", .retrieval, none, .running, none, none, none, none, none⟩

/-- One item is answered and the other one times out: the phase closes as completed. -/
theorem timed_out_item_completes_phase :
    let rows := [Attempt.mk (plainItem "a") false (.ok (.retrieved ["a"])),
      Attempt.mk (plainItem "b") false (.error (.timeout "TimeoutError" "timed out"))].map
        (Attempt.row .chunk)
    (closePhase 2 basePhase (summarize "run" rows)).1.status = .completed ∧
      ¬ ClosesTruthfully rows (closePhase 2 basePhase (summarize "run" rows)).1.status := by
  refine ⟨by decide +kernel, ?_⟩
  intro h
  have hcompleted := h.1 (by decide +kernel)
  exact absurd (hcompleted _ (List.mem_cons_of_mem _ List.mem_cons_self)) (by decide +kernel)

end RagForge.Eval
