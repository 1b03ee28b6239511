import RagForge.Batching.Calls
import RagForge.Batching.Composition
import Mathlib.Data.Rat.Defs

/-
The scheduler of the cross-encoder (`rag/app/services/rerank_scheduler.py`).

An item is one rerank request and its weight is the number of its (query, passage) pairs.  The
scheduler keeps the pending pairs of each class and the pairs in flight in counters of its own, and
the scores of a batch are cut back into the requests by offsets.
-/

namespace RagForge.Rag.Rerank

open Batching

/-- `_Request`.  Its future is the one of its ticket. -/
structure Request where
  query : String
  passages : List String
  schedulingClass : SchedulingClass
  deriving DecidableEq

def Request.pairs (r : Request) : Nat := r.passages.length

def Request.rows (r : Request) : List (String × String) := r.passages.map fun p => (r.query, p)

/-- The arguments of the constructor that bear on scheduling, with what it checks of them. -/
structure SchedulerConfig where
  maxBatchPairs : Nat
  maxOutstandingPairs : Nat
  maxPendingPairs : Nat
  inferenceWorkers : Nat
  maxBackgroundInflight : Nat
  batch_pos : 1 ≤ maxBatchPairs
  outstanding_pos : 1 ≤ maxOutstandingPairs
  pending_pos : 1 ≤ maxPendingPairs
  workers_pos : 1 ≤ inferenceWorkers
  background_pos : 1 ≤ maxBackgroundInflight
  background_le : maxBackgroundInflight ≤ inferenceWorkers

namespace SchedulerConfig

variable (cfg : SchedulerConfig)

def liveReserve : Nat := max 1 (min cfg.maxBatchPairs (cfg.maxPendingPairs / 2))

def backgroundFloor : Nat := max 1 (cfg.maxBatchPairs / 4)

def pendingLimit : SchedulingClass → Nat
  | .live => cfg.maxPendingPairs
  | .background => max 1 (cfg.maxPendingPairs - cfg.liveReserve)

end SchedulerConfig

/-- `_pending_pairs` and `_inflight_pairs`. -/
structure Counters where
  pendingPairs : SchedulingClass → Int
  inflightPairs : Int

/-- `_total_pending_pairs_locked`. -/
def Counters.totalPendingPairs (l : Counters) : Int :=
  l.pendingPairs .live + l.pendingPairs .background

def batchPairs (batch : List Request) : Nat := (batch.map Request.pairs).sum

/-- The admission test of `submit` and `_admit`. -/
def admits (cfg : SchedulerConfig) (l : Counters) (r : Request) : Bool :=
  let limit := cfg.pendingLimit r.schedulingClass
  let pendingFits := decide (l.totalPendingPairs + r.pairs ≤ limit)
  let outstandingFits := r.schedulingClass != .live ||
    decide (l.pendingPairs .live + l.inflightPairs + r.pairs ≤ cfg.maxOutstandingPairs)
  !r.passages.isEmpty && decide (r.pairs ≤ min limit cfg.maxBatchPairs) && pendingFits &&
    outstandingFits

/-- How a batch can fail. -/
inductive InferenceError
  | predict (message : String)
  | scoreCountMismatch (message : String)
  deriving DecidableEq

def batchRows (batch : List Request) : List (String × String) := batch.flatMap Request.rows

/-- The loop that cuts the scores of a batch, from an offset on. -/
def fanOut (scores : List Rat) : List Request → Nat → List (List Rat)
  | [], _ => []
  | r :: rest, offset =>
    (scores.drop offset).take r.pairs :: fanOut scores rest (offset + r.pairs)

/-- The part of `_run_batch` after the model. -/
def distribute (batch : List Request) (scores : List Rat) :
    Except InferenceError (List (List Rat)) :=
  if scores.length ≠ (batchRows batch).length then
    .error (.scoreCountMismatch ("expected " ++ toString (batchRows batch).length ++
      " scores, got " ++ toString scores.length))
  else .ok (fanOut scores batch 0)

def addPending (c : SchedulingClass) (n : Int) (l : Counters) : Counters :=
  { l with pendingPairs := Function.update l.pendingPairs c (l.pendingPairs c + n) }

def discipline (cfg : SchedulerConfig) :
    Discipline Request (List Rat) (List Rat) InferenceError Counters where
  cls := Request.schedulingClass
  weight := Request.pairs
  maxBatch := cfg.maxBatchPairs
  backgroundFloor := cfg.backgroundFloor
  backgroundCap := cfg.maxBackgroundInflight
  workers := cfg.inferenceWorkers
  ledger := ⟨fun _ => 0, 0⟩
  pending l _ := l.totalPendingPairs
  -- a submission is one request
  admits l _ xs :=
    match xs with
    | [r] => admits cfg l r
    | _ => false
  enqueued r := addPending r.schedulingClass r.pairs
  dequeued r := addPending r.schedulingClass (-r.pairs)
  cleared l := { l with pendingPairs := fun _ => 0 }
  begun batch l := { l with inflightPairs := l.inflightPairs + batchPairs batch }
  ended batch l := { l with inflightPairs := l.inflightPairs - batchPairs batch }
  distribute := distribute
  releases := true

/-! ## Scores -/

variable {s : State Request InferenceError (List Rat) Counters}

section

variable (score : String × String → Rat)

def ownScores (r : Request) : List Rat := r.rows.map score

@[simp] theorem length_rows (r : Request) : r.rows.length = r.pairs := by
  simp [Request.rows, Request.pairs]

/-- Cutting at offsets gives each request the scores of its own pairs. -/
theorem fanOut_scores (before : List Rat) (batch : List Request) :
    fanOut (before ++ (batchRows batch).map score) batch before.length =
      batch.map (ownScores score) := by
  induction batch generalizing before with
  | nil => rfl
  | cons r rest ih =>
    have hlen : (ownScores score r).length = r.pairs := by simp [ownScores]
    have hrows : (batchRows (r :: rest)).map score =
        ownScores score r ++ (batchRows rest).map score := by
      simp [batchRows, ownScores]
    have hrest := ih (before ++ ownScores score r)
    rw [List.append_assoc, List.length_append, hlen] at hrest
    rw [hrows, fanOut, List.drop_left, List.map_cons, hrest, ← hlen, List.take_left]

theorem length_fanOut (scores : List Rat) (batch : List Request) (offset : Nat) :
    (fanOut scores batch offset).length = batch.length := by
  induction batch generalizing offset with
  | nil => rfl
  | cons r rest ih => simp [fanOut, ih]

/-- The model scores each pair by itself: whatever the batch, scores of the right number are the
scores of its pairs. -/
def Independent (s : State Request InferenceError (List Rat) Counters)
    (a : Action Request (List Rat) InferenceError) : Prop :=
  ∀ x ∈ a.output.toList, ∀ batch ∈ (s.workers[x.1]?.bind Worker.batch).toList,
    x.2.length = (batchRows (batch.map Ticket.item)).length →
      x.2 = (batchRows (batch.map Ticket.item)).map score

instance (s : State Request InferenceError (List Rat) Counters)
    (a : Action Request (List Rat) InferenceError) : Decidable (Independent score s a) :=
  inferInstanceAs (Decidable (∀ _ ∈ _, ∀ _ ∈ _, _))

/-- A model that scores each pair by itself gives every request its own scores. -/
theorem soundOutput_of_independent (cfg : SchedulerConfig)
    {a : Action Request (List Rat) InferenceError} (h : Independent score s a) :
    SoundOutput (ownScores score) (discipline cfg) s a := by
  intro w scores ha batch hw rs hrs
  have hbatch : batch ∈ (s.workers[w]?.bind Worker.batch).toList := by
    rw [hw]
    exact List.mem_singleton.mpr rfl
  simp only [discipline, distribute] at hrs
  split at hrs
  · cases hrs
  · next hlen =>
    cases hrs
    have hscores := h (w, scores) (by rw [ha]; exact List.mem_singleton.mpr rfl) batch hbatch
      (not_not.mp hlen)
    have hcut := fanOut_scores score [] (batch.map Ticket.item)
    rw [List.nil_append, List.length_nil, ← hscores, List.map_map] at hcut
    exact hcut

end

/-! ## Counters -/

/-- The counters show the pending pairs of each class and the pairs in flight. -/
def Counters.Shows (l : Counters) (pending : SchedulingClass → Int) (inflight : Int) : Prop :=
  (∀ c, l.pendingPairs c = pending c) ∧ l.inflightPairs = inflight

variable {l : Counters} {r : Request}

theorem addPending_shows {p : SchedulingClass → Int} {f : Int} (h : l.Shows p f)
    (c : SchedulingClass) (n : Int) : (addPending c n l).Shows
    (fun d => p d + if d = c then n else 0) f := by
  refine ⟨fun d => ?_, h.2⟩
  simp only [addPending]
  by_cases hd : d = c
  · subst hd
    simp [h.1]
  · simp [hd, h.1]

theorem classWeight_request (cfg : SchedulerConfig) (c : SchedulingClass) (r : Request) :
    classWeight (discipline cfg) c [r] = if c = r.schedulingClass then (r.pairs : Int) else 0 := by
  by_cases hc : c = r.schedulingClass
  · simp [classWeight, discipline, hc]
  · simp [classWeight, discipline, hc, Ne.symm hc]

theorem batchPairs_eq (cfg : SchedulerConfig) (batch : List (Ticket Request)) :
    (batchPairs (batch.map Ticket.item) : Int) = batchWeight (discipline cfg) batch := by
  simp [batchPairs, batchWeight, totalWeight, discipline, Function.comp_def]

theorem counters_accounting (cfg : SchedulerConfig) :
    Accounting (discipline cfg) Counters.Shows where
  initial := ⟨fun _ => rfl, rfl⟩
  enqueued r h := by
    have hnew := addPending_shows h r.schedulingClass r.pairs
    refine ⟨fun c => ?_, hnew.2⟩
    dsimp only
    rw [classWeight_request]
    exact hnew.1 c
  dequeued r h := by
    have hnew := addPending_shows h r.schedulingClass (-r.pairs)
    refine ⟨fun c => (hnew.1 c).trans ?_, hnew.2⟩
    dsimp only
    rw [classWeight_request]
    split <;> omega
  cleared h := ⟨fun _ => rfl, h.2⟩
  begun batch h := ⟨h.1, by rw [← batchPairs_eq, ← h.2]; rfl⟩
  ended batch h := ⟨h.1, by rw [← batchPairs_eq, ← h.2]; rfl⟩

variable {cfg : SchedulerConfig}

theorem admits_le (h : admits cfg l r = true) :
    l.totalPendingPairs + r.pairs ≤ cfg.pendingLimit r.schedulingClass := by
  simp only [admits, Bool.and_eq_true, decide_eq_true_eq] at h
  exact h.1.2

theorem pendingLimit_le (cfg : SchedulerConfig) (c : SchedulingClass) :
    cfg.pendingLimit c ≤ cfg.maxPendingPairs := by
  have hpos := cfg.pending_pos
  cases c with
  | live => exact le_rfl
  | background =>
    have hlimit : cfg.pendingLimit .background =
        max 1 (cfg.maxPendingPairs - cfg.liveReserve) := rfl
    omega

theorem totalPendingPairs_eq (h : Tracked (discipline cfg) Counters.Shows s) :
    s.ledger.totalPendingPairs = s.queuedWeight (discipline cfg) := by
  unfold Counters.totalPendingPairs State.queuedWeight
  rw [h.1, h.1]

theorem eq_singleton_of_admits {q : SchedulingClass → List Request}
    {xs : List Request} (h : (discipline cfg).admits l q xs = true) :
    ∃ r, xs = [r] ∧ admits cfg l r = true := by
  simp only [discipline] at h
  split at h
  · next r => exact ⟨r, rfl, h⟩
  · cases h

theorem submissionWeight_singleton (cfg : SchedulerConfig) (r : Request) :
    (discipline cfg).submissionWeight [r] = r.pairs := by
  simp [Discipline.submissionWeight, discipline]

variable {ok : State Request InferenceError (List Rat) Counters → Action Request (List Rat)
  InferenceError → Prop}

theorem queuedWeight_le_maxPendingPairs (hs : Reachable (discipline cfg) ok s) :
    s.queuedWeight (discipline cfg) ≤ cfg.maxPendingPairs := by
  refine hs.queuedWeight_le (counters_accounting cfg) (Int.natCast_nonneg _) ?_
  intro s xs htracked hadm
  obtain ⟨r, rfl, hadmits⟩ := eq_singleton_of_admits hadm
  have hle := admits_le hadmits
  have hlimit := pendingLimit_le cfg r.schedulingClass
  rw [totalPendingPairs_eq htracked] at hle
  rw [submissionWeight_singleton]
  omega

theorem totalPendingPairs_submit_le (hs : Reachable (discipline cfg) ok s)
    {s' : State Request InferenceError (List Rat) Counters}
    (h : step (discipline cfg) s (.submit [r]) = some s') :
    s'.ledger.totalPendingPairs ≤ cfg.pendingLimit r.schedulingClass := by
  have htracked := hs.tracked (counters_accounting cfg)
  cases step_moved h with
  | submit _ hopen hadm =>
    have hle := admits_le hadm
    have htracked' : Tracked (discipline cfg) Counters.Shows (s.enqueue (discipline cfg) [r]) :=
      tracked_step (counters_accounting cfg) hs.filed hs.rested htracked
        (.submit [r] hopen hadm)
    rw [totalPendingPairs_eq htracked', queuedWeight_enqueue, submissionWeight_singleton,
      ← totalPendingPairs_eq htracked]
    exact hle

/-- The counters of the scheduler in every state it can reach, whatever was cancelled, failed or
shut down on the way. -/
theorem rerankCounters_exact (hs : Reachable (discipline cfg) ok s) :
    (∀ c, s.ledger.pendingPairs c = ((s.queue c).map fun t => (t.item.pairs : Int)).sum) ∧
    s.ledger.totalPendingPairs ≤ cfg.maxPendingPairs ∧
    (∀ r s', r.schedulingClass = .background →
      step (discipline cfg) s (.submit [r]) = some s' →
        s'.ledger.totalPendingPairs ≤ max 1 (cfg.maxPendingPairs - cfg.liveReserve)) ∧
    s.ledger.inflightPairs = (s.batches.map fun b => (batchPairs (b.map Ticket.item) : Int)).sum ∧
    s.background = s.batches.countP (discipline cfg).carriesBackground ∧
    s.background ≤ cfg.maxBackgroundInflight ∧
    ∀ b ∈ s.batches, batchPairs (b.map Ticket.item) ≤ cfg.maxBatchPairs := by
  have htracked := hs.tracked (counters_accounting cfg)
  have hcounted := hs.counted
  refine ⟨?_, ?_, ?_, ?_, ?_, hcounted.cap, ?_⟩
  · intro c
    rw [htracked.1 c]
    simp [State.queueWeight, totalWeight, discipline, Function.comp_def]
  · rw [totalPendingPairs_eq htracked]
    exact queuedWeight_le_maxPendingPairs hs
  · intro r s' hr h
    have hle := totalPendingPairs_submit_le hs h
    rw [hr] at hle
    unfold SchedulerConfig.pendingLimit at hle
    omega
  · rw [htracked.2, load_eq_sum_batches]
    simp only [batchPairs_eq cfg]
  · rw [hcounted.background, load_indicator]
  · intro b hb
    have hweight := hcounted.weight b hb
    have hpairs := batchPairs_eq cfg b
    unfold batchWeight at hpairs
    have hmax : (discipline cfg).maxBatch = cfg.maxBatchPairs := rfl
    omega

def smallConfig : SchedulerConfig where
  maxBatchPairs := 8
  maxOutstandingPairs := 16
  maxPendingPairs := 16
  inferenceWorkers := 2
  maxBackgroundInflight := 1
  batch_pos := by decide
  outstanding_pos := by decide
  pending_pos := by decide
  workers_pos := by decide
  background_pos := by decide
  background_le := by decide

def liveRequest : Request := ⟨"q", ["a", "b"], .live⟩

def backgroundRequest : Request := ⟨"r", ["a"], .background⟩

/-- A worker runs both requests in one batch. -/
theorem rerankCounters_exact_shared :
    ∃ s, Reachable (discipline smallConfig) (fun _ _ => True) s ∧ s.ledger.inflightPairs = 3 ∧
      s.background = s.batches.countP (discipline smallConfig).carriesBackground ∧
      s.background = 1 := by
  obtain ⟨s, hs, hp⟩ := exists_reachable (discipline smallConfig) (fun _ _ => True)
    [.submit [liveRequest], .submit [backgroundRequest], .start, .wake 0, .compose 0]
    (fun s => s.ledger.inflightPairs = 3 ∧ s.background = 1) (by decide +kernel)
  have hp := of_decide_eq_true hp
  exact ⟨s, hs, hp.1, (rerankCounters_exact hs).2.2.2.2.1, hp.2⟩

/-- Room for a single pair.  The live reserve takes all of it. -/
def narrowConfig : SchedulerConfig where
  maxBatchPairs := 1
  maxOutstandingPairs := 1
  maxPendingPairs := 1
  inferenceWorkers := 1
  maxBackgroundInflight := 1
  batch_pos := by decide
  outstanding_pos := by decide
  pending_pos := by decide
  workers_pos := by decide
  background_pos := by decide
  background_le := by decide

/-- The limit of background requests is never below one, so a background request gets the pair that
the live reserve should keep. -/
theorem background_admitted_into_reserve :
    ∃ s s', Reachable (discipline narrowConfig) (fun _ _ => True) s ∧
      step (discipline narrowConfig) s (.submit [backgroundRequest]) = some s' ∧
      ¬ s'.ledger.totalPendingPairs ≤ narrowConfig.maxPendingPairs - narrowConfig.liveReserve :=
  ⟨State.initial _, _, .initial, rfl, by decide +kernel⟩

/-! ## Admission by an idle scheduler -/

/-- The oversized check of `_admit`. -/
def oversized (cfg : SchedulerConfig) (r : Request) : Bool :=
  decide (min (cfg.pendingLimit r.schedulingClass) cfg.maxBatchPairs < r.pairs)

theorem ledger_of_idle (hs : Reachable (discipline cfg) ok s) (hqueue : ∀ c, s.queue c = [])
    (hidle : s.batches = []) : (∀ c, s.ledger.pendingPairs c = 0) ∧ s.ledger.inflightPairs = 0 := by
  have htracked := hs.tracked (counters_accounting cfg)
  constructor
  · intro c
    rw [htracked.1 c, State.queueWeight, hqueue c]
    rfl
  · rw [htracked.2, load_eq_sum_batches, hidle]
    rfl

/-- An idle scheduler admits a request that is not oversized, unless it is a live one beyond the
outstanding limit. -/
theorem submit_idle_iff (hs : Reachable (discipline cfg) ok s) (hopen : s.closed = false)
    (hqueue : ∀ c, s.queue c = []) (hidle : s.batches = []) (r : Request)
    (hpassages : r.passages ≠ []) (hsize : oversized cfg r = false) :
    (∃ s', step (discipline cfg) s (.submit [r]) = some s') ↔
      r.schedulingClass = .background ∨ r.pairs ≤ cfg.maxOutstandingPairs := by
  obtain ⟨hpending, hinflight⟩ := ledger_of_idle hs hqueue hidle
  simp only [oversized, decide_eq_false_iff_not, not_lt] at hsize
  have hadmits : admits cfg s.ledger r = true ↔
      r.schedulingClass = .background ∨ r.pairs ≤ cfg.maxOutstandingPairs := by
    have hlimit : r.pairs ≤ cfg.pendingLimit r.schedulingClass := by omega
    have hnonempty : r.passages.isEmpty = false := by simpa using hpassages
    simp only [admits, Counters.totalPendingPairs, hpending, hinflight, hnonempty, hsize,
      Bool.and_eq_true, Bool.or_eq_true, decide_eq_true_eq, zero_add, Bool.not_false, true_and,
      Int.ofNat_le, hlimit, bne_iff_ne]
    cases r.schedulingClass <;> simp
  rw [← hadmits]
  constructor
  · intro hstep
    obtain ⟨s', hs'⟩ := hstep
    cases step_moved hs' with
    | submit _ _ hadm => exact hadm
  · intro hadm
    exact ⟨s.enqueue (discipline cfg) [r], if_pos (by rw [hopen]; exact hadm)⟩

theorem submit_idle_small :
    oversized smallConfig liveRequest = false ∧
      ∃ s', step (discipline smallConfig) (State.initial (discipline smallConfig))
        (.submit [liveRequest]) = some s' := by
  have hinitial : Reachable (discipline smallConfig) (fun _ _ => True) (State.initial _) := .initial
  exact ⟨by decide, (submit_idle_iff hinitial rfl (fun _ => rfl) rfl liveRequest (by decide)
    (by decide)).mpr (.inr (by decide))⟩

def tightConfig : SchedulerConfig :=
  { smallConfig with maxOutstandingPairs := 1, outstanding_pos := by decide }

/-- The request passes the oversized check, and an empty scheduler keeps it waiting until it is
refused as saturated. -/
theorem idle_refuses_live_request :
    oversized tightConfig liveRequest = false ∧
      (step (discipline tightConfig) (State.initial (discipline tightConfig))
        (.submit [liveRequest])).isNone = true :=
  ⟨by decide, by decide +kernel⟩

/-! ## The live head of a composition -/

theorem pairs_of_admits (h : admits cfg l r = true) :
    0 < r.pairs ∧ r.pairs ≤ cfg.maxBatchPairs := by
  simp only [admits, Bool.and_eq_true, decide_eq_true_eq, Bool.not_eq_true',
    List.isEmpty_eq_false_iff] at h
  exact ⟨List.length_pos_of_ne_nil h.1.1.1, by omega⟩

theorem queued_pairs (hs : Reachable (discipline cfg) ok s) (c : SchedulingClass) :
    ∀ t ∈ s.queue c, 0 < t.item.pairs ∧ t.item.pairs ≤ cfg.maxBatchPairs := by
  induction hs generalizing c with
  | initial => exact nofun
  | step _ _ h ih =>
    rcases queue_step (step_moved h) with hsub | ⟨xs, -, -, hadm, rfl⟩
    · exact fun t ht => ih c t ((hsub c).subset ht)
    · obtain ⟨r, rfl, hadmits⟩ := eq_singleton_of_admits hadm
      intro t ht
      rcases List.mem_append.mp ht with ht | ht
      · exact ih c t ht
      · have hitem := List.mem_map_of_mem (f := Ticket.item) (List.mem_of_mem_filter ht)
        rw [map_item_tickets, List.mem_singleton] at hitem
        rw [hitem]
        exact pairs_of_admits hadmits

theorem queued_pairs_le (hs : Reachable (discipline cfg) ok s) (c : SchedulingClass)
    (t : Ticket Request) (ht : t ∈ s.queue c) : t.item.pairs ≤ cfg.maxBatchPairs :=
  (queued_pairs hs c t ht).2

/-- A worker that composes with work at hand runs a batch or takes a cancelled request out of its
queue. -/
theorem compose_makes_progress (hs : Reachable (discipline cfg) ok s)
    {s' : State Request InferenceError (List Rat) Counters} {w : Nat}
    (hstep : step (discipline cfg) s (.compose w) = some s')
    (hwork : s.queue .live ≠ [] ∨ s.backgroundAdmissible (discipline cfg) = true) :
    (∃ batch, batch ≠ [] ∧ s'.workers[w]? = some (.running batch)) ∨
      ∃ c gone, s.queue c = gone ++ s'.queue c ∧
        ∃ t ∈ gone, (s.futures t.id).isCancelled = true := by
  cases step_moved hstep with
  | compose _ hw hb =>
    exact .inl ⟨_, hb, List.getElem?_set_self (List.getElem?_eq_some_iff.mp hw).1⟩
  | composeNone _ hw hb =>
    have hallow : s.backgroundAdmissible (discipline cfg) = true → s.queue .background ≠ [] := by
      intro hadm hnil
      simp [State.backgroundAdmissible, hnil] at hadm
    have htaken := compose_taken_ne_nil (discipline cfg) _
      (fun t => (s.futures t.id).isCancelled) (queued_pairs_le hs) hwork hallow
    obtain ⟨t, ht⟩ := List.exists_mem_of_ne_nil _ htaken
    -- the batch is empty, so what was taken is cancelled
    unfold State.composition at hb
    rw [compose_batch, List.filter_eq_nil_iff] at hb
    have hcancelled : (s.futures t.id).isCancelled = true := by simpa using hb t ht
    obtain ⟨first, third, hlive, second, hback, hall, -⟩ :=
      compose_live (discipline cfg) _ _ s.queue
    rw [hall, List.mem_append, List.mem_append] at ht
    rcases ht with (ht | ht) | ht
    · exact .inr ⟨.live, first ++ third, hlive, t, List.mem_append_left _ ht, hcancelled⟩
    · exact .inr ⟨.background, second, hback, t, ht, hcancelled⟩
    · exact .inr ⟨.live, first ++ third, hlive, t, List.mem_append_right _ ht, hcancelled⟩

/-- A batch composed in a reachable state contains the live head exactly when no background batch
may run, or the head fits besides the background floor, or it fits besides every stretch of the
background queue that fits into a batch. -/
theorem composition_live_head_iff (hs : Reachable (discipline cfg) ok s) {head : Ticket Request}
    {rest : List (Ticket Request)} (hlive : s.queue .live = head :: rest)
    (hhead : (s.futures head.id).isCancelled = false) :
    head ∈ (s.composition (discipline cfg)).batch ↔
      s.backgroundAdmissible (discipline cfg) = false ∨
        head.item.pairs ≤ cfg.maxBatchPairs - cfg.backgroundFloor ∨
        ∀ stretch, stretch <+: s.queue .background →
          fits Request.pairs cfg.maxBatchPairs (fun t => (s.futures t.id).isCancelled) 0 stretch =
            true →
          keptWeight Request.pairs (fun t => (s.futures t.id).isCancelled) stretch +
            head.item.pairs ≤ cfg.maxBatchPairs := by
  have hmem : head ∈ s.queue .live := by
    rw [hlive]
    exact List.mem_cons_self
  have hback : head ∉ s.queue .background := by
    intro hback
    have hclass := (hs.filed.queue .live head hmem).2.symm.trans (hs.filed.queue _ head hback).2
    cases hclass
  unfold State.composition
  rw [compose_batch, List.mem_filter, hhead, Bool.not_false, and_iff_left rfl]
  exact head_mem_compose_iff (discipline cfg) _ _ hlive hback (queued_pairs_le hs .live head hmem)

def largeRequest : Request := ⟨"q", ["a", "b", "c", "d", "e", "f", "g"], .live⟩

/-- The only request is cancelled before it is composed. -/
theorem compose_makes_progress_cancelled :
    ∃ s s', Reachable (discipline smallConfig) (fun _ _ => True) s ∧
      step (discipline smallConfig) s (.compose 0) = some s' ∧ s'.batches = [] ∧
        ∃ c gone, s.queue c = gone ++ s'.queue c ∧
          ∃ t ∈ gone, (s.futures t.id).isCancelled = true := by
  obtain ⟨s, hs, hp⟩ := exists_reachable (discipline smallConfig) (fun _ _ => True)
    [.submit [liveRequest], .start, .wake 0, .cancel 0]
    (fun s => s.queue .live ≠ [] ∧ (step (discipline smallConfig) s (.compose 0)).any fun s' =>
      s'.batches.isEmpty) (by decide +kernel)
  obtain ⟨hlive, hstep⟩ := of_decide_eq_true hp
  obtain ⟨s', hs', hidle⟩ := (Option.any_eq_true _ _).mp hstep
  have hidle := List.isEmpty_iff.mp hidle
  refine ⟨s, s', hs, hs', hidle, ?_⟩
  rcases compose_makes_progress hs hs' (.inl hlive) with ⟨batch, -, hrun⟩ | hgone
  · have hbatch : batch ∈ s'.batches :=
      List.mem_filterMap.mpr ⟨_, List.mem_of_getElem? hrun, rfl⟩
    rw [hidle] at hbatch
    exact absurd hbatch List.not_mem_nil
  · exact hgone

/-- A live head is taken together with a background request. -/
theorem composition_takes_live_head :
    ∃ (s : State Request InferenceError (List Rat) Counters) (head : Ticket Request),
      Reachable (discipline smallConfig) (fun _ _ => True) s ∧ (s.queue .live).head? = some head ∧
        head ∈ (s.composition (discipline smallConfig)).batch := by
  obtain ⟨s, hs, hp⟩ := exists_reachable (discipline smallConfig) (fun _ _ => True)
    [.submit [liveRequest], .submit [backgroundRequest], .start, .wake 0]
    (fun s => s.queue .live = [⟨0, liveRequest⟩] ∧ (s.futures 0).isCancelled = false)
    (by decide +kernel)
  have hp := of_decide_eq_true hp
  refine ⟨s, ⟨0, liveRequest⟩, hs, by rw [hp.1]; rfl, ?_⟩
  exact (composition_live_head_iff hs hp.1 hp.2).mpr (.inr (.inl (by decide)))

/-- Two background requests of one pair each leave no room for a live head of seven pairs. -/
theorem composition_leaves_live_head :
    ∃ (s : State Request InferenceError (List Rat) Counters) (head : Ticket Request),
      Reachable (discipline smallConfig) (fun _ _ => True) s ∧
        (step (discipline smallConfig) s (.compose 0)).isSome = true ∧
        (s.queue .live).head? = some head ∧ (s.futures head.id).isCancelled = false ∧
        head ∉ (s.composition (discipline smallConfig)).batch := by
  obtain ⟨s, hs, hp⟩ := exists_reachable (discipline smallConfig) (fun _ _ => True)
    [.submit [backgroundRequest], .submit [backgroundRequest], .submit [largeRequest], .start,
      .wake 0]
    (fun s => (step (discipline smallConfig) s (.compose 0)).isSome = true ∧
      (s.queue .live).head? = some ⟨2, largeRequest⟩ ∧ (s.futures 2).isCancelled = false ∧
      (⟨2, largeRequest⟩ : Ticket Request) ∉ (s.composition (discipline smallConfig)).batch)
    (by decide +kernel)
  exact ⟨s, ⟨2, largeRequest⟩, hs, of_decide_eq_true hp⟩

end RagForge.Rag.Rerank
