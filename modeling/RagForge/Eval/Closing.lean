import RagForge.Async.Gather
import RagForge.Eval.Benchmark

/-
How an execution leaves its benchmark.

The execution is watched through three stages: it is live, it has closed the benchmark, or it was
lost, which is what an exception outside its `try` does.  It performs nothing once it is not live,
so a closed benchmark is changed only by items that outlive it, and an execution that ends without
being lost has closed its benchmark.
-/

namespace RagForge.Eval

open Py Effect Async Store

/-! ## Stages -/

inductive Stage
  | live
  | closed
  | lost

/-- The call stands outside the `try` of `_execute`. -/
def Now.unprotected : Now → Bool
  | .heartbeatBenchmark _ _ region => decide (region ≠ .body)
  | .recordOperationalMetrics _ _ region => decide (region ≠ .body)
  | .finishBenchmarkRun _ _ _ _ _ region => decide (region ≠ .body)
  | _ => false

def Later.unprotected : Later → Bool
  | .snapshot region => decide (region ≠ .body)
  | _ => false

/-- Where a region leaves an execution that raises there. -/
def Region.exit (region : Region) : Stage := if region = .body then .live else .lost

def Now.closes : Now → Bool
  | .finishBenchmarkRun .. => true
  | _ => false

def Now.stageAfter (op : Now) (returned : Bool) : Stage :=
  if returned then if op.closes then .closed else .live
  else if op.unprotected then .lost else .live

def wasCancelled {α : Type} : Except Err α → Bool
  | .error e => e.isCancelled
  | .ok _ => false

def Later.stageAfter (w : Later) (cancelled : Bool) : Stage :=
  if cancelled && w.unprotected then .lost else .live

def Now.keepsOpen : Now → Bool
  | .finishBenchmarkRun .. => false
  | .recordBenchmarkProgress _ status _ _ _ => !status.terminal
  | _ => true

def Now.ofItem : Now → Bool
  | .appendItemResult .. => true
  | .heartbeatRun .. => true
  | .phaseTable _ => true
  | .setPhaseTable .. => true
  | .recordBenchmarkProgress _ status _ _ _ => !status.terminal
  | .heartbeatBenchmark .. => true
  | _ => false

theorem Now.keepsOpen_of_ofItem {op : Now} (hop : op.ofItem = true) : op.keepsOpen = true := by
  cases op with
  | recordBenchmarkProgress => exact hop
  | finishBenchmarkRun => cases hop
  | _ => rfl

/-- What an execution of benchmark `k` may do while it is live: it closes only that benchmark, with
a terminal status. -/
def Now.admissible (k : Key) : Now → Prop
  | .finishBenchmarkRun k' status _ _ _ _ => k' = k ∧ status.terminal = true
  | op => op.keepsOpen = true

def executionMonitor (k : Key) : Monitor (iface.main Row) Stage where
  allow m op := m = .live ∧
    match op with
    | .now op => Now.admissible k op
    | .later _ => True
    | .gather cs => ∀ c ∈ cs, Obeys (fun op => Now.ofItem op = true) c False
  next _ op r :=
    match op, r with
    | .now op, r => Now.stageAfter op r.toBool
    | .later w, r => Later.stageAfter w (wasCancelled r)
    | .gather _, _ => .live

/-- Only a store call can fail. -/
def possible : (op : MainOp iface Row) → (iface.main Row).Result op → Prop
  | .now op, r => Now.isStore op = false → r.toBool = true
  | _, _ => True

/-- The watch over an execution that is given only some replies. -/
def executionWatch (k : Key) (given : (w : Later) → Except Err w.Reply → Prop) :
    Watch iface Row Stage where
  monitor := executionMonitor k
  possible := possible
  allowed op := Now.ofItem op = true
  given := given

def executionLogic (k : Key) : Logic (iface.main Row) Stage := (executionMonitor k).logicOn possible

/-! ## Items obey -/

variable {α : Type} {op : Now} {onItemCompleted : Row → ItemM Unit}

section Items

abbrev Quietly (p : ItemM α) : Prop := Passes (fun op => Now.ofItem op = true) p

theorem now_quietly (hop : op.ofItem = true) : Quietly (ItemM.now op) :=
  .now hop

theorem await_quietly (w : Later) : Quietly (ItemM.await w) :=
  .later (I := iface) w

theorem quietly_exceptException {p : ItemM α} {f : Err → ItemM α} (hp : Quietly p)
    (hf : ∀ e, Quietly (f e)) : Quietly (exceptException Err.isCancelled p f) := by
  refine hp.handle rfl ?_
  intro e he
  have hne : Err.isCancelled e = false := by
    cases e with
    | cancelled => exact absurd rfl he
    | timeout | validation | notFound | accessDenied | failure => rfl
  rw [if_neg (by rw [hne]; exact Bool.false_ne_true)]
  exact hf e

theorem executeItem_quietly (x : RunSpec) (item : Item) : Quietly (executeItem x item) := by
  refine (await_quietly _).bind ?_
  intro _
  cases x.mode with
  | endToEnd | retrieval => exact (await_quietly _).bind fun r => .pure _

theorem persistItemResult_quietly (x : RunSpec)
    (hon : ∀ row, Quietly (onItemCompleted row)) (row : Row) :
    Quietly (persistItemResult x onItemCompleted row) := by
  refine (now_quietly rfl).bind ?_
  intro _
  exact (now_quietly rfl).bind fun _ => hon row

theorem scoreItem_quietly (x : RunSpec)
    (hon : ∀ row, Quietly (onItemCompleted row)) (unscorable : Bool) (item : Item) :
    Quietly (scoreItem x onItemCompleted unscorable item) := by
  unfold scoreItem
  split
  · exact (persistItemResult_quietly x hon _).bind fun _ => .pure _
  · have hattempt : Quietly (attemptItem x item) := by
      refine quietly_exceptException ?_ fun e => .pure _
      exact (executeItem_quietly x item).bind fun _ => .pure _
    refine hattempt.bind ?_
    intro execution
    exact (persistItemResult_quietly x hon _).bind fun _ => .pure _

theorem recordItem_quietly (b : BenchmarkSpec) (i : Nat) (row : Row) :
    Quietly (recordItem b i row) := by
  refine (now_quietly rfl).bind ?_
  intro phases
  refine (now_quietly rfl).bind ?_
  intro _
  refine (now_quietly rfl).bind ?_
  intro _
  exact (now_quietly rfl).bind fun _ => .pure _

end Items

/-! ## Code that stays live -/

section Main

variable {β : Type} {k : Key} {p : MainM α} {f : α → MainM β} {final out : Stage} (cfg : Config)
  (x : RunSpec) (b : BenchmarkSpec) (i : Nat)

/-- The code leaves the execution live, whether it returns or raises. -/
abbrev StaysLive (k : Key) (p : MainM α) : Prop :=
  Still (executionLogic k) .live p fun _ => True

theorem now_staysLive (hop : op.keepsOpen = true) (hprotected : op.unprotected = false) :
    StaysLive k (MainM.now op) := by
  have hadmissible : Now.admissible k op := by
    cases op with
    | finishBenchmarkRun => cases hop
    | _ => exact hop
  have hcloses : op.closes = false := by
    cases op with
    | finishBenchmarkRun => cases hop
    | _ => rfl
  refine fun l => ⟨⟨⟨rfl, hadmissible⟩, ?_⟩⟩
  intro r _
  refine ⟨⟨rfl, ?_⟩, fun _ _ => trivial⟩
  show Now.stageAfter op r.toBool = .live
  unfold Now.stageAfter
  rw [hcloses, hprotected]
  cases r.toBool <;> rfl

theorem await_staysLive {w : Later} (hprotected : w.unprotected = false) :
    StaysLive k (MainM.await w) := by
  refine fun l => ⟨⟨⟨rfl, trivial⟩, ?_⟩⟩
  intro r _
  refine ⟨⟨rfl, ?_⟩, fun _ _ => trivial⟩
  show Later.stageAfter w (wasCancelled r) = .live
  unfold Later.stageAfter
  rw [hprotected, Bool.and_false]
  rfl

theorem gather_staysLive {children : List (ItemM Row)} (h : ∀ p ∈ children, Quietly p) :
    StaysLive k (MainM.gather children) := by
  refine fun l => ⟨⟨⟨rfl, ?_⟩, fun r _ => ⟨⟨rfl, rfl⟩, fun _ _ => trivial⟩⟩⟩
  intro c hc
  obtain ⟨p, hp, rfl⟩ := List.mem_map.mp hc
  exact (h p hp).obeys

theorem StaysLive.then (hp : StaysLive k p) (hf : ∀ a, StaysLive k (f a)) : StaysLive k (p >>= f) :=
  hp.bind fun a _ => hf a

theorem StaysLive.pure (a : α) : StaysLive k (Pure.pure a : MainM α) := Still.pure trivial

theorem StaysLive.raise (e : Err) : StaysLive k (Proc.raise e : MainM α) :=
  Still.raise (S := iface.main Row) e

theorem validateLabels_still {σ : Type} {A : Logic (iface.main Row) σ} {s : σ}
    (hawait : ∀ chunkIds fileIds,
      Still A s (MainM.await (.verifyLabelIds chunkIds fileIds)) fun _ => True)
    (items : List Item) (mode : MatchMode) :
    Still A s (validateLabels cfg items mode) fun _ => True := by
  unfold validateLabels
  dsimp only
  split
  · exact .pure trivial
  · split
    · exact .pure trivial
    · refine Still.handle ((hawait _ _).bind fun verified _ => .pure trivial) ?_
      intro e
      split
      · exact Still.raise (S := iface.main Row) e
      · exact Still.pure trivial

theorem scoreItems_staysLive (hon : ∀ row, Quietly (onItemCompleted row)) :
    StaysLive k (scoreItems cfg x onItemCompleted) := by
  have hlabels : StaysLive k (validateLabels cfg x.items x.matchMode) :=
    validateLabels_still cfg (fun _ _ => await_staysLive rfl) x.items x.matchMode
  refine hlabels.then ?_
  intro report
  refine (now_staysLive rfl rfl).then ?_
  intro _
  split
  · exact (now_staysLive rfl rfl).then fun _ => .pure _
  · have hgather : StaysLive k (MainM.gather (x.items.map fun item =>
        scoreItem x onItemCompleted (item.key ∈ report.unscorable) item)) := by
      refine gather_staysLive ?_
      intro p hp
      obtain ⟨item, -, rfl⟩ := List.mem_map.mp hp
      exact scoreItem_quietly x hon _ item
    refine hgather.then ?_
    intro rows
    exact (now_staysLive rfl rfl).then fun _ => .pure _

theorem closeRun_staysLive (e : Err) : StaysLive k (closeRun x e) := by
  unfold closeRun
  split
  · exact (now_staysLive rfl rfl).then fun _ => .raise e
  · exact (now_staysLive rfl rfl).then fun _ => .pure _

theorem executeRun_staysLive (hon : ∀ row, Quietly (onItemCompleted row)) :
    StaysLive k (executeRun cfg x onItemCompleted) := by
  refine (now_staysLive rfl rfl).then ?_
  intro _
  exact (scoreItems_staysLive cfg x hon).handle (closeRun_staysLive x)

theorem openPhase_staysLive (p : Phase) : StaysLive k (openPhase cfg b p) := by
  have hopen : StaysLive k
      (openRun cfg b.caller b.items p.evaluationMode p.pipelineMode (some b.key.id)) := by
    unfold openRun
    split
    · exact .raise _
    · exact (now_staysLive rfl rfl).then fun _ => .pure _
  refine (hopen.then fun x => .pure _).handle ?_
  intro e
  split
  · exact StaysLive.pure _
  · exact .raise e

theorem updatePhase_staysLive (f : Phase → Phase) : StaysLive k (updatePhase b i f) :=
  (now_staysLive rfl rfl).then fun _ => now_staysLive rfl rfl

theorem endPhase_staysLive (f : Phase → Phase × Option String) : StaysLive k (endPhase b i f) :=
  (now_staysLive rfl rfl).then fun _ => (now_staysLive rfl rfl).then fun _ => .pure _

theorem writeProgress_staysLive (started : Bool) : StaysLive k (writeProgress b started) :=
  (now_staysLive rfl rfl).then fun _ => now_staysLive rfl rfl

theorem runPhase_staysLive (p : Phase) : StaysLive k (runPhase cfg b i p) := by
  refine (updatePhase_staysLive b i _).then ?_
  intro _
  refine (writeProgress_staysLive b false).then ?_
  intro _
  refine (openPhase_staysLive cfg b p).then ?_
  intro opened
  cases opened with
  | error e => exact endPhase_staysLive b i _
  | ok x =>
    refine (updatePhase_staysLive b i _).then ?_
    intro _
    refine (executeRun_staysLive cfg x (recordItem_quietly b i)).then ?_
    intro summary
    exact endPhase_staysLive b i _

theorem runPhases_staysLive (indices : List Nat)
    (aborted : Option String) : StaysLive k (runPhases cfg b indices aborted) := by
  induction indices generalizing aborted with
  | nil => exact .pure ()
  | cons i rest ih =>
    refine (now_staysLive rfl rfl).then ?_
    intro phases
    split
    · exact ih aborted
    · split
      · exact ih aborted
      · split
        · exact (updatePhase_staysLive b i _).then fun _ => ih _
        · exact (runPhase_staysLive cfg b i _).then fun _ => ih _

/-! ## Closing the benchmark -/

/-- Code that starts live ends in stage `final` if it returns and in stage `out` if it raises. -/
def Reaches (k : Key) (p : MainM α) (final out : Stage) : Prop :=
  p.wp (executionLogic k)
    (fun r _ m => m = match r with | .ok _ => final | .error _ => out) () .live

theorem Reaches.then (hp : Reaches k p .live out) (hf : ∀ a, Reaches k (f a) final out) :
    Reaches k (p >>= f) final out := by
  refine (Proc.wp_bind p f).mpr (Proc.wp_mono hp ?_)
  intro r l m hr
  cases r with
  | error e => exact hr
  | ok a =>
    rw [hr]
    exact hf a

theorem StaysLive.reaches (hp : StaysLive k p) : Reaches k p .live .live := by
  refine Proc.wp_mono (hp ()).wp ?_
  intro r l m hr
  cases r <;> exact hr.1.2

theorem memory_reaches (hop : op.keepsOpen = true) (hmemory : op.isStore = false) (out : Stage) :
    Reaches k (MainM.now op) .live out := by
  have hprotected : op.unprotected = false := by
    cases op with
    | time | phaseTable | setPhaseTable => rfl
    | _ => cases hmemory
  refine Proc.wp_mono (P := fun r _ m => r.toBool = true ∧ m = .live) ?_ ?_
  · refine ⟨((now_staysLive hop hprotected ()).wp).1, ?_⟩
    intro r hr
    exact ⟨hr hmemory, (((now_staysLive hop hprotected ()).wp).2 r hr).1.2⟩
  · intro r l m hr
    cases r with
    | error e => cases hr.1
    | ok a => exact hr.2

theorem captureSnapshot_reaches (region : Region) :
    Reaches k (captureSnapshot region) .live region.exit := by
  have hawait : (MainM.await (.snapshot region)).wp (executionLogic k) (fun r _ m =>
      m = Later.stageAfter (.snapshot region) (wasCancelled r)) () .live :=
    ⟨⟨rfl, trivial⟩, fun r _ => rfl⟩
  refine (Proc.wp_handle _ _).mpr (Proc.wp_mono hawait ?_)
  intro r l m hr
  cases r with
  | ok a => exact hr
  | error e =>
    show Proc.wp _ (if Err.isCancelled e = true then Proc.raise e else pure (Json.obj [])) _ _ _
    have hstage : m = Later.stageAfter (.snapshot region) (Err.isCancelled e) := hr
    split
    · next he =>
      rw [he] at hstage
      rw [hstage]
      cases region <;> rfl
    · next he =>
      rw [Bool.eq_false_iff.mpr he] at hstage
      exact hstage

theorem store_reaches (region : Region) (hop : Now.admissible k op)
    (hfinal : op.stageAfter true = final) (hout : op.stageAfter false = region.exit) :
    Reaches k (MainM.now op) final region.exit := by
  refine ⟨⟨rfl, hop⟩, ?_⟩
  intro r _
  cases r with
  | ok a => exact hfinal
  | error e => exact hout

theorem closeBenchmark_reaches {b : BenchmarkSpec} {status : BenchmarkStatus}
    (hstatus : status.terminal = true) (before : Json) (region : Region)
    (error : List Phase → Option String) :
    Reaches b.key (closeBenchmark b before region status error) .closed region.exit := by
  refine (captureSnapshot_reaches region).then ?_
  intro after
  have hmetrics : Reaches b.key
      (MainM.now (.recordOperationalMetrics b.key ⟨some before, some after⟩ region)) .live
      region.exit := store_reaches region rfl rfl (by cases region <;> rfl)
  refine hmetrics.then ?_
  intro _
  refine (memory_reaches rfl rfl _).then ?_
  intro phases
  -- The closing write is the last operation, and what follows it only returns the status.
  refine (Proc.wp_bind _ _).mpr ?_
  refine Proc.wp_mono (store_reaches region ⟨rfl, hstatus⟩ rfl (by cases region <;> rfl)) ?_
  intro r l m hr
  cases r with
  | error | ok => exact hr

theorem benchmarkStatus_terminal (phases : List Phase) :
    (benchmarkStatus phases).terminal = true := by
  unfold benchmarkStatus
  split
  · rfl
  · split
    · rfl
    · split <;> rfl

theorem runBenchmark_reaches (before : Json) :
    Reaches b.key (runBenchmark cfg b before) .closed .live := by
  refine (writeProgress_staysLive b true).reaches.then ?_
  intro _
  refine (now_staysLive rfl rfl).reaches.then ?_
  intro _
  refine (now_staysLive rfl rfl).reaches.then ?_
  intro phases
  refine (runPhases_staysLive cfg b _ none).reaches.then ?_
  intro _
  refine (now_staysLive rfl rfl).reaches.then ?_
  intro phases'
  exact closeBenchmark_reaches (benchmarkStatus_terminal phases') before .body _

def Ends (k : Key) (p : MainM α) : Prop :=
  p.wp (executionLogic k) (fun _ _ m => m ≠ .live) () .live

theorem Reaches.ends (hp : Reaches k p final out) (hfinal : final ≠ .live) (hout : out ≠ .live) :
    Ends k p := by
  refine Proc.wp_mono hp ?_
  intro r l m hr
  rw [hr]
  cases r with
  | error e => exact hout
  | ok a => exact hfinal

theorem Reaches.then_ends (hp : Reaches k p .live out) (hout : out ≠ .live)
    (hf : ∀ a, Ends k (f a)) : Ends k (p >>= f) := by
  refine (Proc.wp_bind p f).mpr (Proc.wp_mono hp ?_)
  intro r l m hr
  rw [hr]
  cases r with
  | error e => exact hout
  | ok a => exact hf a

theorem abandonBenchmark_ends (before : Json) (e : Err) :
    Ends b.key (abandonBenchmark b before e) := by
  have hlost : Stage.lost ≠ .live := fun h => by cases h
  have hclose : ∀ (status : BenchmarkStatus) (error : List Phase → Option String),
      status.terminal = true → Ends b.key (closeBenchmark b before .closing status error) := by
    intro status error hstatus
    exact (closeBenchmark_reaches hstatus before .closing error).ends (fun h => by cases h) hlost
  unfold abandonBenchmark
  split
  · refine (memory_reaches rfl rfl .lost).then_ends hlost ?_
    intro phases
    refine (memory_reaches rfl rfl .lost).then_ends hlost ?_
    intro _
    refine (Proc.wp_bind _ _).mpr (Proc.wp_mono (hclose .interrupted _ rfl) ?_)
    intro r l m hm
    cases r <;> exact hm
  · exact hclose .failed _ rfl

/-- An execution does nothing once it is no longer live, and it does not end live. -/
theorem executeBenchmark_ends : Ends b.key (executeBenchmark cfg b) := by
  have hlost : Region.exit .opening ≠ .live := fun h => by cases h
  have hheartbeat : Reaches b.key (MainM.now (.heartbeatBenchmark b.key b.owner .opening)) .live
      (Region.exit .opening) := store_reaches .opening rfl rfl rfl
  refine hheartbeat.then_ends hlost ?_
  intro _
  refine (captureSnapshot_reaches .opening).then_ends hlost ?_
  intro before
  have hmetrics : Reaches b.key
      (MainM.now (.recordOperationalMetrics b.key ⟨some before, none⟩ .opening)) .live
      (Region.exit .opening) := store_reaches .opening rfl rfl rfl
  refine hmetrics.then_ends hlost ?_
  intro _
  refine (Proc.wp_handle _ _).mpr (Proc.wp_mono (runBenchmark_reaches cfg b before) ?_)
  intro r l m hr
  rw [hr]
  cases r with
  | ok status => exact fun h => by cases h
  | error e => exact abandonBenchmark_ends b before e

end Main

end RagForge.Eval
