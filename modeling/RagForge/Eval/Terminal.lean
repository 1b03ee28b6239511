import RagForge.Eval.Closing

/-
The status a benchmark is left with.

A closed benchmark stays closed as long as no item raises while another item of its phase runs on,
and an execution that ends has closed its benchmark unless it was cancelled, or a store call failed,
outside its `try`.
-/

namespace RagForge.Eval

open Py Effect Async Store

/-! ## What the operations do to the status of a benchmark -/

def World.statusOf (w : World) (k : Key) : Option BenchmarkStatus :=
  (w.benchmarks.lookup k).map BenchmarkDoc.status

def World.Open (w : World) (k : Key) : Prop := ∀ st, w.statusOf k = some st → st.terminal = false

def World.Present (w : World) (k : Key) : Prop := (w.statusOf k).isSome = true

section Effects

variable {env : Env} {w : World} {k : Key} {op : Now}

theorem statusOf_updateBenchmark (w : World) (k k' : Key) (cond : BenchmarkDoc → Bool)
    (f : BenchmarkDoc → BenchmarkDoc) :
    (w.updateBenchmark k' cond f).statusOf k = w.statusOf k ∨
      k = k' ∧ ∃ d, w.benchmarks.lookup k = some d ∧
        (w.updateBenchmark k' cond f).statusOf k = some (f d).status := by
  unfold World.statusOf World.updateBenchmark
  by_cases hk : k = k'
  · subst hk
    cases hfind : w.benchmarks.find cond k with
    | none =>
      rw [Table.update_of_none hfind]
      exact .inl rfl
    | some d =>
      rw [Table.lookup_update_self hfind]
      exact .inr ⟨rfl, d, (Table.find_eq_some_iff.mp hfind).1, rfl⟩
  · rw [Table.lookup_update_ne f hk]
    exact .inl rfl

theorem statusOf_effect (env : Env) (w : World) (k : Key) (hop : op.keepsOpen = true) :
    (op.effect env w).2.statusOf k = w.statusOf k ∨
      w.Present k ∧ ∃ st, (op.effect env w).2.statusOf k = some st ∧ st.terminal = false := by
  have hsame : ∀ (k' : Key) (cond : BenchmarkDoc → Bool) (f : BenchmarkDoc → BenchmarkDoc),
      (∀ d, (f d).status = d.status) →
      (w.updateBenchmark k' cond f).statusOf k = w.statusOf k := by
    intro k' cond f hf
    cases statusOf_updateBenchmark w k k' cond f with
    | inl h => exact h
    | inr h =>
      obtain ⟨-, d, hd, hst⟩ := h
      rw [hst, hf, World.statusOf, hd]
      rfl
  cases op with
  | finishBenchmarkRun => cases hop
  | heartbeatBenchmark k' owner region | recordOperationalMetrics k' metrics region =>
    exact .inl (hsame k' _ _ fun _ => rfl)
  | recordBenchmarkProgress k' status phases progress started =>
    have hopen : status.terminal = false := by simpa [Now.keepsOpen] using hop
    cases statusOf_updateBenchmark w k k' anyDoc _ with
    | inl h => exact .inl h
    | inr h =>
      obtain ⟨-, d, hd, hst⟩ := h
      refine .inr ⟨?_, status, hst, hopen⟩
      rw [World.Present, World.statusOf, hd]
      rfl
  | createRun tenant owner mode pipeline matchMode benchmarkId =>
    refine .inl ?_
    show ((World.insertRun w _ _).benchmarks.lookup k).map BenchmarkDoc.status = _
    unfold World.insertRun
    split <;> rfl
  | _ => exact .inl rfl

theorem statusOf_finish (hpresent : w.Present k) (status : BenchmarkStatus) (phases : List Phase)
    (progress : Progress) (error : Option String) (region : Region) :
    ((Now.finishBenchmarkRun k status phases progress error region).effect env w).2.statusOf k =
      some status := by
  obtain ⟨d, hd⟩ : ∃ d, w.benchmarks.lookup k = some d := by
    unfold World.Present World.statusOf at hpresent
    rw [Option.isSome_map] at hpresent
    exact Option.isSome_iff_exists.mp hpresent
  have hfind : w.benchmarks.find anyDoc k = some d := Table.find_eq_some_iff.mpr ⟨hd, rfl⟩
  show ((w.benchmarks.update anyDoc k _).lookup k).map BenchmarkDoc.status = some status
  rw [Table.lookup_update_self hfind]
  rfl

theorem serve_ok (hok : (serve env op w).1.toBool = true) :
    (serve env op w).2.statusOf k = (op.effect env w).2.statusOf k := by
  unfold serve at hok ⊢
  split
  · next hstore =>
    rw [if_pos hstore] at hok
    cases hfault : env.fault w.tick op with
    | none => rfl
    | some f =>
      rw [hfault] at hok
      cases hok
  · rfl

theorem serve_error (hfail : (serve env op w).1.toBool = false) :
    op.isStore = true ∧ ∃ f, env.fault w.tick op = some f ∧
      (serve env op w).2.statusOf k = (if f.applied then (op.effect env w).2 else w).statusOf
        k := by
  unfold serve at hfail ⊢
  by_cases hstore : Now.isStore op = true
  · rw [if_pos hstore] at hfail ⊢
    cases hfault : env.fault w.tick op with
    | none =>
      rw [hfault] at hfail
      cases hfail
    | some f => exact ⟨hstore, f, rfl, rfl⟩
  · rw [if_neg hstore] at hfail
    cases hfail

theorem possible_serve (env : Env) (op : Now) (w : World) :
    possible (.now op) (serve env op w).1 := by
  intro hmemory
  cases hreply : (serve env op w).1.toBool with
  | true => exact hreply
  | false =>
    have hstore := (serve_error (k := ⟨"", ""⟩) hreply).1
    rw [hmemory] at hstore
    cases hstore

theorem open_serve (hop : op.keepsOpen = true) (hopen : w.Open k) : (serve env op w).2.Open k := by
  have heffect : (op.effect env w).2.Open k := by
    intro st hst
    cases statusOf_effect env w k hop with
    | inl h => exact hopen st (h.symm.trans hst)
    | inr h =>
      obtain ⟨-, st', hst', hterminal⟩ := h
      rw [hst] at hst'
      rw [Option.some.inj hst']
      exact hterminal
  intro st hst
  cases hreply : (serve env op w).1.toBool with
  | true => exact heffect st ((serve_ok hreply).symm.trans hst)
  | false =>
    obtain ⟨-, f, -, hafter⟩ := serve_error hreply
    rw [hafter] at hst
    split at hst
    · exact heffect st hst
    · exact hopen st hst

theorem present_serve (hop : op.keepsOpen = true ∨ op.closes = true) (hpresent : w.Present k) :
    (serve env op w).2.Present k := by
  have heffect : (op.effect env w).2.Present k := by
    cases hop with
    | inl hop =>
      unfold World.Present
      cases statusOf_effect env w k hop with
      | inl h =>
        rw [h]
        exact hpresent
      | inr h =>
        obtain ⟨-, st, hst, -⟩ := h
        rw [hst]
        rfl
    | inr hop =>
      cases op with
      | finishBenchmarkRun k' status phases progress error region =>
        cases statusOf_updateBenchmark w k k' anyDoc _ with
        | inl h => exact (congrArg Option.isSome h).trans hpresent
        | inr h =>
          obtain ⟨-, d, -, hst⟩ := h
          exact congrArg Option.isSome hst
      | _ => cases hop
  unfold World.Present
  cases hreply : (serve env op w).1.toBool with
  | true =>
    rw [serve_ok hreply]
    exact heffect
  | false =>
    obtain ⟨-, f, -, hafter⟩ := serve_error hreply
    rw [hafter]
    split
    · exact heffect
    · exact hpresent

end Effects

/-! ## A closed benchmark stays closed -/

/-- A closing write of the `try` that fails has not taken effect. -/
def Env.ClosesCleanly (env : Env) : Prop :=
  ∀ n k status phases progress error f,
    env.fault n (.finishBenchmarkRun k status phases progress error .body) = some f →
      f.applied = false

def OpenWhileLive (k : Key) (w : World) (m : Stage) : Prop := m = .live → w.Open k

theorem openWhileLive_supervises {env : Env} (hclean : env.ClosesCleanly) (k : Key) :
    Supervises (serve env) (executionWatch k fun _ _ => True) (OpenWhileLive k) where
  now := by
    intro w m op hJ hallow
    obtain ⟨hlive, hadmissible⟩ := hallow
    refine ⟨possible_serve env op w, ?_⟩
    intro hnext
    have hstage : Now.stageAfter op (serve env op w).1.toBool = .live := hnext
    cases op with
    | finishBenchmarkRun k' status phases progress error region =>
      -- The write is the closing one, it failed, and it stands in the `try`.
      obtain ⟨rfl, -⟩ := hadmissible
      cases hreply : (serve env (.finishBenchmarkRun k' status phases progress error region)
          w).1.toBool with
      | true =>
        rw [hreply] at hstage
        cases hstage
      | false =>
        obtain ⟨-, f, hf, hafter⟩ := serve_error hreply
        rw [hreply] at hstage
        cases region with
        | opening | closing => cases hstage
        | body =>
          have hkept := hclean _ _ _ _ _ _ _ hf
          rw [hkept] at hafter
          intro st hst
          exact hJ hlive st (hafter.symm.trans hst)
    | _ => exact open_serve hadmissible (hJ hlive)
  later := fun w m _ _ hJ hallow _ => ⟨trivial, fun _ => hJ hallow.1⟩
  wake := fun w m _ _ hJ hallow => ⟨trivial, fun _ => hJ hallow.1⟩
  child := fun w m _ op hJ hallow hop _ => open_serve (Now.keepsOpen_of_ofItem hop) (hJ hallow.1)
  obey := fun _ _ hallow => hallow.2

def start (cfg : Config) (b : BenchmarkSpec) (w : World) : State iface Row BenchmarkStatus World :=
  State.initial (Program.of (executeBenchmark cfg b)) w

theorem executeBenchmark_accepted (cfg : Config) (b : BenchmarkSpec)
    (given : (w : Later) → Except Err w.Reply → Prop)
    {Q : Except Err BenchmarkStatus → Stage → Prop} (hQ : ∀ r m, m ≠ .live → Q r m) :
    (Program.of (executeBenchmark cfg b)).wp (executionWatch b.key given).logic Q .live := by
  have hcode : (executeBenchmark cfg b).wp (executionWatch b.key given).logic
      (fun r _ m => Q r m) () .live :=
    Proc.wp_mono (executeBenchmark_ends cfg b) fun r _ m hm => hQ r m hm
  exact (Prog.wp_bind _ _ _ _).mpr hcode

theorem orderly_regular (env : Env) (k : Key) :
    Regular (serve env) (executionWatch k fun _ _ => True)
      (fun (_ : Except Err BenchmarkStatus) _ => True) (orderly (serve env)) where
  orderly := fun _ _ h => h
  given := fun _ _ _ _ _ _ _ _ => trivial
  early := fun _ _ _ _ _ => trivial

/-- Nothing an execution or its items do changes the status of a benchmark that is closed, as long
as no item raises while another item of the phase runs on and no closing write fails after it took
effect. -/
theorem closed_benchmark_stays_closed (cfg : Config) (env : Env) (b : BenchmarkSpec) (w : World)
    (hclean : env.ClosesCleanly) (hqueued : w.statusOf b.key = some .queued)
    {s s' : State iface Row BenchmarkStatus World} {st : BenchmarkStatus}
    (hrun : Run (serve env) (orderly (serve env)) (start cfg b w) s)
    (hst : s.shared.statusOf b.key = some st) (hclosed : st.terminal = true)
    (hrest : Run (serve env) (orderly (serve env)) s s') :
    s'.shared.statusOf b.key = some st := by
  have hS := openWhileLive_supervises hclean b.key
  have hR := orderly_regular env b.key
  have hopen : OpenWhileLive b.key w .live := by
    intro _ st' hst'
    rw [hqueued] at hst'
    rw [← Option.some.inj hst']
    rfl
  have hwatched := hrun.watched hS hR
    (executeBenchmark_accepted cfg b _ fun _ _ _ => trivial) hopen
  have hkept := hrest.rule
    (P := fun t => Watched (executionWatch b.key fun _ _ => True) (fun _ _ => True)
      (OpenWhileLive b.key) t ∧ t.shared.statusOf b.key = some st) ⟨hwatched, hst⟩ ?_
  · exact hkept.2
  · intro t a t' ht hok hmoved
    obtain ⟨ht, hstatus⟩ := ht
    refine ⟨ht.step hS hR hok hmoved, ?_⟩
    obtain ⟨m, hJ, hacc⟩ := ht.main
    have hover : m ≠ .live := by
      intro hlive
      rw [hJ hlive st hstatus] at hclosed
      cases hclosed
    rw [ht.structured.frozen hacc (fun op hallow => hover hallow.1) hmoved]
    exact hstatus

def demoConfig : Config := ⟨false, "fail", 50, false⟩

def demoBenchmark : BenchmarkSpec where
  key := ⟨"tenant", "benchmark"⟩
  owner := "benchmark-worker"
  caller := ⟨"tenant", true, "eval-worker"⟩
  items := [plainItem "a", plainItem "b"]
  itemCount := 2

def demoPlan : List Phase := [{ basePhase with status := .queued }]

def demoWorld : World where
  runs := ∅
  benchmarks := (∅ : Table Key BenchmarkDoc).insert demoBenchmark.key
    { status := .queued
      phases := demoPlan
      progress := buildProgress demoPlan 2
      operationalMetrics := ⟨none, none⟩
      error := none
      lease := none
      startedAt := none
      finishedAt := none }
  tables _ := demoPlan
  clock := 0
  tick := 0
  drawn := 0

def demoEnv (fault : Now → Option Fault) : Env := ⟨fun _ => fault, fun _ => "run", 60⟩

def demoAnswer : iface.Answer
  | .snapshot _ => .ok (.obj [])
  | .verifyLabelIds _ _ => .ok ⟨⟨[], [], []⟩, ⟨[], [], []⟩⟩
  | .acquire => .ok ()
  | .retrieve query => .ok [query]
  | .runGraph _ _ => .error (.failure "RuntimeError" "no graph")

def hasStatus (st : BenchmarkStatus) (s : State iface Row BenchmarkStatus World) : Bool :=
  decide (s.shared.statusOf demoBenchmark.key = some st)

/-- The execution is cancelled while it gathers two items.  Both were told to cancel, so the one
that moves after the benchmark was closed changes nothing. -/
theorem closed_benchmark_stays_interrupted :
    ∃ s s', Run (serve (demoEnv fun _ => none)) (orderly (serve (demoEnv fun _ => none)))
        (start demoConfig demoBenchmark demoWorld) s ∧
      Run (serve (demoEnv fun _ => none)) (orderly (serve (demoEnv fun _ => none))) s s' ∧
      s.shared.statusOf demoBenchmark.key = some .interrupted ∧
      s'.shared.statusOf demoBenchmark.key = some .interrupted := by
  obtain ⟨s, hrun, hs⟩ := exists_run (serve (demoEnv fun _ => none))
    (orderly (serve (demoEnv fun _ => none))) (start demoConfig demoBenchmark demoWorld)
    [.main demoAnswer, .main demoAnswer, .child 0 demoAnswer, .cancel, .child 0 demoAnswer, .wake,
      .main demoAnswer]
    (fun s => hasStatus .interrupted s && (Sequence.follow (step (serve (demoEnv fun _ => none)))
      (orderly (serve (demoEnv fun _ => none))) [.child 1 demoAnswer] s).any fun _ => true)
    (by decide +kernel)
  obtain ⟨hstatus, hnext⟩ := Bool.and_eq_true_iff.mp hs
  obtain ⟨s', hrest, -⟩ := exists_run _ _ s [.child 1 demoAnswer] (fun _ => true) hnext
  have hstatus : s.shared.statusOf demoBenchmark.key = some .interrupted :=
    of_decide_eq_true hstatus
  have hclean : (demoEnv fun _ => none).ClosesCleanly := by
    intro n k status phases progress error f hf
    cases hf
  exact ⟨s, s', hrun, hrest, hstatus, closed_benchmark_stays_closed demoConfig _ demoBenchmark
    demoWorld hclean (by decide +kernel) hrun hstatus rfl hrest⟩

def failingAppend : Now → Option Fault
  | .appendItemResult _ row =>
    if row.query = "a" then some ⟨"OperationFailure", "write failed", false⟩ else none
  | _ => none

/-- The first item raises, the benchmark is closed as failed, and then the second item ends and sets
the status to running again. -/
theorem straggler_reopens_benchmark :
    ∃ s s', Run (serve (demoEnv failingAppend)) (fun _ _ => true)
        (start demoConfig demoBenchmark demoWorld) s ∧
      Run (serve (demoEnv failingAppend)) (fun _ _ => true) s s' ∧
      s.main.ended = true ∧ s.shared.statusOf demoBenchmark.key = some .failed ∧
      s'.shared.statusOf demoBenchmark.key = some .running := by
  obtain ⟨s, hrun, hs⟩ := exists_run (serve (demoEnv failingAppend)) (fun _ _ => true)
    (start demoConfig demoBenchmark demoWorld)
    [.main demoAnswer, .main demoAnswer, .child 0 demoAnswer, .child 1 demoAnswer,
      .child 0 demoAnswer, .child 0 demoAnswer, .wake, .main demoAnswer]
    (fun s => s.main.ended && hasStatus .failed s && (Sequence.follow
      (step (serve (demoEnv failingAppend))) (fun _ _ => true)
      [.child 1 demoAnswer, .child 1 demoAnswer] s).any (hasStatus .running))
    (by decide +kernel)
  obtain ⟨hstatus, hnext⟩ := Bool.and_eq_true_iff.mp hs
  obtain ⟨hended, hstatus⟩ := Bool.and_eq_true_iff.mp hstatus
  obtain ⟨s', hrest, hrunning⟩ := exists_run _ _ s _ _ hnext
  exact ⟨s, s', hrun, hrest, hended, of_decide_eq_true hstatus, of_decide_eq_true hrunning⟩

/-! ## An execution that ended has closed its benchmark -/

/-- The execution is not cancelled outside its `try`: not before it begins, nor at the snapshot it
takes first, nor at one that a closing handler takes. -/
def sheltered (s : State iface Row BenchmarkStatus World) (a : Action iface) : Bool :=
  match s.main with
  | .ready _ =>
    match a with
    | .cancel => false
    | _ => true
  | .waiting w _ =>
    !Later.unprotected w ||
      match a.reply w with
      | some r => !wasCancelled r
      | none => true
  | _ => true

def Env.ShelteredStore (env : Env) : Prop :=
  ∀ n op, op.unprotected = true → env.fault n op = none

/-- The benchmark is there, the execution is not lost, and once it has closed the benchmark the
status is terminal. -/
structure ClosedByStage (k : Key) (w : World) (m : Stage) : Prop where
  present : w.Present k
  kept : m ≠ .lost
  closed : m = .closed → ∃ st, w.statusOf k = some st ∧ st.terminal = true

/-- A cancellation is given only to what stands inside the `try`. -/
def givenInside (w : Later) (r : Except Err w.Reply) : Prop :=
  w.unprotected = true → wasCancelled r = false

theorem stageAfter_of_given {w : Later} {r : Except Err w.Reply} (h : givenInside w r) :
    w.stageAfter (wasCancelled r) = .live := by
  unfold Later.stageAfter
  cases hw : w.unprotected with
  | false =>
    rw [Bool.and_false]
    rfl
  | true =>
    rw [h hw]
    rfl

theorem closedByStage_supervises {env : Env} (hstore : env.ShelteredStore) (k : Key) :
    Supervises (serve env) (executionWatch k givenInside) (ClosedByStage k) where
  now := by
    intro w m op hJ hallow
    obtain ⟨hlive, hadmissible⟩ := hallow
    refine ⟨possible_serve env op w, ?_⟩
    show ClosedByStage k (serve env op w).2 (Now.stageAfter op (serve env op w).1.toBool)
    have hkind : op.keepsOpen = true ∨ op.closes = true := by
      cases op with
      | finishBenchmarkRun => exact .inr rfl
      | _ => exact .inl hadmissible
    refine ⟨present_serve hkind hJ.present, ?_, ?_⟩
    · cases hreply : (serve env op w).1.toBool with
      | true =>
        unfold Now.stageAfter
        cases op.closes <;> exact fun h => by cases h
      | false =>
        obtain ⟨-, f, hf, -⟩ := serve_error (k := k) hreply
        have hprotected : op.unprotected = false := by
          cases hop : op.unprotected with
          | false => rfl
          | true =>
            rw [hstore w.tick op hop] at hf
            cases hf
        simp [Now.stageAfter, hprotected]
    · intro hclosed
      cases hreply : (serve env op w).1.toBool with
      | false =>
        rw [hreply] at hclosed
        cases hop : op.unprotected <;> simp [Now.stageAfter, hop] at hclosed
      | true =>
        rw [serve_ok hreply]
        rw [hreply] at hclosed
        cases op with
        | finishBenchmarkRun k' status phases progress error region =>
          obtain ⟨rfl, hterminal⟩ := hadmissible
          exact ⟨status, statusOf_finish hJ.present status phases progress error region,
            hterminal⟩
        | _ => cases hclosed
  later := by
    intro w m v r hJ hallow hgiven
    have hlive : ClosedByStage k w .live :=
      ⟨hJ.present, (fun h => by cases h), fun h => by cases h⟩
    exact ⟨trivial, (congrArg (ClosedByStage k w) (stageAfter_of_given hgiven)).mpr hlive⟩
  wake := by
    intro w m cs r hJ hallow
    exact ⟨trivial, hJ.present, (fun h => by cases h), fun h => by cases h⟩
  child := by
    intro w m cs op hJ hallow hop
    refine ⟨present_serve (.inl (Now.keepsOpen_of_ofItem hop)) hJ.present, hJ.kept, ?_⟩
    intro hclosed
    rw [hallow.1] at hclosed
    cases hclosed
  obey := fun _ _ hallow => hallow.2

theorem sheltered_regular (env : Env) (k : Key) :
    Regular (serve env) (executionWatch k givenInside)
      (fun (_ : Except Err BenchmarkStatus) m => m ≠ .live)
      (fun s a => orderly (serve env) s a && sheltered s a) where
  orderly := fun _ _ h => (Bool.and_eq_true_iff.mp h).1
  given := by
    intro s a w k r hok hmain hr hunprotected
    have hsheltered := (Bool.and_eq_true_iff.mp hok).2
    simp only [sheltered, hmain, hr] at hsheltered
    have hunprotected : Later.unprotected w = true := hunprotected
    rw [hunprotected] at hsheltered
    simp only [Bool.not_true, Bool.false_or, Bool.not_eq_eq_eq_not] at hsheltered
    exact hsheltered
  early := by
    intro s p m hok hmain
    have hsheltered := (Bool.and_eq_true_iff.mp hok).2
    simp only [sheltered, hmain] at hsheltered
    cases hsheltered

/-- When an execution has ended, the stored status is terminal, unless the execution was cancelled
or a store call failed outside its `try`, or an item outlived its phase. -/
theorem ended_execution_left_terminal (cfg : Config) (env : Env) (b : BenchmarkSpec) (w : World)
    (hstore : env.ShelteredStore) (hpresent : w.Present b.key)
    {s : State iface Row BenchmarkStatus World}
    (hrun : Run (serve env) (fun s a => orderly (serve env) s a && sheltered s a) (start cfg b w) s)
    (hended : s.main.ended = true) :
    ∃ st, s.shared.statusOf b.key = some st ∧ st.terminal = true := by
  have hJ : ClosedByStage b.key w .live :=
    ⟨hpresent, (fun h => by cases h), fun h => by cases h⟩
  have hwatched := hrun.watched (closedByStage_supervises hstore b.key)
    (sheltered_regular env b.key) (executeBenchmark_accepted cfg b _ fun _ _ hm => hm) hJ
  obtain ⟨m, hJ, hacc⟩ := hwatched.main
  have hover : m ≠ .live := by
    cases hmain : s.main with
    | done r =>
      rw [hmain] at hacc
      exact hacc
    | ready | waiting | gathering =>
      rw [hmain] at hended
      cases hended
  cases m with
  | live => exact absurd rfl hover
  | lost => exact absurd rfl hJ.kept
  | closed => exact hJ.closed rfl

/-- Both items return and the benchmark is closed. -/
theorem ended_execution_left_terminal_completed :
    ∃ s, Run (serve (demoEnv fun _ => none))
        (fun s a => orderly (serve (demoEnv fun _ => none)) s a && sheltered s a)
        (start demoConfig demoBenchmark demoWorld) s ∧ s.main.ended = true ∧
      ∃ st, s.shared.statusOf demoBenchmark.key = some st ∧ st.terminal = true := by
  obtain ⟨s, hrun, hended⟩ := exists_run (serve (demoEnv fun _ => none))
    (fun s a => orderly (serve (demoEnv fun _ => none)) s a && sheltered s a)
    (start demoConfig demoBenchmark demoWorld)
    [.main demoAnswer, .main demoAnswer, .child 0 demoAnswer, .child 1 demoAnswer,
      .child 0 demoAnswer, .child 1 demoAnswer, .child 1 demoAnswer, .child 0 demoAnswer, .wake,
      .main demoAnswer] (fun s => s.main.ended) (by decide +kernel)
  have hpresent : demoWorld.Present demoBenchmark.key := by
    unfold World.Present
    decide +kernel
  exact ⟨s, hrun, hended, ended_execution_left_terminal demoConfig _ demoBenchmark demoWorld
    (fun _ _ _ => rfl) hpresent hrun hended⟩

/-- The execution is cancelled at the snapshot it takes before its `try`: the benchmark stays
queued. -/
theorem cancelled_at_first_snapshot :
    ∃ s, Run (serve (demoEnv fun _ => none)) (fun _ _ => true)
        (start demoConfig demoBenchmark demoWorld) s ∧
      s.main.ended = true ∧ s.shared.statusOf demoBenchmark.key = some .queued := by
  obtain ⟨s, hrun, hs⟩ := exists_run (serve (demoEnv fun _ => none)) (fun _ _ => true)
    (start demoConfig demoBenchmark demoWorld) [.main demoAnswer, .cancel]
    (fun s => s.main.ended && hasStatus .queued s) (by decide +kernel)
  obtain ⟨hended, hstatus⟩ := Bool.and_eq_true_iff.mp hs
  exact ⟨s, hrun, hended, of_decide_eq_true hstatus⟩

end RagForge.Eval
