import RagForge.Effect.Pool
import RagForge.Eval.Closing

/-
Eval runs, their workers and the recovery of stale runs by other service instances.

Workers, the items they gather and recoveries are threads that share the store; every store call is
one step, so the calls of different instances interleave in any order.  What is awaited, the outcome
of a gathering and the time that passes before each operation are up to the surroundings.
-/

namespace RagForge.Eval

open Py Effect Async Store

/-! ## Instances that share the store -/

structure Surroundings where
  env : Env
  answer : Nat → iface.Answer
  gathered : Nat → Except Err (List Row)
  /-- The time that passes before an operation. -/
  elapsed : Nat → Nat

def World.wait (w : World) (t : Nat) : World := { w with clock := w.clock + t }

def instances (e : Surroundings) : Handler (iface.main Row) World := fun op w =>
  let w := w.wait (e.elapsed w.tick)
  match op with
  | .now op => serve e.env op w
  | .later v => (e.answer w.tick v, w.tock)
  | .gather _ => (e.gathered w.tick, w.tock)

def thread {α : Type} (p : MainM α) : Prog (iface.main Row) Unit :=
  (p.start ()).bind fun _ => .ret ()

def itemThread (p : ItemM Row) : Prog (iface.main Row) Unit :=
  Coroutine.embed ((p.start ()).bind fun _ => .ret ())

/-- The callback of a run: none, or the one of the phase it belongs to. -/
inductive Callback : (Row → ItemM Unit) → Prop
  | none : Callback fun _ => pure ()
  | phase (b : BenchmarkSpec) (i : Nat) : Callback (recordItem b i)

def startRun (cfg : Config) (caller : Caller) (items : List Item) (mode : Mode)
    (pipeline : Option Pipeline) (benchmarkId : Option String)
    (onItemCompleted : Row → ItemM Unit) : MainM RunSummary := do
  let x ← openRun cfg caller items mode pipeline benchmarkId
  executeRun cfg x onItemCompleted

inductive Starts (cfg : Config) : Prog (iface.main Row) Unit → Prop
  | worker (caller : Caller) (items : List Item) (mode : Mode) (pipeline : Option Pipeline)
      (benchmarkId : Option String) (onItemCompleted : Row → ItemM Unit)
      (h : Callback onItemCompleted) :
      Starts cfg (thread (startRun cfg caller items mode pipeline benchmarkId onItemCompleted))
  | item (x : RunSpec) (onItemCompleted : Row → ItemM Unit) (h : Callback onItemCompleted)
      (unscorable : Bool) (item : Item) :
      Starts cfg (itemThread (scoreItem x onItemCompleted unscorable item))
  | recovery (owner : String) : Starts cfg (thread (recoverStaleRuns owner))

/-- A closing write that fails has not taken effect. -/
def Env.ClosesRunsCleanly (env : Env) : Prop :=
  ∀ n k status results error f,
    env.fault n (.finishRun k status results error) = some f → f.applied = false

/-- A worker closes its run before a recovery has claimed it, which is possible from the moment the
lease ran out, and the id that is drawn for a new run is not one of another run. -/
def inTime (env : Env) (w : World) : MainOp iface Row → Bool
  | .now (.finishRun k _ _ _) => (w.runs.lookup k).all fun d => d.recovery.isNone
  | .now (.createRun tenant _ _ _ _ _) => (w.runs.lookup ⟨tenant, env.newId w.drawn⟩).isNone
  | _ => true

instance inTime.decidable (env : Env) (w : World) :
    DecidablePred fun op : (iface.main Row).Op => inTime env w op = true :=
  fun op => inferInstanceAs (Decidable (inTime env w op = true))

/-! ## What the operations do to a run -/

def RunStatus.terminal (s : RunStatus) : Bool := decide (s ≠ .running)

structure RunState where
  status : RunStatus
  results : Option Results
  claimed : Bool

def RunDoc.state (d : RunDoc) : RunState := ⟨d.status, d.results, d.recovery.isSome⟩

def World.stateOf (w : World) (k : Key) : Option RunState := (w.runs.lookup k).map RunDoc.state

def World.outcomeOf (w : World) (k : Key) : Option (RunStatus × Option Results) :=
  (w.stateOf k).map fun t => (t.status, t.results)

/-- How an operation may change run `k`. -/
inductive Moves (k : Key) : Now → Option RunState → Option RunState → Prop
  | same (op : Now) (t : Option RunState) : Moves k op t t
  | finish (status : RunStatus) (results : Option Results) (error : Option String) (t : RunState) :
      Moves k (.finishRun k status results error) (some t) (some ⟨status, results, t.claimed⟩)
  | interrupt (owner : String) (t : RunState) (h : t.status = .running) :
      Moves k (.interruptClaimedRun k owner) (some t) (some ⟨.interrupted, none, t.claimed⟩)
  | claim (now : Nat) (owner : String) (t : RunState) :
      Moves k (.claimStaleRun k now owner) (some t) (some { t with claimed := true })
  | create (tenant owner : String) (mode : Mode) (pipeline : Option Pipeline)
      (matchMode : MatchMode) (benchmarkId : Option String) :
      Moves k (.createRun tenant owner mode pipeline matchMode benchmarkId) none
        (some ⟨.running, none, false⟩)

section Effects

variable {w : World} {k : Key} {op : Now} {env : Env}

theorem stateOf_updateRun (w : World) (k k' : Key) (cond : RunDoc → Bool) (f : RunDoc → RunDoc) :
    (w.updateRun k' cond f).stateOf k = w.stateOf k ∨ k' = k ∧ ∃ d, cond d = true ∧
      w.stateOf k = some d.state ∧ (w.updateRun k' cond f).stateOf k = some (f d).state := by
  unfold World.stateOf World.updateRun
  by_cases hk : k = k'
  · subst hk
    cases hfind : w.runs.find cond k with
    | none =>
      rw [Table.update_of_none hfind]
      exact .inl rfl
    | some d =>
      obtain ⟨hd, hcond⟩ := Table.find_eq_some_iff.mp hfind
      rw [Table.lookup_update_self hfind, hd]
      exact .inr ⟨rfl, d, hcond, rfl, rfl⟩
  · rw [Table.lookup_update_ne f hk]
    exact .inl rfl

theorem moves_updateRun (k' : Key) {cond : RunDoc → Bool} {f : RunDoc → RunDoc}
    (hf : ∀ d, k' = k → cond d = true → Moves k op (some d.state) (some (f d).state)) :
    Moves k op (w.stateOf k) ((w.updateRun k' cond f).stateOf k) := by
  cases stateOf_updateRun w k k' cond f with
  | inl h =>
    rw [h]
    exact .same op _
  | inr h =>
    obtain ⟨hk, d, hcond, hd, hafter⟩ := h
    rw [hd, hafter]
    exact hf d hk hcond

theorem moves_effect (env : Env) (op : Now) (w : World) (k : Key) :
    Moves k op (w.stateOf k) ((op.effect env w).2.stateOf k) := by
  cases op with
  | heartbeatRun k' | recordLabelValidation k' | appendItemResult k' =>
    exact moves_updateRun k' fun d _ _ => .same _ _
  | claimStaleRun k' now owner =>
    refine moves_updateRun k' ?_
    rintro d rfl _
    exact .claim now owner d.state
  | interruptClaimedRun k' owner =>
    refine moves_updateRun k' ?_
    rintro d rfl hcond
    exact .interrupt owner d.state (of_decide_eq_true (Bool.and_eq_true_iff.mp hcond).1)
  | finishRun k' status results error =>
    refine moves_updateRun k' ?_
    rintro d rfl _
    exact .finish status results error d.state
  | createRun tenant owner mode pipeline matchMode benchmarkId =>
    show Moves k _ _ ((World.insertRun w _ _).stateOf k)
    unfold World.insertRun
    split
    · exact .same _ _
    · next habsent =>
      unfold World.stateOf
      by_cases hk : k = ⟨tenant, env.newId w.drawn⟩
      · subst hk
        rw [AList.lookup_insert, Option.not_isSome_iff_eq_none.mp habsent]
        exact .create tenant owner mode pipeline matchMode benchmarkId
      · rw [AList.lookup_insert_ne hk]
        exact .same _ _
  | _ => exact .same _ _

/-- A call returns what it does, or it fails and was performed or not. -/
theorem serve_cases (env : Env) (op : Now) (w : World) :
    (∃ a, (serve env op w).1 = .ok a ∧ a = (op.effect env w).1 ∧
      (serve env op w).2.runs = (op.effect env w).2.runs) ∨
    ∃ f e, env.fault w.tick op = some f ∧ (serve env op w).1 = .error e ∧
      (serve env op w).2.runs = (if f.applied then (op.effect env w).2 else w).runs := by
  unfold serve
  split
  · cases hfault : env.fault w.tick op with
    | none => exact .inl ⟨_, rfl, rfl, rfl⟩
    | some f => exact .inr ⟨f, _, rfl, rfl, rfl⟩
  · exact .inl ⟨_, rfl, rfl, rfl⟩

theorem stateOf_of_runs {w w' : World} (h : w'.runs = w.runs) (k : Key) :
    w'.stateOf k = w.stateOf k := by rw [World.stateOf, h, World.stateOf]

theorem moves_serve (env : Env) (op : Now) (w : World) (k : Key) :
    Moves k op (w.stateOf k) ((serve env op w).2.stateOf k) := by
  rcases serve_cases env op w with ⟨_, _, _, h⟩ | ⟨f, _, _, _, h⟩
  · rw [stateOf_of_runs h]
    exact moves_effect env op w k
  · rw [stateOf_of_runs h]
    split
    · exact moves_effect env op w k
    · exact .same op _

end Effects

/-! ## What a thread may do to a run -/

/-- A thread may close a run that it opened, until a closing write has returned, and interrupt one
that it claimed. -/
structure Rights where
  close : Bool
  interrupt : Bool

def Rights.after (k : Key) (m : Rights) : (op : Now) → Except Err op.Reply → Rights
  | .createRun tenant _ _ _ _ _, .ok id =>
    { m with close := m.close || decide ((⟨tenant, id⟩ : Key) = k) }
  | .finishRun k' _ _ _, .ok _ => { m with close := m.close && decide (k' ≠ k) }
  | .claimStaleRun k' _ _, .ok claimed =>
    { m with interrupt := m.interrupt || decide (k' = k) && claimed }
  | _, _ => m

def rightsMonitor (k : Key) : Monitor (iface.main Row) Rights where
  allow m
    | .now (.finishRun k' _ _ _) => k' = k → m.close = true
    | .now (.interruptClaimedRun k' _) => k' = k → m.interrupt = true
    | _ => True
  next m op r :=
    match op, r with
    | .now op, r => m.after k op r
    | _, _ => m

section Programs

variable {k : Key} {m : Rights} (cfg : Config) {onItemCompleted : Row → ItemM Unit}

/-- The operation neither opens nor claims a run nor closes one. -/
def Now.spares : Now → Bool
  | .createRun .. => false
  | .finishRun .. => false
  | .claimStaleRun .. => false
  | .interruptClaimedRun .. => false
  | _ => true

theorem Now.spares_of_ofItem {op : Now} (hop : op.ofItem = true) : op.spares = true := by
  cases op with
  | createRun | finishRun | claimStaleRun | interruptClaimedRun => cases hop
  | _ => rfl

theorem rights_of_spares {op : Now} (hop : op.spares = true) :
    (rightsMonitor k).allow m (.now op) ∧ ∀ r, m.after k op r = m := by
  cases op with
  | createRun | finishRun | claimStaleRun | interruptClaimedRun => cases hop
  | _ => exact ⟨trivial, fun r => rfl⟩

theorem now_still {op : Now} (hop : op.spares = true) :
    Still (rightsMonitor k).logic m (MainM.now op) fun _ => True := by
  obtain ⟨hallow, hafter⟩ := rights_of_spares (k := k) (m := m) hop
  exact fun l => ⟨⟨hallow, fun r => ⟨⟨rfl, hafter r⟩, fun _ _ => trivial⟩⟩⟩

theorem embed_accepted {β : Type} {p : Prog iface.child β} {Q : β → Prop → Prop}
    {cancelled : Prop}
    (hp : p.wp (obedient fun op => Now.ofItem op = true).logic Q cancelled) :
    (Coroutine.embed p : Prog (iface.main Row) β).wp (rightsMonitor k).logic (fun _ _ => True)
      m := by
  induction p generalizing cancelled with
  | ret b => trivial
  | call op c ih =>
    cases op with
    | now op =>
      obtain ⟨hallow, hafter⟩ := rights_of_spares (k := k) (m := m)
        (Now.spares_of_ofItem hp.1.2)
      refine ⟨hallow, ?_⟩
      intro r
      show Prog.wp _ _ _ (m.after k op r)
      rw [hafter r]
      exact ih r (hp.2 r)
    | later v => exact ⟨trivial, fun r => ih r (hp.2 r)⟩

theorem Callback.quietly (h : Callback onItemCompleted) (row : Row) :
    Quietly (onItemCompleted row) := by
  cases h with
  | none => exact .pure ()
  | phase b i => exact recordItem_quietly b i row

def Owns (k : Key) (x : RunSpec) (m : Rights) : Prop := x.run = k → m.close = true

/-- A closing write ends the right to close, unless it raises. -/
theorem finishRun_ends {x : RunSpec} (hm : Owns k x m) (status : RunStatus)
    (results : Option Results) (error : Option String) :
    Effect.Ends (rightsMonitor k).logic (MainM.now (.finishRun x.run status results error))
      (fun _ _ _ => True) (fun _ _ m => Owns k x m) () m := by
  refine ⟨⟨hm, ?_⟩⟩
  intro r
  cases r with
  | ok => trivial
  | error e => exact hm

theorem now_ends (op : Now) (hallow : (rightsMonitor k).allow m (.now op)) :
    Effect.Ends (rightsMonitor k).logic (MainM.now op) (fun a _ m' => m' = m.after k op (.ok a))
      (fun _ _ _ => True) () m := by
  refine ⟨⟨hallow, ?_⟩⟩
  intro r
  cases r with
  | ok => rfl
  | error e => trivial

theorem openRun_ends (caller : Caller) (items : List Item) (mode : Mode)
    (pipeline : Option Pipeline) (benchmarkId : Option String) :
    Effect.Ends (rightsMonitor k).logic (openRun cfg caller items mode pipeline benchmarkId)
      (fun x _ m => Owns k x m) (fun _ _ _ => True) () m := by
  unfold openRun
  split
  · exact ⟨trivial⟩
  · refine ⟨⟨trivial, ?_⟩⟩
    intro r
    cases r with
    | error e => trivial
    | ok id =>
      intro hrun
      show (m.close || decide ((⟨caller.tenant, id⟩ : Key) = k)) = true
      rw [decide_eq_true hrun, Bool.or_true]

theorem scoreItems_ends {x : RunSpec} (hm : Owns k x m) :
    Effect.Ends (rightsMonitor k).logic (scoreItems cfg x onItemCompleted)
      (fun _ _ _ => True) (fun _ _ m => Owns k x m) () m := by
  have hstill {α β : Type} {p : MainM α} {f : α → MainM β}
      (hp : Still (rightsMonitor k).logic m p fun _ => True)
      (hf : ∀ a, Effect.Ends (rightsMonitor k).logic (f a) (fun _ _ _ => True)
        (fun _ _ m => Owns k x m) () m) :
      Effect.Ends (rightsMonitor k).logic (p >>= f) (fun _ _ _ => True)
        (fun _ _ m => Owns k x m) () m := by
    have hsame : Effect.Ends (rightsMonitor k).logic p (fun _ _ m' => m' = m)
        (fun _ _ m' => Owns k x m') () m :=
      (hp ()).ends (fun _ _ _ h _ => h.2) (fun _ _ _ h => h.2 ▸ hm)
    refine hsame.bind ?_
    rintro a ⟨⟩ _ rfl
    exact hf a
  have hawait {v : Later} : Still (rightsMonitor k).logic m (MainM.await v) fun _ => True :=
    fun l => ⟨⟨trivial, fun r => ⟨⟨rfl, rfl⟩, fun _ _ => trivial⟩⟩⟩
  refine hstill (validateLabels_still cfg (fun _ _ => hawait) _ _) ?_
  intro report
  refine hstill (now_still rfl) ?_
  intro _
  split
  · exact (finishRun_ends hm _ _ _).bind fun _ _ _ _ => .pure trivial
  · refine hstill (fun l => ⟨⟨trivial, fun r => ⟨⟨rfl, rfl⟩, fun _ _ => trivial⟩⟩⟩) ?_
    intro rows
    exact (finishRun_ends hm _ _ _).bind fun _ _ _ _ => .pure trivial

theorem startRun_accepted (caller : Caller) (items : List Item) (mode : Mode)
    (pipeline : Option Pipeline) (benchmarkId : Option String) :
    Effect.Ends (rightsMonitor k).logic
      (startRun cfg caller items mode pipeline benchmarkId onItemCompleted)
      (fun _ _ _ => True) (fun _ _ _ => True) () m := by
  refine (openRun_ends cfg caller items mode pipeline benchmarkId).bind ?_
  intro x _ m hm
  have hclose (e : Err) (m : Rights) (hm : Owns k x m) : Effect.Ends (rightsMonitor k).logic
      (closeRun x e) (fun _ _ _ => True) (fun _ _ _ => True) () m := by
    have hfinish (error : Option String) := (finishRun_ends hm .failed none error).mono
      (fun _ _ _ _ => trivial) (fun _ _ _ _ => trivial)
    unfold closeRun
    split
    · exact (hfinish _).bind fun _ _ _ _ => ⟨trivial⟩
    · exact (hfinish _).bind fun _ _ _ _ => .pure trivial
  refine (now_ends (.heartbeatRun x.run x.owner) trivial).bind ?_
  rintro _ _ _ rfl
  exact (scoreItems_ends cfg hm).handle fun e _ m hm => hclose e m hm

/-- A recovery interrupts a run only after its own claim of it returned. -/
theorem recoverRows_accepted (owner : String) (rows : List (Key × RunDoc)) :
    ∀ m, Effect.Ends (rightsMonitor k).logic (recoverRows owner rows) (fun _ _ _ => True)
      (fun _ _ _ => True) () m := by
  induction rows with
  | nil => exact fun m => .pure trivial
  | cons row rest ih =>
    intro m
    obtain ⟨run, doc⟩ := row
    refine (now_ends .time trivial).bind ?_
    intro now _ m _
    split
    · exact ih m
    · refine (now_ends (.claimStaleRun run now owner) trivial).bind ?_
      intro (claimed : Bool) _ m' hm'
      split
      · exact ih m'
      · next hclaimed =>
        have hallow : (rightsMonitor k).allow m' (.now (.interruptClaimedRun run owner)) := by
          intro hk
          have htrue : claimed = true := by
            cases claimed with
            | true => rfl
            | false => exact absurd rfl hclaimed
          rw [hm', htrue]
          show (m.interrupt || decide (run = k) && true) = true
          rw [decide_eq_true hk, Bool.true_and, Bool.or_true]
        refine (now_ends _ hallow).bind ?_
        intro closed _ m'' _
        exact (ih m'').bind fun _ _ _ _ => .pure trivial

theorem thread_accepted {α : Type} {p : MainM α}
    (hp : Effect.Ends (rightsMonitor k).logic p (fun _ _ _ => True) (fun _ _ _ => True) () m) :
    (thread p).wp (rightsMonitor k).logic (fun _ _ => True) m :=
  (Prog.wp_bind _ _ _ _).mpr (Prog.wp_mono (fun _ _ _ => trivial) _ _ hp.wp)

theorem Starts.accepted {cfg : Config} {p : Prog (iface.main Row) Unit} (hp : Starts cfg p)
    (k : Key) : p.wp (rightsMonitor k).logic (fun _ _ => True) ⟨false, false⟩ := by
  cases hp with
  | worker => exact thread_accepted (startRun_accepted cfg _ _ _ _ _)
  | recovery owner =>
    refine thread_accepted ?_
    refine (now_ends .runningRuns trivial).bind ?_
    intro rows _ m _
    exact recoverRows_accepted owner rows m
  | item x onItemCompleted h unscorable item =>
    have hquiet := scoreItem_quietly x (fun row => h.quietly row) unscorable item
    exact embed_accepted ((Prog.wp_bind _ _ (fun _ _ => True) False).mpr
      (Prog.wp_mono (fun _ _ _ => trivial) _ _ (hquiet.wp False id)))

end Programs

/-! ## Runs close once -/

section Steps

variable {k : Key} {w : World} {t t' : Option RunState} {ms : List Rights} {m : Rights} {i : Nat}
  {op : Now} {e : Surroundings} {env : Env} {holder : Option Nat}

def isClaimed (t : Option RunState) : Bool := t.any RunState.claimed

def isClosable (t : Option RunState) : Bool :=
  t.any fun d => d.claimed || decide (d.status = .running)

/-- Thread `i` may close the run only if it holds it, and then the run is running or a recovery
claimed it; it may interrupt the run only if that was claimed. -/
structure Rightful (t : Option RunState) (holder : Option Nat) (i : Nat) (m : Rights) : Prop where
  close : m.close = true → holder = some i ∧ isClosable t = true
  interrupt : m.interrupt = true → isClaimed t = true

/-- At most one thread may close the run. -/
def Secured (k : Key) (w : World) (ms : List Rights) : Prop :=
  ∃ holder, ∀ (i : Nat) (m : Rights), ms[i]? = some m → Rightful (w.stateOf k) holder i m

theorem rightful_none (t : Option RunState) : Rightful t holder i ⟨false, false⟩ :=
  ⟨(fun hclose => by cases hclose), fun hinterrupt => by cases hinterrupt⟩

theorem Secured.spawn (h : Secured k w ms) : Secured k w (ms ++ [⟨false, false⟩]) := by
  obtain ⟨holder, h⟩ := h
  refine ⟨holder, ?_⟩
  intro i m hm
  rcases Sequence.getElem?_append_cases hm with hm | ⟨-, rfl⟩
  · exact h i m hm
  · exact rightful_none _

theorem Moves.isClaimed (h : Moves k op t t') (ht : isClaimed t = true) : isClaimed t' = true := by
  cases h with
  | same | finish | interrupt => exact ht
  | claim => rfl
  | create => cases ht

/-- What a thread may do stays right while the run moves on. -/
theorem Rightful.moved (h : Rightful t holder i m) (hmoves : Moves k op t t')
    (hfinish : ∀ status results error, op = .finishRun k status results error → m.close = false)
    (hclaimed : ∀ owner, op = .interruptClaimedRun k owner → isClaimed t = true) :
    Rightful t' holder i m := by
  refine ⟨?_, fun hinterrupt => hmoves.isClaimed (h.interrupt hinterrupt)⟩
  intro hclose
  obtain ⟨hholder, hclosable⟩ := h.close hclose
  refine ⟨hholder, ?_⟩
  cases hmoves with
  | same => exact hclosable
  | finish status results error =>
    rw [hfinish status results error rfl] at hclose
    cases hclose
  | interrupt owner => exact Bool.or_eq_true_iff.mpr (.inl (hclaimed owner rfl))
  | claim => rfl
  | create => cases hclosable

theorem Rightful.less {m' : Rights} (h : Rightful t holder i m)
    (hclose : m'.close = true → m.close = true)
    (hinterrupt : m'.interrupt = true → m.interrupt = true ∨ isClaimed t = true) :
    Rightful t holder i m' :=
  ⟨fun hm' => h.close (hclose hm'), fun hm' => (hinterrupt hm').elim h.interrupt id⟩

/-- Of a run that is not there nobody has a right. -/
theorem Rightful.eq_none (h : Rightful none holder i m) : m = ⟨false, false⟩ := by
  obtain ⟨close, interrupt⟩ := m
  cases close with
  | true => cases (h.close rfl).2
  | false =>
    cases interrupt with
    | true => cases h.interrupt rfl
    | false => rfl

theorem stateOf_createRun (env : Env) (tenant owner : String) (mode : Mode)
    (pipeline : Option Pipeline) (matchMode : MatchMode) (benchmarkId : Option String)
    (habsent : (w.runs.lookup ⟨tenant, env.newId w.drawn⟩).isNone = true) :
    ((Now.createRun tenant owner mode pipeline matchMode benchmarkId).effect env w).2.stateOf
      ⟨tenant, env.newId w.drawn⟩ = some ⟨.running, none, false⟩ := by
  show (World.insertRun w _ _).stateOf _ = _
  unfold World.insertRun World.stateOf
  rw [if_neg (by simpa using habsent), AList.lookup_insert]
  rfl

theorem isClaimed_claimStaleRun (env : Env) (now : Nat) (owner : String)
    (hmatch : w.matchesRun k (isStale now) = true) :
    isClaimed (((Now.claimStaleRun k now owner).effect env w).2.stateOf k) = true := by
  obtain ⟨d, hd⟩ := Option.isSome_iff_exists.mp hmatch
  show isClaimed (((w.runs.update _ k _).lookup k).map RunDoc.state) = true
  rw [Table.lookup_update_self hd]
  rfl

theorem Rights.after_error (op : Now) (err : Err) : m.after k op (.error err) = m := by
  cases op <;> rfl

/-- What the thread that performs an operation may do afterwards.  The run gets a new holder only
when it is created. -/
theorem Rightful.served (hclean : env.ClosesRunsCleanly) (h : Rightful (w.stateOf k) holder i m)
    (hallow : (rightsMonitor k).allow m (.now op)) (hguard : inTime env w (.now op) = true) :
    ∃ holder', (holder' = holder ∨ w.stateOf k = none) ∧
      Rightful ((serve env op w).2.stateOf k) holder' i (m.after k op (serve env op w).1) := by
  have hmoves := moves_serve env op w k
  have hclaimed : ∀ owner, op = .interruptClaimedRun k owner → isClaimed (w.stateOf k) = true := by
    rintro owner rfl
    exact h.interrupt (hallow rfl)
  rcases serve_cases env op w with ⟨a, hr, ha, hruns⟩ | ⟨f, err, hf, hr, hruns⟩
  · have hstate := stateOf_of_runs hruns k
    rw [hr]
    cases op with
    | finishRun k' status results error =>
      have hless : Rightful (w.stateOf k) holder i
          { m with close := m.close && decide (k' ≠ k) } :=
        h.less (fun hclose => (Bool.and_eq_true_iff.mp hclose).1) .inl
      refine ⟨holder, .inl rfl, hless.moved hmoves ?_ hclaimed⟩
      intro _ _ _ heq
      injection heq with hk
      simp [hk]
    | createRun tenant owner mode pipeline matchMode benchmarkId =>
      rw [ha]
      by_cases hk : (⟨tenant, env.newId w.drawn⟩ : Key) = k
      · subst hk
        have habsent : w.stateOf ⟨tenant, env.newId w.drawn⟩ = none :=
          congrArg (Option.map RunDoc.state) (Option.isNone_iff_eq_none.mp hguard)
        refine ⟨some i, .inr habsent, ?_, fun hright => hmoves.isClaimed (h.interrupt hright)⟩
        rw [hstate, stateOf_createRun env _ _ _ _ _ _ hguard]
        exact fun _ => ⟨rfl, rfl⟩
      · refine ⟨holder, .inl rfl, ?_⟩
        refine (h.moved hmoves (fun _ _ _ heq => by cases heq) hclaimed).less ?_ .inl
        intro hclose
        simpa [Rights.after, Now.effect, hk] using hclose
    | claimStaleRun k' now owner =>
      refine ⟨holder, .inl rfl, ?_⟩
      refine (h.moved hmoves (fun _ _ _ heq => by cases heq) hclaimed).less id ?_
      intro hright
      rcases Bool.or_eq_true_iff.mp hright with hright | hgained
      · exact .inl hright
      · obtain ⟨hk, hmatch⟩ := Bool.and_eq_true_iff.mp hgained
        obtain rfl := of_decide_eq_true hk
        rw [hstate]
        exact .inr (isClaimed_claimStaleRun env now owner (ha.symm.trans hmatch))
    | _ => exact ⟨holder, .inl rfl, h.moved hmoves (fun _ _ _ heq => by cases heq) hclaimed⟩
  · rw [hr]
    refine ⟨holder, .inl rfl, ?_⟩
    have hafter : m.after k op (.error err) = m := Rights.after_error op err
    refine (congrArg (Rightful _ holder i) hafter).mpr ?_
    by_cases hfinish : ∃ status results error, op = .finishRun k status results error
    · obtain ⟨status, results, error, rfl⟩ := hfinish
      rw [hclean _ _ _ _ _ _ hf] at hruns
      rw [stateOf_of_runs hruns]
      exact h
    · exact h.moved hmoves (fun _ _ _ heq => absurd ⟨_, _, _, heq⟩ hfinish) hclaimed

theorem Secured.serve (hclean : env.ClosesRunsCleanly) (h : Secured k w ms) (hm : ms[i]? = some m)
    (hallow : (rightsMonitor k).allow m (.now op)) (hguard : inTime env w (.now op) = true) :
    Secured k (Eval.serve env op w).2 (ms.set i (m.after k op (Eval.serve env op w).1)) := by
  obtain ⟨holder, h⟩ := h
  obtain ⟨holder', hholder, hmine⟩ := (h i m hm).served hclean hallow hguard
  refine ⟨holder', ?_⟩
  intro j n hn
  rcases Sequence.getElem?_set_cases hn with ⟨rfl, rfl⟩ | ⟨hji, hj⟩
  · exact hmine
  · have hright := h j n hj
    rcases hholder with rfl | hnone
    · refine hright.moved (moves_serve env op w k) ?_ ?_
      · rintro status results error rfl
        refine Bool.eq_false_iff.mpr ?_
        intro hclose
        have hi := ((h i m hm).close (hallow rfl)).1
        exact hji (Option.some.inj ((hright.close hclose).1.symm.trans hi))
      · rintro owner rfl
        exact (h i m hm).interrupt (hallow rfl)
    · rw [hnone] at hright
      rw [hright.eq_none]
      exact rightful_none _

/-- The one thread that may close a closed run would do so after a recovery claimed it, which it
does not. -/
theorem Secured.outcomeOf_serve (h : Secured k w ms) (hm : ms[i]? = some m)
    (hallow : (rightsMonitor k).allow m (.now op)) (hguard : inTime env w (.now op) = true)
    {st : RunStatus} {res : Option Results} (hclosed : w.outcomeOf k = some (st, res))
    (hterminal : st.terminal = true) :
    (Eval.serve env op w).2.outcomeOf k = some (st, res) := by
  obtain ⟨d, hd, heq⟩ := Option.map_eq_some_iff.mp hclosed
  obtain ⟨doc, hdoc, rfl⟩ := Option.map_eq_some_iff.mp hd
  cases heq
  have hnot : doc.status ≠ .running := of_decide_eq_true hterminal
  have hmoves := moves_serve env op w k
  rw [hd] at hmoves
  unfold World.outcomeOf
  generalize (Eval.serve env op w).2.stateOf k = after at hmoves
  cases hmoves with
  | same | claim => rfl
  | interrupt owner _ hrunning => exact absurd hrunning hnot
  | finish status results error =>
    obtain ⟨holder, h⟩ := h
    have hclosable := ((h i m hm).close (hallow rfl)).2
    have hunclaimed : (w.runs.lookup k).all (fun d => d.recovery.isNone) = true := hguard
    rw [hdoc] at hunclaimed
    rw [hd] at hclosable
    simp [isClosable, RunDoc.state, hnot, Option.isNone_iff_eq_none.mp hunclaimed] at hclosable

/-- A step of a thread, after any time has passed. -/
theorem Secured.step (hclean : e.env.ClosesRunsCleanly) {op : MainOp iface Row}
    (h : Secured k w ms) (hm : ms[i]? = some m) (hallow : (rightsMonitor k).allow m op)
    (hguard : inTime e.env w op = true) :
    Secured k (instances e op w).2 (ms.set i ((rightsMonitor k).next m op (instances e op w).1)) ∧
      ∀ st res, w.outcomeOf k = some (st, res) → st.terminal = true →
        (instances e op w).2.outcomeOf k = some (st, res) := by
  have hwait : Secured k (w.wait (e.elapsed w.tick)) ms := h
  cases op with
  | now op =>
    have hguard : inTime e.env (w.wait (e.elapsed w.tick)) (.now op) = true := by
      cases op <;> exact hguard
    exact ⟨hwait.serve hclean hm hallow hguard, fun st res hclosed hterminal =>
      hwait.outcomeOf_serve hm hallow hguard hclosed hterminal⟩
  | later | gather =>
    have hset : ms.set i m = ms := by
      obtain ⟨hlt, rfl⟩ := List.getElem?_eq_some_iff.mp hm
      exact List.set_getElem_self hlt
    refine ⟨?_, fun _ _ hclosed _ => hclosed⟩
    show Secured k (w.wait _).tock (ms.set i m)
    rw [hset]
    exact h

end Steps

/-- A run that was interrupted by a recovery, or completed or failed by its worker, keeps its status
and its results, whatever workers, items and recoveries do from then on, as long as no worker closes
a run that a recovery has claimed and no closing write fails after it took effect. -/
theorem closed_run_is_final (cfg : Config) (e : Surroundings) (hclean : e.env.ClosesRunsCleanly)
    (s₀ : World) {P P' : Pool (iface.main Row) Unit World} (k : Key) {st : RunStatus}
    {res : Option Results}
    (hP : Pool.Reachable (instances e) (Starts cfg) (fun w op => inTime e.env w op = true) s₀ P)
    (hclosed : P.state.outcomeOf k = some (st, res)) (hterminal : st.terminal = true)
    (hrest : Relation.ReflTransGen
      (Pool.Step (instances e) (Starts cfg) fun w op => inTime e.env w op = true) P P') :
    P'.state.outcomeOf k = some (st, res) := by
  have hprog : ∀ p, Starts cfg p → ∃ m : Rights, m = ⟨false, false⟩ ∧
      p.wp (rightsMonitor k).logic (fun _ _ => True) m := fun p hp => ⟨_, rfl, hp.accepted k⟩
  have hempty : Secured k s₀ [] := ⟨none, fun i m hm => by simp at hm⟩
  obtain ⟨ms, hms, hfollowed⟩ := Pool.steps_monitored (rightsMonitor k) hprog
    (J := fun w _ ms => Secured k w ms) (fun _ _ _ m h hm => hm ▸ h.spawn)
    (fun _ _ _ _ _ _ h hm hallow hguard => (h.step hclean hm hallow hguard).1)
    (Pool.reachable_iff.mp hP) hempty (Pool.followed_initial s₀)
  obtain ⟨_, hkept, _⟩ := Pool.steps_monitored (rightsMonitor k) hprog
    (J := fun w _ ms => Secured k w ms ∧ w.outcomeOf k = some (st, res))
    (fun _ _ _ m h hm => ⟨hm ▸ h.1.spawn, h.2⟩)
    (fun _ _ _ _ _ _ h hm hallow hguard =>
      have hstep := h.1.step hclean hm hallow hguard
      ⟨hstep.1, hstep.2 st res h.2 hterminal⟩)
    hrest ⟨hms, hclosed⟩ hfollowed
  exact hkept.2

/-! ## A run of one item -/

def demoRun : RunSpec where
  run := ⟨"tenant", "run"⟩
  owner := "worker"
  items := [plainItem "a"]
  matchMode := .chunk
  mode := .retrieval
  pipelineMode := none

def emptyStore : World := ⟨∅, ∅, fun _ => [], 0, 0, 0⟩

def demoRow : Row :=
  Attempt.row .chunk ⟨plainItem "a", false, .ok (.retrieved ["a"])⟩

def demoSurroundings (late : Nat) : Surroundings where
  env := ⟨fun _ _ => none, fun _ => "run", 60⟩
  answer _
    | .snapshot _ => .ok (.obj [])
    | .verifyLabelIds _ _ => .ok ⟨⟨[], [], []⟩, ⟨[], [], []⟩⟩
    | .acquire => .ok ()
    | .retrieve query => .ok [query]
    | .runGraph _ _ => .error (.failure "RuntimeError" "no graph")
  gathered _ := .ok [demoRow]
  elapsed n := if n = late then 100 else 0

def unlabelledConfig : Config := ⟨false, "fail", 50, false⟩

def workerThread : Prog (iface.main Row) Unit :=
  thread (startRun unlabelledConfig ⟨"tenant", true, "worker"⟩ [plainItem "a"] .retrieval none none
    fun _ => pure ())

def firstItemThread : Prog (iface.main Row) Unit :=
  itemThread (scoreItem demoRun (fun _ => pure ()) false (plainItem "a"))

def recoveryThread : Prog (iface.main Row) Unit := thread (recoverStaleRuns "other")

theorem demo_starts (p : Prog (iface.main Row) Unit)
    (hp : p ∈ [workerThread, firstItemThread, recoveryThread]) : Starts unlabelledConfig p := by
  simp only [List.mem_cons, List.not_mem_nil, or_false] at hp
  obtain rfl | rfl | rfl := hp
  · exact .worker _ _ _ _ _ _ .none
  · exact .item demoRun _ .none false _
  · exact .recovery "other"

theorem acts_start {p : Prog (iface.main Row) Unit} {acts : List Nat}
    (hp : Pool.Choice.spawn p ∈ acts.map (Pool.Choice.act (S := iface.main Row))) :
    Starts unlabelledConfig p := by
  obtain ⟨i, -, hi⟩ := List.mem_map.mp hp
  cases hi

def takingTurns (acts : List Nat) : List (Pool.Choice (iface.main Row) Unit) :=
  [workerThread, firstItemThread, recoveryThread].map .spawn ++ acts.map .act

theorem takingTurns_start {p : Prog (iface.main Row) Unit} {acts : List Nat}
    (hp : Pool.Choice.spawn p ∈ takingTurns acts) : Starts unlabelledConfig p := by
  cases List.mem_append.mp hp with
  | inl hspawn =>
    obtain ⟨q, hq, heq⟩ := List.mem_map.mp hspawn
    injection heq with heq
    rw [← heq]
    exact demo_starts q hq
  | inr hact => exact acts_start hact

def afterTurns (late : Nat) (acts more : List Nat) : Pool (iface.main Row) Unit World :=
  Pool.exec (instances (demoSurroundings late)) (more.map .act)
    (Pool.exec (instances (demoSurroundings late)) (takingTurns acts) (.initial emptyStore))

/-- The worker closes its run, and a recovery that had read it as running leaves it alone. -/
theorem closed_run_is_final_completed :
    ∃ P P' : Pool (iface.main Row) Unit World,
      P.state.outcomeOf demoRun.run = some (.completed, some (aggregate [demoRow])) ∧
      P'.trace.length = P.trace.length + 2 ∧
      P'.state.outcomeOf demoRun.run = some (.completed, some (aggregate [demoRow])) := by
  have hclosed : (afterTurns 8 [0, 0, 0, 1, 1, 1, 1, 2, 0, 0] []).state.outcomeOf demoRun.run =
      some (.completed, some (aggregate [demoRow])) := by decide +kernel
  have hP : Pool.Reachable (instances (demoSurroundings 8)) (Starts unlabelledConfig)
      (fun w op => inTime (demoSurroundings 8).env w op = true) emptyStore
      (afterTurns 8 [0, 0, 0, 1, 1, 1, 1, 2, 0, 0] []) :=
    Pool.reachable_exec (takingTurns _) (fun p hp => takingTurns_start hp) (by decide +kernel)
      .initial
  have hrest : Relation.ReflTransGen (Pool.Step (instances (demoSurroundings 8))
      (Starts unlabelledConfig) fun w op => inTime (demoSurroundings 8).env w op = true)
      (afterTurns 8 [0, 0, 0, 1, 1, 1, 1, 2, 0, 0] [])
      (afterTurns 8 [0, 0, 0, 1, 1, 1, 1, 2, 0, 0] [2, 2]) :=
    Pool.steps_exec _ (fun p hp => acts_start hp) (by decide +kernel)
  exact ⟨_, _, hclosed, by decide +kernel, closed_run_is_final unlabelledConfig _
    (fun _ _ _ _ _ _ hf => by cases hf) emptyStore demoRun.run hP hclosed rfl hrest⟩

/-- The lease runs out while an item executes, a recovery interrupts the run, and the worker then
completes it. -/
theorem interrupted_run_is_completed :
    ∃ P P' : Pool (iface.main Row) Unit World,
      Pool.Reachable (instances (demoSurroundings 4)) (Starts unlabelledConfig) (fun _ _ => True)
        emptyStore P ∧
      P.state.outcomeOf demoRun.run = some (.interrupted, none) ∧
      Relation.ReflTransGen (Pool.Step (instances (demoSurroundings 4)) (Starts unlabelledConfig)
        fun _ _ => True) P P' ∧
      P'.state.outcomeOf demoRun.run = some (.completed, some (aggregate [demoRow])) := by
  refine ⟨afterTurns 4 [0, 0, 0, 1, 2, 2, 2, 2] [],
    afterTurns 4 [0, 0, 0, 1, 2, 2, 2, 2] [1, 1, 1, 0, 0], ?_, by decide +kernel, ?_,
    by decide +kernel⟩
  · exact Pool.reachable_exec (takingTurns _) (fun p hp => takingTurns_start hp)
      (Pool.guarded_true _ _) .initial
  · exact Pool.steps_exec _ (fun p hp => acts_start hp) (Pool.guarded_true _ _)

end RagForge.Eval
