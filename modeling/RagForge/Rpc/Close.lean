import RagForge.Rpc.Permits

/-
What the RPC client holds after `close`.

`close` marks the client, clears the table and forgets the links at its end.  A closed client
registers nobody and stores nothing, with one exception: a setup that was under way looks at the
mark only before its first await, so it stores its connection or its channel when the await comes
back.
-/

namespace RagForge.Rpc

open JsonText (Object)
open Py (Dict)
open Sequence

variable {β ν : Type} {now : Int}

def Empty (s : State ν) : Prop :=
  s.connection = none ∧ s.channel = none ∧ s.exchange = false ∧ s.replyQueue = none ∧
    s.consumerTag = false

instance (s : State ν) : Decidable (Empty s) :=
  inferInstanceAs (Decidable (_ ∧ _ ∧ _ ∧ _ ∧ _))

def Phase.closes : Phase ν → Bool
  | .running | .closing _ => true
  | _ => false

/-- A task of `close` has not come to its end, or it has and the links are forgotten. -/
def Settled (s : State ν) (phase : Phase ν) : Prop :=
  phase.closes = true ∨ (phase.isDone = true ∧ (phase = .done .returned → Empty s))

/-- A client that is closed.  The tasks from the given one on are those that came with `close` or
after it. -/
structure Shut (first : Nat) (s : State ν) : Prop where
  closed : s.closed = true
  waiters : s.waiters = []
  settled : ∀ (i : Nat) t, first ≤ i → s.tasks[i]? = some t → t.job = .close → Settled s t.phase

/-- The await after which a connection is stored, or the channel and what was declared on it. -/
def Phase.stores : Phase ν → Bool
  | .setup .connecting | .setup .consume => true
  | _ => false

/-- A step that stores something. -/
def State.installs (s : State ν) : Event ν → Bool
  | .signal i (.back _) => s.tasks[i]?.any fun t => t.phase.stores
  | _ => false

/-- The request has no waiter yet: it is at the semaphore or in its setup. -/
def Phase.unregistered : Phase ν → Bool
  | .acquiring | .running | .setup _ => true
  | _ => false

def State.allRegistered (s : State ν) : Bool :=
  s.tasks.all fun t => !(t.job.isRequest && t.phase.unregistered)

variable {c : Settings β ν} {s s' : State ν} {first i : Nat} {t : Task ν} {phase : Phase ν}

section Shut

variable {t' : Task ν}

theorem Settled.mono (h : Settled s phase) (hempty : Empty s → Empty s') : Settled s' phase := by
  rcases h with h | ⟨hdone, hret⟩
  · exact .inl h
  · exact .inr ⟨hdone, fun heq => hempty (hret heq)⟩

theorem popWaiter_of_nil (hw : s.waiters = []) : popWaiter s i t = s := by
  unfold popWaiter
  split
  · rw [hw]
    rfl
  · rfl

section

variable (h : Shut first s) (hget : s.tasks[i]? = some t)

include h hget

theorem Shut.put (hjob : t'.job = t.job) (hclosed : s'.closed = s.closed)
    (hwaiters : s'.waiters = s.waiters) (htasks : s'.tasks = s.tasks)
    (hempty : Empty s → Empty s') (hphase : first ≤ i → t.job = .close → Settled s' t'.phase) :
    Shut first (s'.put i t') where
  closed := hclosed.trans h.closed
  waiters := hwaiters.trans h.waiters
  settled := by
    intro j u hj hu hclose
    change (s'.tasks.set i t')[j]? = some u at hu
    rw [htasks] at hu
    rcases getElem?_set_cases hu with ⟨rfl, rfl⟩ | ⟨-, hu⟩
    · exact hphase hj (hjob.symm.trans hclose)
    · exact (h.settled j u hj hu hclose).mono hempty

theorem Shut.not_close (hphase : t.phase = phase)
    (hcloses : phase.closes = false) (hdone : phase.isDone = false) (hfirst : first ≤ i) :
    t.job ≠ .close := by
  intro hclose
  rw [← hphase] at hcloses hdone
  rcases h.settled i t hfirst hget hclose with hs | ⟨hs, -⟩
  · rw [hcloses] at hs
    cases hs
  · rw [hdone] at hs
    cases hs

theorem Shut.go {s₁ : State ν} (hjob : t'.job = t.job) (hnot : first ≤ i → t.job ≠ .close)
    (hclosed : s₁.closed = s.closed) (hwaiters : s₁.waiters = s.waiters)
    (htasks : s₁.tasks = s.tasks) (hempty : Empty s → Empty s₁) : Shut first (s₁.put i t') := by
  apply h.put hget hjob hclosed hwaiters htasks hempty
  intro hfirst hclose
  exact absurd hclose (hnot hfirst)

section

variable (hnot : first ≤ i → t.job ≠ .close) {o : Outcome ν}

include hnot

theorem shut_finish : Shut first (finish s i t o) := by
  have hrelease : Shut first (release s i (cancelFuture t) o) :=
    h.go hget rfl hnot rfl rfl rfl id
  unfold finish
  rw [popWaiter_of_nil h.waiters]
  dsimp only
  split
  · exact hrelease
  · exact hrelease
  · exact h.go hget rfl hnot rfl rfl rfl id

theorem shut_leave : Shut first (leave s i t o) := by
  unfold leave
  split
  · exact shut_finish h hget hnot
  · exact h.go hget rfl hnot rfl rfl rfl id

theorem shut_abandon : Shut first (abandon s i t o) := by
  have hunlocked : Shut first { s with lock := if s.lock = some i then none else s.lock } :=
    ⟨h.closed, h.waiters, fun j u hj hu hclose => (h.settled j u hj hu hclose).mono id⟩
  exact shut_leave hunlocked hget hnot

end

theorem shut_advance {name : String} {stage : Setup} (hphase : t.phase = .setup stage)
    (hstore : t.phase.stores = false)
    (hstep : advance c s i t now name stage = some s') : Shut first s' := by
  have hnot := h.not_close hget hphase rfl rfl
  rw [hphase] at hstore
  cases stage with
  | lock =>
    rw [advance] at hstep
    split at hstep
    · rw [← Option.some.inj hstep, locked, if_pos h.closed]
      exact shut_leave h hget hnot
    · cases hstep
  | connecting => cases hstore
  | channel | exchange | queue | bind =>
    cases hstep
    exact h.go hget rfl hnot rfl rfl rfl id
  | consume => cases hstore

/-! ## The end of `close` -/

variable {stage : Closing}

theorem shut_forget : Shut first (forget s i t) := by
  refine h.put hget rfl rfl rfl rfl ?_ ?_
  · intro _
    exact ⟨rfl, rfl, rfl, rfl, rfl⟩
  · intro _ _
    exact .inr ⟨rfl, fun _ => ⟨rfl, rfl, rfl, rfl, rfl⟩⟩

theorem shut_closing : Shut first (s.put i { t with phase := .closing stage }) := by
  refine h.put hget rfl rfl rfl rfl id ?_
  intro _ _
  exact .inl rfl

theorem shut_closeConnection : Shut first (closeConnection s i t) := by
  unfold closeConnection
  split
  · exact shut_closing h hget
  · exact shut_forget h hget

theorem shut_closeChannel : Shut first (closeChannel s i t) := by
  unfold closeChannel
  split
  · exact shut_closing h hget
  · exact shut_closeConnection h hget

theorem shut_cancelConsumer : Shut first (cancelConsumer s i t) := by
  unfold cancelConsumer
  split
  · exact shut_closing h hget
  · exact shut_closeChannel h hget

theorem shut_closeCancelled : Shut first (s.put i { t with phase := .done .cancelled }) := by
  refine h.put hget rfl rfl rfl rfl id ?_
  intro _ _
  exact .inr ⟨rfl, nofun⟩

theorem shut_advanceClose (hstep : advanceClose s i t stage = some s') : Shut first s' := by
  cases stage with
  | gathering streams cancelled =>
    rw [advanceClose] at hstep
    split at hstep
    · cases hstep
      split
      · exact shut_closeCancelled h hget
      · exact shut_cancelConsumer h hget
    · cases hstep
  | consumer =>
    cases hstep
    exact shut_closeChannel h hget
  | channel =>
    cases hstep
    exact shut_closeConnection h hget
  | connection =>
    cases hstep
    exact shut_forget h hget

/-! ## Signals -/

theorem Shut.not_close_of_waits (hwaits : t.phase.waits = true) : first ≤ i → t.job ≠ .close := by
  cases hphase : t.phase <;> rw [hphase] at hwaits <;>
    first | exact h.not_close hget hphase rfl rfl | cases hwaits

theorem Shut.same (hjob : t'.job = t.job) (hphase : t'.phase = t.phase) :
    Shut first (s.put i t') := by
  apply h.put hget hjob rfl rfl rfl id
  intro hfirst hclose
  rw [hphase]
  exact h.settled i t hfirst hget hclose

theorem shut_signal {what : Signal} (hstore : s.installs (.signal i what) = false)
    (hstep : signal c s i t now what = some s') : Shut first s' := by
  cases signal_moved hstep with
  | acquired hphase _ =>
    have hnot := h.not_close hget hphase rfl rfl
    have htake : Shut first ({ s with permits := s.permits - 1 }.put i
        { t with permit := true, phase := .running }) :=
      h.go hget rfl hnot rfl rfl rfl id
    rw [ensureResources, if_pos htake.closed]
    exact shut_leave htake (getElem?_set_of hget) hnot
  | advance hphase hadvance =>
    refine shut_advance h hget hphase ?_ hadvance
    rw [State.installs, hget] at hstore
    exact hstore
  | sent hphase =>
    have hnot := h.not_close hget hphase rfl rfl
    unfold sent
    split
    · exact h.go hget rfl hnot rfl rfl rfl id
    · exact h.go hget rfl hnot rfl rfl rfl id
  | advanceClose _ hclose => exact shut_advanceClose h hget hclose
  | abandon hphase _ =>
    exact shut_abandon h hget (h.not_close hget hphase rfl rfl)
  | leave hwaits _ => exact shut_leave h hget (h.not_close_of_waits hget hwaits)
  | finish hwaits _ _ => exact shut_finish h hget (h.not_close_of_waits hget hwaits)
  | wait hwaits _ _ => exact h.go hget rfl (h.not_close_of_waits hget hwaits) rfl rfl rfl id
  | release hphase | lose hphase | withdraw hphase | interrupt hphase =>
    have hnot := h.not_close hget hphase rfl rfl
    exact h.go hget rfl hnot rfl rfl rfl id
  | gather _ => exact shut_closing h hget
  | closeCancelled _ => exact shut_closeCancelled h hget
  | stream _ hjob hphase _ _ _ _ => exact h.same hget hjob hphase

end

theorem shut_spawn (h : Shut first s) (hphase : t.job = .close → t.phase.closes = true) :
    Shut first (spawn s t) where
  closed := h.closed
  waiters := h.waiters
  settled := by
    intro j u hj hu hclose
    rcases getElem?_append_cases hu with hu | ⟨-, rfl⟩
    · exact (h.settled j u hj hu hclose).mono id
    · exact .inl (hphase hclose)

theorem afterClose_place (j : Nat) (t : Task ν) :
    (afterClose s j t).job = t.job ∧ (afterClose s j t).phase = t.phase := by
  unfold afterClose failWaiter
  split
  · rw [cancelStream_eq]
    exact ⟨rfl, rfl⟩
  · exact ⟨rfl, rfl⟩

theorem shut_failAll (s : State ν) : Shut s.tasks.length (failAll s) where
  closed := rfl
  waiters := rfl
  settled := by
    intro j u hj hu _
    have hlt := (List.getElem?_eq_some_iff.mp hu).1
    rw [length_failAll] at hlt
    omega

theorem Shut.failAll (h : Shut first s) : Shut first (failAll s) where
  closed := rfl
  waiters := rfl
  settled := by
    intro j u hj hu hclose
    obtain ⟨t, ht, rfl⟩ := failAll_cases hu
    rw [(afterClose_place j t).1] at hclose
    rw [(afterClose_place j t).2]
    exact (h.settled j t hj ht hclose).mono id

theorem shut_beginClose (h : Shut first (failAll s)) : Shut first (beginClose s) := by
  have hspawn := shut_spawn (t := { job := .close, phase := .running }) h fun _ => rfl
  have hget := spawn_get? (failAll s) { job := .close, phase := .running }
  rw [length_failAll] at hget
  unfold beginClose
  dsimp only
  split
  · exact shut_cancelConsumer hspawn hget
  · exact shut_closing hspawn hget

theorem shut_start {job : Job ν} (h : Shut first s) (hjob : job ≠ .close) :
    Shut first (ensureResources c (spawn s { job := job, phase := .running }) s.tasks.length
      { job := job, phase := .running } now) := by
  have hspawn := shut_spawn (t := { job := job, phase := .running }) h fun _ => rfl
  rw [ensureResources, if_pos hspawn.closed]
  exact shut_leave hspawn (spawn_get? s _) fun _ => hjob

/-! ## Requests without a reply -/

/-- The request has failed: its future is done without a result, and it does not end with a
reply. -/
structure Failed (t : Task ν) : Prop where
  resolved : t.future.isPending = false
  unanswered : t.future.payload? = none
  raises : ∀ payload, t.phase.outcome? ≠ some (.reply payload)

/-- A request that has not come to its end and has no reply is in the table, so `close` fails it. -/
theorem afterClose_resolved (hs : s.Sound c) (hall : s.allRegistered = true)
    (hget : s.tasks[i]? = some t) (hreq : t.job.isRequest = true)
    (hopen : t.phase.outcome? = none) : (afterClose s i t).future.isPending = false := by
  refine afterClose_pending hs hget ?_
  have hphase : t.phase.unregistered = false := by
    have hthis := List.all_eq_true.mp hall t (List.mem_of_getElem? hget)
    simpa [hreq] using hthis
  have hother := (hs.fine i t hget).other
  rw [Task.waits, hreq, Bool.true_and]
  cases hp : t.phase with
  | acquiring | running | setup =>
    rw [hp] at hphase
    cases hphase
  | sending | awaiting | draining | stopping => rfl
  | finalizing | done =>
    rw [hp] at hopen
    cases hopen
  | closing =>
    rw [hp, hreq] at hother
    cases hother rfl

def returned (s : State ν) (i : Nat) : Bool :=
  match s.tasks[i]? with
  | some t =>
    match t.job, t.phase with
    | .close, .done .returned => true
    | _, _ => false
  | none => false

theorem Shut.empty_of_returned (h : Shut first s) (hfirst : first ≤ i)
    (hret : returned s i = true) : Empty s := by
  unfold returned at hret
  split at hret
  · next t hget =>
    split at hret
    · next hjob hphase =>
      rcases h.settled i t hfirst hget hjob with hs | ⟨-, hs⟩
      · rw [hphase] at hs
        cases hs
      · exact hs hphase
    · cases hret
  · cases hret

end Shut

/-! ## Runs -/

section Runs

variable [DecidableEq β]

/-- A closed client stays closed while no `connect` is made and no setup stores anything. -/
theorem step_shut {e : Event ν} (h : Shut first s) (hconnect : e ≠ .connect)
    (hstore : s.installs e = false) (hstep : step c s now e = some s') : Shut first s' := by
  cases e with
  | request call =>
    cases hstep
    exact shut_spawn h nofun
  | publish call =>
    cases hstep
    exact shut_start h nofun
  | connect => exact absurd rfl hconnect
  | close =>
    cases hstep
    exact shut_beginClose h.failAll
  | message m =>
    rw [← Option.some.inj hstep, onMessage]
    split
    · exact h
    · rw [h.waiters]
      exact h
  | connectionLost =>
    cases hstep
    refine ⟨h.closed, h.waiters, fun j u hj hu hclose => (h.settled j u hj hu hclose).mono ?_⟩
    intro he
    exact ⟨by rw [he.1]; rfl, he.2⟩
  | channelLost =>
    cases hstep
    refine ⟨h.closed, h.waiters, fun j u hj hu hclose => (h.settled j u hj hu hclose).mono ?_⟩
    intro he
    exact ⟨he.1, by rw [he.2.1]; rfl, he.2.2⟩
  | signal i what =>
    rw [step] at hstep
    split at hstep
    · next t hget => exact shut_signal h hget hstore hstep
    · cases hstep

theorem run_shut {events : List (Int × Event ν)} (hs : s.Sound c) (h : Shut first s)
    (hconnect : ∀ timed ∈ events, timed.2 ≠ .connect)
    (hstore : ¬ Sometime c (fun s e => s.installs e = true) s events)
    (hrun : run c s events = some s') :
    s'.Sound c ∧ Shut first s' ∧ Quiet s.tasks s'.tasks := by
  induction events generalizing s with
  | nil =>
    cases hrun
    exact ⟨hs, h, .refl _⟩
  | cons timed rest ih =>
    obtain ⟨s₁, hstep, hrest⟩ := Option.bind_eq_some_iff.mp hrun
    rw [Sometime, not_or] at hstore
    obtain ⟨hsound, -, hdel⟩ := step_sound hs hstep
    have hshut := step_shut h (hconnect timed List.mem_cons_self)
      (Bool.eq_false_iff.mpr hstore.1) hstep
    have hquiet : Quiet s.tasks s₁.tasks := by
      intro j t ht
      obtain ⟨t', ht', hsame | ⟨m, payload, -, -, hget, -⟩⟩ := hdel j t ht
      · exact ⟨t', ht', hsame⟩
      · rw [h.waiters] at hget
        cases hget
    obtain ⟨hsound', hshut', hquiet'⟩ := ih hsound hshut
      (fun timed' hmem => hconnect timed' (List.mem_cons_of_mem _ hmem))
      (fun hsome => hstore.2 ⟨s₁, hstep, hsome⟩) hrest
    exact ⟨hsound', hshut', hquiet.trans hquiet'⟩

theorem beginClose_get? (h : s.tasks[i]? = some t) :
    (beginClose s).tasks[i]? = some (afterClose s i t) := by
  have hlt := (List.getElem?_eq_some_iff.mp h).1
  have hspawn : (spawn (failAll s) { job := .close, phase := .running }).tasks[i]? =
      some (afterClose s i t) := getElem?_append_of (failAll_of h)
  have hput : ∀ (s' : State ν) (u : Task ν),
      s'.tasks = (spawn (failAll s) { job := .close, phase := .running }).tasks →
        (s'.put s.tasks.length u).tasks[i]? = some (afterClose s i t) := by
    intro s' u htasks
    rw [State.put, List.getElem?_set_ne (by omega), htasks]
    exact hspawn
  unfold beginClose
  dsimp only
  split
  · unfold cancelConsumer closeChannel closeConnection forget
    split
    · exact hput _ _ rfl
    · split
      · exact hput _ _ rfl
      · split <;> exact hput _ _ rfl
  · exact hput _ _ rfl

/-- Once `close` has returned and no later `connect` is made, the client holds nothing and every
request pending at `close` has failed, provided each of them had its waiter when `close` was called
and no setup that was under way stores a connection or a channel afterwards. -/
theorem closed_client_holds_nothing {before after : List (Int × Event ν)} {now : Int}
    {s₀ s₁ s : State ν} (hbefore : run c (initial c) before = some s₀)
    (hall : s₀.allRegistered = true) (hclose : step c s₀ now .close = some s₁)
    (hafter : run c s₁ after = some s) (hconnect : ∀ timed ∈ after, timed.2 ≠ .connect)
    (hstore : ¬ Sometime c (fun s e => s.installs e = true) s₁ after) :
    (returned s s₀.tasks.length = true → Empty s) ∧ s.waiters = [] ∧
      ∀ (i : Nat) t, s₀.tasks[i]? = some t → t.job.isRequest = true → t.phase.outcome? = none →
        t.future.payload? = none → ∃ t', s.tasks[i]? = some t' ∧ Failed t' := by
  have hsound₀ := (run_sound (initial_sound c) hbefore).1
  rw [← Option.some.inj hclose] at hafter hstore
  have hbegin := progress_beginClose hsound₀
  have hshut₁ := shut_beginClose (shut_failAll s₀)
  obtain ⟨hsound, hshut, hquiet⟩ := run_shut hbegin.sound hshut₁ hconnect hstore hafter
  refine ⟨hshut.empty_of_returned (Nat.le_refl _), hshut.waiters, ?_⟩
  intro i t hget hreq hopen hnone
  have hresolved := afterClose_resolved hsound₀ hall hget hreq hopen
  obtain ⟨t', hget', hsame⟩ := hquiet i _ (beginClose_get? hget)
  have hnone' : t'.future.payload? = none := by
    rw [hsame.payload, (afterClose_stays (hsound₀.fine i t hget) i).payload, hnone]
  refine ⟨t', hget', ?_, hnone', ?_⟩
  · cases hpend : t'.future.isPending with
    | false => rfl
    | true =>
      rw [hsame.pending hpend] at hresolved
      cases hresolved
  · intro payload hout
    rw [(hsound.fine i t' hget').reply payload hout] at hnone'
    cases hnone'

end Runs

def connectingRun : List (Int × Event Int) :=
  [(0, .request (sampleCall false)), (0, .signal 0 .acquired)]

/-- The request has its waiter, and then the links are lost. -/
def waitingRun : List (Int × Event Int) :=
  connectingRun ++ List.replicate 6 (1, .signal 0 (.back "amq.gen")) ++
    [(2, .connectionLost), (2, .channelLost)]

/-- A client that is closed while a request waits for its reply. -/
theorem closed_client_holds_nothing_waiting :
    ∃ s₀ s₁ s, run sampleSettings (initial sampleSettings) waitingRun = some s₀ ∧
      step sampleSettings s₀ 3 .close = some s₁ ∧
      run sampleSettings s₁ [(4, .signal 1 (.back ""))] = some s ∧
      returned s s₀.tasks.length = true ∧ Empty s ∧ s.waiters = [] ∧
      ∃ t, s.tasks[0]? = some t ∧ Failed t := by
  have hrun : (run sampleSettings (initial sampleSettings) waitingRun).any (fun s₀ =>
      s₀.allRegistered && (s₀.tasks[0]?.any fun t => t.job.isRequest &&
        t.phase.outcome?.isNone && t.future.payload?.isNone) &&
      (step sampleSettings s₀ 3 .close).any fun s₁ =>
        !s₁.installs (.signal 1 (.back "")) &&
        (run sampleSettings s₁ [(4, .signal 1 (.back ""))]).any fun s =>
          returned s s₀.tasks.length) = true := by
    decide +kernel
  obtain ⟨s₀, hs₀, hrun⟩ := (Option.any_eq_true _ _).mp hrun
  rw [Bool.and_eq_true, Bool.and_eq_true] at hrun
  obtain ⟨⟨hall, htask⟩, hrun⟩ := hrun
  obtain ⟨t, ht, hopen⟩ := (Option.any_eq_true _ _).mp htask
  rw [Bool.and_eq_true, Bool.and_eq_true, Option.isNone_iff_eq_none,
    Option.isNone_iff_eq_none] at hopen
  obtain ⟨s₁, hs₁, hrun⟩ := (Option.any_eq_true _ _).mp hrun
  rw [Bool.and_eq_true, Bool.not_eq_true'] at hrun
  obtain ⟨s, hs, hret⟩ := (Option.any_eq_true _ _).mp hrun.2
  have hstore : ¬ Sometime sampleSettings (fun s e => s.installs e = true) s₁
      [(4, .signal 1 (.back ""))] := by
    simp [Sometime, hrun.1]
  obtain ⟨hempty, hwaiters, hfailed⟩ :=
    closed_client_holds_nothing hs₀ hall hs₁ hs (by simp) hstore
  exact ⟨s₀, s₁, s, hs₀, hs₁, hs, hret, hempty hret, hwaiters,
    hfailed 0 t ht hopen.1.1 hopen.1.2 hopen.2⟩

/-- The connection of a request comes after `close` has returned, and the client holds it. -/
theorem connection_stored_after_close :
    ∃ s₀ s₁ s, run sampleSettings (initial sampleSettings) connectingRun = some s₀ ∧
      step sampleSettings s₀ 1 .close = some s₁ ∧ returned s₁ s₀.tasks.length = true ∧
      run sampleSettings s₁ [(2, .signal 0 (.back "amq.gen"))] = some s ∧ ¬ Empty s := by
  have hrun : (run sampleSettings (initial sampleSettings) connectingRun).any (fun s₀ =>
      (step sampleSettings s₀ 1 .close).any fun s₁ => returned s₁ s₀.tasks.length &&
        (run sampleSettings s₁ [(2, .signal 0 (.back "amq.gen"))]).any fun s =>
          decide (¬ Empty s)) = true := by
    decide +kernel
  obtain ⟨s₀, hs₀, hrun⟩ := (Option.any_eq_true _ _).mp hrun
  obtain ⟨s₁, hs₁, hrun⟩ := (Option.any_eq_true _ _).mp hrun
  rw [Bool.and_eq_true] at hrun
  obtain ⟨s, hs, hheld⟩ := (Option.any_eq_true _ _).mp hrun.2
  exact ⟨s₀, s₁, s, hs₀, hs₁, hrun.1, hs, of_decide_eq_true hheld⟩

end RagForge.Rpc
