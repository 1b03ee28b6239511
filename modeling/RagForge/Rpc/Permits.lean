import RagForge.Rpc.Invariant

/-
Permits, waiters and deliveries over the runs of the RPC client.

Only a message changes what a task was delivered, and only the task whose waiter stands in the
table under the correlation identifier of the message.  When no request is running, the table is
empty and every permit is free, unless a `finally` block was interrupted.
-/

namespace RagForge.Rpc

open JsonText (Object)
open Py (Dict)
open Sequence

variable {β ν : Type}

/-! ## Messages -/

variable {c : Settings β ν} {s s' : State ν} {e : Event ν}

section Messages

variable {i : Nat} {t : Task ν}

def Receives (t t' : Task ν) (payload : Object ν) : Prop :=
  (t'.events = t.events ++ [payload] ∧ t'.future.payload? = t.future.payload?) ∨
    (t'.events = t.events ∧ t.future.payload? = none ∧ t'.future.payload? = some payload)

section Receive

theorem Future.payload?_of_isPending {f : Future ν} (h : f.isPending = true) :
    f.payload? = none := by
  cases f with
  | pending => rfl
  | result _ | failed _ | cancelled => cases h

variable [DecidableEq β]

theorem receive_keeps (hf : t.Fine) (payload : Object ν) (now : Int) :
    t.Keeps (receive c t payload now) := by
  have hfail : ∀ fault, t.Keeps { t with future := t.future.fail fault } := by
    intro fault
    refine ⟨rfl, rfl, rfl, Future.isPending_of_fail,
      ⟨hf.request, hf.other, hf.owner, hf.holds, hf.waiting, ?_⟩⟩
    · intro payload' hpay
      exact (Future.payload?_fail _ _).trans (hf.reply payload' hpay)
  have hsame : t.Keeps t := ⟨rfl, rfl, rfl, id, hf⟩
  unfold receive
  split
  · exact hfail _
  · split
    · split
      · exact hsame
      · split
        · exact hfail _
        · exact ⟨rfl, rfl, rfl, id, ⟨hf.request, hf.other, hf.owner, hf.holds, hf.waiting,
            hf.reply⟩⟩
    · split
      · next hpend =>
        refine ⟨rfl, rfl, rfl, ?_, ⟨hf.request, hf.other, hf.owner, hf.holds, hf.waiting, ?_⟩⟩
        · intro h
          cases h
        · intro payload' hpay
          have hnone := Future.payload?_of_isPending hpend
          rw [hf.reply payload' hpay] at hnone
          cases hnone
      · exact hsame

theorem receive_lost (payload : Object ν) (now : Int) :
    (receive c t payload now).lost = t.lost := by
  unfold receive
  split
  · rfl
  · split
    · split
      · rfl
      · split
        · rfl
        · rfl
    · split
      · rfl
      · rfl

theorem receive_delivers (payload : Object ν) (now : Int) :
    t.Same (receive c t payload now) ∨ Receives t (receive c t payload now) payload := by
  unfold receive
  split
  · exact .inl ⟨rfl, Future.payload?_fail _ _, Future.isPending_of_fail⟩
  · split
    · split
      · exact .inl (Task.Same.rfl' t)
      · split
        · exact .inl ⟨rfl, Future.payload?_fail _ _, Future.isPending_of_fail⟩
        · refine .inr (.inl ⟨?_, rfl⟩)
          rw [Task.events, Task.events, List.append_assoc]
    · split
      · next hpend =>
        exact .inr (.inr ⟨rfl, Future.payload?_of_isPending hpend, rfl⟩)
      · exact .inl (Task.Same.rfl' t)

end Receive

/-- What each task is delivered by a step: nothing, or the payload of a message that found its
waiter under its correlation identifier. -/
def Delivers (c : Settings β ν) (s : State ν) (e : Event ν) (s' : State ν) : Prop :=
  ∀ (i : Nat) t, s.tasks[i]? = some t → ∃ t', s'.tasks[i]? = some t' ∧ (t.Same t' ∨
    ∃ m payload, e = .message m ∧ m.body = some payload ∧
      s.waiters.get? (correlationOf c m payload) = some i ∧
      t.correlationId = some (correlationOf c m payload) ∧ Receives t t' payload)

theorem delivers_of_quiet (h : Quiet s.tasks s'.tasks) : Delivers c s e s' := by
  intro j u hu
  obtain ⟨v, hv, hsame⟩ := h j u hu
  exact ⟨v, hv, .inl hsame⟩

theorem onMessage_sound [DecidableEq β] (hs : s.Sound c) (m : Message ν) (now : Int) :
    (onMessage c s m now).Sound c ∧ (Lost (onMessage c s m now).tasks ↔ Lost s.tasks) ∧
      Delivers c s (.message m) (onMessage c s m now) := by
  have hstay : s.Sound c ∧ (Lost s.tasks ↔ Lost s.tasks) ∧ Delivers c s (.message m) s :=
    ⟨hs, Iff.rfl, delivers_of_quiet (.refl _)⟩
  unfold onMessage
  split
  · exact hstay
  · next payload hbody =>
    split
    · exact hstay
    · next i hget =>
      split
      · exact hstay
      · next t h =>
        refine ⟨hs.set h (receive_keeps (hs.fine i t h) payload now), ?_, ?_⟩
        · have hlost : Lost (s.tasks.set i (receive c t payload now)) ↔
              Lost s.tasks ∨ False := lost_set h (by rw [receive_lost, or_false])
          rwa [or_false] at hlost
        · intro j u hu
          rcases getElem?_of_set h hu (receive c t payload now) with ⟨rfl, rfl, hset⟩ | ⟨-, hset⟩
          · refine ⟨_, hset, ?_⟩
            rcases receive_delivers (c := c) payload now with hsame | hrec
            · exact .inl hsame
            · exact .inr ⟨m, payload, rfl, hbody, hget, (hs.own h hget).2, hrec⟩
          · exact ⟨u, hset, .inl (Task.Same.rfl' u)⟩

end Messages

/-! ## Runs -/

variable {now : Int}

section Idle

def Idle (s : State ν) : Prop := ∀ t ∈ s.tasks, t.job.isRequest = true → t.phase.isDone = true

theorem Sound.permits_free (hs : s.Sound c) (hidle : Idle s) :
    s.permits = c.capacity ↔ ¬ Lost s.tasks := by
  have hcount := hs.count
  have hzero : s.permits = c.capacity ↔ s.tasks.countP Task.permit = 0 := by omega
  rw [hzero, List.countP_eq_zero]
  constructor
  · intro hnone hl
    obtain ⟨i, t, h, hlost⟩ := hl
    rw [Task.lost, Bool.and_eq_true] at hlost
    exact hnone t (List.mem_of_getElem? h) hlost.1
  · intro hl t hmem hpermit
    obtain ⟨i, h⟩ := List.mem_iff_getElem?.mp hmem
    have hdone := hidle t hmem ((hs.fine i t h).owner hpermit)
    apply hl
    refine ⟨i, t, h, ?_⟩
    rw [Task.lost, hpermit, Bool.true_and]
    cases hphase : t.phase <;> rw [hphase] at hdone <;> first | rfl | cases hdone

theorem Sound.waiters_empty (hs : s.Sound c) (hidle : Idle s) : s.waiters = [] := by
  cases hw : s.waiters with
  | nil => rfl
  | cons entry rest =>
    have hget : s.waiters.get? entry.1 = some entry.2 := by
      rw [hw]
      simp [Dict.get?]
    obtain ⟨t, h, hwaits, -⟩ := hs.table _ _ hget
    rw [Task.waits, Bool.and_eq_true] at hwaits
    have hdone := hidle t (List.mem_of_getElem? h) hwaits.1
    cases hphase : t.phase <;> rw [hphase] at hdone hwaits <;> cases hdone
    cases hwaits.2

theorem progress_start {s₁ : State ν} {job : Job ν} (hs : s.Sound c)
    (hjob : job.isRequest = false) (hcore : s₁.core = s.core) :
    Progress c False s (ensureResources c (spawn s₁ { job := job, phase := .running })
      s.tasks.length { job := job, phase := .running } now) := by
  have hspawn := progress_spawn hs (new_running hjob) hcore
  have htasks : s₁.tasks = s.tasks := congrArg (fun core => core.2.2.2) hcore
  have hget := spawn_get? s₁ { job := job, phase := .running }
  rw [htasks] at hget
  rw [← or_self False]
  exact hspawn.trans (progress_ensureResources hspawn.sound hget ⟨rfl, rfl, rfl⟩)

theorem initial_sound (c : Settings β ν) : (initial c).Sound c where
  count := Nat.add_zero _
  fine := by
    intro i t h
    cases h
  table := by
    intro cid i h
    cases h
  pending := by
    intro i t h
    cases h
  drawn := by
    intro i t cid h
    cases h

end Idle

section Runs

variable [DecidableEq β]

theorem step_sound (hs : s.Sound c) (hstep : step c s now e = some s') :
    s'.Sound c ∧ (Lost s'.tasks ↔ Lost s.tasks ∨ Interrupts s e) ∧ Delivers c s e s' := by
  have hquiet : ∀ {loses : Prop}, (loses ↔ Interrupts s e) → Progress c loses s s' →
      s'.Sound c ∧ (Lost s'.tasks ↔ Lost s.tasks ∨ Interrupts s e) ∧ Delivers c s e s' := by
    intro loses hiff hp
    refine ⟨hp.sound, ?_, delivers_of_quiet hp.quiet⟩
    rw [hp.lost, hiff]
  have hno : (∀ i what, e ≠ .signal i what) → (False ↔ Interrupts s e) := by
    intro hne
    constructor
    · exact False.elim
    · intro hint
      obtain ⟨i, -, -, -, heq, -⟩ := hint
      exact hne i .cancel heq
  cases e with
  | request call =>
    have hnew : Task.New ({ job := .request call, phase := .acquiring } : Task ν) :=
      ⟨rfl, rfl, rfl, ⟨fun _ => rfl, nofun, nofun, nofun, fun _ => rfl, nofun⟩⟩
    rw [← Option.some.inj hstep] at hquiet ⊢
    exact hquiet (hno nofun) (progress_spawn hs hnew rfl)
  | publish | connect =>
    rw [← Option.some.inj hstep] at hquiet ⊢
    exact hquiet (hno nofun) (progress_start hs rfl rfl)
  | close =>
    rw [← Option.some.inj hstep] at hquiet ⊢
    exact hquiet (hno nofun) (progress_beginClose hs)
  | message m =>
    cases hstep
    obtain ⟨hsound, hlost, hdel⟩ := onMessage_sound hs m now
    refine ⟨hsound, ?_, hdel⟩
    rw [hlost, ← hno nofun, or_false]
  | connectionLost | channelLost =>
    rw [← Option.some.inj hstep] at hquiet ⊢
    exact hquiet (hno nofun) ⟨hs, by rw [or_false], .refl _⟩
  | signal i what =>
    rw [step] at hstep
    split at hstep
    · next t h => exact hquiet Iff.rfl (progress_signal hs h hstep)
    · cases hstep

def Sometime (c : Settings β ν) (kind : State ν → Event ν → Prop) :
    State ν → List (Int × Event ν) → Prop
  | _, [] => False
  | s, (now, e) :: rest => kind s e ∨ ∃ s', step c s now e = some s' ∧ Sometime c kind s' rest

def Interrupted (c : Settings β ν) (s : State ν) (events : List (Int × Event ν)) : Prop :=
  Sometime c Interrupts s events

theorem run_sound {events : List (Int × Event ν)} (hs : s.Sound c)
    (hrun : run c s events = some s') :
    s'.Sound c ∧ (Lost s'.tasks ↔ Lost s.tasks ∨ Interrupted c s events) := by
  induction events generalizing s with
  | nil =>
    cases hrun
    exact ⟨hs, by rw [Interrupted, Sometime, or_false]⟩
  | cons timed rest ih =>
    obtain ⟨s₁, hstep, hrest⟩ := Option.bind_eq_some_iff.mp hrun
    obtain ⟨hsound, hlost, -⟩ := step_sound hs hstep
    obtain ⟨hsound', hlost'⟩ := ih hsound hrest
    refine ⟨hsound', ?_⟩
    rw [hlost', hlost, Interrupted, Interrupted, Sometime, or_assoc, hstep]
    simp

/-- In every run a payload is delivered only to the waiter registered under its correlation
identifier.  When no request is running, the table is empty and every permit is free, unless a
request was cancelled while its `finally` block awaited its stream task. -/
theorem idle_client_is_free_iff {events : List (Int × Event ν)}
    (hrun : run c (initial c) events = some s) :
    (∀ now e s', step c s now e = some s' → Delivers c s e s') ∧
      (Idle s → ((s.waiters = [] ∧ s.permits = c.capacity) ↔
        ¬ Interrupted c (initial c) events)) := by
  obtain ⟨hsound, hlost⟩ := run_sound (initial_sound c) hrun
  constructor
  · intro now e s' hstep
    exact (step_sound hsound hstep).2.2
  · intro hidle
    have hstart : ¬ Lost (initial c).tasks := by
      intro hl
      obtain ⟨i, t, h, -⟩ := hl
      cases h
    rw [iff_true_intro (hsound.waiters_empty hidle), true_and, hsound.permits_free hidle, hlost,
      iff_false_intro hstart, false_or]

/-- At most `capacity` requests are past the semaphore, and the table has every request that waits
for an open reply and nothing that does not wait. -/
theorem inflight_bounded {events : List (Int × Event ν)}
    (hrun : run c (initial c) events = some s) :
    s.tasks.countP (fun t => t.job.isRequest && t.phase.holds) ≤ c.capacity ∧
      (∀ (i : Nat) t, s.tasks[i]? = some t → t.waits = true → t.future.isPending = true →
        ∃ cid, t.correlationId = some cid ∧ s.waiters.get? cid = some i) ∧
      ∀ cid i, s.waiters.get? cid = some i →
        ∃ t, s.tasks[i]? = some t ∧ t.waits = true ∧ t.correlationId = some cid := by
  have hsound := (run_sound (initial_sound c) hrun).1
  have hle : s.tasks.countP (fun t => t.job.isRequest && t.phase.holds) ≤
      s.tasks.countP Task.permit := by
    refine List.countP_mono_left fun t ht hrequest => ?_
    obtain ⟨i, hi⟩ := List.getElem?_of_mem ht
    obtain ⟨hreq, hholds⟩ := Bool.and_eq_true_iff.mp hrequest
    exact (hsound.fine i t hi).holds hreq hholds
  have hcount := hsound.count
  exact ⟨by omega, hsound.pending, hsound.table⟩

end Runs

/-! ## A request that times out -/

def sampleSettings : Settings (List Char) Int where
  numbers := Auth.sampleNumbers
  primitives := Auth.samplePrimitives
  secret := ""
  maxInflight := 1
  streamBufferSize := 4
  streamRoutingKey := "rpc.stream.rag"
  uuid n := String.ofList (List.replicate n 'a')
  uuid_injective := by
    intro n m h
    have hlist := congrArg String.toList h
    rw [String.toList_ofList, String.toList_ofList] at hlist
    simpa using congrArg List.length hlist

def sampleCall (streams : Bool) : Call Int where
  routingKey := "rag.requests"
  envelope := ⟨[], rfl⟩
  streams := streams
  seconds := "1.0"

def timedOut (streams : Bool) : List (Int × Event Int) :=
  (0, .request (sampleCall streams)) :: (0, .signal 0 .acquired) ::
    List.replicate 7 (0, .signal 0 (.back "amq.gen")) ++ [(1, .signal 0 .timeout)]

def interruptedRun : List (Int × Event Int) :=
  timedOut true ++ [(1, .signal 0 .cancel), (2, .signal 0 .streamCancelled),
    (2, .signal 0 .streamEnded)]

theorem inflight_bounded_waiting :
    ∃ s, run sampleSettings (initial sampleSettings) ((timedOut false).take 9) = some s ∧
      s.waiters ≠ [] ∧
      s.tasks.countP (fun t => t.job.isRequest && t.phase.holds) ≤ sampleSettings.capacity := by
  have hrun : (run sampleSettings (initial sampleSettings) ((timedOut false).take 9)).any
      (fun s => s.waiters ≠ []) = true := by decide +kernel
  obtain ⟨s, hs, hne⟩ := (Option.any_eq_true _ _).mp hrun
  exact ⟨s, hs, of_decide_eq_true hne, (inflight_bounded hs).1⟩

/-- A request that times out leaves the table empty and its permit free. -/
theorem idle_client_is_free_iff_timedOut :
    ∃ s, run sampleSettings (initial sampleSettings) (timedOut false) = some s ∧ Idle s ∧
      ((s.waiters = [] ∧ s.permits = sampleSettings.capacity) ↔
        ¬ Interrupted sampleSettings (initial sampleSettings) (timedOut false)) := by
  have hrun : (run sampleSettings (initial sampleSettings) (timedOut false)).any
      (fun s => s.tasks.all fun t => t.phase.isDone) = true := by decide +kernel
  obtain ⟨s, hs, hdone⟩ := (Option.any_eq_true _ _).mp hrun
  have hidle : Idle s := fun t ht _ => List.all_eq_true.mp hdone t ht
  exact ⟨s, hs, hidle, (idle_client_is_free_iff hs).2 hidle⟩

/-- The permit of a request that is cancelled in its `finally` block is gone. -/
theorem interrupted_request_keeps_permit :
    ∃ s, run sampleSettings (initial sampleSettings) interruptedRun = some s ∧ Idle s ∧
      s.permits ≠ sampleSettings.capacity := by
  have hrun : (run sampleSettings (initial sampleSettings) interruptedRun).any
      (fun s => (s.tasks.all fun t => t.phase.isDone) && decide (s.permits = 0)) = true := by
    decide +kernel
  obtain ⟨s, hs, hfacts⟩ := (Option.any_eq_true _ _).mp hrun
  rw [Bool.and_eq_true, decide_eq_true_eq] at hfacts
  refine ⟨s, hs, fun t ht _ => List.all_eq_true.mp hfacts.1 t ht, ?_⟩
  rw [hfacts.2]
  decide +kernel

end RagForge.Rpc
