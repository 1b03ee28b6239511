import RagForge.Rpc.Client

/-
What the steps of a task do to the permits and the waiters.

The permits that are free and those that requests hold add up to the capacity.  A waiter is in the
table under its own correlation identifier, as long as its request waits for the reply.  Every
step of a task keeps this, and delivers nothing to any waiter.  A request gives its permit back at
the end of its `finally` block, unless it is cancelled while that block awaits the stream task.
-/

namespace RagForge.Rpc

open JsonText (Object)
open Py (Dict)
open Sequence

variable {β ν : Type}

/-! ## Tasks -/

/-- Only requests stand at these awaits. -/
def Phase.ofRequest : Phase ν → Bool
  | .acquiring | .awaiting | .draining | .stopping _ | .finalizing _ _ => true
  | _ => false

/-- Only `close` stands at these awaits. -/
def Phase.ofClose : Phase ν → Bool
  | .closing _ => true
  | _ => false

/-- A request that stands here has a permit. -/
def Phase.holds : Phase ν → Bool
  | .acquiring | .closing _ | .done _ => false
  | _ => true

def Phase.outcome? : Phase ν → Option (Outcome ν)
  | .done o | .finalizing o _ => some o
  | _ => none

/-- A permit that a request still has here is never given back. -/
def Phase.loses : Phase ν → Bool
  | .done _ => true
  | .finalizing _ cancelled => cancelled
  | _ => false

/-- The request waits for its reply or its stream. -/
def Task.waits (t : Task ν) : Bool := t.job.isRequest && t.phase.waits

def Task.lost (t : Task ν) : Bool := t.permit && t.phase.loses

structure Task.Fine (t : Task ν) : Prop where
  request : t.phase.ofRequest = true → t.job.isRequest = true
  other : t.phase.ofClose = true → t.job.isRequest = false
  owner : t.permit = true → t.job.isRequest = true
  holds : t.job.isRequest = true → t.phase.holds = true → t.permit = true
  waiting : t.phase = .acquiring → t.permit = false
  reply : ∀ payload, t.phase.outcome? = some (.reply payload) → t.future.payload? = some payload

variable {t : Task ν}

theorem Task.Fine.permit (h : t.Fine) (hreq : t.phase.ofRequest = true)
    (hholds : t.phase.holds = true) : t.permit = true :=
  h.holds (h.request hreq) hholds

/-- Nothing is delivered: the events and the reply of the waiter stay as they are, and a future that
is done stays done. -/
structure Task.Same (t t' : Task ν) : Prop where
  events : t'.events = t.events
  payload : t'.future.payload? = t.future.payload?
  pending : t'.future.isPending = true → t.future.isPending = true

theorem Task.Same.rfl' (t : Task ν) : t.Same t := ⟨rfl, rfl, id⟩

variable {t' : Task ν}

theorem Task.Same.trans {t'' : Task ν} (h : t.Same t') (h' : t'.Same t'') : t.Same t'' :=
  ⟨h'.events.trans h.events, h'.payload.trans h.payload, fun hp => h.pending (h'.pending hp)⟩

@[simp] theorem Future.payload?_fail (f : Future ν) (fault : Fault) :
    (f.fail fault).payload? = f.payload? := by
  cases f <;> rfl

theorem Future.isPending_fail (f : Future ν) (fault : Fault) :
    (f.fail fault).isPending = false := by
  cases f <;> rfl

theorem Future.isPending_of_fail {f : Future ν} {fault : Fault}
    (h : (f.fail fault).isPending = true) : f.isPending = true := by
  rw [isPending_fail] at h
  cases h

theorem cancelFuture_payload (t : Task ν) :
    (cancelFuture t).future.payload? = t.future.payload? := by
  unfold cancelFuture
  cases h : t.future <;> simp [Future.isPending, Future.payload?]

theorem cancelFuture_pending (t : Task ν) : (cancelFuture t).future.isPending = false := by
  unfold cancelFuture
  cases h : t.future <;> simp [Future.isPending]

/-! ## The invariant -/

/-- What holds of the permits, the identifiers, the table and the tasks of a client. -/
structure Sound (c : Settings β ν) (permits drawn : Nat) (waiters : Dict String Nat)
    (tasks : List (Task ν)) : Prop where
  count : permits + tasks.countP Task.permit = c.capacity
  fine : ∀ (i : Nat) t, tasks[i]? = some t → t.Fine
  table : ∀ cid i, waiters.get? cid = some i →
    ∃ t, tasks[i]? = some t ∧ t.waits = true ∧ t.correlationId = some cid
  pending : ∀ (i : Nat) t, tasks[i]? = some t → t.waits = true → t.future.isPending = true →
    ∃ cid, t.correlationId = some cid ∧ waiters.get? cid = some i
  drawn : ∀ (i : Nat) t cid, tasks[i]? = some t → t.correlationId = some cid →
    ∃ n < drawn, cid = c.uuid n

abbrev State.Sound (c : Settings β ν) (s : State ν) : Prop :=
  Rpc.Sound c s.permits s.drawn s.waiters s.tasks

def Lost (tasks : List (Task ν)) : Prop :=
  ∃ (i : Nat) (t : Task ν), tasks[i]? = some t ∧ t.lost = true

def Quiet (tasks tasks' : List (Task ν)) : Prop :=
  ∀ (i : Nat) t, tasks[i]? = some t → ∃ t', tasks'[i]? = some t' ∧ t.Same t'

theorem Quiet.refl (tasks : List (Task ν)) : Quiet tasks tasks :=
  fun _ t h => ⟨t, h, Task.Same.rfl' t⟩

theorem Quiet.trans {a b d : List (Task ν)} (h : Quiet a b) (h' : Quiet b d) : Quiet a d := by
  intro i t ht
  obtain ⟨t', ht', hsame⟩ := h i t ht
  obtain ⟨t'', ht'', hsame'⟩ := h' i t' ht'
  exact ⟨t'', ht'', hsame.trans hsame'⟩

/-- The invariant after a step, and what the step does to the permits and the deliveries. -/
structure Progress (c : Settings β ν) (loses : Prop) (s s' : State ν) : Prop where
  sound : s'.Sound c
  lost : Lost s'.tasks ↔ Lost s.tasks ∨ loses
  quiet : Quiet s.tasks s'.tasks

variable {c : Settings β ν} {s s' : State ν}

theorem Progress.trans {a b : Prop} {s'' : State ν}
    (h : Progress c a s s') (h' : Progress c b s' s'') : Progress c (a ∨ b) s s'' where
  sound := h'.sound
  lost := by rw [h'.lost, h.lost, or_assoc]
  quiet := h.quiet.trans h'.quiet

variable {loses : Prop}

theorem Progress.of_not (h : Progress c False s s') (hno : ¬ loses) : Progress c loses s s' where
  sound := h.sound
  lost := by rw [h.lost, iff_false_intro hno]
  quiet := h.quiet

/-- A step that began with a change the tasks do not show. -/
theorem Progress.of_tasks {s₀ : State ν}
    (h : Progress c loses s s') (htasks : s.tasks = s₀.tasks) : Progress c loses s₀ s' where
  sound := h.sound
  lost := by rw [h.lost, htasks]
  quiet := by
    have hquiet := h.quiet
    rwa [htasks] at hquiet

/-! ## Setting one task -/

variable {tasks : List (Task ν)} {i : Nat}

section Set

section

variable (h : tasks[i]? = some t)

include h

theorem countP_set_add (p : Task ν → Bool) :
    (tasks.set i t').countP p + (p t).toNat = tasks.countP p + (p t').toNat := by
  obtain ⟨hi, rfl⟩ := List.getElem?_eq_some_iff.mp h
  have hle := List.boole_getElem_le_countP (p := p) hi
  rw [List.countP_set hi]
  cases hp : p tasks[i] <;> cases p t' <;>
    simp only [hp, Bool.toNat_true, Bool.toNat_false, if_true, Bool.false_eq_true, if_false]
      at hle ⊢ <;> omega

theorem lost_set (hlost : t'.lost = true ↔ t.lost = true ∨ loses) :
    Lost (tasks.set i t') ↔ Lost tasks ∨ loses := by
  constructor
  · intro hl
    obtain ⟨j, u, hj, hul⟩ := hl
    rcases getElem?_set_cases hj with ⟨-, rfl⟩ | ⟨-, hj⟩
    · rcases hlost.mp hul with hul | hul
      · exact .inl ⟨i, t, h, hul⟩
      · exact .inr hul
    · exact .inl ⟨j, u, hj, hul⟩
  · intro hl
    rcases hl with ⟨j, u, hj, hul⟩ | hl
    · rcases getElem?_of_set h hj t' with ⟨-, rfl, hset⟩ | ⟨-, hset⟩
      · exact ⟨j, t', hset, hlost.mpr (.inl hul)⟩
      · exact ⟨j, u, hset, hul⟩
    · exact ⟨i, t', getElem?_set_of h, hlost.mpr (.inr hl)⟩

theorem quiet_set (hsame : t.Same t') : Quiet tasks (tasks.set i t') := by
  intro j u hj
  rcases getElem?_of_set h hj t' with ⟨-, rfl, hset⟩ | ⟨-, hset⟩
  · exact ⟨t', hset, hsame⟩
  · exact ⟨u, hset, Task.Same.rfl' u⟩

end

end Set

/-! ## What one task does -/

variable {now : Int} {permits' : Nat} {waiters' : Dict String Nat}

section Moves

variable {j permits drawn : Nat} {u : Task ν} {waiters : Dict String Nat} {o : Outcome ν}
  {phase : Phase ν} {stage : Setup}

section

variable (hs : Sound c permits drawn waiters tasks) (h : tasks[i]? = some t)

include hs h

theorem Sound.replace {drawn' : Nat}
    (hpermits : permits' + t'.permit.toNat = permits + t.permit.toNat) (hfine : t'.Fine)
    (htable : ∀ cid j, waiters'.get? cid = some j → (j = i ∧ t'.waits = true ∧
      t'.correlationId = some cid) ∨ (j ≠ i ∧ waiters.get? cid = some j))
    (hkept : ∀ cid j, waiters.get? cid = some j → j ≠ i → waiters'.get? cid = some j)
    (hpending : t'.waits = true → t'.future.isPending = true → ∃ cid, t'.correlationId = some cid ∧
      waiters'.get? cid = some i)
    (hdrawn : drawn ≤ drawn')
    (huuid : ∀ cid, t'.correlationId = some cid → ∃ n < drawn', cid = c.uuid n) :
    Sound c permits' drawn' waiters' (tasks.set i t') where
  count := by
    have hcount : (tasks.set i t').countP Task.permit + t.permit.toNat =
        tasks.countP Task.permit + t'.permit.toNat := countP_set_add h Task.permit
    have hall := hs.count
    omega
  fine := by
    intro j u hj
    rcases getElem?_set_cases hj with ⟨-, rfl⟩ | ⟨-, hj⟩
    · exact hfine
    · exact hs.fine j u hj
  table := by
    intro cid j hj
    rcases htable cid j hj with ⟨rfl, hwaits, hcid⟩ | ⟨hji, hget⟩
    · exact ⟨t', getElem?_set_of h, hwaits, hcid⟩
    · obtain ⟨u, hu, huw, hucid⟩ := hs.table cid j hget
      exact ⟨u, (List.getElem?_set_ne (Ne.symm hji)).trans hu, huw, hucid⟩
  pending := by
    intro j u hj hwaits hpend
    rcases getElem?_set_cases hj with ⟨rfl, rfl⟩ | ⟨hji, hj⟩
    · exact hpending hwaits hpend
    · obtain ⟨cid, hcid, hget⟩ := hs.pending j u hj hwaits hpend
      exact ⟨cid, hcid, hkept cid j hget hji⟩
  drawn := by
    intro j u cid hj hcid
    rcases getElem?_set_cases hj with ⟨rfl, rfl⟩ | ⟨-, hj⟩
    · exact huuid cid hcid
    · obtain ⟨n, hn, hu⟩ := hs.drawn j u cid hj hcid
      exact ⟨n, Nat.lt_of_lt_of_le hn hdrawn, hu⟩

theorem Sound.own {cid : String}
    (hget : waiters.get? cid = some i) : t.waits = true ∧ t.correlationId = some cid := by
  obtain ⟨u, hu, hwaits, hcid⟩ := hs.table cid i hget
  have hut : u = t := Option.some.inj (hu.symm.trans h)
  rw [hut] at hwaits hcid
  exact ⟨hwaits, hcid⟩

theorem Sound.others (hwaits : t.waits = false) (cid : String) (j : Nat) :
    waiters.get? cid = some j ↔ waiters.get? cid = some j ∧ j ≠ i := by
  refine ⟨fun hget => ⟨hget, ?_⟩, And.left⟩
  intro hji
  rw [hji] at hget
  rw [(hs.own h hget).1] at hwaits
  cases hwaits

theorem Sound.leaves
    (hpermits : permits' + t'.permit.toNat = permits + t.permit.toNat) (hfine : t'.Fine)
    (hcid : t'.correlationId = t.correlationId) (hwaits : t'.waits = false)
    (hget : ∀ cid j, waiters'.get? cid = some j ↔ waiters.get? cid = some j ∧ j ≠ i) :
    Sound c permits' drawn waiters' (tasks.set i t') := by
  apply hs.replace h hpermits hfine
  · exact fun cid j hj => .inr ((hget cid j).mp hj).symm
  · exact fun cid j hj hji => (hget cid j).mpr ⟨hj, hji⟩
  · intro hw
    rw [hwaits] at hw
    cases hw
  · exact Nat.le_refl drawn
  · exact fun cid hu => hs.drawn i t cid h (hcid.symm.trans hu)

/-- A task that keeps its permit, its identifier and its place in the table. -/
structure Task.Keeps (t t' : Task ν) : Prop where
  permit : t'.permit = t.permit
  correlationId : t'.correlationId = t.correlationId
  waits : t'.waits = t.waits
  pending : t'.future.isPending = true → t.future.isPending = true
  fine : t'.Fine

theorem Sound.set (hk : t.Keeps t') : Sound c permits drawn waiters (tasks.set i t') := by
  apply hs.replace h (by rw [hk.permit]) hk.fine
  · intro cid j hget
    by_cases hji : j = i
    · rw [hji] at hget
      obtain ⟨hwaits, hcid⟩ := hs.own h hget
      exact .inl ⟨hji, hk.waits.trans hwaits, hk.correlationId.trans hcid⟩
    · exact .inr ⟨hji, hget⟩
  · intro cid j hget _
    exact hget
  · intro hwaits hpend
    obtain ⟨cid, hcid, hget⟩ := hs.pending i t h (hk.waits.symm.trans hwaits) (hk.pending hpend)
    exact ⟨cid, hk.correlationId.trans hcid, hget⟩
  · exact Nat.le_refl drawn
  · intro cid hcid
    exact hs.drawn i t cid h (hk.correlationId.symm.trans hcid)

end

/-- What the invariant is about. -/
def State.core (s : State ν) : Nat × Nat × Dict String Nat × List (Task ν) :=
  (s.permits, s.drawn, s.waiters, s.tasks)

theorem progress_put (hs : s.Sound c) (h : s.tasks[i]? = some t) (hk : t.Keeps t')
    (hlost : t'.lost = true ↔ t.lost = true ∨ loses) (hsame : t.Same t')
    (hcore : s'.core = s.core) : Progress c loses s (s'.put i t') := by
  simp only [State.core, Prod.mk.injEq] at hcore
  obtain ⟨hpermits, hdrawn, hwaiters, htasks⟩ := hcore
  constructor
  · show Sound c s'.permits s'.drawn s'.waiters (s'.tasks.set i t')
    rw [hpermits, hdrawn, hwaiters, htasks]
    exact hs.set h hk
  · show Lost (s'.tasks.set i t') ↔ _
    rw [htasks]
    exact lost_set h hlost
  · show Quiet s.tasks (s'.tasks.set i t')
    rw [htasks]
    exact quiet_set h hsame

theorem popWaiter_eq : popWaiter s i t = { s with waiters := (popWaiter s i t).waiters } := by
  unfold popWaiter
  split <;> [split; skip] <;> rfl

theorem popWaiter_get? (hown : ∀ cid, s.waiters.get? cid = some i → t.correlationId = some cid)
    (cid : String) (j : Nat) : (popWaiter s i t).waiters.get? cid = some j ↔
      s.waiters.get? cid = some j ∧ j ≠ i := by
  have hother : t.correlationId ≠ some cid → s.waiters.get? cid = some j → j ≠ i := by
    intro hcid hget hji
    rw [hji] at hget
    exact hcid (hown cid hget)
  unfold popWaiter
  split
  · next own hcid =>
    rw [hcid, ne_eq, Option.some.injEq] at hother
    split
    · next hreg =>
      by_cases hc : own = cid
      · rw [← hc, Dict.get?_erase_self, hreg]
        simp [eq_comm]
      · rw [Dict.get?_erase_ne _ hc]
        exact ⟨fun hget => ⟨hget, hother hc hget⟩, And.left⟩
    · next hreg =>
      refine ⟨fun hget => ⟨hget, fun hji => ?_⟩, And.left⟩
      by_cases hc : own = cid
      · rw [hc, hget, hji] at hreg
        exact hreg rfl
      · exact hother hc hget hji
  · next hnone =>
    rw [hnone] at hother
    exact ⟨fun hget => ⟨hget, hother (Option.some_ne_none _).symm hget⟩, And.left⟩

theorem progress_popWaiter (hs : s.Sound c) (h : s.tasks[i]? = some t)
    (hpermit : t'.permit = t.permit) (hcid : t'.correlationId = t.correlationId)
    (hwaits : t'.waits = false) (hfine : t'.Fine) (hlost : t'.lost = true ↔ t.lost = true)
    (hsame : t.Same t') : Progress c False s ((popWaiter s i t).put i t') := by
  rw [popWaiter_eq]
  constructor
  · apply hs.leaves h (by rw [hpermit]; rfl) hfine hcid hwaits
    exact popWaiter_get? fun cid hreg => (hs.own h hreg).2
  · apply lost_set h
    rw [hlost, or_false]
  · exact quiet_set h hsame

theorem fine_done (t : Task ν)
    (hreply : ∀ payload, o = .reply payload → t.future.payload? = some payload) :
    Task.Fine { t with permit := false, phase := .done o } where
  request := nofun
  other := nofun
  owner := nofun
  holds := nofun
  waiting := nofun
  reply payload hpay := hreply payload (Option.some.inj hpay)

section

variable (hs : s.Sound c) (h : s.tasks[i]? = some t)

include hs h

theorem progress_release (hpermit : t.permit = true)
    (hwaits : t.waits = false) (hlost : t.lost = false)
    (hreply : ∀ payload, o = .reply payload → t.future.payload? = some payload) :
    Progress c False s (release s i t o) := by
  constructor
  · apply hs.leaves h _ (fine_done t hreply) rfl _ (hs.others h hwaits)
    · rw [hpermit]
      rfl
    · simp [Task.waits, Phase.waits]
  · apply lost_set h
    rw [hlost]
    simp [Task.lost]
  · exact quiet_set h ⟨rfl, rfl, id⟩

theorem progress_finish (hpermit : t.permit = true) (hlost : t.lost = false)
    (hreply : ∀ payload, o = .reply payload → t.future.payload? = some payload) :
    Progress c False s (finish s i t o) := by
  have hreq := (hs.fine i t h).owner hpermit
  -- the waiter leaves the table first, whichever way the block goes on
  have hpop : ∀ requested, Progress c False s ((popWaiter s i t).put i
      { cancelFuture t with cancelRequested := requested, phase := .finalizing o false }) := by
    intro requested
    apply progress_popWaiter hs h
    · rfl
    · rfl
    · simp [Task.waits, Phase.waits]
    · constructor
      · intro _
        exact hreq
      · nofun
      · intro _
        exact hreq
      · intro _ _
        exact hpermit
      · nofun
      · intro payload hpay
        have hpay := hreply payload (Option.some.inj hpay)
        exact (cancelFuture_payload t).trans hpay
    · rw [hlost]
      simp [Task.lost, Phase.loses]
    · refine ⟨rfl, cancelFuture_payload t, fun hp => ?_⟩
      rw [cancelFuture_pending] at hp
      cases hp
  have hrelease : Progress c False s (release (popWaiter s i t) i (cancelFuture t) o) := by
    have hthen := (hpop (cancelFuture t).cancelRequested).trans
      (progress_release (hpop _).sound
      (getElem?_set_of (by rw [popWaiter_eq]; exact h)) hpermit
      (by simp [Task.waits, Phase.waits]) (by simp [Task.lost, Phase.loses])
      (fun payload hpay => (cancelFuture_payload t).trans (hreply payload hpay)))
    simpa [release, State.put, List.set_set] using hthen
  unfold finish
  dsimp only
  split
  · exact hrelease
  · exact hrelease
  · exact hpop true

theorem progress_phase (hreq : phase.ofRequest = true → t.job.isRequest = true)
    (hother : phase.ofClose = true → t.job.isRequest = false)
    (hholds : t.job.isRequest = true → phase.holds = true → t.permit = true)
    (hacq : phase ≠ .acquiring) (hout : ∀ payload, phase.outcome? ≠ some (.reply payload))
    (hwaits : t.job.isRequest = true → phase.waits = t.phase.waits)
    (hlost : t.permit = true → phase.loses = t.phase.loses) (hcore : s'.core = s.core) :
    Progress c False s (s'.put i { t with phase := phase }) := by
  have hfine := hs.fine i t h
  apply progress_put hs h _ _ _ hcore
  · refine ⟨rfl, rfl, ?_, fun hpend => hpend, ?_⟩
    · unfold Task.waits
      cases hjob : t.job.isRequest
      · rfl
      · rw [hwaits hjob]
    · exact ⟨hreq, hother, hfine.owner, hholds, fun h => absurd h hacq,
        fun payload hpay => absurd hpay (hout payload)⟩
  · unfold Task.lost
    cases hpermit : t.permit
    · simp
    · rw [hlost hpermit, or_false]
  · exact ⟨rfl, rfl, id⟩

theorem progress_other (hjob : t.job.isRequest = false)
    (hreq : phase.ofRequest = false) (hout : ∀ payload, phase.outcome? ≠ some (.reply payload))
    (hcore : s'.core = s.core) : Progress c False s (s'.put i { t with phase := phase }) := by
  have hno : ¬ t.job.isRequest = true := by
    rw [hjob]
    decide
  apply progress_phase hs h _ (fun _ => hjob) (fun hj => absurd hj hno) _ hout
    (fun hj => absurd hj hno) (fun hpermit => absurd ((hs.fine i t h).owner hpermit) hno)
    hcore
  · intro hr
    rw [hreq] at hr
    cases hr
  · intro hacq
    rw [hacq] at hreq
    cases hreq

theorem progress_leave (hholds : t.phase.holds = true)
    (hloses : t.phase.loses = false) (ho : ∀ payload, o ≠ .reply payload) :
    Progress c False s (leave s i t o) := by
  unfold leave
  split
  · next hjob =>
    apply progress_finish hs h ((hs.fine i t h).holds hjob hholds)
    · rw [Task.lost, hloses, Bool.and_false]
    · intro payload hpay
      exact absurd hpay (ho payload)
  · next hjob =>
    apply progress_other hs h (Bool.eq_false_iff.mpr hjob) rfl _ rfl
    intro payload hpay
    exact ho payload (Option.some.inj hpay)

end

/-! ## Setup -/

theorem Sound.draw (hs : Sound c permits drawn waiters tasks) :
    Sound c permits (drawn + 1) waiters tasks where
  count := hs.count
  fine := hs.fine
  table := hs.table
  pending := hs.pending
  drawn := by
    intro j u cid hj hcid
    obtain ⟨n, hn, hu⟩ := hs.drawn j u cid hj hcid
    exact ⟨n, Nat.lt_succ_of_lt hn, hu⟩

theorem Sound.fresh (hs : Sound c permits drawn waiters tasks) :
    waiters.get? (c.uuid drawn) = none := by
  cases hget : waiters.get? (c.uuid drawn) with
  | none => rfl
  | some j =>
    obtain ⟨u, hu, -, hcid⟩ := hs.table _ j hget
    obtain ⟨n, hn, heq⟩ := hs.drawn j u _ hu hcid
    have hlt := c.uuid_injective heq
    omega

theorem progress_register {call : Call ν} (hs : s.Sound c) (h : s.tasks[i]? = some t)
    (hpermit : t.permit = true) (hwaits : t.phase.waits = false) (hloses : t.phase.loses = false) :
    Progress c False s (register c s i t call now) := by
  have hreq := (hs.fine i t h).owner hpermit
  have hlost : t.lost = false := by rw [Task.lost, hloses, Bool.and_false]
  have hidle : t.waits = false := by rw [Task.waits, hwaits, Bool.and_false]
  unfold register
  split
  · exact progress_finish hs h hpermit hlost nofun
  · next replyTo _ =>
    dsimp only
    split
    · next e _ =>
      have hdraw : State.Sound c { s with drawn := s.drawn + 1 } := hs.draw
      exact (progress_finish (o := .raised (.auth e)) hdraw h hpermit hlost nofun).of_tasks rfl
    · next body _ =>
      constructor
      · apply hs.replace h _
        · exact ⟨fun _ => hreq, nofun, fun _ => hreq, fun _ _ => hpermit, nofun, nofun⟩
        · intro cid j hj
          change Dict.get? (Dict.set s.waiters (c.uuid s.drawn) i) cid = some j at hj
          by_cases hc : c.uuid s.drawn = cid
          · rw [← hc, Dict.get?_set_self] at hj
            rw [← hc]
            exact .inl ⟨(Option.some.inj hj).symm, by simp [Task.waits, Phase.waits, hreq], rfl⟩
          · rw [Dict.get?_set_ne _ hc, hs.others h hidle] at hj
            exact .inr hj.symm
        · intro cid j hj _
          show Dict.get? (Dict.set s.waiters (c.uuid s.drawn) i) cid = some j
          rw [Dict.get?_set_ne, hj]
          intro hc
          rw [← hc, hs.fresh] at hj
          cases hj
        · intro _ _
          exact ⟨c.uuid s.drawn, rfl, Dict.get?_set_self _ _ _⟩
        · exact Nat.le_succ s.drawn
        · intro cid hcid
          exact ⟨s.drawn, Nat.lt_succ_self _, (Option.some.inj hcid).symm⟩
        · rfl
      · apply lost_set h
        rw [hlost]
        simp [Task.lost, Phase.loses]
      · exact quiet_set h ⟨rfl, rfl, id⟩

/-- A task between two awaits of its setup, or before the first. -/
structure Task.Busy (t : Task ν) : Prop where
  holds : t.phase.holds = true
  waits : t.phase.waits = false
  loses : t.phase.loses = false

section

variable (hs : s.Sound c) (h : s.tasks[i]? = some t) (hb : t.Busy)

include hs h hb

theorem progress_proceed : Progress c False s (proceed c s i t now) := by
  unfold proceed
  split
  · next call hjob =>
    apply progress_register hs h _ hb.waits hb.loses
    exact (hs.fine i t h).holds (by rw [hjob]; rfl) hb.holds
  · next call hjob =>
    have hother : t.job.isRequest = false := by
      rw [hjob]
      rfl
    split
    · exact progress_other hs h hother rfl nofun rfl
    · exact progress_other hs h hother rfl nofun rfl
  · next hjob => exact progress_other hs h (by rw [hjob]; rfl) rfl nofun rfl
  · next hjob => exact progress_other hs h (by rw [hjob]; rfl) rfl nofun rfl

theorem progress_setup (hcore : s'.core = s.core) :
    Progress c False s (s'.put i { t with phase := .setup stage }) := by
  refine progress_phase hs h ?_ ?_ ?_ ?_ ?_ ?_ ?_ hcore
  · nofun
  · nofun
  · intro hjob _
    exact (hs.fine i t h).holds hjob hb.holds
  · nofun
  · nofun
  · intro _
    exact hb.waits.symm
  · intro _
    exact hb.loses.symm

theorem progress_locked : Progress c False s (locked c s i t now) := by
  unfold locked
  split
  · exact progress_leave hs h hb.holds hb.loses nofun
  · split
    · exact progress_proceed hs h hb
    · split
      · exact progress_setup hs h hb rfl
      · exact progress_setup hs h hb rfl

theorem progress_ensureResources : Progress c False s (ensureResources c s i t now) := by
  unfold ensureResources
  split
  · exact progress_leave hs h hb.holds hb.loses nofun
  · split
    · exact progress_proceed hs h hb
    · split
      · exact progress_locked hs h hb
      · exact progress_setup hs h hb rfl

theorem progress_advance {name : String} (hstep : advance c s i t now name stage = some s') :
    Progress c False s s' := by
  cases stage with
  | lock =>
    rw [advance] at hstep
    split at hstep
    · cases hstep
      exact progress_locked hs h hb
    · cases hstep
  | connecting | channel | exchange | queue | bind =>
    cases hstep
    exact progress_setup hs h hb rfl
  | consume =>
    cases hstep
    have hstored : State.Sound c { s with
        channel := some .up, exchange := true, replyQueue := some name, consumerTag := true,
        lock := none } := hs
    exact (progress_proceed hstored h hb).of_tasks rfl

theorem progress_abandon (ho : ∀ payload, o ≠ .reply payload) :
    Progress c False s (abandon s i t o) := by
  have hunlocked : State.Sound c
      { s with lock := if s.lock = some i then none else s.lock } := hs
  exact (progress_leave hunlocked h hb.holds hb.loses ho).of_tasks rfl

end

/-! ## Closing -/

section

variable (hs : s.Sound c) (h : s.tasks[i]? = some t)
  (hjob : t.job.isRequest = false)

include hs h hjob

theorem progress_forget : Progress c False s (forget s i t) :=
  progress_other hs h hjob rfl nofun rfl

theorem progress_closeConnection : Progress c False s (closeConnection s i t) := by
  unfold closeConnection
  split
  · exact progress_other hs h hjob rfl nofun rfl
  · exact progress_forget hs h hjob

theorem progress_closeChannel : Progress c False s (closeChannel s i t) := by
  unfold closeChannel
  split
  · exact progress_other hs h hjob rfl nofun rfl
  · exact progress_closeConnection hs h hjob

theorem progress_cancelConsumer : Progress c False s (cancelConsumer s i t) := by
  unfold cancelConsumer
  split
  · exact progress_other hs h hjob rfl nofun rfl
  · exact progress_closeChannel hs h hjob

theorem progress_advanceClose {stage : Closing} (hstep : advanceClose s i t stage = some s') :
    Progress c False s s' := by
  cases stage with
  | gathering streams cancelled =>
    rw [advanceClose] at hstep
    split at hstep
    · cases hstep
      split
      · exact progress_other hs h hjob rfl nofun rfl
      · exact progress_cancelConsumer hs h hjob
    · cases hstep
  | consumer =>
    cases hstep
    exact progress_closeChannel hs h hjob
  | channel =>
    cases hstep
    exact progress_closeConnection hs h hjob
  | connection =>
    cases hstep
    exact progress_forget hs h hjob

end

/-- A task that has not run has no permit and no waiter. -/
structure Task.New (t : Task ν) : Prop where
  permit : t.permit = false
  correlationId : t.correlationId = none
  waits : t.phase.waits = false
  fine : t.Fine

theorem progress_spawn (hs : s.Sound c) (hnew : t.New) (hcore : s'.core = s.core) :
    Progress c False s (spawn s' t) := by
  simp only [State.core, Prod.mk.injEq] at hcore
  obtain ⟨hpermits, hdrawn, hwaiters, htasks⟩ := hcore
  have htask : (spawn s' t).tasks = s.tasks ++ [t] := by rw [spawn, htasks]
  constructor
  · show Sound c s'.permits s'.drawn s'.waiters (spawn s' t).tasks
    rw [hpermits, hdrawn, hwaiters, htask]
    constructor
    · rw [List.countP_append, List.countP_singleton, hnew.permit]
      exact hs.count
    · intro j u hj
      rcases getElem?_append_cases hj with hj | ⟨-, rfl⟩
      · exact hs.fine j u hj
      · exact hnew.fine
    · intro cid j hj
      obtain ⟨u, hu, hwaits, hcid⟩ := hs.table cid j hj
      exact ⟨u, getElem?_append_of hu, hwaits, hcid⟩
    · intro j u hj hwaits hpend
      rcases getElem?_append_cases hj with hj | ⟨-, rfl⟩
      · exact hs.pending j u hj hwaits hpend
      · rw [Task.waits, hnew.waits, Bool.and_false] at hwaits
        cases hwaits
    · intro j u cid hj hcid
      rcases getElem?_append_cases hj with hj | ⟨-, rfl⟩
      · exact hs.drawn j u cid hj hcid
      · rw [hnew.correlationId] at hcid
        cases hcid
  · rw [htask, or_false]
    constructor
    · intro hl
      obtain ⟨j, u, hj, hul⟩ := hl
      rcases getElem?_append_cases hj with hj | ⟨-, rfl⟩
      · exact ⟨j, u, hj, hul⟩
      · rw [Task.lost, hnew.permit] at hul
        cases hul
    · intro hl
      obtain ⟨j, u, hj, hul⟩ := hl
      exact ⟨j, u, getElem?_append_of hj, hul⟩
  · rw [htask]
    intro j u hj
    exact ⟨u, getElem?_append_of hj, Task.Same.rfl' u⟩

theorem cancelStream_eq (t : Task ν) :
    t.cancelStream = { t with cancelRequested := t.cancelStream.cancelRequested } := by
  unfold Task.cancelStream
  split <;> rfl

/-- A task that keeps all the invariant is about, and gets no delivery. -/
structure Task.Stays (t t' : Task ν) : Prop extends Task.Keeps t t', Task.Same t t' where
  lost : t'.lost = t.lost

theorem failWaiter_stays (hf : t.Fine) : t.Stays (failWaiter t) := by
  unfold failWaiter
  rw [cancelStream_eq]
  refine ⟨⟨rfl, rfl, rfl, Future.isPending_of_fail, ?_⟩, rfl, Future.payload?_fail _ _, rfl⟩
  · refine ⟨hf.request, hf.other, hf.owner, hf.holds, hf.waiting, ?_⟩
    intro payload hpay
    exact (Future.payload?_fail _ _).trans (hf.reply payload hpay)

theorem failWaiter_pending (t : Task ν) : (failWaiter t).future.isPending = false := by
  unfold failWaiter
  rw [cancelStream_eq]
  exact Future.isPending_fail _ _

theorem afterClose_stays (hf : t.Fine) (j : Nat) : t.Stays (afterClose s j t) := by
  unfold afterClose
  split
  · exact failWaiter_stays hf
  · exact ⟨⟨rfl, rfl, rfl, fun hp => hp, hf⟩, rfl, rfl, rfl⟩

theorem failAll_get? (s : State ν) (j : Nat) :
    (failAll s).tasks[j]? = s.tasks[j]?.map (afterClose s j) := by
  rw [failAll, List.getElem?_mapIdx]

theorem failAll_cases (hj : (failAll s).tasks[j]? = some u) :
    ∃ t, s.tasks[j]? = some t ∧ u = afterClose s j t := by
  rw [failAll_get?] at hj
  obtain ⟨t, ht, heq⟩ := Option.map_eq_some_iff.mp hj
  exact ⟨t, ht, heq.symm⟩

theorem failAll_of (h : s.tasks[j]? = some t) :
    (failAll s).tasks[j]? = some (afterClose s j t) := by
  rw [failAll_get?, h, Option.map_some]

theorem countP_failAll (hs : s.Sound c) :
    (failAll s).tasks.countP Task.permit = s.tasks.countP Task.permit := by
  have hmap : (failAll s).tasks.map Task.permit = s.tasks.map Task.permit := by
    apply List.ext_getElem?
    intro j
    rw [List.getElem?_map, List.getElem?_map, failAll_get?]
    cases hj : s.tasks[j]? with
    | none => rfl
    | some u => exact congrArg some (afterClose_stays (hs.fine j u hj) j).permit
  have hcount := congrArg (List.countP id) hmap
  rw [List.countP_map, List.countP_map] at hcount
  exact hcount

/-- A request that waits is in the table as long as its future is pending, so `close` fails it. -/
theorem afterClose_pending (hs : s.Sound c) (h : s.tasks[j]? = some t) (hwaits : t.waits = true) :
    (afterClose s j t).future.isPending = false := by
  unfold afterClose
  split
  · exact failWaiter_pending t
  · next hreg =>
    cases hpend : t.future.isPending with
    | false => rfl
    | true =>
      obtain ⟨cid, -, hget⟩ := hs.pending j t h hwaits hpend
      exact absurd (List.mem_map.mpr ⟨(cid, j), Dict.mem_of_get? _ hget, rfl⟩) hreg

theorem sound_failAll (hs : s.Sound c) : (failAll s).Sound c where
  count := by
    rw [countP_failAll hs]
    exact hs.count
  fine := by
    intro j u hj
    obtain ⟨t, ht, rfl⟩ := failAll_cases hj
    exact (afterClose_stays (hs.fine j t ht) j).fine
  table := by
    intro cid j hj
    cases hj
  pending := by
    intro j u hj hwaits hpend
    obtain ⟨t, ht, rfl⟩ := failAll_cases hj
    have hkeeps := afterClose_stays (s := s) (hs.fine j t ht) j
    rw [afterClose_pending hs ht (hkeeps.waits.symm.trans hwaits)] at hpend
    cases hpend
  drawn := by
    intro j u cid hj hcid
    obtain ⟨t, ht, rfl⟩ := failAll_cases hj
    have hkeeps := afterClose_stays (s := s) (hs.fine j t ht) j
    exact hs.drawn j t cid ht (hkeeps.correlationId.symm.trans hcid)

theorem progress_failAll (hs : s.Sound c) : Progress c False s (failAll s) := by
  refine ⟨sound_failAll hs, ?_, ?_⟩
  · rw [or_false]
    constructor
    · intro hl
      obtain ⟨j, u, hj, hul⟩ := hl
      obtain ⟨t, ht, rfl⟩ := failAll_cases hj
      exact ⟨j, t, ht, (afterClose_stays (hs.fine j t ht) j).lost.symm.trans hul⟩
    · intro hl
      obtain ⟨j, t, ht, htl⟩ := hl
      exact ⟨j, _, failAll_of ht, (afterClose_stays (hs.fine j t ht) j).lost.trans htl⟩
  · intro j t ht
    exact ⟨_, failAll_of ht, (afterClose_stays (hs.fine j t ht) j).toSame⟩

theorem new_running {job : Job ν} (hjob : job.isRequest = false) :
    Task.New ({ job := job, phase := .running } : Task ν) := by
  refine ⟨rfl, rfl, rfl, ⟨nofun, nofun, nofun, ?_, nofun, nofun⟩⟩
  intro hreq
  rw [hjob] at hreq
  cases hreq

theorem spawn_get? (s : State ν) (t : Task ν) : (spawn s t).tasks[s.tasks.length]? = some t := by
  rw [spawn, List.getElem?_append_right (Nat.le_refl _)]
  simp

theorem length_failAll (s : State ν) : (failAll s).tasks.length = s.tasks.length := by
  rw [failAll, List.length_mapIdx]

theorem progress_beginClose (hs : s.Sound c) : Progress c False s (beginClose s) := by
  have hfail := progress_failAll hs
  have hnew : Task.New ({ job := .close, phase := .running } : Task ν) := new_running rfl
  have hspawn : Progress c (False ∨ False) s
      (spawn (failAll s) { job := .close, phase := .running }) :=
    hfail.trans (progress_spawn hfail.sound hnew rfl)
  have hget := spawn_get? (failAll s) { job := .close, phase := .running }
  rw [length_failAll] at hget
  rw [or_self] at hspawn
  rw [← or_self False]
  unfold beginClose
  dsimp only
  split
  · exact hspawn.trans (progress_cancelConsumer hspawn.sound hget rfl)
  · apply hspawn.trans
    refine progress_other hspawn.sound hget rfl rfl ?_ rfl
    nofun

/-! ## Signals -/

/-- A cancellation that reaches a request while its `finally` block awaits the stream task. -/
def Interrupts (s : State ν) (e : Event ν) : Prop :=
  ∃ i t o cancelled, e = .signal i .cancel ∧ s.tasks[i]? = some t ∧
    t.phase = .finalizing o cancelled

/-- What a signal does to a task and its client. -/
inductive Moved (c : Settings β ν) (s : State ν) (i : Nat) (t : Task ν) (now : Int) :
    Signal → State ν → Prop
  | acquired (hphase : t.phase = .acquiring) (hfree : 0 < s.permits) :
    Moved c s i t now .acquired (ensureResources c ({ s with permits := s.permits - 1 }.put i
      { t with permit := true, phase := .running }) i { t with permit := true, phase := .running }
      now)
  | advance {name : String} {stage : Setup} {s' : State ν} (hphase : t.phase = .setup stage)
    (h : Rpc.advance c s i t now name stage = some s') : Moved c s i t now (.back name) s'
  | sent {name : String} (hphase : t.phase = .sending) :
    Moved c s i t now (.back name) (Rpc.sent s i t)
  | advanceClose {name : String} {stage : Closing} {s' : State ν}
    (hphase : t.phase = .closing stage) (h : Rpc.advanceClose s i t stage = some s') :
    Moved c s i t now (.back name) s'
  | abandon {what : Signal} {stage : Setup} {o : Outcome ν} (hphase : t.phase = .setup stage)
    (ho : ∀ payload, o ≠ .reply payload) : Moved c s i t now what (Rpc.abandon s i t o)
  | leave {what : Signal} {o : Outcome ν} (hwaits : t.phase.waits = true)
    (ho : ∀ payload, o ≠ .reply payload) : Moved c s i t now what (Rpc.leave s i t o)
  | finish {what : Signal} {o : Outcome ν} (hwaits : t.phase.waits = true)
    (hreq : t.phase.ofRequest = true)
    (hreply : ∀ payload, o = .reply payload → t.future.payload? = some payload) :
    Moved c s i t now what (Rpc.finish s i t o)
  -- the stream task has some time to end, or is cancelled
  | wait {what : Signal} {requested : Bool} {phase : Phase ν} (hwaits : t.phase.waits = true)
    (hreq : t.phase.ofRequest = true) (hphase : phase = .draining ∨ ∃ b, phase = .stopping b) :
    Moved c s i t now what (s.put i { t with cancelRequested := requested, phase := phase })
  | release {o : Outcome ν} (hphase : t.phase = .finalizing o false) :
    Moved c s i t now .streamEnded (Rpc.release s i t o)
  | lose {o : Outcome ν} (hphase : t.phase = .finalizing o true) :
    Moved c s i t now .streamEnded (s.put i { t with phase := .done .cancelled })
  | withdraw (hphase : t.phase = .acquiring) :
    Moved c s i t now .cancel (s.put i { t with phase := .done .cancelled })
  | interrupt {o : Outcome ν} {cancelled : Bool} (hphase : t.phase = .finalizing o cancelled) :
    Moved c s i t now .cancel (s.put i { t with phase := .finalizing o true })
  | gather {streams : List Nat} {cancelled : Bool}
    (hphase : t.phase = .closing (.gathering streams cancelled)) :
    Moved c s i t now .cancel (s.put i { t with phase := .closing (.gathering streams true) })
  | closeCancelled {stage : Closing} (hphase : t.phase = .closing stage) :
    Moved c s i t now .cancel (s.put i { t with phase := .done .cancelled })
  -- the stream task goes on, and nothing is delivered
  | stream {what : Signal} {t' : Task ν} (hwhat : what ≠ .cancel) (hjob : t'.job = t.job)
    (hphase : t'.phase = t.phase) (hpermit : t'.permit = t.permit)
    (hcid : t'.correlationId = t.correlationId) (hfuture : t'.future = t.future)
    (hevents : t'.events = t.events) : Moved c s i t now what (s.put i t')

theorem replyOf_eq {payload : Object ν} (h : replyOf t = .reply payload) :
    t.future.payload? = some payload := by
  unfold replyOf at h
  split at h
  · next heq =>
    injection h with h
    rw [heq, h]
    rfl
  · cases h
  · cases h
  · cases h

section Moved

variable {what : Signal}

theorem resume_moved (hphase : t.phase = .awaiting) (hstep : resume s i t = some s') :
    Moved c s i t now what s' := by
  have hwaits : t.phase.waits = true := by rw [hphase]; rfl
  have hreq : t.phase.ofRequest = true := by rw [hphase]; rfl
  unfold resume at hstep
  split at hstep
  · cases hstep
  · cases hstep
  · cases hstep
    exact .finish hwaits hreq nofun
  · next payload hfut =>
    split at hstep <;> rw [← Option.some.inj hstep]
    · refine .finish hwaits hreq fun payload' heq => ?_
      injection heq with heq
      rw [hfut, heq]
      rfl
    · exact .wait hwaits hreq (.inl rfl)

theorem drained_moved {how : Ending} (hstep : drained s i t how = some s') :
    Moved c s i t now .streamEnded s' := by
  unfold drained at hstep
  split at hstep
  · next hphase =>
    cases hstep
    refine .finish (by rw [hphase]; rfl) (by rw [hphase]; rfl) fun payload heq => ?_
    cases how with
    | returned => exact replyOf_eq heq
    | raised | cancelled => cases heq
  · next cancelled hphase =>
    cases hstep
    refine .finish (by rw [hphase]; rfl) (by rw [hphase]; rfl) fun payload heq => ?_
    split at heq
    · cases heq
    · exact replyOf_eq heq
  · next o cancelled hphase =>
    cases hstep
    cases cancelled with
    | true => exact .lose hphase
    | false => exact .release hphase
  · cases hstep

theorem cancel_moved (hstep : cancel s i t = some s') : Moved c s i t now .cancel s' := by
  unfold cancel at hstep
  split at hstep
  case h_2 | h_11 => cases hstep
  all_goals rw [← Option.some.inj hstep]
  · next hphase => exact .withdraw hphase
  · next hphase => exact .abandon hphase nofun
  · next hphase => exact .leave (by rw [hphase]; rfl) nofun
  · next hphase => exact .leave (by rw [hphase]; rfl) nofun
  · next hphase => exact .leave (by rw [hphase]; rfl) nofun
  · next hphase => exact .wait (by rw [hphase]; rfl) (by rw [hphase]; rfl) (.inr ⟨true, rfl⟩)
  · next hphase => exact .interrupt hphase
  · next hphase => exact .gather hphase
  · next hphase => exact .closeCancelled hphase

theorem signal_moved (hstep : signal c s i t now what = some s') : Moved c s i t now what s' := by
  cases what with
  | acquired =>
    rw [signal] at hstep
    split at hstep
    · next hphase =>
      split at hstep
      · next hfree =>
        cases hstep
        exact .acquired hphase hfree
      · cases hstep
    · cases hstep
  | back name =>
    rw [signal] at hstep
    split at hstep
    · next hphase => exact .advance hphase hstep
    · next hphase =>
      cases hstep
      exact .sent hphase
    · next hphase => exact .advanceClose hphase hstep
    · cases hstep
  | raises =>
    rw [signal] at hstep
    split at hstep
    · cases hstep
    · next hphase =>
      cases hstep
      exact .abandon hphase nofun
    · next hphase =>
      cases hstep
      exact .leave (by rw [hphase]; rfl) nofun
    · cases hstep
  | resumed =>
    rw [signal] at hstep
    split at hstep
    · next hphase => exact resume_moved hphase hstep
    · cases hstep
  | streamEnded =>
    rw [signal] at hstep
    split at hstep
    · exact drained_moved hstep
    · cases hstep
  | timeout =>
    rw [signal] at hstep
    split at hstep
    · next hphase =>
      cases hstep
      exact .finish (by rw [hphase]; rfl) (by rw [hphase]; rfl) nofun
    · next hphase =>
      rw [← Option.some.inj hstep, cancelStream_eq]
      exact .wait (by rw [hphase]; rfl) (by rw [hphase]; rfl) (.inr ⟨false, rfl⟩)
    · cases hstep
  | cancel => exact cancel_moved hstep
  | take =>
    rw [signal] at hstep
    split at hstep
    · next hqueue _ =>
      cases hstep
      refine .stream nofun rfl rfl rfl rfl rfl ?_
      rw [Task.events, Task.events, hqueue, List.append_assoc]
      rfl
    · cases hstep
  | callbackReturns | callbackRaises | streamCancelled | swallowed =>
    rw [signal] at hstep
    split at hstep <;> cases hstep
    exact .stream nofun rfl rfl rfl rfl rfl rfl

theorem Phase.holds_of_waits (h : phase.waits = true) :
    phase.holds = true ∧ phase.loses = false := by
  cases phase <;> first | exact ⟨rfl, rfl⟩ | cases h

theorem progress_stream (hs : s.Sound c) (h : s.tasks[i]? = some t)
    (hjob : t'.job = t.job) (hphase : t'.phase = t.phase) (hpermit : t'.permit = t.permit)
    (hcid : t'.correlationId = t.correlationId) (hfuture : t'.future = t.future)
    (hevents : t'.events = t.events) : Progress c False s (s.put i t') := by
  obtain ⟨hrequest, hother, howner, hholds, hwaiting, hreply⟩ := hs.fine i t h
  refine progress_put hs h ⟨hpermit, hcid, ?_, ?_, ?_⟩ ?_
    ⟨hevents, by rw [hfuture], by rw [hfuture]; exact id⟩ rfl
  · rw [Task.waits, Task.waits, hjob, hphase]
  · rw [hfuture]
    exact id
  · exact ⟨by rwa [hphase, hjob], by rwa [hphase, hjob], by rwa [hpermit, hjob],
      by rwa [hjob, hphase, hpermit], by rwa [hphase, hpermit], by rwa [hphase, hfuture]⟩
  · rw [Task.lost, Task.lost, hpermit, hphase, or_false]

theorem progress_wait {requested : Bool} (hs : s.Sound c) (h : s.tasks[i]? = some t)
    (hwaits : t.phase.waits = true) (hreq : t.phase.ofRequest = true)
    (hphase : phase = .draining ∨ ∃ b, phase = .stopping b) :
    Progress c False s (s.put i { t with cancelRequested := requested, phase := phase }) := by
  have hf := hs.fine i t h
  obtain ⟨hholds, hloses⟩ := Phase.holds_of_waits hwaits
  have hpermit := hf.permit hreq hholds
  have hrequest := hf.request hreq
  refine progress_put hs h ⟨rfl, rfl, ?_, id, ?_⟩ ?_ ⟨rfl, rfl, id⟩ rfl
  · rw [Task.waits, Task.waits, hwaits]
    rcases hphase with rfl | ⟨b, rfl⟩ <;> rfl
  · rcases hphase with rfl | ⟨b, rfl⟩ <;>
      exact ⟨fun _ => hrequest, nofun, hf.owner, fun _ _ => hpermit, nofun, nofun⟩
  · rw [Task.lost, Task.lost, hloses]
    rcases hphase with rfl | ⟨b, rfl⟩ <;> simp [Phase.loses]

theorem busy_setup (h : t.phase = .setup stage) : t.Busy := by
  constructor <;> rw [h] <;> rfl

section

variable (hs : s.Sound c) (h : s.tasks[i]? = some t)

include hs h

theorem progress_acquired (hphase : t.phase = .acquiring) (hfree : 0 < s.permits) :
    Progress c False s (ensureResources c ({ s with permits := s.permits - 1 }.put i
      { t with permit := true, phase := .running }) i { t with permit := true, phase := .running }
      now) := by
  have hf := hs.fine i t h
  have hpermit : t.permit = false := hf.waiting hphase
  have hreq : t.job.isRequest = true := hf.request (by rw [hphase]; rfl)
  have htake : Progress c False s ({ s with permits := s.permits - 1 }.put i
      { t with permit := true, phase := .running }) := by
    constructor
    · refine hs.leaves h ?_ ⟨nofun, nofun, fun _ => hreq, fun _ _ => rfl, nofun, nofun⟩ rfl ?_
        (hs.others h ?_)
      · rw [hpermit]
        show s.permits - 1 + 1 = s.permits + 0
        omega
      · simp [Task.waits, Phase.waits]
      · simp [Task.waits, hphase, Phase.waits]
    · apply lost_set h
      simp [Task.lost, hpermit, Phase.loses]
    · exact quiet_set h ⟨rfl, rfl, id⟩
  have hget : ({ s with permits := s.permits - 1 }.put i
      { t with permit := true, phase := .running } : State ν).tasks[i]? =
        some { t with permit := true, phase := .running } := getElem?_set_of h
  rw [← or_self False]
  exact htake.trans (progress_ensureResources htake.sound hget ⟨rfl, rfl, rfl⟩)

theorem progress_sent (hphase : t.phase = .sending) : Progress c False s (sent s i t) := by
  unfold sent
  split
  · next hreq =>
    refine progress_phase hs h (fun _ => hreq) nofun ?_ nofun nofun ?_ ?_ rfl
    · intro _ _
      exact (hs.fine i t h).holds hreq (by rw [hphase]; rfl)
    · intro _
      rw [hphase]
      rfl
    · intro _
      rw [hphase]
      rfl
  · next hreq => exact progress_other hs h (Bool.eq_false_iff.mpr hreq) rfl nofun rfl

theorem progress_finalized
    (hphase : t.phase = .finalizing o false) : Progress c False s (release s i t o) := by
  have hf := hs.fine i t h
  apply progress_release hs h (hf.permit (by rw [hphase]; rfl) (by rw [hphase]; rfl))
  · rw [Task.waits, hphase]
    exact Bool.and_false _
  · rw [Task.lost, hphase]
    exact Bool.and_false _
  · intro payload heq
    apply hf.reply payload
    rw [hphase, heq]
    rfl

/-- A request that is cancelled in its `finally` block keeps its permit for good. -/
theorem progress_interrupt {cancelled : Bool} (hphase : t.phase = .finalizing o cancelled) :
    Progress c (Interrupts s (.signal i .cancel)) s
      (s.put i { t with phase := .finalizing o true }) := by
  have hf := hs.fine i t h
  have hreq : t.job.isRequest = true := hf.request (by rw [hphase]; rfl)
  have hpermit : t.permit = true := hf.holds hreq (by rw [hphase]; rfl)
  refine progress_put hs h ⟨rfl, rfl, ?_, id, ?_⟩ ?_ ⟨rfl, rfl, id⟩ rfl
  · rw [Task.waits, Task.waits, hphase]
    rfl
  · refine ⟨fun _ => hreq, nofun, hf.owner, fun _ _ => hpermit, nofun, ?_⟩
    intro payload hpay
    apply hf.reply payload
    rw [hphase]
    exact hpay
  · refine iff_of_true ?_ (.inr ⟨i, t, o, cancelled, rfl, h, hphase⟩)
    rw [hpermit]
    rfl

theorem progress_signal (hstep : signal c s i t now what = some s') :
    Progress c (Interrupts s (.signal i what)) s s' := by
  have hf := hs.fine i t h
  have hno : (∀ o cancelled, what = .cancel → t.phase ≠ .finalizing o cancelled) →
      ¬ Interrupts s (.signal i what) := by
    intro hne hint
    obtain ⟨j, u, o, cancelled, heq, hj, hphase⟩ := hint
    injection heq with hi hwhat
    rw [← hi, h] at hj
    rw [← Option.some.inj hj] at hphase
    exact hne o cancelled hwhat hphase
  have hwaiting : t.phase.waits = true → ¬ Interrupts s (.signal i what) := by
    intro hwaits
    apply hno
    intro o cancelled _ heq
    rw [heq] at hwaits
    cases hwaits
  cases signal_moved hstep with
  | acquired hphase hfree => exact (progress_acquired hs h hphase hfree).of_not (hno nofun)
  | advance hphase hadvance =>
    exact (progress_advance hs h (busy_setup hphase) hadvance).of_not (hno nofun)
  | sent hphase => exact (progress_sent hs h hphase).of_not (hno nofun)
  | advanceClose hphase hclose =>
    have hjob := hf.other (by rw [hphase]; rfl)
    exact (progress_advanceClose hs h hjob hclose).of_not (hno nofun)
  | abandon hphase ho =>
    refine (progress_abandon hs h (busy_setup hphase) ho).of_not (hno ?_)
    rw [hphase]
    nofun
  | leave hwaits ho =>
    obtain ⟨hholds, hloses⟩ := Phase.holds_of_waits hwaits
    exact (progress_leave hs h hholds hloses ho).of_not (hwaiting hwaits)
  | finish hwaits hreq hreply =>
    obtain ⟨hholds, hloses⟩ := Phase.holds_of_waits hwaits
    have hlost : t.lost = false := by rw [Task.lost, hloses, Bool.and_false]
    exact (progress_finish hs h (hf.permit hreq hholds) hlost hreply).of_not (hwaiting hwaits)
  | wait hwaits hreq hphase =>
    exact (progress_wait hs h hwaits hreq hphase).of_not (hwaiting hwaits)
  | release hphase => exact (progress_finalized hs h hphase).of_not (hno nofun)
  | lose hphase =>
    refine .of_not ?_ (hno nofun)
    refine progress_phase hs h nofun nofun nofun nofun nofun ?_ ?_ rfl
    · intro _
      rw [hphase]
      rfl
    · intro _
      rw [hphase]
      rfl
  | withdraw hphase =>
    refine .of_not ?_ (hno (by rw [hphase]; nofun))
    refine progress_phase hs h nofun nofun nofun nofun nofun ?_ ?_ rfl
    · intro _
      rw [hphase]
      rfl
    · intro hpermit
      rw [hf.waiting hphase] at hpermit
      cases hpermit
  | interrupt hphase => exact progress_interrupt hs h hphase
  | gather hphase | closeCancelled hphase =>
    refine .of_not ?_ (hno (by rw [hphase]; nofun))
    exact progress_other hs h (hf.other (by rw [hphase]; rfl)) rfl nofun rfl
  | stream hwhat hjob hphase hpermit hcid hfuture hevents =>
    refine .of_not ?_ (hno fun _ _ hcancel => absurd hcancel hwhat)
    exact progress_stream hs h hjob hphase hpermit hcid hfuture hevents

end

end Moved

end Moves

end RagForge.Rpc
