import Mathlib.Algebra.BigOperators.Group.List.Basic
import Mathlib.Algebra.GroupWithZero.Nat
import RagForge.Sequence.Follow

/-
A micro-batching scheduler with two classes of work.

Submissions wait in one queue for each class.  Workers compose batches from both queues, run the
model on a batch and settle the future of each item.  Callers may cancel what they submitted, and
any number of shutdown calls may run at once.  Every region that the scheduler runs under its lock
is one action here, and so is every operation on a future, so a run of `step` is an interleaving of
callers, workers and shutdown calls.

What differs between schedulers is a `Discipline`: the items and their weight, the admission test,
the counters kept beside the queues (the ledger) and how the output of the model is distributed.
-/

namespace RagForge.Batching

open Sequence

inductive SchedulingClass
  | live
  | background
  deriving DecidableEq

def perClass {α : Type} (live background : α) : SchedulingClass → α
  | .live => live
  | .background => background

variable {α : Type}

@[simp] theorem perClass_live (live background : α) : perClass live background .live = live := rfl

@[simp] theorem perClass_background (live background : α) :
    perClass live background .background = background := rfl

/-- An accepted item.  Its number also names its future. -/
structure Ticket (ι : Type) where
  id : Nat
  item : ι
  deriving DecidableEq

/-! ## Futures -/

/-- How a future was settled: by the model, by a failed batch, or by a shutdown. -/
inductive Outcome (ε ρ : Type)
  | value (r : ρ)
  | failed (e : ε)
  | closed
  deriving DecidableEq

inductive Future (ε ρ : Type)
  | pending
  | running
  | cancelled
  | done (o : Outcome ε ρ)
  deriving DecidableEq

variable {ε ρ : Type}

namespace Future

def isPending : Future ε ρ → Bool
  | .pending => true
  | _ => false

def isCancelled : Future ε ρ → Bool
  | .cancelled => true
  | _ => false

def notify : Future ε ρ → Future ε ρ
  | .pending => .running
  | f => f

def settle (f : Future ε ρ) (o : Outcome ε ρ) : Future ε ρ :=
  match f with
  | .pending | .running => .done o
  | f => f

end Future

/-! ## Workers, shutdown calls and the state -/

/-- Where a worker is: not started, waiting for work, holding the window open, running the model,
settling the futures of its batch, or gone. -/
inductive Worker (ι ε ρ : Type)
  | unstarted
  | collecting
  | window
  | running (batch : List (Ticket ι))
  | settling (batch : List (Ticket ι)) (rest : List (Ticket ι × Outcome ε ρ))
  | exited

variable {ι : Type}

namespace Worker

def batch : Worker ι ε ρ → Option (List (Ticket ι))
  | .running b | .settling b _ => some b
  | _ => none

def isExited : Worker ι ε ρ → Bool
  | .exited => true
  | _ => false

end Worker

/-- Where a shutdown call is: it has closed admission, it joins the workers one by one, it is about
to clear the queues, it fails what was left in them, or it has returned. -/
inductive Shutdown (ι : Type)
  | closing
  | joining (next : Nat) (drained : Bool)
  | clearing (drained : Bool)
  | failing (drained : Bool) (left : List (Ticket ι))
  | returned (result : Bool)
  deriving DecidableEq

structure State (ι ε ρ Λ : Type) where
  queue : SchedulingClass → List (Ticket ι)
  futures : Nat → Future ε ρ
  workers : List (Worker ι ε ρ)
  busy : Int
  background : Int
  ledger : Λ
  closed : Bool
  drain : Bool
  started : Bool
  /-- Everything that was ever admitted, in order. -/
  accepted : List (Ticket ι)
  /-- Cancelled futures whose callback has not run. -/
  releasing : List Nat
  shutdowns : List (Shutdown ι)

structure Discipline (ι ω ρ ε Λ : Type) where
  cls : ι → SchedulingClass
  weight : ι → Nat
  maxBatch : Nat
  backgroundFloor : Nat
  backgroundCap : Nat
  workers : Nat
  ledger : Λ
  /-- What is pending, as the scheduler computes it. -/
  pending : Λ → (SchedulingClass → List ι) → Int
  admits : Λ → (SchedulingClass → List ι) → List ι → Bool
  enqueued : ι → Λ → Λ
  dequeued : ι → Λ → Λ
  cleared : Λ → Λ
  begun : List ι → Λ → Λ
  ended : List ι → Λ → Λ
  /-- Split the output of the model over the items of the batch, or find it malformed. -/
  distribute : List ι → ω → Except ε (List ρ)
  /-- Whether a cancelled item is taken out of its queue by a callback. -/
  releases : Bool

variable {ω Λ : Type}

/-! ## Composing a batch -/

def totalWeight (weight : ι → Nat) (ts : List (Ticket ι)) : Nat :=
  (ts.map fun t => weight t.item).sum

/-- What a take leaves: the batch, what left the queue in that order, and the rest of the queue. -/
structure Taken (ι : Type) where
  batch : List (Ticket ι)
  taken : List (Ticket ι)
  rest : List (Ticket ι)

/-- Move items from the head of a queue into the batch while they fit; cancelled ones are dropped
on the way. -/
def take (weight : ι → Nat) (limit : Nat) (cancelled : Ticket ι → Bool) :
    List (Ticket ι) → List (Ticket ι) → Taken ι
  | [], batch => ⟨batch, [], []⟩
  | head :: rest, batch =>
    if limit < totalWeight weight batch + weight head.item then ⟨batch, [], head :: rest⟩
    else
      let out := take weight limit cancelled rest
        (if cancelled head then batch else batch ++ [head])
      { out with taken := head :: out.taken }

structure Composed (ι : Type) where
  batch : List (Ticket ι)
  taken : List (Ticket ι)
  queue : SchedulingClass → List (Ticket ι)

def Discipline.carriesBackground (D : Discipline ι ω ρ ε Λ) (batch : List (Ticket ι)) : Bool :=
  batch.any fun t => D.cls t.item = .background

/-- Live items first, up to what is reserved for background; then background, if it may run; then
live items again in what background left over. -/
def Discipline.compose (D : Discipline ι ω ρ ε Λ) (allowBackground : Bool)
    (cancelled : Ticket ι → Bool) (queue : SchedulingClass → List (Ticket ι)) : Composed ι :=
  let reserved := if allowBackground then D.backgroundFloor else 0
  let first := take D.weight (D.maxBatch - reserved) cancelled (queue .live) []
  let second :=
    if allowBackground then take D.weight D.maxBatch cancelled (queue .background) first.batch
    else ⟨first.batch, [], queue .background⟩
  let third := take D.weight D.maxBatch cancelled first.rest second.batch
  { batch := third.batch
    taken := first.taken ++ second.taken ++ third.taken
    queue := perClass third.rest second.rest }

/-! ## Steps -/

namespace State

variable (D : Discipline ι ω ρ ε Λ) (s : State ι ε ρ Λ)

def initial : State ι ε ρ Λ where
  queue _ := []
  futures _ := .pending
  workers := List.replicate D.workers .unstarted
  busy := 0
  background := 0
  ledger := D.ledger
  closed := false
  drain := true
  started := false
  accepted := []
  releasing := []
  shutdowns := []

def items (s : State ι ε ρ Λ) : SchedulingClass → List ι := fun c => (s.queue c).map Ticket.item

def queued (s : State ι ε ρ Λ) : List (Ticket ι) := s.queue .live ++ s.queue .background

def backgroundAdmissible : Bool :=
  !(s.queue .background).isEmpty && decide (s.background < D.backgroundCap)

def setWorker (w : Nat) (phase : Worker ι ε ρ) : State ι ε ρ Λ :=
  { s with workers := s.workers.set w phase }

def setShutdown (k : Nat) (phase : Shutdown ι) : State ι ε ρ Λ :=
  { s with shutdowns := s.shutdowns.set k phase }

def setFuture (i : Nat) (f : Future ε ρ) : State ι ε ρ Λ :=
  { s with futures := Function.update s.futures i f }

def tickets (xs : List ι) : List (Ticket ι) := xs.mapIdx fun i x => ⟨s.accepted.length + i, x⟩

def enqueue (xs : List ι) : State ι ε ρ Λ :=
  { s with
    queue := fun c => s.queue c ++ (s.tickets xs).filter fun t => D.cls t.item = c
    accepted := s.accepted ++ s.tickets xs
    ledger := xs.foldl (fun l x => D.enqueued x l) s.ledger }

def dequeue (t : Ticket ι) : State ι ε ρ Λ :=
  { s with
    queue := Function.update s.queue (D.cls t.item)
      ((s.queue (D.cls t.item)).eraseP fun u => u.id = t.id)
    ledger := D.dequeued t.item s.ledger }

def composition : Composed ι :=
  D.compose (s.backgroundAdmissible D) (fun t => (s.futures t.id).isCancelled) s.queue

/-- Compose a batch: what left the queues is told so through its future. -/
def withdraw : State ι ε ρ Λ :=
  let c := s.composition D
  { s with
    queue := c.queue
    futures := fun i => if c.taken.any fun t => t.id = i then (s.futures i).notify else s.futures i
    ledger := c.taken.foldl (fun l t => D.dequeued t.item l) s.ledger }

def indicator (b : Bool) : Int := if b then 1 else 0

def begin (w : Nat) (batch : List (Ticket ι)) : State ι ε ρ Λ :=
  { s with
    workers := s.workers.set w (.running batch)
    busy := s.busy + 1
    background := s.background + indicator (D.carriesBackground batch)
    ledger := D.begun (batch.map Ticket.item) s.ledger }

def finish (w : Nat) (batch : List (Ticket ι)) (phase : Worker ι ε ρ) : State ι ε ρ Λ :=
  { s with
    workers := s.workers.set w phase
    busy := s.busy - 1
    background := s.background - indicator (D.carriesBackground batch)
    ledger := D.ended (batch.map Ticket.item) s.ledger }

def clear : State ι ε ρ Λ :=
  { s with
    queue := fun _ => []
    ledger := D.cleared s.ledger }

end State

def Discipline.outcomes (D : Discipline ι ω ρ ε Λ) (batch : List (Ticket ι)) (out : Except ε ω) :
    List (Ticket ι × Outcome ε ρ) :=
  match out with
  | .error e => batch.map (·, .failed e)
  | .ok o =>
    match D.distribute (batch.map Ticket.item) o with
    | .error e => batch.map (·, .failed e)
    | .ok rs => batch.zip (rs.map .value)

inductive Action (ι ω ε : Type)
  | submit (xs : List ι)
  | cancel (i : Nat)
  | release (i : Nat)
  | start
  | wake (w : Nat)
  | compose (w : Nat)
  | infer (w : Nat) (out : Except ε ω)
  | settle (w : Nat)
  | finish (w : Nat)
  | die (w : Nat)
  | close (drain : Bool)
  | look (k : Nat)
  | join (k : Nat)
  | clear (k : Nat)
  | fail (k : Nat)
  | conclude (k : Nat)

def Action.output : Action ι ω ε → Option (Nat × ω)
  | .infer w (.ok o) => some (w, o)
  | _ => none

def step (D : Discipline ι ω ρ ε Λ) (s : State ι ε ρ Λ) : Action ι ω ε → Option (State ι ε ρ Λ)
  | .submit xs =>
    if !s.closed && D.admits s.ledger s.items xs then some (s.enqueue D xs) else none
  | .cancel i =>
    if decide (i < s.accepted.length) && (s.futures i).isPending then
      some { s.setFuture i .cancelled with
        releasing := if D.releases then i :: s.releasing else s.releasing }
    else none
  | .release i =>
    match s.accepted[i]? with
    | some t =>
      if i ∈ s.releasing then
        let s' := { s with releasing := s.releasing.erase i }
        if (s.queue (D.cls t.item)).any fun u => u.id = t.id then some (s'.dequeue D t)
        else some s'
      else none
    | none => none
  | .start =>
    if s.started then none
    else some { s with started := true, workers := s.workers.map fun _ => .collecting }
  | .wake w =>
    match s.workers[w]? with
    | some .collecting =>
      if s.closed && (!s.drain || decide (D.pending s.ledger s.items = 0)) then
        some (s.setWorker w .exited)
      else if !(s.queue .live).isEmpty || s.backgroundAdmissible D then
        some (s.setWorker w .window)
      else none
    | _ => none
  | .compose w =>
    match s.workers[w]? with
    | some .window =>
      let batch := (s.composition D).batch
      if batch.isEmpty then some ((s.withdraw D).setWorker w .collecting)
      else some ((s.withdraw D).begin D w batch)
    | _ => none
  | .infer w out =>
    match s.workers[w]? with
    | some (.running batch) => some (s.setWorker w (.settling batch (D.outcomes batch out)))
    | _ => none
  | .settle w =>
    match s.workers[w]? with
    | some (.settling batch ((t, o) :: rest)) =>
      some ((s.setFuture t.id ((s.futures t.id).settle o)).setWorker w (.settling batch rest))
    | _ => none
  | .finish w =>
    match s.workers[w]? with
    | some (.settling batch []) => some (s.finish D w batch .collecting)
    | _ => none
  | .die w =>
    match s.workers[w]? with
    | some (.running batch) | some (.settling batch _) => some (s.finish D w batch .exited)
    | _ => none
  | .close drain =>
    some { s with closed := true, drain := drain, shutdowns := s.shutdowns ++ [.closing] }
  | .look k =>
    match s.shutdowns[k]? with
    | some .closing =>
      some (s.setShutdown k (if s.started then .joining 0 true else .clearing true))
    | _ => none
  | .join k =>
    match s.shutdowns[k]? with
    | some (.joining next drained) =>
      match s.workers[next]? with
      | some worker => some (s.setShutdown k (.joining (next + 1) (drained && worker.isExited)))
      | none => some (s.setShutdown k (.clearing drained))
    | _ => none
  | .clear k =>
    match s.shutdowns[k]? with
    | some (.clearing drained) => some ((s.clear D).setShutdown k (.failing drained s.queued))
    | _ => none
  | .fail k =>
    match s.shutdowns[k]? with
    | some (.failing drained (t :: rest)) =>
      some ((s.setFuture t.id ((s.futures t.id).notify.settle .closed)).setShutdown k
        (.failing drained rest))
    | _ => none
  | .conclude k =>
    match s.shutdowns[k]? with
    | some (.failing drained []) =>
      some (s.setShutdown k (.returned (drained && s.queued.isEmpty)))
    | _ => none

/-! ## What a step can do -/

/-- The cases of `step`, with their guards. -/
inductive Moved (D : Discipline ι ω ρ ε Λ) (s : State ι ε ρ Λ) :
    Action ι ω ε → State ι ε ρ Λ → Prop
  | submit (xs : List ι) (hopen : s.closed = false) (hadm : D.admits s.ledger s.items xs = true) :
      Moved D s (.submit xs) (s.enqueue D xs)
  | cancel (i : Nat) (hi : i < s.accepted.length) (hp : s.futures i = .pending) :
      Moved D s (.cancel i) { s.setFuture i .cancelled with
        releasing := if D.releases then i :: s.releasing else s.releasing }
  | release (i : Nat) (t : Ticket ι) (hi : i ∈ s.releasing) (ht : s.accepted[i]? = some t)
      (hq : ∃ u ∈ s.queue (D.cls t.item), u.id = t.id) :
      Moved D s (.release i) (State.dequeue D { s with releasing := s.releasing.erase i } t)
  | released (i : Nat) (hi : i ∈ s.releasing) :
      Moved D s (.release i) { s with releasing := s.releasing.erase i }
  | start (hs : s.started = false) :
      Moved D s .start { s with started := true, workers := s.workers.map fun _ => .collecting }
  | exit (w : Nat) (hw : s.workers[w]? = some .collecting) (hc : s.closed = true)
      (hd : s.drain = false ∨ D.pending s.ledger s.items = 0) :
      Moved D s (.wake w) (s.setWorker w .exited)
  | hold (w : Nat) (hw : s.workers[w]? = some .collecting) :
      Moved D s (.wake w) (s.setWorker w .window)
  | composeNone (w : Nat) (hw : s.workers[w]? = some .window)
      (hb : (s.composition D).batch = []) :
      Moved D s (.compose w) ((s.withdraw D).setWorker w .collecting)
  | compose (w : Nat) (hw : s.workers[w]? = some .window) (hb : (s.composition D).batch ≠ []) :
      Moved D s (.compose w) ((s.withdraw D).begin D w (s.composition D).batch)
  | infer (w : Nat) (out : Except ε ω) (batch : List (Ticket ι))
      (hw : s.workers[w]? = some (.running batch)) :
      Moved D s (.infer w out) (s.setWorker w (.settling batch (D.outcomes batch out)))
  | settle (w : Nat) (batch : List (Ticket ι)) (t : Ticket ι) (o : Outcome ε ρ)
      (rest : List (Ticket ι × Outcome ε ρ))
      (hw : s.workers[w]? = some (.settling batch ((t, o) :: rest))) :
      Moved D s (.settle w)
        ((s.setFuture t.id ((s.futures t.id).settle o)).setWorker w (.settling batch rest))
  | finish (w : Nat) (batch : List (Ticket ι)) (hw : s.workers[w]? = some (.settling batch [])) :
      Moved D s (.finish w) (s.finish D w batch .collecting)
  | die (w : Nat) (worker : Worker ι ε ρ) (batch : List (Ticket ι))
      (hw : s.workers[w]? = some worker) (hb : worker.batch = some batch) :
      Moved D s (.die w) (s.finish D w batch .exited)
  | close (drain : Bool) :
      Moved D s (.close drain)
        { s with closed := true, drain := drain, shutdowns := s.shutdowns ++ [.closing] }
  | look (k : Nat) (hk : s.shutdowns[k]? = some .closing) :
      Moved D s (.look k)
        (s.setShutdown k (if s.started then .joining 0 true else .clearing true))
  | join (k next : Nat) (drained : Bool) (worker : Worker ι ε ρ)
      (hk : s.shutdowns[k]? = some (.joining next drained)) (hw : s.workers[next]? = some worker) :
      Moved D s (.join k) (s.setShutdown k (.joining (next + 1) (drained && worker.isExited)))
  | joined (k next : Nat) (drained : Bool) (hk : s.shutdowns[k]? = some (.joining next drained))
      (hw : s.workers[next]? = none) :
      Moved D s (.join k) (s.setShutdown k (.clearing drained))
  | clear (k : Nat) (drained : Bool) (hk : s.shutdowns[k]? = some (.clearing drained)) :
      Moved D s (.clear k) ((s.clear D).setShutdown k (.failing drained s.queued))
  | fail (k : Nat) (drained : Bool) (t : Ticket ι) (rest : List (Ticket ι))
      (hk : s.shutdowns[k]? = some (.failing drained (t :: rest))) :
      Moved D s (.fail k) ((s.setFuture t.id ((s.futures t.id).notify.settle .closed)).setShutdown k
        (.failing drained rest))
  | conclude (k : Nat) (drained : Bool) (hk : s.shutdowns[k]? = some (.failing drained [])) :
      Moved D s (.conclude k) (s.setShutdown k (.returned (drained && s.queued.isEmpty)))

variable {D : Discipline ι ω ρ ε Λ} {s : State ι ε ρ Λ}

theorem step_moved {s' : State ι ε ρ Λ} {a : Action ι ω ε}
    (h : step D s a = some s') : Moved D s a s' := by
  cases a with
  | submit xs =>
    simp only [step] at h
    split at h
    · next hc =>
      simp only [Bool.and_eq_true, Bool.not_eq_true'] at hc
      cases h
      exact .submit xs hc.1 hc.2
    · cases h
  | cancel i =>
    simp only [step] at h
    split at h
    · next hc =>
      simp only [Bool.and_eq_true, decide_eq_true_eq] at hc
      cases h
      refine .cancel i hc.1 ?_
      cases hf : s.futures i with
      | pending => rfl
      | running | cancelled | done => rw [hf] at hc; cases hc.2
    · cases h
  | release i =>
    simp only [step] at h
    split at h
    · next t ht =>
      split at h
      · next hi =>
        split at h
        · next hq =>
          cases h
          exact .release i t hi ht (by simpa using hq)
        · cases h
          exact .released i hi
      · cases h
    · cases h
  | start =>
    simp only [step] at h
    split at h
    · cases h
    · next hs =>
      cases h
      exact .start (by simpa using hs)
  | wake w =>
    simp only [step] at h
    split at h
    · next hw =>
      split at h
      · next hc =>
        simp only [Bool.and_eq_true, Bool.or_eq_true, Bool.not_eq_true',
          decide_eq_true_eq] at hc
        cases h
        exact .exit w hw hc.1 hc.2
      · split at h
        · cases h
          exact .hold w hw
        · cases h
    · cases h
  | compose w =>
    simp only [step] at h
    split at h
    · next hw =>
      split at h
      · next hb =>
        cases h
        exact .composeNone w hw (by simpa using hb)
      · next hb =>
        cases h
        exact .compose w hw (by simpa using hb)
    · cases h
  | die w =>
    simp only [step] at h
    split at h
    · next batch hw =>
      cases h
      exact .die w _ batch hw rfl
    · next batch rest hw =>
      cases h
      exact .die w _ batch hw rfl
    · cases h
  | close drain =>
    cases h
    exact .close drain
  | join k =>
    simp only [step] at h
    split at h
    · next next drained hk =>
      split at h
      · next worker hw =>
        cases h
        exact .join k next drained worker hk hw
      · next hw =>
        cases h
        exact .joined k next drained hk hw
    · cases h
  | infer | settle | finish | look | clear | fail | conclude =>
    -- One phase of the worker or of the call lets each of these happen.
    simp only [step] at h
    split at h
    · cases h
      constructor
      assumption
    · cases h

/-! ## Runs -/

inductive Reachable (D : Discipline ι ω ρ ε Λ) (ok : State ι ε ρ Λ → Action ι ω ε → Prop) :
    State ι ε ρ Λ → Prop
  | initial : Reachable D ok (State.initial D)
  | step {s s' : State ι ε ρ Λ} {a : Action ι ω ε} (hs : Reachable D ok s) (hok : ok s a)
      (h : step D s a = some s') : Reachable D ok s'

/-- The induction every statement about reachable states goes through. -/
theorem Reachable.rule {ok : State ι ε ρ Λ → Action ι ω ε → Prop}
    {I : State ι ε ρ Λ → Prop} (hinit : I (State.initial D))
    (hstep : ∀ s a s', I s → ok s a → Moved D s a s' → I s')
    (hs : Reachable D ok s) : I s := by
  induction hs with
  | initial => exact hinit
  | step _ hok h ih => exact hstep _ _ _ ih hok (step_moved h)

theorem exists_reachable (D : Discipline ι ω ρ ε Λ) (ok : State ι ε ρ Λ → Action ι ω ε → Prop)
    [∀ s a, Decidable (ok s a)] (actions : List (Action ι ω ε)) (p : State ι ε ρ Λ → Bool)
    (h : (follow (step D) (fun s a => ok s a) actions (State.initial D)).any p = true) :
    ∃ s, Reachable D ok s ∧ p s = true :=
  exists_of_follow (fun _ _ _ hs hok hstep => .step hs (of_decide_eq_true hok) hstep) actions
    .initial h

end RagForge.Batching
