import RagForge.Batching.Calls
import RagForge.Batching.Accounting
import RagForge.Embedding.Types

/-
The inference scheduler of the embedding service (`embedding/app/services/inference_scheduler.py`).

Every text of an `encode` call is an item of its own with its own future, so every item has weight
one.  The scheduler has no counters of its own for what is pending and reads the length of its
queues.
-/

namespace RagForge.Embedding

open Batching

/-- `_Item`.  Its future is the one of its ticket. -/
structure Item where
  text : String
  schedulingClass : SchedulingClass
  deriving DecidableEq

/-- The arguments of the constructor that bear on scheduling, with what it checks of them. -/
structure SchedulerConfig where
  maxBatchSize : Nat
  maxPendingItems : Nat
  inferenceWorkers : Nat
  maxBackgroundInflight : Nat
  batch_pos : 1 ≤ maxBatchSize
  batch_le_pending : maxBatchSize ≤ maxPendingItems
  workers_pos : 1 ≤ inferenceWorkers
  background_pos : 1 ≤ maxBackgroundInflight
  background_le : maxBackgroundInflight ≤ inferenceWorkers

namespace SchedulerConfig

variable (cfg : SchedulerConfig)

def liveReserve : Nat := max 1 (min cfg.maxBatchSize (cfg.maxPendingItems / 2))

def backgroundFloor : Nat := max 1 (cfg.maxBatchSize / 4)

def pendingLimit : SchedulingClass → Nat
  | .live => cfg.maxPendingItems
  | .background => max 1 (cfg.maxPendingItems - cfg.liveReserve)

end SchedulerConfig

def totalPending (queues : SchedulingClass → List Item) : Nat :=
  (queues .live).length + (queues .background).length

/-- The admission test of `_admit`.  The items of a call share its class. -/
def admits (cfg : SchedulerConfig) (queues : SchedulingClass → List Item) : List Item → Bool
  | [] => false
  | x :: rest =>
    let items := x :: rest
    let limit := cfg.pendingLimit x.schedulingClass
    rest.all (fun y => y.schedulingClass = x.schedulingClass) &&
      decide (items.length ≤ limit) && decide (totalPending queues + items.length ≤ limit)

inductive InferenceError
  | encode (message : String)
  | resultMismatch (message : String)
  deriving DecidableEq

/-- The part of `_run_batch` after the model. -/
def distribute (batch : List Item) (vectors : List Vec) : Except InferenceError (List Vec) :=
  if vectors.length ≠ batch.length then
    .error (.resultMismatch ("expected " ++ toString batch.length ++ " vectors, got " ++
      toString vectors.length))
  else .ok vectors

def discipline (cfg : SchedulerConfig) : Discipline Item (List Vec) Vec InferenceError Unit where
  cls := Item.schedulingClass
  weight _ := 1
  maxBatch := cfg.maxBatchSize
  backgroundFloor := cfg.backgroundFloor
  backgroundCap := cfg.maxBackgroundInflight
  workers := cfg.inferenceWorkers
  ledger := ()
  pending _ queues := totalPending queues
  admits _ queues xs := admits cfg queues xs
  enqueued _ l := l
  dequeued _ l := l
  cleared l := l
  begun _ l := l
  ended _ l := l
  distribute := distribute
  releases := false

abbrev SchedulerState : Type := State Item InferenceError Vec Unit

abbrev SchedulerAction : Type := Action Item (List Vec) InferenceError

/-! ## Composing as the source writes it -/

/-- `_take_locked`, which counts the capacity down. -/
def takeLocked (maxBatchSize : Nat) (cancelled : Ticket Item → Bool) :
    List (Ticket Item) → List (Ticket Item) → Nat → Taken Item
  | [], batch, _ => ⟨batch, [], []⟩
  | item :: queue, batch, capacity =>
    if batch.length < maxBatchSize ∧ 0 < capacity then
      let out :=
        if cancelled item then takeLocked maxBatchSize cancelled queue batch capacity
        else takeLocked maxBatchSize cancelled queue (batch ++ [item]) (capacity - 1)
      { out with taken := item :: out.taken }
    else ⟨batch, [], item :: queue⟩

def composeLocked (cfg : SchedulerConfig) (allowBackground : Bool)
    (cancelled : Ticket Item → Bool) (queue : SchedulingClass →
      List (Ticket Item)) : Composed Item :=
  let reserved := if allowBackground then cfg.backgroundFloor else 0
  let first := takeLocked cfg.maxBatchSize cancelled (queue .live) [] (cfg.maxBatchSize - reserved)
  let second :=
    if allowBackground then
      takeLocked cfg.maxBatchSize cancelled (queue .background) first.batch
        (cfg.maxBatchSize - first.batch.length)
    else ⟨first.batch, [], queue .background⟩
  let third := takeLocked cfg.maxBatchSize cancelled first.rest second.batch
    (cfg.maxBatchSize - second.batch.length)
  { batch := third.batch
    taken := first.taken ++ second.taken ++ third.taken
    queue := perClass third.rest second.rest }

theorem totalWeight_one (batch : List (Ticket Item)) :
    totalWeight (fun _ => 1) batch = batch.length := by
  simp [totalWeight]

theorem takeLocked_eq (maxBatchSize : Nat) (cancelled : Ticket Item → Bool)
    (queue : List (Ticket Item)) : ∀ (batch : List (Ticket Item)) (capacity : Nat),
      batch.length + capacity ≤ maxBatchSize →
        takeLocked maxBatchSize cancelled queue batch capacity =
          take (fun _ => 1) (batch.length + capacity) cancelled queue batch := by
  induction queue with
  | nil => intro batch capacity _; rfl
  | cons item rest ih =>
    intro batch capacity hle
    unfold takeLocked take
    rw [totalWeight_one]
    by_cases hcap : 0 < capacity
    · have hfit : ¬ batch.length + capacity < batch.length + 1 := by omega
      rw [if_pos ⟨by omega, hcap⟩, if_neg hfit]
      by_cases hc : cancelled item = true
      · simp only [hc, if_true]
        rw [ih batch capacity hle]
      · have hlen : (batch ++ [item]).length + (capacity - 1) = batch.length + capacity := by
          simp only [List.length_append, List.length_singleton]
          omega
        have hrest := ih (batch ++ [item]) (capacity - 1) (by omega)
        simp only [hc, if_false, Bool.false_eq_true]
        rw [hrest, hlen]
    · rw [if_neg (fun h => hcap h.2), if_pos (by omega)]

theorem length_take_le (limit bound : Nat) (cancelled : Ticket Item → Bool)
    (queue batch : List (Ticket Item)) (hlimit : limit ≤ bound) (h : batch.length ≤ bound) :
    (take (fun _ => 1) limit cancelled queue batch).batch.length ≤ bound := by
  have hweight := take_weight (fun _ => 1) limit bound cancelled hlimit queue batch
    (by rw [totalWeight_one]; exact h)
  rw [totalWeight_one] at hweight
  exact hweight

theorem composeLocked_eq (cfg : SchedulerConfig) (allow : Bool) (cancelled : Ticket Item → Bool)
    (queue : SchedulingClass → List (Ticket Item)) :
    composeLocked cfg allow cancelled queue =
      (discipline cfg).compose allow cancelled queue := by
  have hfirst := takeLocked_eq cfg.maxBatchSize cancelled (queue .live) []
    (cfg.maxBatchSize - if allow then cfg.backgroundFloor else 0) (by simp)
  rw [List.length_nil, Nat.zero_add] at hfirst
  have hlen := length_take_le (cfg.maxBatchSize - if allow then cfg.backgroundFloor else 0)
    cfg.maxBatchSize cancelled (queue .live) [] (Nat.sub_le _ _) (Nat.zero_le _)
  -- a take that fills the batch up has the size of the batch as its limit
  have hfill : ∀ batch rest : List (Ticket Item), batch.length ≤ cfg.maxBatchSize →
      takeLocked cfg.maxBatchSize cancelled rest batch (cfg.maxBatchSize - batch.length) =
        take (fun _ => 1) cfg.maxBatchSize cancelled rest batch := by
    intro batch rest hle
    have h := takeLocked_eq cfg.maxBatchSize cancelled rest batch
      (cfg.maxBatchSize - batch.length) (by omega)
    rw [Nat.add_sub_cancel' hle] at h
    exact h
  unfold composeLocked Discipline.compose
  simp only [discipline]
  rw [hfirst]
  cases allow with
  | false =>
    simp only [Bool.false_eq_true, if_false] at hlen ⊢
    rw [hfill _ _ hlen]
  | true =>
    simp only [if_true] at hlen ⊢
    rw [hfill _ _ hlen, hfill _ _ (length_take_le _ _ _ _ _ le_rfl hlen)]

/-! ## Counters -/

theorem unit_accounting (cfg : SchedulerConfig) :
    Accounting (discipline cfg) fun _ _ _ => True where
  initial := trivial
  enqueued _ _ := trivial
  dequeued _ _ := trivial
  cleared _ := trivial
  begun _ _ := trivial
  ended _ _ := trivial

theorem queuedWeight_eq (cfg : SchedulerConfig) (s : SchedulerState) :
    s.queuedWeight (discipline cfg) = totalPending s.items := by
  simp [State.queuedWeight, State.queueWeight, discipline, totalWeight_one, totalPending,
    State.items]

theorem submissionWeight_eq (cfg : SchedulerConfig) (xs : List Item) :
    (discipline cfg).submissionWeight xs = xs.length := by
  simp [Discipline.submissionWeight, discipline]

variable {cfg : SchedulerConfig} {xs : List Item}

theorem of_admits {queues : SchedulingClass → List Item} (h : admits cfg queues xs = true) :
    ∃ c, (∀ x ∈ xs, x.schedulingClass = c) ∧ xs ≠ [] ∧
      totalPending queues + xs.length ≤ cfg.pendingLimit c := by
  cases xs with
  | nil => cases h
  | cons x rest =>
    simp only [admits, Bool.and_eq_true, decide_eq_true_eq, List.all_eq_true] at h
    refine ⟨x.schedulingClass, ?_, List.cons_ne_nil _ _, h.2⟩
    intro y hy
    rcases List.mem_cons.mp hy with rfl | hy
    · rfl
    · exact h.1.1 y hy

theorem pendingLimit_le (cfg : SchedulerConfig) (c : SchedulingClass) :
    cfg.pendingLimit c ≤ cfg.maxPendingItems := by
  have hbatch := cfg.batch_pos
  have hpending := cfg.batch_le_pending
  cases c with
  | live => exact le_rfl
  | background =>
    have hlimit : cfg.pendingLimit .background =
        max 1 (cfg.maxPendingItems - cfg.liveReserve) := rfl
    omega

variable {c : SchedulingClass}

section

variable {ok : SchedulerState → SchedulerAction → Prop} {s : SchedulerState}

theorem totalPending_le (hs : Reachable (discipline cfg) ok s) :
    totalPending s.items ≤ cfg.maxPendingItems := by
  have hle : s.queuedWeight (discipline cfg) ≤ (cfg.maxPendingItems : Int) := by
    refine hs.queuedWeight_le (unit_accounting cfg) (Int.natCast_nonneg _) ?_
    intro s xs _ hadm
    obtain ⟨c, -, -, hfits⟩ := of_admits hadm
    have hlimit := pendingLimit_le cfg c
    rw [queuedWeight_eq, submissionWeight_eq]
    omega
  rw [queuedWeight_eq] at hle
  omega

theorem queue_enqueue (h : ∀ x ∈ xs, x.schedulingClass = c)
    (d : SchedulingClass) : (s.enqueue (discipline cfg) xs).queue d =
      s.queue d ++ if d = c then s.tickets xs else [] := by
  have hcls : ∀ t ∈ s.tickets xs, t.item.schedulingClass = c := by
    intro t ht
    have hitem : t.item ∈ (s.tickets xs).map Ticket.item := List.mem_map_of_mem ht
    rw [map_item_tickets] at hitem
    exact h _ hitem
  simp only [State.enqueue, discipline]
  by_cases hd : d = c
  · rw [if_pos hd, List.filter_eq_self.mpr]
    intro t ht
    rw [hd]
    exact decide_eq_true (hcls t ht)
  · rw [if_neg hd, List.filter_eq_nil_iff.mpr]
    intro t ht hcon
    exact hd ((of_decide_eq_true hcon).symm.trans (hcls t ht))

/-- The queues and counters of the scheduler in every state it can reach. -/
theorem embeddingCounters_exact (hs : Reachable (discipline cfg) ok s) :
    (∀ a s', step (discipline cfg) s a = some s' →
      (∀ c, (s'.queue c).Sublist (s.queue c)) ∨
        ∃ xs c, a = .submit xs ∧ (∀ x ∈ xs, x.schedulingClass = c) ∧
          ∀ d, s'.queue d = s.queue d ++ if d = c then s.tickets xs else []) ∧
    totalPending s.items ≤ cfg.maxPendingItems ∧
    (∀ xs s', (∀ x ∈ xs, x.schedulingClass = .background) →
      step (discipline cfg) s (.submit xs) = some s' →
        (totalPending s'.items : Int) ≤ max 1 (cfg.maxPendingItems - cfg.liveReserve)) ∧
    s.busy = s.batches.length ∧
    s.background = s.batches.countP (discipline cfg).carriesBackground ∧
    s.background ≤ cfg.maxBackgroundInflight ∧
    ∀ b ∈ s.batches, b.length ≤ cfg.maxBatchSize := by
  have hcounted := hs.counted
  refine ⟨?_, totalPending_le hs, ?_, ?_, ?_, hcounted.cap, ?_⟩
  · intro a s' h
    rcases queue_step (step_moved h) with hsub | ⟨xs, rfl, -, hadm, rfl⟩
    · exact .inl hsub
    · obtain ⟨c, hcls, -, -⟩ := of_admits hadm
      exact .inr ⟨xs, c, rfl, hcls, queue_enqueue hcls⟩
  · intro xs s' hback h
    cases step_moved h with
    | submit _ hopen hadm =>
      obtain ⟨c, hcls, hne, hfits⟩ := of_admits hadm
      obtain ⟨x, hx⟩ := List.exists_mem_of_ne_nil xs hne
      have hc : c = .background := (hcls x hx).symm.trans (hback x hx)
      subst hc
      have hlimit : cfg.pendingLimit .background =
          max 1 (cfg.maxPendingItems - cfg.liveReserve) := rfl
      have htotal := queuedWeight_enqueue (discipline cfg) s xs
      rw [queuedWeight_eq, queuedWeight_eq, submissionWeight_eq] at htotal
      omega
  · rw [hcounted.busy, load_one]
  · rw [hcounted.background, load_indicator]
  · intro b hb
    have hweight := hcounted.weight b hb
    simp only [discipline, totalWeight_one] at hweight
    exact hweight

/-! ## Fairness -/

theorem take_one_batch (limit : Nat) (cancelled : Ticket Item → Bool)
    (queue batch : List (Ticket Item)) :
    (take (fun _ => 1) limit cancelled queue batch).batch =
      batch ++ (queue.filter fun t => !cancelled t).take (limit - batch.length) := by
  induction queue generalizing batch with
  | nil => simp [take]
  | cons head rest ih =>
    unfold take
    rw [totalWeight_one]
    by_cases hfull : limit < batch.length + 1
    · have hroom : limit - batch.length = 0 := by omega
      rw [if_pos hfull, hroom, List.take_zero, List.append_nil]
    · have hroom : limit - batch.length = limit - (batch.length + 1) + 1 := by omega
      rw [if_neg hfull]
      by_cases hc : cancelled head = true
      · simp [hc, ih]
      · simp [hc, ih, hroom]

theorem filter_take_rest (limit : Nat) (cancelled : Ticket Item → Bool)
    (queue : List (Ticket Item)) :
    ((take (fun _ => 1) limit cancelled queue []).rest.filter fun t => !cancelled t) =
      (queue.filter fun t => !cancelled t).drop
        (take (fun _ => 1) limit cancelled queue []).batch.length := by
  have hsplit := congrArg (List.filter fun t => !cancelled t)
    (take_split (fun _ => 1) limit cancelled queue [])
  rw [List.filter_append] at hsplit
  rw [take_batch, hsplit, List.nil_append, List.drop_left]

def waiting (s : SchedulerState) (c : SchedulingClass) : List (Ticket Item) :=
  (s.queue c).filter fun t => !(s.futures t.id).isCancelled

def batchAt (cfg : SchedulerConfig) (s : SchedulerState) : List (Ticket Item) :=
  (composeLocked cfg (s.backgroundAdmissible (discipline cfg))
    (fun t => (s.futures t.id).isCancelled) s.queue).batch

def ofClass (c : SchedulingClass) (batch : List (Ticket Item)) : Nat :=
  batch.countP fun t => t.item.schedulingClass = c

/-- The batch is cut from the items that wait: live ones besides the floor, background ones in what
is left, and live ones again. -/
theorem batchAt_eq (cfg : SchedulerConfig) (s : SchedulerState) :
    ∃ first second : List (Ticket Item),
      first = (waiting s .live).take (cfg.maxBatchSize -
        if s.backgroundAdmissible (discipline cfg) then cfg.backgroundFloor else 0) ∧
      second = (if s.backgroundAdmissible (discipline cfg) then
        (waiting s .background).take (cfg.maxBatchSize - first.length) else []) ∧
      batchAt cfg s = first ++ second ++ ((waiting s .live).drop first.length).take
        (cfg.maxBatchSize - (first ++ second).length) := by
  refine ⟨_, _, rfl, rfl, ?_⟩
  unfold batchAt
  rw [composeLocked_eq]
  unfold waiting
  cases s.backgroundAdmissible (discipline cfg) <;>
    simp [Discipline.compose, discipline, take_one_batch, filter_take_rest]

theorem length_le_ofClass {part batch : List (Ticket Item)}
    (hs : Reachable (discipline cfg) ok s) (hpart : ∀ t ∈ part, t ∈ waiting s c)
    (h : part.Sublist batch) : part.length ≤ ofClass c batch := by
  have hcls : ∀ t ∈ part, decide (t.item.schedulingClass = c) = true := fun t ht =>
    decide_eq_true (hs.filed.queue c t (List.mem_of_mem_filter (hpart t ht))).2
  exact (List.countP_eq_length.mpr hcls).symm.le.trans (h.countP_le)

/-- A batch is full or has every item that waits and may run, and holds the share of each class. -/
theorem batchAt_serves (hs : Reachable (discipline cfg) ok s) :
    ((batchAt cfg s).length = cfg.maxBatchSize ∨
      ∀ c, c = .live ∨ s.backgroundAdmissible (discipline cfg) = true →
        ∀ t ∈ waiting s c, t ∈ batchAt cfg s) ∧
    (s.backgroundAdmissible (discipline cfg) = true →
      min cfg.backgroundFloor (waiting s .background).length ≤
        ofClass .background (batchAt cfg s)) ∧
    min (cfg.maxBatchSize -
        if s.backgroundAdmissible (discipline cfg) then cfg.backgroundFloor else 0)
      (waiting s .live).length ≤ ofClass .live (batchAt cfg s) := by
  obtain ⟨first, second, hfirst, hsecond, hbatch⟩ := batchAt_eq cfg s
  have hlen : first.length = min (cfg.maxBatchSize -
      if s.backgroundAdmissible (discipline cfg) then cfg.backgroundFloor else 0)
        (waiting s .live).length := by
    rw [hfirst, List.length_take]
  have hfloor : cfg.backgroundFloor ≤ cfg.maxBatchSize := by
    have hpos := cfg.batch_pos
    unfold SchedulerConfig.backgroundFloor
    omega
  refine ⟨?_, ?_, ?_⟩
  · have hroom : second.length ≤ cfg.maxBatchSize - first.length := by
      rw [hsecond]
      split
      · exact List.length_take_le _ _
      · exact Nat.zero_le _
    have htotal := congrArg List.length hbatch
    simp only [List.length_append, List.length_take, List.length_drop] at htotal
    refine or_iff_not_imp_left.mpr fun hfull c hc t ht => ?_
    rw [hbatch]
    cases c with
    | live =>
      have hcut : first = (waiting s .live).take first.length := by
        rw [hlen, ← List.take_eq_take_min]
        exact hfirst
      rw [List.take_of_length_le (by simp only [List.length_append, List.length_drop]; omega)]
      rw [← List.take_append_drop first.length (waiting s .live), ← hcut] at ht
      rcases List.mem_append.mp ht with ht | ht
      · exact List.mem_append_left _ (List.mem_append_left _ ht)
      · exact List.mem_append_right _ ht
    | background =>
      rw [if_pos (hc.resolve_left nofun)] at hsecond
      have hshare := congrArg List.length hsecond
      rw [List.length_take] at hshare
      rw [List.take_of_length_le (by omega)] at hsecond
      rw [← hsecond] at ht
      exact List.mem_append_left _ (List.mem_append_right _ ht)
  · intro hallow
    rw [hallow, if_pos rfl] at hlen
    rw [hallow, if_pos rfl] at hsecond
    have hshare : second.length ≤ ofClass .background (batchAt cfg s) := by
      refine length_le_ofClass hs (fun t ht => ?_) ?_
      · rw [hsecond] at ht
        exact List.mem_of_mem_take ht
      · rw [hbatch]
        simp
    rw [hsecond, List.length_take] at hshare
    omega
  · rw [← hlen]
    refine length_le_ofClass hs (fun t ht => ?_) ?_
    · rw [hfirst] at ht
      exact List.mem_of_mem_take ht
    · rw [hbatch]
      simp

end

def smallConfig : SchedulerConfig where
  maxBatchSize := 4
  maxPendingItems := 8
  inferenceWorkers := 2
  maxBackgroundInflight := 1
  batch_pos := by decide
  batch_le_pending := by decide
  workers_pos := Nat.two_pos
  background_pos := Nat.one_pos
  background_le := Nat.two_pos

/-- A worker runs a live and two background items in one batch. -/
theorem embeddingCounters_exact_shared :
    ∃ s : SchedulerState, Reachable (discipline smallConfig) (fun _ _ => True) s ∧
      s.batches.map List.length = [3] ∧ s.busy = s.batches.length ∧
      ∀ b ∈ s.batches, b.length ≤ smallConfig.maxBatchSize := by
  obtain ⟨s, hs, hp⟩ := exists_reachable (discipline smallConfig) (fun _ _ => True)
    [.submit [⟨"a", .background⟩, ⟨"b", .background⟩], .submit [⟨"c", .live⟩], .start, .wake 0,
      .compose 0]
    (fun s => s.batches.map List.length = [3]) (by decide +kernel)
  have hexact := embeddingCounters_exact hs
  exact ⟨s, hs, of_decide_eq_true hp, hexact.2.2.2.1, hexact.2.2.2.2.2.2⟩

/-- One of two background items was cancelled, the other gets its place beside three live ones. -/
theorem batchAt_serves_flood :
    ∃ s : SchedulerState, Reachable (discipline smallConfig) (fun _ _ => True) s ∧
      s.backgroundAdmissible (discipline smallConfig) = true ∧
      (waiting s .live).length = 5 ∧ (waiting s .background).length = 1 ∧
      1 ≤ ofClass .background (batchAt smallConfig s) ∧
      3 ≤ ofClass .live (batchAt smallConfig s) := by
  obtain ⟨s, hs, hp⟩ := exists_reachable (discipline smallConfig) (fun _ _ => True)
    [.submit [⟨"a", .background⟩, ⟨"b", .background⟩],
      .submit (["c", "d", "e", "f", "g"].map (⟨·, .live⟩)), .start, .wake 0, .cancel 0]
    (fun s => s.backgroundAdmissible (discipline smallConfig) = true ∧
      (waiting s .live).length = 5 ∧ (waiting s .background).length = 1) (by decide +kernel)
  obtain ⟨hallow, hlive, hback⟩ := of_decide_eq_true hp
  have hserves := (batchAt_serves hs).2
  rw [hallow, hlive, hback] at hserves
  exact ⟨s, hs, hallow, hlive, hback, hserves.1 rfl, hserves.2⟩

/-- A worker composes with one background item at hand, which its caller gave up. -/
theorem cancelled_item_left_out :
    ∃ s : SchedulerState, Reachable (discipline smallConfig) (fun _ _ => True) s ∧
      (step (discipline smallConfig) s (.compose 0)).isSome = true ∧
      s.backgroundAdmissible (discipline smallConfig) = true ∧
      (s.queue .background).length = 1 ∧ batchAt smallConfig s = [] := by
  obtain ⟨s, hs, hp⟩ := exists_reachable (discipline smallConfig) (fun _ _ => True)
    [.submit [⟨"a", .background⟩], .start, .wake 0, .cancel 0]
    (fun s => (step (discipline smallConfig) s (.compose 0)).isSome = true ∧
      s.backgroundAdmissible (discipline smallConfig) = true ∧
      (s.queue .background).length = 1 ∧ batchAt smallConfig s = []) (by decide +kernel)
  exact ⟨s, hs, of_decide_eq_true hp⟩

/-- Room for a single item.  The live reserve takes all of it. -/
def narrowConfig : SchedulerConfig where
  maxBatchSize := 1
  maxPendingItems := 1
  inferenceWorkers := 1
  maxBackgroundInflight := 1
  batch_pos := Nat.one_pos
  batch_le_pending := Nat.one_pos
  workers_pos := Nat.one_pos
  background_pos := Nat.one_pos
  background_le := Nat.one_pos

/-- The limit of background calls is never below one, so a background call gets the place that the
live reserve should keep. -/
theorem background_encode_into_reserve :
    ∃ s s' : SchedulerState, Reachable (discipline narrowConfig) (fun _ _ => True) s ∧
      step (discipline narrowConfig) s (.submit [⟨"a", .background⟩]) = some s' ∧
      ¬ totalPending s'.items ≤ narrowConfig.maxPendingItems - narrowConfig.liveReserve :=
  ⟨State.initial _, _, .initial, rfl, by decide +kernel⟩

end RagForge.Embedding
