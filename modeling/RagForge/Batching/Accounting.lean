import Mathlib.Algebra.BigOperators.Ring.Finset
import RagForge.Batching.Invariants

/-
Counters.

The busy workers and the background batches are counted by integers that are raised when a batch is
composed and lowered when it is given back.  A scheduler may keep further counters in its ledger:
`Accounting` says what each of its updates has to do for the ledger to track the weight of each
queue and of the running batches in every reachable state.
-/

namespace RagForge.Batching

variable {ι ω ρ ε Λ : Type} {D : Discipline ι ω ρ ε Λ} {s s' : State ι ε ρ Λ} {a : Action ι ω ε}
  {ok : State ι ε ρ Λ → Action ι ω ε → Prop} {workers : List (Worker ι ε ρ)}
  {old worker : Worker ι ε ρ} {w : Nat} {ts : List (Ticket ι)} {batch : List (Ticket ι)}
  {new phase : Worker ι ε ρ}

/-! ## Sums over the workers -/

def load (g : List (Ticket ι) → Int) (workers : List (Worker ι ε ρ)) : Int :=
  (workers.map fun worker => worker.batch.elim 0 g).sum

section

variable (g : List (Ticket ι) → Int)

include g

theorem load_set (hw : workers[w]? = some old) (new : Worker ι ε ρ) :
    load g (workers.set w new) = load g workers - old.batch.elim 0 g + new.batch.elim 0 g := by
  unfold load
  induction workers generalizing w with
  | nil => simp at hw
  | cons worker rest ih =>
    cases w with
    | zero =>
      obtain rfl : worker = old := by simpa using hw
      simp only [List.set_cons_zero, List.map_cons, List.sum_cons]
      omega
    | succ w =>
      have hrest := ih hw
      simp only [List.set_cons_succ, List.map_cons, List.sum_cons]
      omega

theorem load_set_eq (hw : workers[w]? = some old)
    (hbatch : new.batch = old.batch) : load g (workers.set w new) = load g workers := by
  rw [load_set g hw, hbatch]
  omega

theorem load_begin (hw : workers[w]? = some .window) :
    load g (workers.set w (.running batch)) = load g workers + g batch := by
  rw [load_set g hw]
  simp only [Worker.batch, Option.elim]
  omega

theorem load_finish (hw : workers[w]? = some worker)
    (hb : worker.batch = some batch) (hphase : phase.batch = none) :
    load g (workers.set w phase) = load g workers - g batch := by
  rw [load_set g hw, hb, hphase]
  simp only [Option.elim]
  omega

theorem load_eq_zero (h : ∀ worker ∈ workers, worker.batch = none) : load g workers = 0 := by
  refine List.sum_eq_zero fun x hx => ?_
  obtain ⟨worker, hworker, rfl⟩ := List.mem_map.mp hx
  rw [h worker hworker]
  rfl

def State.batches (s : State ι ε ρ Λ) : List (List (Ticket ι)) := s.workers.filterMap Worker.batch

theorem load_eq_sum_batches (s : State ι ε ρ Λ) : load g s.workers = (s.batches.map g).sum := by
  unfold load State.batches
  induction s.workers with
  | nil => rfl
  | cons worker rest ih =>
    cases hb : worker.batch with
    | none | some => simp [hb, ih]

end

theorem load_one (s : State ι ε ρ Λ) : load (fun _ => 1) s.workers = s.batches.length := by
  rw [load_eq_sum_batches]
  simp

theorem load_indicator (p : List (Ticket ι) → Bool) (s : State ι ε ρ Λ) :
    load (fun b => State.indicator (p b)) s.workers = s.batches.countP p := by
  rw [load_eq_sum_batches]
  induction s.batches with
  | nil => rfl
  | cons b rest ih =>
    rw [List.map_cons, List.sum_cons, ih, List.countP_cons]
    cases p b with
    | true => simp [State.indicator, Int.add_comm]
    | false => simp [State.indicator]

/-! ## Before the start -/

def Rested (s : State ι ε ρ Λ) : Prop :=
  s.started = false → ∀ worker ∈ s.workers, worker = .unstarted

theorem Rested.eq_unstarted (h : Rested s) (hs : s.started = false)
    (hw : s.workers[w]? = some worker) : worker = .unstarted :=
  h hs worker (List.mem_of_getElem? hw)

theorem rested_step (h : Rested s) (hstep : Moved D s a s') : Rested s' := by
  intro hs
  cases hstep with
  | submit | cancel | release | released | close | look | join | joined | clear | fail | conclude =>
    exact h hs
  | start _ => cases hs
  | exit w hw hc hd | hold w hw | composeNone w hw hb | compose w hw hb | infer w out batch hw
  | settle w batch t o rest hw | finish w batch hw => cases h.eq_unstarted hs hw
  | die w worker batch hw hb =>
    rw [h.eq_unstarted hs hw] at hb
    cases hb

theorem Reachable.rested (hs : Reachable D ok s) : Rested s :=
  hs.rule (fun _ _ hworker => List.eq_of_mem_replicate hworker)
    fun _ _ _ h _ hstep => rested_step h hstep

/-! ## Busy workers and background batches -/

structure Counted (D : Discipline ι ω ρ ε Λ) (s : State ι ε ρ Λ) : Prop where
  busy : s.busy = load (fun _ => 1) s.workers
  background : s.background = load (fun b => State.indicator (D.carriesBackground b)) s.workers
  cap : s.background ≤ D.backgroundCap
  weight : ∀ b ∈ s.batches, totalWeight D.weight b ≤ D.maxBatch

namespace Counted

theorem initial (D : Discipline ι ω ρ ε Λ) : Counted D (State.initial D : State ι ε ρ Λ) := by
  have hnone : ∀ worker ∈ (State.initial D : State ι ε ρ Λ).workers, worker.batch = none := by
    intro worker hworker
    rw [List.eq_of_mem_replicate hworker]
    rfl
  refine ⟨(load_eq_zero _ hnone).symm, (load_eq_zero _ hnone).symm, ?_, ?_⟩
  · exact Int.natCast_nonneg _
  · intro b hb
    obtain ⟨worker, hworker, hbatch⟩ := List.mem_filterMap.mp hb
    rw [hnone worker hworker] at hbatch
    cases hbatch

theorem of_batch_eq (h : Counted D s) (hw : s.workers[w]? = some old)
    (hworkers : s'.workers = s.workers.set w new) (hbatch : new.batch = old.batch)
    (hbusy : s'.busy = s.busy) (hback : s'.background = s.background) : Counted D s' := by
  have hload : ∀ g : List (Ticket ι) → Int, load g s'.workers = load g s.workers := by
    intro g
    rw [hworkers, load_set_eq g hw hbatch]
  refine ⟨by rw [hbusy, hload]; exact h.busy, by rw [hback, hload]; exact h.background,
    by rw [hback]; exact h.cap, ?_⟩
  intro b hb
  obtain ⟨worker, hworker, hbatch'⟩ := List.mem_filterMap.mp hb
  rw [hworkers] at hworker
  rcases List.mem_or_eq_of_mem_set hworker with hm | rfl
  · exact h.weight b (List.mem_filterMap.mpr ⟨worker, hm, hbatch'⟩)
  · exact h.weight b (List.mem_filterMap.mpr ⟨old, List.mem_of_getElem? hw, hbatch ▸ hbatch'⟩)

theorem of_eq (h : Counted D s) (hworkers : s'.workers = s.workers) (hbusy : s'.busy = s.busy)
    (hback : s'.background = s.background) : Counted D s' := by
  refine ⟨by rw [hbusy, hworkers]; exact h.busy, by rw [hback, hworkers]; exact h.background,
    by rw [hback]; exact h.cap, ?_⟩
  unfold State.batches
  rw [hworkers]
  exact h.weight

theorem finish (h : Counted D s) (hw : s.workers[w]? = some worker) (hb : worker.batch = some batch)
    (hphase : phase.batch = none) : Counted D (s.finish D w batch phase) := by
  refine ⟨?_, ?_, ?_, ?_⟩
  · simp only [State.finish]
    rw [load_finish _ hw hb hphase, h.busy]
  · simp only [State.finish]
    rw [load_finish _ hw hb hphase, h.background]
  · have hcap := h.cap
    simp only [State.finish, State.indicator]
    split <;> omega
  · intro b hmem
    obtain ⟨worker', hworker, hbatch⟩ := List.mem_filterMap.mp hmem
    rcases List.mem_or_eq_of_mem_set hworker with hm | rfl
    · exact h.weight b (List.mem_filterMap.mpr ⟨worker', hm, hbatch⟩)
    · rw [hphase] at hbatch
      cases hbatch

end Counted

/-- A composed batch that carries background work was composed while a background slot was free. -/
theorem admissible_of_carriesBackground (hf : Filed D s)
    (h : D.carriesBackground (s.composition D).batch = true) : s.background < D.backgroundCap := by
  obtain ⟨t, ht, hcls⟩ := List.any_eq_true.mp h
  unfold State.composition at ht
  rw [compose_batch] at ht
  rcases mem_of_mem_compose_taken D _ _ _ (List.mem_of_mem_filter ht) with hm | hm
  · have hlive := (hf.queue _ t hm).2
    rw [of_decide_eq_true hcls] at hlive
    cases hlive
  · have hadm := hm.1
    simp only [State.backgroundAdmissible, Bool.and_eq_true, decide_eq_true_eq] at hadm
    exact hadm.2

theorem counted_step (hf : Filed D s) (hr : Rested s) (h : Counted D s) (hstep : Moved D s a s') :
    Counted D s' := by
  cases hstep with
  | submit | cancel | release | released | close | look | join | joined | clear | fail | conclude =>
    exact h.of_eq rfl rfl rfl
  | start hs =>
    have hold : ∀ worker ∈ s.workers, worker.batch = none := by
      intro worker hworker
      rw [hr hs worker hworker]
      rfl
    have hnew : ∀ worker ∈ s.workers.map fun _ => (.collecting : Worker ι ε ρ),
        worker.batch = none := by
      intro worker hworker
      obtain ⟨_, _, rfl⟩ := List.mem_map.mp hworker
      rfl
    refine ⟨?_, ?_, h.cap, ?_⟩
    · rw [load_eq_zero _ hnew, ← load_eq_zero (fun _ => 1) hold]
      exact h.busy
    · rw [load_eq_zero _ hnew, ← load_eq_zero _ hold]
      exact h.background
    · intro b hb
      obtain ⟨worker, hworker, hbatch⟩ := List.mem_filterMap.mp hb
      rw [hnew worker hworker] at hbatch
      cases hbatch
  | exit w hw hc hd | hold w hw | composeNone w hw hb | infer w out batch hw
  | settle w batch t o rest hw => exact h.of_batch_eq hw rfl rfl rfl rfl
  | compose w hw hb =>
    refine ⟨?_, ?_, ?_, ?_⟩
    · simp only [State.begin, State.withdraw]
      rw [load_begin _ hw, h.busy]
    · simp only [State.begin, State.withdraw]
      rw [load_begin _ hw, h.background]
    · have hcap := h.cap
      simp only [State.begin, State.withdraw, State.indicator]
      split
      · next hcarry =>
        have := admissible_of_carriesBackground hf hcarry
        omega
      · omega
    · intro b hmem
      obtain ⟨worker, hworker, hbatch⟩ := List.mem_filterMap.mp hmem
      rcases List.mem_or_eq_of_mem_set hworker with hm | rfl
      · exact h.weight b (List.mem_filterMap.mpr ⟨worker, hm, hbatch⟩)
      · cases hbatch
        exact compose_weight D _ _ _
  | finish w batch hw => exact h.finish hw rfl rfl
  | die w worker batch hw hb => exact h.finish hw hb rfl

theorem Reachable.counted (hs : Reachable D ok s) : Counted D s := by
  induction hs with
  | initial => exact Counted.initial D
  | step hs _ h ih => exact counted_step hs.filed hs.rested ih (step_moved h)

/-! ## The ledger -/

section

variable (D) (s) (c : SchedulingClass)

def classWeight (xs : List ι) : Int :=
  ((xs.filter fun x => D.cls x = c).map fun x => (D.weight x : Int)).sum

def batchWeight (batch : List (Ticket ι)) : Int :=
  (totalWeight D.weight batch : Int)

def State.queueWeight : Int :=
  (totalWeight D.weight (s.queue c) : Int)

end

/-- `track l p f` says that the ledger `l` shows the weight `p c` for the queue of each class `c`
and the weight `f` for the running batches; every update of the ledger has to keep that. -/
structure Accounting (D : Discipline ι ω ρ ε Λ) (track : Λ → (SchedulingClass → Int) → Int → Prop) :
    Prop where
  initial : track D.ledger (fun _ => 0) 0
  enqueued : ∀ {l p f} (x : ι), track l p f →
    track (D.enqueued x l) (fun c => p c + classWeight D c [x]) f
  dequeued : ∀ {l p f} (x : ι), track l p f →
    track (D.dequeued x l) (fun c => p c - classWeight D c [x]) f
  cleared : ∀ {l p f}, track l p f → track (D.cleared l) (fun _ => 0) f
  begun : ∀ {l p f} (batch : List (Ticket ι)), track l p f →
    track (D.begun (batch.map Ticket.item) l) p (f + batchWeight D batch)
  ended : ∀ {l p f} (batch : List (Ticket ι)), track l p f →
    track (D.ended (batch.map Ticket.item) l) p (f - batchWeight D batch)

variable {track : Λ → (SchedulingClass → Int) → Int → Prop}

section

variable {l : Λ} {p : SchedulingClass → Int} {f : Int}

theorem classWeight_cons (D : Discipline ι ω ρ ε Λ) (c : SchedulingClass) (x : ι) (xs : List ι) :
    classWeight D c (x :: xs) = classWeight D c [x] + classWeight D c xs := by
  unfold classWeight
  by_cases hx : D.cls x = c
  · simp [hx]
  · simp [hx]

theorem classWeight_append (D : Discipline ι ω ρ ε Λ) (c : SchedulingClass) (xs ys : List ι) :
    classWeight D c (xs ++ ys) = classWeight D c xs + classWeight D c ys := by
  simp [classWeight]

theorem classWeight_of_class {c : SchedulingClass} (h : ∀ t ∈ ts, D.cls t.item = c)
    (c' : SchedulingClass) :
    classWeight D c' (ts.map Ticket.item) =
      if c' = c then (totalWeight D.weight ts : Int) else 0 := by
  induction ts with
  | nil => simp [classWeight]
  | cons t rest ih =>
    have ht : D.cls t.item = c := h t List.mem_cons_self
    rw [List.map_cons, classWeight_cons, ih fun u hu => h u (List.mem_cons_of_mem _ hu)]
    by_cases hc : c' = c
    · simp [classWeight, ht, hc]
    · simp [classWeight, ht, hc, Ne.symm hc]

theorem Accounting.enqueued_all (hacc : Accounting D track) (xs : List ι) : ∀ {l p}, track l p f →
      track (xs.foldl (fun l x => D.enqueued x l) l) (fun c => p c + classWeight D c xs) f := by
  induction xs with
  | nil => intro l p h; simpa [classWeight] using h
  | cons x rest ih =>
    intro l p h
    have hrest := ih (hacc.enqueued x h)
    simp only [add_assoc, ← classWeight_cons] at hrest
    exact hrest

theorem Accounting.dequeued_all (hacc : Accounting D track) (ts : List (Ticket ι)) :
    ∀ {l p}, track l p f →
      track (ts.foldl (fun l t => D.dequeued t.item l) l)
        (fun c => p c - classWeight D c (ts.map Ticket.item)) f := by
  induction ts with
  | nil => intro l p h; simpa [classWeight] using h
  | cons t rest ih =>
    intro l p h
    have hrest := ih (hacc.dequeued t.item h)
    simp only [sub_sub, ← classWeight_cons] at hrest
    exact hrest

end

theorem totalWeight_tickets (D : Discipline ι ω ρ ε Λ) (s : State ι ε ρ Λ) (xs : List ι)
    (c : SchedulingClass) :
    (totalWeight D.weight ((s.tickets xs).filter fun t => D.cls t.item = c) : Int) =
      classWeight D c xs := by
  have hmap : xs.filter (fun x => D.cls x = c) =
      ((s.tickets xs).filter fun t => D.cls t.item = c).map Ticket.item := by
    conv_lhs => rw [← map_item_tickets s xs]
    rw [List.filter_map]
    rfl
  unfold classWeight totalWeight
  rw [hmap, List.map_map, Nat.cast_list_sum, List.map_map]
  rfl

theorem queueWeight_enqueue (D : Discipline ι ω ρ ε Λ) (s : State ι ε ρ Λ) (xs : List ι)
    (c : SchedulingClass) :
    (s.enqueue D xs).queueWeight D c = s.queueWeight D c + classWeight D c xs := by
  simp only [State.queueWeight, State.enqueue, totalWeight_append]
  push_cast
  rw [totalWeight_tickets]

theorem totalWeight_eraseP (weight : ι → Nat) {q : Ticket ι → Bool} {t : Ticket ι}
    (hex : ∃ u ∈ ts, q u = true) (huniq : ∀ u ∈ ts, q u = true → u = t) :
    (totalWeight weight (ts.eraseP q) : Int) = totalWeight weight ts - weight t.item := by
  induction ts with
  | nil => simp at hex
  | cons u rest ih =>
    by_cases hu : q u = true
    · rw [List.eraseP_cons_of_pos hu, totalWeight_cons, huniq u List.mem_cons_self hu]
      omega
    · have hrest : ∃ v ∈ rest, q v = true := by
        obtain ⟨v, hv, hqv⟩ := hex
        rcases List.mem_cons.mp hv with rfl | hv
        · exact absurd hqv hu
        · exact ⟨v, hv, hqv⟩
      rw [List.eraseP_cons_of_neg hu, totalWeight_cons, totalWeight_cons]
      have := ih hrest fun v hv => huniq v (List.mem_cons_of_mem _ hv)
      omega

/-- What a composition takes from a queue is what the queue loses. -/
theorem queueWeight_withdraw (hf : Filed D s) (c : SchedulingClass) :
    (s.withdraw D).queueWeight D c =
      s.queueWeight D c - classWeight D c ((s.composition D).taken.map Ticket.item) := by
  obtain ⟨first, third, hlive, second, hback, htaken, -⟩ := compose_live D
    (s.backgroundAdmissible D) (fun t => (s.futures t.id).isCancelled) s.queue
  have hin : ∀ ts : List (Ticket ι), ∀ c₀, (∀ t ∈ ts, t ∈ s.queue c₀) →
      classWeight D c (ts.map Ticket.item) =
        if c = c₀ then (totalWeight D.weight ts : Int) else 0 := by
    intro ts c₀ hts
    exact classWeight_of_class (fun t ht => (hf.queue c₀ t (hts t ht)).2) c
  have hfirst := hin first .live fun t ht => by rw [hlive]; simp [ht]
  have hthird := hin third .live fun t ht => by rw [hlive]; simp [ht]
  have hsecond := hin second .background fun t ht => by rw [hback]; simp [ht]
  have htk : (s.composition D).taken = first ++ second ++ third := htaken
  rw [htk, List.map_append, List.map_append, classWeight_append, classWeight_append, hfirst,
    hsecond, hthird]
  unfold State.queueWeight State.withdraw State.composition
  cases c with
  | live =>
    rw [show totalWeight D.weight (s.queue .live) = _ from congrArg _ hlive]
    simp only [totalWeight_append, if_true, reduceCtorEq, if_false]
    omega
  | background =>
    rw [show totalWeight D.weight (s.queue .background) = _ from congrArg _ hback]
    simp only [totalWeight_append, if_true, reduceCtorEq, if_false]
    omega

section

def Tracked (D : Discipline ι ω ρ ε Λ) (track : Λ → (SchedulingClass → Int) → Int → Prop)
    (s : State ι ε ρ Λ) : Prop :=
  track s.ledger (s.queueWeight D) (load (batchWeight D) s.workers)

theorem Tracked.of_eq (h : Tracked D track s) (hledger : s'.ledger = s.ledger)
    (hqueue : s'.queue = s.queue)
    (hload : load (batchWeight D) s'.workers = load (batchWeight D) s.workers) :
    Tracked D track s' := by
  unfold Tracked State.queueWeight at h ⊢
  rw [hledger, hqueue, hload]
  exact h

theorem tracked_finish (hacc : Accounting D track) (h : Tracked D track s)
    (hw : s.workers[w]? = some worker) (hb : worker.batch = some batch)
    (hphase : phase.batch = none) : Tracked D track (s.finish D w batch phase) := by
  unfold Tracked
  rw [show load _ (s.finish D w batch phase).workers = _ from load_finish _ hw hb hphase]
  exact hacc.ended batch h

theorem tracked_step (hacc : Accounting D track) (hf : Filed D s) (hr : Rested s)
    (h : Tracked D track s) (hstep : Moved D s a s') : Tracked D track s' := by
  cases hstep with
  | submit xs hopen hadm =>
    have hnew := hacc.enqueued_all xs h
    unfold Tracked
    rw [funext (queueWeight_enqueue D s xs)]
    exact hnew
  | cancel | released | close | look | join | joined | fail | conclude => exact h.of_eq rfl rfl rfl
  | release i t hi ht hq =>
    have haccepted := List.mem_of_getElem? ht
    have hnew := hacc.dequeued t.item h
    have hqueue : (State.dequeue D { s with releasing := s.releasing.erase i } t).queueWeight D =
        fun c => s.queueWeight D c - classWeight D c [t.item] := by
      funext c
      simp only [State.queueWeight, State.dequeue]
      by_cases hc : c = D.cls t.item
      · subst hc
        rw [Function.update_self, totalWeight_eraseP D.weight (t := t)]
        · simp [classWeight]
        · obtain ⟨u, hu, hid⟩ := hq
          exact ⟨u, hu, by simpa using hid⟩
        · intro u hu hid
          exact hf.eq_of_id (hf.queue _ u hu).1 haccepted (by simpa using hid)
      · rw [Function.update_of_ne hc]
        simp [classWeight, Ne.symm hc]
    unfold Tracked
    rw [hqueue]
    exact hnew
  | start hs =>
    refine h.of_eq rfl rfl ?_
    rw [load_eq_zero, load_eq_zero]
    · intro worker hworker
      rw [hr hs worker hworker]
      rfl
    · intro worker hworker
      obtain ⟨_, _, rfl⟩ := List.mem_map.mp hworker
      rfl
  | exit w hw hc hd | hold w hw | infer w out batch hw | settle w batch t o rest hw =>
    exact h.of_eq rfl rfl (load_set_eq _ hw rfl)
  | composeNone w hw hb =>
    have hnew := hacc.dequeued_all (s.composition D).taken h
    rw [← funext (queueWeight_withdraw hf)] at hnew
    unfold Tracked
    rw [show load _ ((s.withdraw D).setWorker w .collecting).workers = load _ s.workers from
      load_set_eq _ hw rfl]
    exact hnew
  | compose w hw hb =>
    have hnew := hacc.begun (s.composition D).batch (hacc.dequeued_all (s.composition D).taken h)
    rw [← funext (queueWeight_withdraw hf)] at hnew
    unfold Tracked
    rw [show load _ ((s.withdraw D).begin D w (s.composition D).batch).workers = _ from
      load_begin _ hw]
    exact hnew
  | finish w batch hw => exact tracked_finish hacc h hw rfl rfl
  | die w worker batch hw hb => exact tracked_finish hacc h hw hb rfl
  | clear k drained hk => exact hacc.cleared h

theorem Reachable.tracked (hacc : Accounting D track) (hs : Reachable D ok s) :
    Tracked D track s := by
  induction hs with
  | initial =>
    unfold Tracked
    rw [load_eq_zero]
    · exact hacc.initial
    · intro worker hworker
      rw [List.eq_of_mem_replicate hworker]
      rfl
  | step hs _ h ih => exact tracked_step hacc hs.filed hs.rested ih (step_moved h)

end

/-! ## What is queued -/

theorem queue_step (hstep : Moved D s a s') : (∀ c, (s'.queue c).Sublist (s.queue c)) ∨
      ∃ xs, a = .submit xs ∧ s.closed = false ∧ D.admits s.ledger s.items xs = true ∧
        s' = s.enqueue D xs := by
  have hsame : ∀ c, (s.queue c).Sublist (s.queue c) := fun c => List.Sublist.refl _
  have hwithdraw : ∀ c, ((s.withdraw D).queue c).Sublist (s.queue c) := by
    intro c
    obtain ⟨first, third, hlive, second, hback, -, -⟩ := compose_live D
      (s.backgroundAdmissible D) (fun t => (s.futures t.id).isCancelled) s.queue
    cases c with
    | live =>
      rw [hlive]
      exact List.sublist_append_right _ _
    | background =>
      rw [hback]
      exact List.sublist_append_right _ _
  cases hstep with
  | submit xs hopen hadm => exact .inr ⟨xs, rfl, hopen, hadm, rfl⟩
  | release i t hi ht hq =>
    refine .inl fun c => ?_
    simp only [State.dequeue]
    by_cases hc : c = D.cls t.item
    · subst hc
      rw [Function.update_self]
      exact List.eraseP_sublist
    · rw [Function.update_of_ne hc]
  | composeNone | compose => exact .inl hwithdraw
  | clear k drained hk => exact .inl fun c => List.nil_sublist _
  | cancel | released | start | exit | hold | infer | settle | finish | die | close | look | join
  | joined | fail | conclude => exact .inl hsame

section

variable (D) (s) (xs : List ι)

def State.queuedWeight : Int :=
  s.queueWeight D .live + s.queueWeight D .background

def Discipline.submissionWeight : Int :=
  (xs.map fun x => (D.weight x : Int)).sum

theorem classWeight_live_add_background :
    classWeight D .live xs + classWeight D .background xs = D.submissionWeight xs := by
  induction xs with
  | nil => rfl
  | cons x rest ih =>
    have hone : classWeight D .live [x] + classWeight D .background [x] = D.weight x := by
      cases hx : D.cls x with
      | live | background => simp [classWeight, hx]
    rw [classWeight_cons, classWeight_cons D .background]
    simp only [Discipline.submissionWeight, List.map_cons, List.sum_cons] at ih ⊢
    omega

theorem queuedWeight_enqueue :
    (s.enqueue D xs).queuedWeight D = s.queuedWeight D + D.submissionWeight xs := by
  unfold State.queuedWeight
  rw [queueWeight_enqueue, queueWeight_enqueue, ← classWeight_live_add_background]
  omega

end

theorem totalWeight_le_of_sublist (weight : ι → Nat) {us : List (Ticket ι)} (h : ts.Sublist us) :
    totalWeight weight ts ≤ totalWeight weight us := by
  induction h with
  | slnil => exact le_rfl
  | cons t _ ih =>
    rw [totalWeight_cons]
    omega
  | cons_cons t _ ih =>
    rw [totalWeight_cons, totalWeight_cons]
    omega

/-- What is queued never outweighs a bound that the admission test keeps to. -/
theorem Reachable.queuedWeight_le (hacc : Accounting D track) {bound : Int} (hbound : 0 ≤ bound)
    (hadm : ∀ (s : State ι ε ρ Λ) (xs : List ι), Tracked D track s →
      D.admits s.ledger s.items xs = true → s.queuedWeight D + D.submissionWeight xs ≤ bound)
    (hs : Reachable D ok s) : s.queuedWeight D ≤ bound := by
  induction hs with
  | initial => exact hbound
  | step hs _ h ih =>
    rcases queue_step (step_moved h) with hsub | ⟨xs, -, -, hadmits, rfl⟩
    · have hlive := totalWeight_le_of_sublist D.weight (hsub .live)
      have hback := totalWeight_le_of_sublist D.weight (hsub .background)
      unfold State.queuedWeight State.queueWeight at ih ⊢
      omega
    · rw [queuedWeight_enqueue]
      exact hadm _ xs (hs.tracked hacc) hadmits

end RagForge.Batching
