import RagForge.Batching.Accounting
import RagForge.Sequence.Slots

/-
What a shutdown call may report.

A shutdown closes admission, joins the workers and then fails whatever is still queued.  A run is
orderly if no worker dies inside a batch, the scheduler is not started once it is closed, every
shutdown asks a started scheduler to drain or finds nothing queued but items their callers gave up,
the deadline expires only for a call that is the only one, and no call follows one whose deadline
has expired.  There a call returns true only after every accepted item was settled by the model or
cancelled by its caller.
-/

namespace RagForge.Batching

variable {ι ω ρ ε Λ : Type} {D : Discipline ι ω ρ ε Λ} {s s' : State ι ε ρ Λ} {a : Action ι ω ε}
  {t : Ticket ι} {f : Future ε ρ} {workers : List (Worker ι ε ρ)} {new : Worker ι ε ρ}
  {batch : List (Ticket ι)} {i w : Nat}

def Lossless (s : State ι ε ρ Λ) : Action ι ω ε → Prop
  | .start => s.closed = false
  | .die _ => False
  | .clear _ => ∀ t ∈ s.queued, s.futures t.id = .cancelled
  | _ => True

/-- The deadline expired before the call saw every worker exit, so it reports failure. -/
def Shutdown.gaveUp : Shutdown ι → Bool
  | .closing => false
  | .joining _ drained | .clearing drained | .failing drained _ | .returned drained => !drained

def State.orderly (s : State ι ε ρ Λ) : Action ι ω ε → Bool
  | .start => !s.closed
  | .die _ => false
  | .close drain =>
    (drain && s.started || s.queued.all fun t => (s.futures t.id).isCancelled) &&
      s.shutdowns.all fun k => !k.gaveUp
  | .join k =>
    match s.shutdowns[k]? with
    | some (.joining next _) => s.workers[next]?.all Worker.isExited || s.shutdowns.length == 1
    | _ => true
  | _ => true

def Future.Served : Future ε ρ → Prop
  | .cancelled => True
  | .done (.value _) => True
  | .done (.failed _) => True
  | _ => False

/-- A shutdown that reported success left every accepted item served. -/
def TruthfulShutdowns (s : State ι ε ρ Λ) : Prop :=
  ∀ k : Nat, s.shutdowns[k]? = some (.returned true) →
    ∀ t ∈ s.accepted, (s.futures t.id).Served

/-! ## Futures that are settled stay settled -/

def Future.isFinal : Future ε ρ → Bool
  | .cancelled => true
  | .done _ => true
  | _ => false

theorem notify_of_isFinal (h : f.isFinal = true) : f.notify = f := by
  cases f with
  | pending => cases h
  | running | cancelled | done => rfl

theorem settle_of_isFinal (h : f.isFinal = true) (o : Outcome ε ρ) : f.settle o = f := by
  cases f with
  | pending | running => cases h
  | cancelled | done => rfl

theorem eq_cancelled (h : f.isCancelled = true) : f = .cancelled := by
  cases f with
  | cancelled => rfl
  | pending | running | done => cases h

theorem isFinal_of_served (h : f.Served) : f.isFinal = true := by
  cases f with
  | pending | running => exact h.elim
  | cancelled | done => rfl

/-- Futures that are cancelled or done in `s` are the same in `s'`. -/
def KeepsFinal (s s' : State ι ε ρ Λ) : Prop :=
  ∀ i, (s.futures i).isFinal = true → s'.futures i = s.futures i

theorem keepsFinal_step (hstep : Moved D s a s') : KeepsFinal s s' := by
  intro i hi
  have hset : ∀ (j : Nat) (f : Future ε ρ), (i = j → f = s.futures i) →
      (s.setFuture j f).futures i = s.futures i := by
    intro j f hf
    by_cases hij : i = j
    · subst hij
      simp only [State.setFuture]
      rw [Function.update_self]
      exact hf rfl
    · simp only [State.setFuture]
      rw [Function.update_of_ne hij]
  have hwithdraw : (s.withdraw D).futures i = s.futures i := by
    simp only [State.withdraw]
    split
    · exact notify_of_isFinal hi
    · rfl
  cases hstep with
  | cancel j hj hp =>
    refine hset j .cancelled ?_
    intro hij
    rw [hij, hp] at hi
    cases hi
  | composeNone | compose => exact hwithdraw
  | settle w batch t o rest hw =>
    refine hset t.id _ ?_
    intro hij
    rw [← hij, settle_of_isFinal hi]
  | fail k drained t rest hk =>
    refine hset t.id _ ?_
    intro hij
    rw [← hij, notify_of_isFinal hi, settle_of_isFinal hi]
  | submit | release | released | start | exit | hold | infer | finish | die | close | look | join
  | joined | clear | conclude => rfl

theorem KeepsFinal.cancelled (h : KeepsFinal s s') (hi : s.futures i = .cancelled) :
    s'.futures i = .cancelled := by
  rw [h i (by rw [hi]; rfl), hi]

theorem KeepsFinal.served (h : KeepsFinal s s') (hi : (s.futures i).Served) :
    (s'.futures i).Served := by
  rw [h i (isFinal_of_served hi)]
  exact hi

/-! ## Nothing is failed by the shutdown -/

def Worker.NeverClosed : Worker ι ε ρ → Prop
  | .settling _ r => ∀ x ∈ r, x.2 ≠ .closed
  | _ => True

/-- Callbacks wait for cancelled futures only, no future was failed by a shutdown, and none is about
to be. -/
structure Spared (s : State ι ε ρ Λ) : Prop where
  releasing : ∀ i ∈ s.releasing, s.futures i = .cancelled
  futures : ∀ i, s.futures i ≠ .done .closed
  workers : ∀ worker ∈ s.workers, worker.NeverClosed
  shutdowns : ∀ k ∈ s.shutdowns, k.All fun t => s.futures t.id = .cancelled

theorem outcomes_ne_closed {out : Except ε ω} {x : Ticket ι × Outcome ε ρ}
    (hx : x ∈ D.outcomes batch out) : x.2 ≠ .closed := by
  intro hclosed
  unfold Discipline.outcomes at hx
  split at hx
  · obtain ⟨t, -, rfl⟩ := List.mem_map.mp hx
    cases hclosed
  · split at hx
    · obtain ⟨t, -, rfl⟩ := List.mem_map.mp hx
      cases hclosed
    · obtain ⟨v, -, hv⟩ := List.mem_map.mp (List.of_mem_zip hx).2
      rw [hclosed] at hv
      cases hv

namespace Spared

theorem initial (D : Discipline ι ω ρ ε Λ) : Spared (State.initial D : State ι ε ρ Λ) where
  releasing i hi := by cases hi
  futures i h := by cases h
  workers worker hworker := by
    rw [List.eq_of_mem_replicate hworker]
    trivial
  shutdowns k hk := by cases hk

theorem of_keepsFinal (h : Spared s) (hkeeps : KeepsFinal s s')
    (hreleasing : ∀ i ∈ s'.releasing, i ∈ s.releasing ∨ s'.futures i = .cancelled)
    (hfutures : ∀ i, s'.futures i = .done .closed → s.futures i = .done .closed)
    (hworkers : ∀ worker ∈ s'.workers, worker.NeverClosed)
    (hshutdowns : ∀ k ∈ s'.shutdowns, k.All fun t => s.futures t.id = .cancelled) : Spared s' where
  releasing i hi := (hreleasing i hi).elim
    (fun hold => hkeeps.cancelled (h.releasing i hold)) id
  futures i hi := h.futures i (hfutures i hi)
  workers := hworkers
  shutdowns k hk := (hshutdowns k hk).mono fun _ ht => hkeeps.cancelled ht

end Spared

theorem setFuture_eq_closed {j : Nat} (hf : f = .done .closed → s.futures j = .done .closed)
    (i : Nat) (hi : (s.setFuture j f).futures i = .done .closed) : s.futures i = .done .closed := by
  simp only [State.setFuture] at hi
  by_cases hij : i = j
  · subst hij
    rw [Function.update_self] at hi
    exact hf hi
  · rw [Function.update_of_ne hij] at hi
    exact hi

theorem withdraw_eq_closed (i : Nat) (hi : (s.withdraw D).futures i = .done .closed) :
    s.futures i = .done .closed := by
  simp only [State.withdraw] at hi
  split at hi
  · exact notify_eq_done hi
  · exact hi

theorem spared_step (h : Spared s) (hok : Lossless s a) (hstep : Moved D s a s') : Spared s' := by
  have hkeeps := keepsFinal_step hstep
  cases hstep with
  | submit xs hopen hadm =>
    exact h.of_keepsFinal hkeeps (fun _ => .inl) (fun _ => id) h.workers h.shutdowns
  | cancel j hj hp =>
    refine h.of_keepsFinal hkeeps ?_ (setFuture_eq_closed fun hf => by cases hf)
      h.workers h.shutdowns
    intro i hi
    split at hi
    · rcases List.mem_cons.mp hi with rfl | hi
      · exact .inr (Function.update_self ..)
      · exact .inl hi
    · exact .inl hi
  | release | released =>
    exact h.of_keepsFinal hkeeps (fun _ hi => .inl (List.mem_of_mem_erase hi)) (fun _ => id)
      h.workers h.shutdowns
  | start hs =>
    refine h.of_keepsFinal hkeeps (fun _ => .inl) (fun _ => id) ?_ h.shutdowns
    intro worker hworker
    obtain ⟨_, _, rfl⟩ := List.mem_map.mp hworker
    trivial
  | exit | hold | finish | die =>
    exact h.of_keepsFinal hkeeps (fun _ => .inl) (fun _ => id) (forall_mem_set h.workers trivial)
      h.shutdowns
  | composeNone | compose =>
    exact h.of_keepsFinal hkeeps (fun _ => .inl) withdraw_eq_closed
      (forall_mem_set h.workers trivial) h.shutdowns
  | infer w out batch hw =>
    exact h.of_keepsFinal hkeeps (fun _ => .inl) (fun _ => id)
      (forall_mem_set h.workers fun x hx => outcomes_ne_closed hx) h.shutdowns
  | settle w batch t o rest hw =>
    have hold : ∀ x ∈ (t, o) :: rest, x.2 ≠ .closed := h.workers _ (List.mem_of_getElem? hw)
    refine h.of_keepsFinal hkeeps (fun _ => .inl) (setFuture_eq_closed ?_)
      (forall_mem_set h.workers fun x hx => hold x (List.mem_cons_of_mem _ hx)) h.shutdowns
    intro hf
    rcases settle_eq_done hf with hf | hf
    · exact hf
    · exact absurd hf.symm (hold (t, o) List.mem_cons_self)
  | close drain =>
    refine h.of_keepsFinal hkeeps (fun _ => .inl) (fun _ => id) h.workers ?_
    intro k hk
    rcases List.mem_append.mp hk with hk | hk
    · exact h.shutdowns k hk
    · rw [List.mem_singleton.mp hk]
      trivial
  | look k hk =>
    refine h.of_keepsFinal hkeeps (fun _ => .inl) (fun _ => id) h.workers
      (forall_mem_set h.shutdowns ?_)
    split <;> trivial
  | join | joined | conclude =>
    exact h.of_keepsFinal hkeeps (fun _ => .inl) (fun _ => id) h.workers
      (forall_mem_set h.shutdowns trivial)
  | clear k drained hk =>
    exact h.of_keepsFinal hkeeps (fun _ => .inl) (fun _ => id) h.workers
      (forall_mem_set h.shutdowns hok)
  | fail k drained t rest hk =>
    have hleft : ∀ u ∈ t :: rest, s.futures u.id = .cancelled :=
      h.shutdowns _ (List.mem_of_getElem? hk)
    refine h.of_keepsFinal hkeeps (fun _ => .inl) (setFuture_eq_closed ?_)
      h.workers (forall_mem_set h.shutdowns fun u hu => hleft u (List.mem_cons_of_mem _ hu))
    -- the shutdown only meets futures that are cancelled already
    intro hf
    rw [hleft t List.mem_cons_self] at hf
    cases hf

/-! ## Every accepted item has a place -/

def Worker.Owes (t : Ticket ι) : Worker ι ε ρ → Prop
  | .running b => t ∈ b
  | .settling _ r => ∃ o, (t, o) ∈ r
  | _ => False

/-- Where an accepted item can be: served, in its queue, or with a worker that has yet to settle
it. -/
def Placed (D : Discipline ι ω ρ ε Λ) (s : State ι ε ρ Λ) (t : Ticket ι) : Prop :=
  (s.futures t.id).Served ∨ t ∈ s.queue (D.cls t.item) ∨ ∃ worker ∈ s.workers, worker.Owes t

theorem owes_set {old : Worker ι ε ρ} (hw : workers[w]? = some old) (hnew : old.Owes t → new.Owes t)
    (h : ∃ worker ∈ workers, worker.Owes t) : ∃ worker ∈ workers.set w new, worker.Owes t := by
  obtain ⟨worker, hmem, howes⟩ := h
  obtain ⟨i, hi⟩ := List.mem_iff_getElem?.mp hmem
  rcases Sequence.getElem?_of_set hw hi new with ⟨-, rfl, hset⟩ | ⟨-, hset⟩
  · exact ⟨new, List.mem_of_getElem? hset, hnew howes⟩
  · exact ⟨worker, List.mem_of_getElem? hset, howes⟩

/-- If the model gives one result for each item, every item of a batch gets an outcome. -/
theorem exists_outcome (hdist : ∀ xs o rs, D.distribute xs o = .ok rs → rs.length = xs.length)
    (ht : t ∈ batch) (out : Except ε ω) : ∃ o, (t, o) ∈ D.outcomes batch out := by
  unfold Discipline.outcomes
  split
  · exact ⟨_, List.mem_map.mpr ⟨t, ht, rfl⟩⟩
  · split
    · exact ⟨_, List.mem_map.mpr ⟨t, ht, rfl⟩⟩
    · next rs hrs =>
      have hlen := hdist _ _ _ hrs
      rw [List.length_map] at hlen
      obtain ⟨i, hi, rfl⟩ := List.mem_iff_getElem.mp ht
      refine ⟨.value rs[i], List.mem_iff_getElem.mpr ⟨i, by simp; omega, ?_⟩⟩
      simp

theorem served_settle {o : Outcome ε ρ} (hf : f ≠ .done .closed) (ho : o ≠ .closed) :
    (f.settle o).Served := by
  have hdone : ∀ p : Outcome ε ρ, p ≠ .closed → (Future.done p).Served := by
    intro p hp
    cases p with
    | value | failed => trivial
    | closed => exact hp rfl
  cases f with
  | pending | running => exact hdone o ho
  | cancelled => trivial
  | done p => exact hdone p fun hp => hf (by rw [hp])

theorem placed_withdraw (hkeeps : KeepsFinal s s') (hqueue : s'.queue = (s.withdraw D).queue)
    (hworkers : s'.workers = s.workers.set w new) (hw : s.workers[w]? = some .window)
    (hnew : ∀ t ∈ (s.composition D).batch, new.Owes t) (ht : Placed D s t) : Placed D s' t := by
  rcases ht with ht | ht | ht
  · exact .inl (hkeeps.served ht)
  · rcases mem_compose_cases D (s.backgroundAdmissible D)
      (fun t => (s.futures t.id).isCancelled) s.queue ht with htaken | hleft
    · by_cases hc : (s.futures t.id).isCancelled = true
      · refine .inl ?_
        rw [hkeeps.cancelled (eq_cancelled hc)]
        trivial
      · have hbatch : t ∈ (s.composition D).batch := by
          unfold State.composition
          rw [compose_batch]
          exact List.mem_filter.mpr ⟨htaken, by simpa using hc⟩
        have hlt : w < s.workers.length := (List.getElem?_eq_some_iff.mp hw).1
        refine .inr (.inr ⟨new, ?_, hnew t hbatch⟩)
        rw [hworkers]
        exact List.mem_set hlt new
    · refine .inr (.inl ?_)
      rw [hqueue]
      exact hleft
  · refine .inr (.inr ?_)
    rw [hworkers]
    exact owes_set hw (fun howes => howes.elim) ht

theorem placed_setWorker (hkeeps : KeepsFinal s s') (hqueue : s'.queue = s.queue)
    {old : Worker ι ε ρ} (hw : s.workers[w]? = some old)
    (hworkers : s'.workers = s.workers.set w new) (hnew : old.Owes t → new.Owes t)
    (ht : Placed D s t) : Placed D s' t := by
  unfold Placed
  rw [hqueue, hworkers]
  rcases ht with ht | ht | ht
  · exact .inl (hkeeps.served ht)
  · exact .inr (.inl ht)
  · exact .inr (.inr (owes_set hw hnew ht))

theorem placed_of_eq (hkeeps : KeepsFinal s s') (hqueue : s'.queue = s.queue)
    (hworkers : s'.workers = s.workers) (ht : Placed D s t) : Placed D s' t := by
  unfold Placed
  rw [hqueue, hworkers]
  exact ht.imp_left hkeeps.served

theorem placed_step (hdist : ∀ xs o rs, D.distribute xs o = .ok rs → rs.length = xs.length)
    (hf : Filed D s) (hr : Rested s) (hspared : Spared s) (hok : Lossless s a)
    (hstep : Moved D s a s') (h : ∀ t ∈ s.accepted, Placed D s t) :
    ∀ t ∈ s'.accepted, Placed D s' t := by
  have hkeeps := keepsFinal_step hstep
  cases hstep with
  | submit xs hopen hadm =>
    intro t ht
    rcases List.mem_append.mp ht with ht | ht
    · rcases h t ht with ht | ht | ht
      · exact .inl ht
      · exact .inr (.inl (List.mem_append_left _ ht))
      · exact .inr (.inr ht)
    · refine .inr (.inl (List.mem_append_right _ (List.mem_filter.mpr ⟨ht, ?_⟩)))
      exact decide_eq_true rfl
  | cancel | released | close | look | join | joined | fail | conclude =>
    exact fun t ht => placed_of_eq hkeeps rfl rfl (h t ht)
  | release i t hi ht hq =>
    intro u hu
    rcases h u hu with hplace | hplace | hplace
    · exact .inl (hkeeps.served hplace)
    · by_cases hid : u.id = t.id
      · refine .inl (hkeeps.served ?_)
        have hnumber := hf.number i t ht
        rw [hid, hnumber, hspared.releasing i hi]
        trivial
      · refine .inr (.inl ?_)
        simp only [State.dequeue]
        by_cases hc : D.cls u.item = D.cls t.item
        · rw [hc] at hplace ⊢
          rw [Function.update_self]
          exact (List.mem_eraseP_of_neg (by simpa using hid)).mpr hplace
        · rw [Function.update_of_ne hc]
          exact hplace
    · exact .inr (.inr hplace)
  | start hs =>
    intro t ht
    rcases h t ht with ht | ht | ⟨worker, hworker, howes⟩
    · exact .inl ht
    · exact .inr (.inl ht)
    · rw [hr hs worker hworker] at howes
      exact howes.elim
  | exit w hw hc hd | hold w hw =>
    exact fun t ht => placed_setWorker hkeeps rfl hw rfl (fun howes => howes.elim) (h t ht)
  | composeNone w hw hb =>
    refine fun t ht => placed_withdraw hkeeps rfl rfl hw ?_ (h t ht)
    intro u hu
    rw [hb] at hu
    cases hu
  | compose w hw hb =>
    exact fun t ht => placed_withdraw hkeeps rfl rfl hw (fun u hu => hu) (h t ht)
  | infer w out batch hw =>
    exact fun t ht => placed_setWorker hkeeps rfl hw rfl
      (fun howes => exists_outcome hdist howes out) (h t ht)
  | settle w batch t o rest hw =>
    intro u hu
    have hold : ∀ x ∈ (t, o) :: rest, x.2 ≠ .closed :=
      hspared.workers _ (List.mem_of_getElem? hw)
    by_cases hid : u.id = t.id
    · left
      simp only [State.setFuture, State.setWorker]
      rw [hid, Function.update_self]
      exact served_settle (hspared.futures t.id) (hold (t, o) List.mem_cons_self)
    · refine placed_setWorker hkeeps rfl hw rfl ?_ (h u hu)
      intro howes
      obtain ⟨p, hp⟩ := howes
      rcases List.mem_cons.mp hp with hp | hp
      · rw [(Prod.mk.inj hp).1] at hid
        exact absurd rfl hid
      · exact ⟨p, hp⟩
  | finish w batch hw =>
    refine fun t ht => placed_setWorker hkeeps rfl hw rfl ?_ (h t ht)
    intro howes
    obtain ⟨o, ho⟩ := howes
    cases ho
  | die w worker batch hw hb => exact hok.elim
  | clear k drained hk =>
    intro t ht
    rcases h t ht with hplace | hplace | hplace
    · exact .inl hplace
    · have hqueued : t ∈ s.queued := by
        cases hc : D.cls t.item with
        | live => exact List.mem_append_left _ (hc ▸ hplace)
        | background => exact List.mem_append_right _ (hc ▸ hplace)
      have hcancelled : s.futures t.id = .cancelled := hok t hqueued
      left
      simp only [State.clear, State.setShutdown]
      rw [hcancelled]
      trivial
    · exact .inr (.inr hplace)

/-! ## What a shutdown call has waited for -/

/-- No worker will move again: none was started, or all are gone. -/
def Still (s : State ι ε ρ Λ) : Prop :=
  s.started = false ∨ ∀ worker ∈ s.workers, worker = .exited

def Shutdown.Ready (s : State ι ε ρ Λ) : Shutdown ι → Prop
  | .closing => True
  | .joining next drained =>
    s.started = true ∧ (drained = true → ∀ i < next, s.workers[i]? = some .exited)
  | .clearing drained => drained = true → Still s
  | .failing drained _ => (drained = true → Still s) ∧ ∀ c, s.queue c = []
  | .returned r => (r = true → Still s) ∧ ∀ c, s.queue c = []

section

variable (hstep : Moved D s a s')

include hstep

theorem workers_step (hok : Lossless s a) (hc : s.closed = true) :
    s'.workers = s.workers ∨ ∃ w old new, s.workers[w]? = some old ∧ old ≠ .exited ∧
      s'.workers = s.workers.set w new := by
  cases hstep with
  | start hs =>
    have hopen : s.closed = false := hok
    rw [hc] at hopen
    cases hopen
  | exit w hw hc hd | hold w hw | composeNone w hw hb | compose w hw hb | infer w out batch hw
  | settle w batch t o rest hw | finish w batch hw =>
    exact .inr ⟨w, _, _, hw, (fun h => by cases h), rfl⟩
  | die w worker batch hw hb => exact hok.elim
  | submit | cancel | release | released | close | look | join | joined | clear | fail | conclude =>
    exact .inl rfl

theorem started_step (hok : Lossless s a) (hc : s.closed = true) : s'.started = s.started := by
  cases hstep with
  | start hs =>
    have hopen : s.closed = false := hok
    rw [hc] at hopen
    cases hopen
  | _ => rfl

theorem closed_step (hc : s.closed = true) : s'.closed = true := by
  cases hstep with
  | close drain => rfl
  | _ => exact hc

theorem exited_step (hok : Lossless s a) (hc : s.closed = true)
    (hi : s.workers[i]? = some .exited) : s'.workers[i]? = some .exited := by
  rcases workers_step hstep hok hc with heq | ⟨w, old, new, hw, hne, heq⟩
  · rw [heq]
    exact hi
  · have hwi : w ≠ i := by
      intro h
      rw [h, hi] at hw
      exact hne (Option.some.inj hw).symm
    rw [heq, List.getElem?_set_ne hwi]
    exact hi

theorem still_step (hok : Lossless s a) (hc : s.closed = true) (h : Still s) : Still s' := by
  rcases h with h | h
  · left
    rw [started_step hstep hok hc]
    exact h
  · rcases workers_step hstep hok hc with heq | ⟨w, old, new, hw, hne, heq⟩
    · right
      rw [heq]
      exact h
    · exact absurd (h old (List.mem_of_getElem? hw)) hne

theorem queue_eq_nil_step (hc : s.closed = true)
    (h : ∀ c, s.queue c = []) (c : SchedulingClass) : s'.queue c = [] := by
  rcases queue_step hstep with hsub | ⟨xs, -, hopen, -, -⟩
  · have hsubc := hsub c
    rw [h c] at hsubc
    exact List.sublist_nil.mp hsubc
  · rw [hc] at hopen
    cases hopen

theorem ready_step (hok : Lossless s a) (hc : s.closed = true)
    {k : Shutdown ι} (h : k.Ready s) : k.Ready s' := by
  cases k with
  | closing => trivial
  | joining next drained =>
    refine ⟨?_, fun hd i hi => exited_step hstep hok hc (h.2 hd i hi)⟩
    rw [started_step hstep hok hc]
    exact h.1
  | clearing drained => exact fun hd => still_step hstep hok hc (h hd)
  | failing drained left =>
    exact ⟨fun hd => still_step hstep hok hc (h.1 hd), queue_eq_nil_step hstep hc h.2⟩
  | returned r => exact ⟨fun hr => still_step hstep hok hc (h.1 hr), queue_eq_nil_step hstep hc h.2⟩

end

/-- The scheduler is closed once a shutdown was called, and every call is where it may be. -/
structure Waited (s : State ι ε ρ Λ) : Prop where
  closed : s.shutdowns ≠ [] → s.closed = true
  ready : ∀ k ∈ s.shutdowns, k.Ready s

theorem Waited.set (h : Waited s) (hstep : Moved D s a s') (hok : Lossless s a) {k : Nat}
    {old new : Shutdown ι} (hk : s.shutdowns[k]? = some old)
    (hshutdowns : s'.shutdowns = s.shutdowns.set k new) (hnew : new.Ready s') : Waited s' := by
  have hne : s.shutdowns ≠ [] := by
    intro hnil
    rw [hnil] at hk
    cases hk
  have hclosed := h.closed hne
  refine ⟨fun _ => closed_step hstep hclosed, ?_⟩
  rw [hshutdowns]
  exact forall_mem_set (fun x hx => ready_step hstep hok hclosed (h.ready x hx)) hnew

theorem Waited.of_eq (h : Waited s) (hstep : Moved D s a s') (hok : Lossless s a)
    (hshutdowns : s'.shutdowns = s.shutdowns) : Waited s' := by
  refine ⟨?_, ?_⟩
  · rw [hshutdowns]
    exact fun hne => closed_step hstep (h.closed hne)
  · rw [hshutdowns]
    intro k hk
    exact ready_step hstep hok (h.closed (List.ne_nil_of_mem hk)) (h.ready k hk)

theorem all_exited {next : Nat} (h : ∀ i < next, workers[i]? = some .exited)
    (hnone : workers[next]? = none) : ∀ worker ∈ workers, worker = .exited := by
  intro worker hworker
  obtain ⟨i, hi⟩ := List.mem_iff_getElem?.mp hworker
  have hlen := List.getElem?_eq_none_iff.mp hnone
  have hlt := (List.getElem?_eq_some_iff.mp hi).1
  have hexited := h i (by omega)
  rw [hi] at hexited
  exact Option.some.inj hexited

theorem eq_exited_of_isExited {worker : Worker ι ε ρ} (h : worker.isExited = true) :
    worker = .exited := by
  cases worker with
  | exited => rfl
  | unstarted | collecting | window | running | settling => cases h

theorem waited_step (h : Waited s) (hok : Lossless s a) (hstep : Moved D s a s') : Waited s' := by
  have hsame : s'.shutdowns = s.shutdowns → Waited s' := h.of_eq hstep hok
  have hmoved : ∀ {k : Nat} {old new : Shutdown ι}, s.shutdowns[k]? = some old →
      s'.shutdowns = s.shutdowns.set k new → new.Ready s' → Waited s' := h.set hstep hok
  cases hstep with
  | close drain =>
    refine ⟨fun _ => rfl, ?_⟩
    intro k hk
    rcases List.mem_append.mp hk with hk | hk
    · have hready := h.ready k hk
      cases k with
      | closing => trivial
      | joining | clearing | failing | returned => exact hready
    · rw [List.mem_singleton.mp hk]
      trivial
  | look k hk =>
    refine hmoved hk rfl ?_
    cases hs : s.started with
    | true => exact ⟨hs, fun _ i hi => absurd hi (Nat.not_lt_zero i)⟩
    | false => exact fun _ => .inl hs
  | join k next drained worker hk hw =>
    have hready : (Shutdown.joining next drained).Ready s := h.ready _ (List.mem_of_getElem? hk)
    refine hmoved hk rfl ⟨hready.1, ?_⟩
    intro hd i hi
    have hd' := Bool.and_eq_true_iff.mp hd
    by_cases hin : i = next
    · subst hin
      rw [← eq_exited_of_isExited hd'.2]
      exact hw
    · exact hready.2 hd'.1 i (by omega)
  | joined k next drained hk hw =>
    have hready : (Shutdown.joining next drained).Ready s := h.ready _ (List.mem_of_getElem? hk)
    exact hmoved hk rfl fun hd => .inr (all_exited (hready.2 hd) hw)
  | clear k drained hk =>
    have hready : (Shutdown.clearing drained).Ready s := h.ready _ (List.mem_of_getElem? hk)
    exact hmoved hk rfl ⟨hready, fun _ => rfl⟩
  | fail k drained t rest hk =>
    have hready : (Shutdown.failing drained (t :: rest)).Ready s :=
      h.ready _ (List.mem_of_getElem? hk)
    exact hmoved hk rfl hready
  | conclude k drained hk =>
    have hready : (Shutdown.failing drained []).Ready s := h.ready _ (List.mem_of_getElem? hk)
    exact hmoved hk rfl ⟨fun hr => hready.1 (Bool.and_eq_true_iff.mp hr).1, hready.2⟩
  | _ => exact hsame rfl

/-! ## The report -/

/-- A scheduler that stands still and whose queues are empty has served what it accepted. -/
theorem served_of_still (hr : Rested s) (hstill : Still s) (hqueue : ∀ c, s.queue c = [])
    (ht : Placed D s t) : (s.futures t.id).Served := by
  rcases ht with ht | ht | ⟨worker, hworker, howes⟩
  · exact ht
  · rw [hqueue] at ht
    cases ht
  · rcases hstill with hs | hexited
    · rw [hr hs worker hworker] at howes
      exact howes.elim
    · rw [hexited worker hworker] at howes
      exact howes.elim

/-- What holds as long as every step was lossless. -/
structure Kept (D : Discipline ι ω ρ ε Λ) (s : State ι ε ρ Λ) : Prop where
  spared : Spared s
  placed : ∀ t ∈ s.accepted, Placed D s t
  waited : Waited s

theorem Kept.truthful (hr : Rested s) (h : Kept D s) : TruthfulShutdowns s := by
  intro k hk t ht
  obtain ⟨hstill, hqueue⟩ := h.waited.ready _ (List.mem_of_getElem? hk)
  exact served_of_still hr (hstill rfl) hqueue (h.placed t ht)

/-- The only shutdown call gave up. -/
def GaveUp (s : State ι ε ρ Λ) : Prop := ∃ k, s.shutdowns = [k] ∧ k.gaveUp = true

theorem GaveUp.truthful (h : GaveUp s) : TruthfulShutdowns s := by
  obtain ⟨phase, hphase, hgave⟩ := h
  intro k hk
  rw [hphase] at hk
  have hmem := List.mem_singleton.mp (List.mem_of_getElem? hk)
  rw [← hmem] at hgave
  cases hgave

theorem gaveUp_step (h : GaveUp s) (hok : s.orderly a = true) (hstep : Moved D s a s') :
    GaveUp s' := by
  obtain ⟨phase, hphase, hgave⟩ := h
  have hset : ∀ {k : Nat} {old new : Shutdown ι}, s.shutdowns[k]? = some old →
      s'.shutdowns = s.shutdowns.set k new → (old.gaveUp = true → new.gaveUp = true) →
        GaveUp s' := by
    intro k old new hk hs' hnew
    rw [hphase] at hk hs'
    cases k with
    | zero => exact ⟨new, hs', hnew (Option.some.inj hk ▸ hgave)⟩
    | succ k => cases hk
  cases hstep with
  | close drain =>
    simp only [State.orderly, hphase, List.all_cons, List.all_nil, Bool.and_true, hgave,
      Bool.not_true, Bool.and_false] at hok
    cases hok
  | look k hk => exact hset hk rfl fun hold => by cases hold
  | join k next drained worker hk hw =>
    refine hset hk rfl fun hold => ?_
    obtain rfl : drained = false := by simpa [Shutdown.gaveUp] using hold
    rfl
  | joined k next drained hk hw => exact hset hk rfl fun hold => hold
  | clear k drained hk => exact hset hk rfl fun hold => hold
  | fail k drained t rest hk => exact hset hk rfl fun hold => hold
  | conclude k drained hk =>
    refine hset hk rfl fun hold => ?_
    obtain rfl : drained = false := by simpa [Shutdown.gaveUp] using hold
    rfl
  | _ => exact ⟨phase, hphase, hgave⟩

/-! ## Nothing is left to fail -/

/-- Nobody will work on the queues: no worker was started, the shutdown asked for no draining, or a
worker is gone. -/
def Abandoned (s : State ι ε ρ Λ) : Prop :=
  s.started = false ∨ s.drain = false ∨ .exited ∈ s.workers

/-- Workers leave a closed scheduler only, the items of a closed scheduler that nobody will work on
were given up by their callers, and no deadline has expired. -/
structure Drained (s : State ι ε ρ Λ) : Prop where
  closed : .exited ∈ s.workers → s.closed = true
  cancelled : s.closed = true → Abandoned s → ∀ t ∈ s.queued, s.futures t.id = .cancelled
  waits : ∀ k ∈ s.shutdowns, k.gaveUp = false

/-- A call that saw the workers exit finds nothing to fail. -/
theorem lossless_of_orderly (hworkers : s.workers ≠ []) (hwaited : Waited s) (h : Drained s)
    (hok : s.orderly a = true) (hstep : Moved D s a s') : Lossless s a := by
  cases hstep with
  | start hs =>
    have hopen : s.closed = false := by simpa [State.orderly] using hok
    exact hopen
  | die w worker batch hw hb => cases hok
  | clear k drained hk =>
    have hmem := List.mem_of_getElem? hk
    have hready : (Shutdown.clearing drained).Ready s := hwaited.ready _ hmem
    have hdrained : drained = true := by simpa [Shutdown.gaveUp] using h.waits _ hmem
    refine h.cancelled (hwaited.closed (List.ne_nil_of_mem hmem)) ?_
    rcases hready hdrained with hstarted | hexited
    · exact .inl hstarted
    · obtain ⟨worker, hworker⟩ := List.exists_mem_of_ne_nil _ hworkers
      exact .inr (.inr (hexited worker hworker ▸ hworker))
  | _ => trivial

theorem mem_queued_of_sublist (hsub : ∀ c, (s'.queue c).Sublist (s.queue c)) (ht : t ∈ s'.queued) :
    t ∈ s.queued := by
  rcases List.mem_append.mp ht with ht | ht
  · exact List.mem_append_left _ ((hsub .live).subset ht)
  · exact List.mem_append_right _ ((hsub .background).subset ht)

section

variable (h : Drained s) (hkeeps : KeepsFinal s s') (hqueue : ∀ t ∈ s'.queued, t ∈ s.queued)
  (hstarted : s'.started = s.started) (hdrain : s'.drain = s.drain) (hclosed : s'.closed = s.closed)

include h hkeeps hqueue hstarted hdrain hclosed

theorem Drained.of_workers (hworkers : .exited ∈ s'.workers → .exited ∈ s.workers)
    (hwaits : ∀ k ∈ s'.shutdowns, k.gaveUp = false) : Drained s' where
  closed hexited := hclosed ▸ h.closed (hworkers hexited)
  cancelled hc habandoned t ht := by
    rw [hclosed] at hc
    unfold Abandoned at habandoned
    rw [hstarted, hdrain] at habandoned
    exact hkeeps.cancelled (h.cancelled hc (habandoned.imp_right (.imp_right hworkers)) t
      (hqueue t ht))
  waits := hwaits

theorem Drained.of_setWorker (hne : new ≠ .exited) (hworkers : s'.workers = s.workers.set w new)
    (hshutdowns : s'.shutdowns = s.shutdowns) : Drained s' := by
  refine h.of_workers hkeeps hqueue hstarted hdrain hclosed ?_ (hshutdowns ▸ h.waits)
  intro hexited
  rw [hworkers] at hexited
  exact (List.mem_or_eq_of_mem_set hexited).resolve_right hne.symm

theorem Drained.of_setShutdown {k : Nat} {phase : Shutdown ι} (hworkers : s'.workers = s.workers)
    (hshutdowns : s'.shutdowns = s.shutdowns.set k phase) (hphase : phase.gaveUp = false) :
    Drained s' :=
  h.of_workers hkeeps hqueue hstarted hdrain hclosed (hworkers ▸ id)
    (hshutdowns ▸ forall_mem_set h.waits hphase)

end

/-- A step of an orderly run leaves nothing to fail, unless it is the deadline of the one call. -/
theorem drained_step (hpending : D.pending s.ledger s.items = 0 → s.queued = [])
    (hwaited : Waited s) (h : Drained s) (hok : s.orderly a = true) (hstep : Moved D s a s') :
    Drained s' ∨ GaveUp s' := by
  have hkeeps := keepsFinal_step hstep
  rcases queue_step hstep with hsub | ⟨xs, rfl, hopen, -, rfl⟩
  swap
  · exact .inl ⟨h.closed, fun hc => Bool.noConfusion (hopen.symm.trans hc), h.waits⟩
  have hqueue : ∀ t ∈ s'.queued, t ∈ s.queued := fun t => mem_queued_of_sublist hsub
  have hwaits : ∀ {k : Nat} {phase : Shutdown ι}, s.shutdowns[k]? = some phase →
      phase.gaveUp = false := fun hk => h.waits _ (List.mem_of_getElem? hk)
  cases hstep with
  | submit | cancel | release | released =>
    exact .inl (h.of_workers hkeeps hqueue rfl rfl rfl id h.waits)
  | start hs =>
    have hopen : s.closed = false := by simpa [State.orderly] using hok
    refine .inl ⟨?_, fun hc => Bool.noConfusion (hopen.symm.trans hc), h.waits⟩
    intro hexited
    obtain ⟨_, _, heq⟩ := List.mem_map.mp hexited
    cases heq
  | exit w hw hc hd =>
    refine .inl ⟨fun _ => hc, fun _ _ t ht => ?_, h.waits⟩
    rcases hd with hd | hd
    · exact h.cancelled hc (.inr (.inl hd)) t ht
    · have hmem := hqueue t ht
      rw [hpending hd] at hmem
      cases hmem
  | hold | composeNone | compose | infer | settle | finish =>
    exact .inl (h.of_setWorker hkeeps hqueue rfl rfl rfl (fun hne => by cases hne) rfl rfl)
  | die => cases hok
  | close drain =>
    simp only [State.orderly, Bool.and_eq_true, Bool.or_eq_true, List.all_eq_true,
      Bool.not_eq_true'] at hok
    refine .inl ⟨fun _ => rfl, fun _ habandoned => ?_, ?_⟩
    · rcases hok.1 with ⟨rfl, hstarted⟩ | hcancelled
      · -- with a started scheduler that drains, a worker that is gone left after an earlier call
        rcases habandoned with hnot | hnot | hexited
        · rw [hstarted] at hnot
          cases hnot
        · cases hnot
        · exact h.cancelled (h.closed hexited) (.inr (.inr hexited))
      · exact fun t ht => eq_cancelled (hcancelled t ht)
    · intro k hk
      rcases List.mem_append.mp hk with hk | hk
      · exact hok.2 k hk
      · rw [List.mem_singleton.mp hk]
        rfl
  | look k hk =>
    refine .inl (h.of_setShutdown hkeeps hqueue rfl rfl rfl rfl rfl ?_)
    split <;> rfl
  | join k next drained worker hk hw =>
    obtain rfl : drained = true := by simpa [Shutdown.gaveUp] using hwaits hk
    cases hexited : worker.isExited with
    | true => exact .inl (h.of_setShutdown hkeeps hqueue rfl rfl rfl rfl rfl rfl)
    | false =>
      simp only [State.orderly, hk, hw, Option.all_some, hexited, Bool.false_or,
        beq_iff_eq] at hok
      obtain ⟨phase, hphase⟩ := List.length_eq_one_iff.mp hok
      rw [hphase] at hk
      cases k with
      | zero => exact .inr ⟨_, by rw [State.setShutdown, hphase]; rfl, rfl⟩
      | succ k => cases hk
  | joined k next drained hk hw =>
    have hold := hwaits hk
    exact .inl (h.of_setShutdown hkeeps hqueue rfl rfl rfl rfl rfl hold)
  | clear k drained hk =>
    have hold := hwaits hk
    exact .inl (h.of_setShutdown hkeeps hqueue rfl rfl rfl rfl rfl hold)
  | fail k drained t rest hk =>
    have hold := hwaits hk
    exact .inl (h.of_setShutdown hkeeps hqueue rfl rfl rfl rfl rfl hold)
  | conclude k drained hk =>
    have hready : (Shutdown.failing drained []).Ready s :=
      hwaited.ready _ (List.mem_of_getElem? hk)
    have hempty : s.queued = [] := by
      unfold State.queued
      rw [hready.2, hready.2, List.append_nil]
    refine .inl (h.of_setShutdown hkeeps hqueue rfl rfl rfl rfl rfl ?_)
    rw [hempty]
    simpa [Shutdown.gaveUp] using hwaits hk

theorem Reachable.length_workers {ok : State ι ε ρ Λ → Action ι ω ε → Prop}
    (hs : Reachable D ok s) : s.workers.length = D.workers := by
  refine hs.rule (I := fun s => s.workers.length = D.workers) List.length_replicate ?_
  intro s a s' h _ hstep
  cases hstep with
  | start => exact (List.length_map _).trans h
  | exit | hold | composeNone | compose | infer | settle | finish | die =>
    exact (List.length_set ..).trans h
  | submit | cancel | release | released | close | look | join | joined | clear | fail | conclude =>
    exact h

/-- What the report relies on: the model gives one result for each item, there is a worker, and
where nothing counts as pending the queues are empty. -/
structure Discipline.Drains (D : Discipline ι ω ρ ε Λ) : Prop where
  distribute : ∀ xs o rs, D.distribute xs o = .ok rs → rs.length = xs.length
  workers : 1 ≤ D.workers
  pending : ∀ (ok : State ι ε ρ Λ → Action ι ω ε → Prop) (s : State ι ε ρ Λ), Reachable D ok s →
    D.pending s.ledger s.items = 0 → s.queued = []

/-- In an orderly run a shutdown call returns true only if every accepted item was settled by the
model or cancelled by its caller. -/
theorem Reachable.truthfulShutdowns (hdrains : D.Drains)
    (hs : Reachable D (fun s a => s.orderly a = true) s) : TruthfulShutdowns s := by
  have hinv : (Kept D s ∧ Drained s) ∨ GaveUp s := by
    induction hs with
    | initial =>
      refine .inl ⟨⟨Spared.initial D, fun t ht => (List.not_mem_nil ht).elim,
        ⟨fun hne => absurd rfl hne, fun k hk => (List.not_mem_nil hk).elim⟩⟩,
        fun hexited => ?_, fun hc => (by cases hc), fun k hk => (List.not_mem_nil hk).elim⟩
      cases List.eq_of_mem_replicate hexited
    | step hs hok h ih =>
      have hstep := step_moved h
      rcases ih with ⟨hkept, hdrained⟩ | hgave
      · have hworkers : _ ≠ [] := List.ne_nil_of_length_pos (hs.length_workers ▸ hdrains.workers)
        have hlossless := lossless_of_orderly hworkers hkept.waited hdrained hok hstep
        refine (drained_step (hdrains.pending _ _ hs) hkept.waited hdrained hok hstep).imp_left ?_
        exact fun hdrained' => ⟨⟨spared_step hkept.spared hlossless hstep,
          placed_step hdrains.distribute hs.filed hs.rested hkept.spared hlossless hstep
            hkept.placed,
          waited_step hkept.waited hlossless hstep⟩, hdrained'⟩
      · exact .inr (gaveUp_step hgave hok hstep)
  rcases hinv with ⟨hkept, -⟩ | hgave
  · exact hkept.truthful hs.rested
  · exact hgave.truthful

end RagForge.Batching
