import RagForge.Batching.Machine
import Mathlib.Data.List.TakeWhile

/-
What holds in every reachable state of a scheduler: every queued and every running item was
accepted and is filed under its class, the counters of busy workers and of background batches count
the batches that are running, no batch is too heavy, and a future that was settled with a value has
the value of its own item.
-/

namespace RagForge.Batching

variable {ι ω ρ ε Λ : Type} {t : Ticket ι} {f : Future ε ρ} {s s' : State ι ε ρ Λ}
  {batch : List (Ticket ι)} {a : Action ι ω ε} {out : Except ε ω}

/-! ## Composing -/

@[simp] theorem totalWeight_nil (weight : ι → Nat) : totalWeight weight [] = 0 := rfl

@[simp] theorem totalWeight_cons (weight : ι → Nat) (t : Ticket ι) (ts : List (Ticket ι)) :
    totalWeight weight (t :: ts) = weight t.item + totalWeight weight ts := rfl

@[simp] theorem totalWeight_append (weight : ι → Nat) (ts us : List (Ticket ι)) :
    totalWeight weight (ts ++ us) = totalWeight weight ts + totalWeight weight us := by
  simp [totalWeight]

theorem take_split (weight : ι → Nat) (limit : Nat) (cancelled : Ticket ι → Bool)
    (queue : List (Ticket ι)) : ∀ batch : List (Ticket ι),
      queue = (take weight limit cancelled queue batch).taken ++
        (take weight limit cancelled queue batch).rest := by
  induction queue with
  | nil => intro batch; rfl
  | cons head rest ih =>
    intro batch
    unfold take
    split
    · rfl
    · exact congrArg (head :: ·) (ih _)

theorem take_batch (weight : ι → Nat) (limit : Nat) (cancelled : Ticket ι → Bool)
    (queue : List (Ticket ι)) : ∀ batch : List (Ticket ι),
      (take weight limit cancelled queue batch).batch =
        batch ++ (take weight limit cancelled queue batch).taken.filter fun t => !cancelled t := by
  induction queue with
  | nil => intro batch; simp [take]
  | cons head rest ih =>
    intro batch
    unfold take
    split
    · simp
    · rw [ih]
      by_cases hc : cancelled head = true
      · simp [hc]
      · simp [hc]

theorem take_weight (weight : ι → Nat) (limit bound : Nat) (cancelled : Ticket ι → Bool)
    (hlimit : limit ≤ bound) (queue : List (Ticket ι)) : ∀ batch : List (Ticket ι),
      totalWeight weight batch ≤ bound →
        totalWeight weight (take weight limit cancelled queue batch).batch ≤ bound := by
  induction queue with
  | nil => intro batch h; exact h
  | cons head rest ih =>
    intro batch h
    unfold take
    split
    · exact h
    · next hfit =>
      refine ih _ ?_
      split
      · exact h
      · rw [totalWeight_append, totalWeight_cons, totalWeight_nil]
        omega

section

variable (D : Discipline ι ω ρ ε Λ) (allow : Bool) (cancelled : Ticket ι → Bool)
  (queue : SchedulingClass → List (Ticket ι)) {c : SchedulingClass}

theorem compose_batch :
    (D.compose allow cancelled queue).batch =
      (D.compose allow cancelled queue).taken.filter fun t => !cancelled t := by
  unfold Discipline.compose
  cases allow with
  | false | true => simp [take_batch]

theorem compose_weight :
    totalWeight D.weight (D.compose allow cancelled queue).batch ≤ D.maxBatch := by
  have hfirst := take_weight D.weight (D.maxBatch - if allow then D.backgroundFloor else 0)
    D.maxBatch cancelled (Nat.sub_le _ _) (queue .live) [] (Nat.zero_le _)
  refine take_weight D.weight D.maxBatch D.maxBatch cancelled le_rfl _ _ ?_
  cases allow with
  | false => exact hfirst
  | true => exact take_weight D.weight D.maxBatch D.maxBatch cancelled le_rfl _ _ hfirst

theorem compose_live :
    ∃ first third, queue .live = first ++ third ++ (D.compose allow cancelled queue).queue .live ∧
      ∃ second, queue .background = second ++ (D.compose allow cancelled queue).queue .background ∧
        (D.compose allow cancelled queue).taken = first ++ second ++ third ∧
        (allow = false → second = []) := by
  unfold Discipline.compose
  simp only [perClass_live, perClass_background]
  refine ⟨_, _, ?_, _, ?_, rfl, ?_⟩
  · rw [List.append_assoc, ← take_split]
    exact take_split ..
  · cases allow with
    | false => rfl
    | true => exact take_split ..
  · intro h
    rw [h]
    rfl

theorem mem_of_mem_compose_queue (h : t ∈ (D.compose allow cancelled queue).queue c) :
    t ∈ queue c := by
  obtain ⟨first, third, hlive, second, hback, -, -⟩ := compose_live D allow cancelled queue
  cases c with
  | live => rw [hlive]; exact List.mem_append_right _ h
  | background => rw [hback]; exact List.mem_append_right _ h

theorem mem_of_mem_compose_taken (h : t ∈ (D.compose allow cancelled queue).taken) :
    t ∈ queue .live ∨ allow = true ∧ t ∈ queue .background := by
  obtain ⟨first, third, hlive, second, hback, htaken, hallow⟩ :=
    compose_live D allow cancelled queue
  rw [htaken] at h
  simp only [List.mem_append] at h
  rcases h with (h | h) | h
  · left
    rw [hlive]
    simp [h]
  · right
    refine ⟨?_, by rw [hback]; simp [h]⟩
    cases allow with
    | true => rfl
    | false => simp [hallow rfl] at h
  · left
    rw [hlive]
    simp [h]

theorem mem_compose_cases (h : t ∈ queue c) :
    t ∈ (D.compose allow cancelled queue).taken ∨
      t ∈ (D.compose allow cancelled queue).queue c := by
  obtain ⟨first, third, hlive, second, hback, htaken, -⟩ := compose_live D allow cancelled queue
  rw [htaken]
  cases c with
  | live =>
    rw [hlive] at h
    simp only [List.mem_append] at h ⊢
    tauto
  | background =>
    rw [hback] at h
    simp only [List.mem_append] at h ⊢
    tauto

end

/-! ## Filing -/

theorem forall_mem_set {α : Type} {P : α → Prop} {l : List α} {i : Nat} {x : α}
    (h : ∀ y ∈ l, P y) (hx : P x) : ∀ y ∈ l.set i x, P y := by
  intro y hy
  rcases List.mem_or_eq_of_mem_set hy with hm | rfl
  · exact h y hm
  · exact hx

def Worker.All (P : Ticket ι → Prop) : Worker ι ε ρ → Prop
  | .running b => ∀ t ∈ b, P t
  | .settling b r => (∀ t ∈ b, P t) ∧ ∀ x ∈ r, P x.1
  | _ => True

variable {P Q : Ticket ι → Prop}

theorem Worker.All.mono (hPQ : ∀ t, P t → Q t) {worker : Worker ι ε ρ}
    (h : worker.All P) : worker.All Q := by
  cases worker with
  | running b => exact fun t ht => hPQ t (h t ht)
  | settling b r => exact ⟨fun t ht => hPQ t (h.1 t ht), fun x hx => hPQ _ (h.2 x hx)⟩
  | unstarted | collecting | window | exited => trivial

def Shutdown.All (P : Ticket ι → Prop) : Shutdown ι → Prop
  | .failing _ l => ∀ t ∈ l, P t
  | _ => True

theorem Shutdown.All.mono (hPQ : ∀ t, P t → Q t) {k : Shutdown ι} (h : k.All P) : k.All Q := by
  cases k with
  | failing d l => exact fun t ht => hPQ t (h t ht)
  | closing | joining | clearing | returned => trivial

/-- Where tickets are: each has the number of its place among the accepted ones, and whatever is
queued, run, settled or failed was accepted.  Numbers that are not given out have fresh futures. -/
structure Filed (D : Discipline ι ω ρ ε Λ) (s : State ι ε ρ Λ) : Prop where
  number : ∀ (i : Nat) (t : Ticket ι), s.accepted[i]? = some t → t.id = i
  queue : ∀ c, ∀ t ∈ s.queue c, t ∈ s.accepted ∧ D.cls t.item = c
  workers : ∀ worker ∈ s.workers, worker.All (· ∈ s.accepted)
  shutdowns : ∀ k ∈ s.shutdowns, k.All (· ∈ s.accepted)
  fresh : ∀ i, s.accepted.length ≤ i → s.futures i = .pending

variable {D : Discipline ι ω ρ ε Λ}

namespace Filed

theorem id_lt (h : Filed D s) (ht : t ∈ s.accepted) : t.id < s.accepted.length := by
  obtain ⟨i, hi, hti⟩ := List.mem_iff_getElem.mp ht
  have hid := h.number i t (by rw [List.getElem?_eq_getElem hi, hti])
  omega

theorem eq_of_id (h : Filed D s) {u : Ticket ι} (ht : t ∈ s.accepted) (hu : u ∈ s.accepted)
    (heq : t.id = u.id) : t = u := by
  obtain ⟨i, hi, hti⟩ := List.mem_iff_getElem.mp ht
  obtain ⟨j, hj, huj⟩ := List.mem_iff_getElem.mp hu
  have hit := h.number i t (by rw [List.getElem?_eq_getElem hi, hti])
  have hju := h.number j u (by rw [List.getElem?_eq_getElem hj, huj])
  have hij : i = j := by omega
  subst hij
  rw [← hti, huj]

theorem mem_queued (h : Filed D s) (ht : t ∈ s.queued) : t ∈ s.accepted := by
  rcases List.mem_append.mp ht with ht | ht
  · exact (h.queue _ t ht).1
  · exact (h.queue _ t ht).1

theorem initial (D : Discipline ι ω ρ ε Λ) : Filed D (State.initial D : State ι ε ρ Λ) where
  number i t ht := by simp [State.initial] at ht
  queue c t ht := by cases ht
  workers worker hworker := by
    rw [List.eq_of_mem_replicate hworker]
    trivial
  shutdowns k hk := by cases hk
  fresh _ _ := rfl

theorem fresh_update (h : Filed D s) (ht : t ∈ s.accepted) (f : Future ε ρ) :
    ∀ i, s.accepted.length ≤ i → Function.update s.futures t.id f i = .pending := by
  intro i hi
  have hlt := h.id_lt ht
  rw [Function.update_of_ne (by omega)]
  exact h.fresh i hi

theorem mem_taken (h : Filed D s) (ht : t ∈ (s.composition D).taken) : t ∈ s.accepted := by
  rcases mem_of_mem_compose_taken D _ _ _ ht with ht | ht
  · exact (h.queue _ t ht).1
  · exact (h.queue _ t ht.2).1

theorem fresh_withdraw (h : Filed D s) :
    ∀ i, s.accepted.length ≤ i → (s.withdraw D).futures i = .pending := by
  intro i hi
  simp only [State.withdraw]
  split
  · next hany =>
    obtain ⟨t, ht, hid⟩ := List.any_eq_true.mp hany
    have hlt := h.id_lt (h.mem_taken ht)
    have : t.id = i := of_decide_eq_true hid
    omega
  · exact h.fresh i hi

end Filed

theorem mem_batch_of_mem_outcomes {x : Ticket ι × Outcome ε ρ}
    (hx : x ∈ D.outcomes batch out) : x.1 ∈ batch := by
  unfold Discipline.outcomes at hx
  split at hx
  · obtain ⟨t, ht, rfl⟩ := List.mem_map.mp hx
    exact ht
  · split at hx
    · obtain ⟨t, ht, rfl⟩ := List.mem_map.mp hx
      exact ht
    · exact (List.of_mem_zip hx).1

theorem tickets_getElem? (s : State ι ε ρ Λ) (xs : List ι) (i : Nat) (t : Ticket ι)
    (h : (s.tickets xs)[i]? = some t) : t.id = s.accepted.length + i := by
  simp only [State.tickets, List.getElem?_mapIdx, Option.map_eq_some_iff] at h
  obtain ⟨x, -, rfl⟩ := h
  rfl

theorem map_item_tickets (s : State ι ε ρ Λ) (xs : List ι) :
    (s.tickets xs).map Ticket.item = xs := by
  refine List.ext_getElem (by simp [State.tickets]) ?_
  intro i hi hi'
  simp [State.tickets]

theorem filed_step (h : Filed D s) (hstep : Moved D s a s') : Filed D s' := by
  cases hstep with
  | submit xs hopen hadm =>
    refine ⟨?_, ?_, ?_, ?_, ?_⟩
    · intro i t ht
      simp only [State.enqueue, List.getElem?_append] at ht
      split at ht
      · exact h.number i t ht
      · have := tickets_getElem? s xs _ t ht
        omega
    · intro c t ht
      simp only [State.enqueue, List.mem_append, List.mem_filter, decide_eq_true_eq] at ht ⊢
      rcases ht with ht | ht
      · exact ⟨.inl (h.queue c t ht).1, (h.queue c t ht).2⟩
      · exact ⟨.inr ht.1, ht.2⟩
    · exact fun worker hw => (h.workers worker hw).mono fun t => List.mem_append_left _
    · exact fun k hk => (h.shutdowns k hk).mono fun t => List.mem_append_left _
    · intro i hi
      simp only [State.enqueue, List.length_append] at hi
      exact h.fresh i (by omega)
  | cancel i hi hp =>
    refine { h with fresh := fun j hj => ?_ }
    have hne : j ≠ i := fun heq => by simp only [State.setFuture] at hj; omega
    simp only [State.setFuture]
    rw [Function.update_of_ne hne]
    exact h.fresh j hj
  | release i t hi ht hq =>
    refine { h with queue := fun c u hu => ?_ }
    simp only [State.dequeue] at hu
    by_cases hc : c = D.cls t.item
    · subst hc
      rw [Function.update_self] at hu
      exact h.queue _ u (List.mem_of_mem_eraseP hu)
    · rw [Function.update_of_ne hc] at hu
      exact h.queue c u hu
  | released i hi => exact { h with }
  | start hs =>
    refine { h with workers := fun worker hw => ?_ }
    obtain ⟨_, _, rfl⟩ := List.mem_map.mp hw
    trivial
  | exit | hold | finish | die => exact { h with workers := forall_mem_set h.workers trivial }
  | composeNone w hw hb =>
    exact ⟨h.number, fun c t ht => h.queue c t (mem_of_mem_compose_queue D _ _ _ ht),
      forall_mem_set h.workers trivial, h.shutdowns, h.fresh_withdraw⟩
  | compose w hw hb =>
    refine ⟨h.number, fun c t ht => h.queue c t (mem_of_mem_compose_queue D _ _ _ ht),
      forall_mem_set h.workers fun t ht => ?_, h.shutdowns, h.fresh_withdraw⟩
    unfold State.composition at ht
    rw [compose_batch] at ht
    exact h.mem_taken (List.mem_of_mem_filter ht)
  | infer w out batch hw =>
    have hbatch : ∀ t ∈ batch, t ∈ s.accepted := h.workers _ (List.mem_of_getElem? hw)
    refine { h with workers := forall_mem_set h.workers ⟨hbatch, fun x hx => ?_⟩ }
    exact hbatch _ (mem_batch_of_mem_outcomes hx)
  | settle w batch t o rest hw =>
    have hold : (Worker.settling batch ((t, o) :: rest)).All (· ∈ s.accepted) :=
      h.workers _ (List.mem_of_getElem? hw)
    exact ⟨h.number, h.queue, forall_mem_set h.workers
      ⟨hold.1, fun x hx => hold.2 x (List.mem_cons_of_mem _ hx)⟩, h.shutdowns,
      h.fresh_update (hold.2 (t, o) List.mem_cons_self) _⟩
  | close drain =>
    refine { h with shutdowns := fun k hk => ?_ }
    rcases List.mem_append.mp hk with hk | hk
    · exact h.shutdowns k hk
    · rw [List.mem_singleton.mp hk]
      trivial
  | look k hk =>
    refine { h with shutdowns := forall_mem_set h.shutdowns ?_ }
    split <;> trivial
  | join | joined | conclude =>
    exact { h with shutdowns := forall_mem_set h.shutdowns trivial }
  | clear k drained hk =>
    exact ⟨h.number, fun c t ht => (List.not_mem_nil ht).elim, h.workers,
      forall_mem_set h.shutdowns fun t ht => h.mem_queued ht, h.fresh⟩
  | fail k drained t rest hk =>
    have hold : (Shutdown.failing drained (t :: rest)).All (· ∈ s.accepted) :=
      h.shutdowns _ (List.mem_of_getElem? hk)
    exact ⟨h.number, h.queue, h.workers,
      forall_mem_set h.shutdowns fun u hu => hold u (List.mem_cons_of_mem _ hu),
      h.fresh_update (hold t List.mem_cons_self) _⟩

theorem Reachable.filed {ok : State ι ε ρ Λ → Action ι ω ε → Prop}
    (hs : Reachable D ok s) : Filed D s :=
  hs.rule (Filed.initial D) fun _ _ _ h _ hstep => filed_step h hstep

/-! ## Alignment -/

section

variable (own : ι → ρ)

/-- The outcome belongs to the item: a value is the item's own value. -/
def Own (x : Ticket ι × Outcome ε ρ) : Prop := ∀ v, x.2 = .value v → v = own x.1.item

/-- A prediction gives every item of its batch its own value, or is found malformed. -/
def SoundOutput (D : Discipline ι ω ρ ε Λ) (s : State ι ε ρ Λ) (a : Action ι ω ε) : Prop :=
  ∀ w o, a.output = some (w, o) → ∀ batch, s.workers[w]? = some (.running batch) →
    ∀ rs, D.distribute (batch.map Ticket.item) o = .ok rs → rs = batch.map fun t => own t.item

def Worker.Aligned : Worker ι ε ρ → Prop
  | .settling _ r => ∀ x ∈ r, Own own x
  | _ => True

structure Aligned (s : State ι ε ρ Λ) : Prop where
  futures : ∀ t ∈ s.accepted, ∀ v, s.futures t.id = .done (.value v) → v = own t.item
  workers : ∀ worker ∈ s.workers, worker.Aligned own

variable {own} {p : Outcome ε ρ}

theorem own_outcomes
    (hout : ∀ o, out = .ok o → ∀ rs, D.distribute (batch.map Ticket.item) o = .ok rs →
      rs = batch.map fun t => own t.item) : ∀ x ∈ D.outcomes batch out, Own own x := by
  intro x hx v hv
  unfold Discipline.outcomes at hx
  split at hx
  · obtain ⟨t, -, rfl⟩ := List.mem_map.mp hx
    cases hv
  · next o =>
    split at hx
    · obtain ⟨t, -, rfl⟩ := List.mem_map.mp hx
      cases hv
    · next rs hrs =>
      rw [hout o rfl rs hrs, List.map_map, ← List.map_prod_left_eq_zip] at hx
      obtain ⟨t, -, rfl⟩ := List.mem_map.mp hx
      exact (Outcome.value.inj hv).symm

theorem Aligned.futures_set (hf : Filed D s)
    (h : ∀ t ∈ s.accepted, ∀ v, s.futures t.id = .done (.value v) → v = own t.item)
    (ht : t ∈ s.accepted) (hnew : ∀ v, f = .done (.value v) → v = own t.item) :
    ∀ u ∈ s.accepted, ∀ v, Function.update s.futures t.id f u.id = .done (.value v) →
      v = own u.item := by
  intro u hu v hv
  by_cases hid : u.id = t.id
  · rw [hf.eq_of_id hu ht hid] at hv ⊢
    rw [Function.update_self] at hv
    exact hnew v hv
  · rw [Function.update_of_ne hid] at hv
    exact h u hu v hv

theorem settle_eq_done {o : Outcome ε ρ} (h : f.settle o = .done p) : f = .done p ∨ p = o := by
  cases f with
  | pending | running => exact .inr (Future.done.inj h).symm
  | cancelled | done => exact .inl h

theorem notify_eq_done (h : f.notify = .done p) : f = .done p := by
  cases f with
  | pending => cases h
  | running | cancelled | done => exact h

theorem Aligned.of_workers (h : Aligned own s) (haccepted : s'.accepted = s.accepted)
    (hfutures : s'.futures = s.futures) (hworkers : ∀ worker ∈ s'.workers, worker.Aligned own) :
    Aligned own s' where
  futures := by rw [haccepted, hfutures]; exact h.futures
  workers := hworkers

theorem aligned_step (hf : Filed D s) (h : Aligned own s)
    (hok : SoundOutput own D s a) (hstep : Moved D s a s') : Aligned own s' := by
  cases hstep with
  | submit xs hopen hadm =>
    refine ⟨?_, h.workers⟩
    intro t ht v hv
    rcases List.mem_append.mp ht with ht | ht
    · exact h.futures t ht v hv
    · obtain ⟨i, hi, rfl⟩ := List.mem_iff_getElem.mp ht
      have hid := tickets_getElem? s xs i _ (List.getElem?_eq_getElem hi)
      have hpending := hf.fresh (s.tickets xs)[i].id (by omega)
      simp only [State.enqueue] at hv
      rw [hpending] at hv
      cases hv
  | cancel i hi hp =>
    obtain ⟨t, ht⟩ : ∃ t, s.accepted[i]? = some t := ⟨_, List.getElem?_eq_getElem hi⟩
    have hid := hf.number i t ht
    subst hid
    refine ⟨Aligned.futures_set hf h.futures (List.mem_of_getElem? ht) ?_, h.workers⟩
    intro v hv
    cases hv
  | release | released | close | look | join | joined | clear | conclude =>
    exact h.of_workers rfl rfl h.workers
  | start hs =>
    refine h.of_workers rfl rfl fun worker hw => ?_
    obtain ⟨_, _, rfl⟩ := List.mem_map.mp hw
    trivial
  | exit | hold | finish | die => exact h.of_workers rfl rfl (forall_mem_set h.workers trivial)
  | composeNone w hw hb =>
    refine ⟨?_, forall_mem_set h.workers trivial⟩
    intro t ht v hv
    simp only [State.withdraw, State.setWorker] at hv
    split at hv
    · exact h.futures t ht v (notify_eq_done hv)
    · exact h.futures t ht v hv
  | compose w hw hb =>
    refine ⟨?_, forall_mem_set h.workers trivial⟩
    intro t ht v hv
    simp only [State.withdraw, State.begin] at hv
    split at hv
    · exact h.futures t ht v (notify_eq_done hv)
    · exact h.futures t ht v hv
  | infer w out batch hw =>
    refine h.of_workers rfl rfl (forall_mem_set h.workers (own_outcomes ?_))
    intro o ho rs hrs
    subst ho
    exact hok w o rfl batch hw rs hrs
  | settle w batch t o rest hw =>
    have hmem := List.mem_of_getElem? hw
    have hrest : ∀ x ∈ (t, o) :: rest, Own own x := h.workers _ hmem
    have ht : t ∈ s.accepted := (hf.workers _ hmem).2 (t, o) List.mem_cons_self
    refine ⟨Aligned.futures_set hf h.futures ht ?_,
      forall_mem_set h.workers fun x hx => hrest x (List.mem_cons_of_mem _ hx)⟩
    intro v hv
    rcases settle_eq_done hv with hv | hv
    · exact h.futures t ht v hv
    · exact hrest (t, o) List.mem_cons_self v hv.symm
  | fail k drained t rest hk =>
    have ht : t ∈ s.accepted :=
      (hf.shutdowns _ (List.mem_of_getElem? hk)) t List.mem_cons_self
    refine ⟨Aligned.futures_set hf h.futures ht ?_, h.workers⟩
    intro v hv
    rcases settle_eq_done hv with hv | hv
    · exact h.futures t ht v (notify_eq_done hv)
    · cases hv

/-- In every run in which the model gives each item its own value, a future that is settled with a
value has the value of its own item, whatever the batches and whatever was cancelled or failed. -/
theorem Reachable.aligned (hs : Reachable D (SoundOutput own D) s) : Aligned own s := by
  refine (hs.rule (I := fun s => Filed D s ∧ Aligned own s) ?_ ?_).2
  · refine ⟨Filed.initial D, ⟨fun t ht => (List.not_mem_nil ht).elim, fun worker hworker => ?_⟩⟩
    rw [List.eq_of_mem_replicate hworker]
    trivial
  · intro s a s' h hok hstep
    exact ⟨filed_step h.1 hstep, aligned_step h.1 h.2 hok hstep⟩

end

end RagForge.Batching
