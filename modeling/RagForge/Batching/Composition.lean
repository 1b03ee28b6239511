import RagForge.Batching.Accounting

/-
What a composition takes from the head of a queue.

A take moves a stretch of the queue into the batch, as long as each item fits when it is reached.
Every stretch that fits is a part of the one that is taken, so what a take leaves room for can be
read off the queue.
-/

namespace RagForge.Batching

variable {ι ω ρ ε Λ : Type}

/-- The items fit one after the other on top of a load; cancelled ones are dropped once they are
reached. -/
def fits (weight : ι → Nat) (limit : Nat) (cancelled : Ticket ι → Bool) :
    Nat → List (Ticket ι) → Bool
  | _, [] => true
  | load, t :: rest =>
    decide (load + weight t.item ≤ limit) &&
      fits weight limit cancelled (if cancelled t then load else load + weight t.item) rest

def keptWeight (weight : ι → Nat) (cancelled : Ticket ι → Bool) (ts : List (Ticket ι)) : Nat :=
  totalWeight weight (ts.filter fun t => !cancelled t)

section

variable (weight : ι → Nat) (limit : Nat) (cancelled : Ticket ι → Bool)

theorem totalWeight_keep (batch : List (Ticket ι)) (t : Ticket ι) :
    totalWeight weight (if cancelled t then batch else batch ++ [t]) =
      if cancelled t then totalWeight weight batch
      else totalWeight weight batch + weight t.item := by
  split
  · rfl
  · rw [totalWeight_append, totalWeight_cons, totalWeight_nil, Nat.add_zero]

theorem fits_taken (queue batch : List (Ticket ι)) :
    fits weight limit cancelled (totalWeight weight batch)
      (take weight limit cancelled queue batch).taken = true := by
  induction queue generalizing batch with
  | nil => rfl
  | cons head rest ih =>
    unfold take
    split
    · rfl
    · next hfit =>
      have hrest := ih (if cancelled head then batch else batch ++ [head])
      rw [totalWeight_keep] at hrest
      simp only [fits, hrest, Bool.and_true, decide_eq_true_eq]
      omega

theorem prefix_taken_of_fits {stretch queue : List (Ticket ι)} (h : stretch <+: queue)
    (batch : List (Ticket ι))
    (hfits : fits weight limit cancelled (totalWeight weight batch) stretch = true) :
    stretch <+: (take weight limit cancelled queue batch).taken := by
  induction queue generalizing stretch batch with
  | nil =>
    rw [List.prefix_nil.mp h]
    exact List.nil_prefix
  | cons head rest ih =>
    cases stretch with
    | nil => exact List.nil_prefix
    | cons t stretch =>
      obtain ⟨rfl, hstretch⟩ := List.cons_prefix_cons.mp h
      simp only [fits, Bool.and_eq_true, decide_eq_true_eq] at hfits
      rw [← totalWeight_keep] at hfits
      unfold take
      rw [if_neg (by omega)]
      exact List.cons_prefix_cons.mpr ⟨rfl, ih hstretch _ hfits.2⟩

theorem totalWeight_take (queue : List (Ticket ι)) (batch : List (Ticket ι)) :
    totalWeight weight (take weight limit cancelled queue batch).batch =
      totalWeight weight batch +
        keptWeight weight cancelled (take weight limit cancelled queue batch).taken := by
  rw [take_batch, totalWeight_append, keptWeight]

theorem keptWeight_le_of_prefix {ts us : List (Ticket ι)} (h : ts <+: us) :
    keptWeight weight cancelled ts ≤ keptWeight weight cancelled us :=
  totalWeight_le_of_sublist weight (h.sublist.filter _)

theorem head_mem_taken {head : Ticket ι} {rest batch : List (Ticket ι)}
    (h : totalWeight weight batch + weight head.item ≤ limit) :
    head ∈ (take weight limit cancelled (head :: rest) batch).taken := by
  unfold take
  rw [if_neg (by omega)]
  exact List.mem_cons_self

theorem take_of_not_fits (head : Ticket ι) (rest batch : List (Ticket ι))
    (h : limit < totalWeight weight batch + weight head.item) :
    take weight limit cancelled (head :: rest) batch = ⟨batch, [], head :: rest⟩ := by
  unfold take
  rw [if_pos h]

end

/-! ## What a composition takes -/

section

variable (D : Discipline ι ω ρ ε Λ) (allow : Bool) (cancelled : Ticket ι → Bool)
  {queue : SchedulingClass → List (Ticket ι)} {head : Ticket ι} {rest : List (Ticket ι)}

/-- A composition with work at hand takes something, as every item fits into an empty batch. -/
theorem compose_taken_ne_nil (hfits : ∀ c, ∀ t ∈ queue c, D.weight t.item ≤ D.maxBatch)
    (hwork : queue .live ≠ [] ∨ allow = true) (hallow : allow = true → queue .background ≠ []) :
    (D.compose allow cancelled queue).taken ≠ [] := by
  intro hnil
  simp only [Discipline.compose, List.append_eq_nil_iff] at hnil
  obtain ⟨⟨hfirst, hsecond⟩, -⟩ := hnil
  have hhead : ∀ {c head rest}, queue c = head :: rest →
      head ∈ (take D.weight D.maxBatch cancelled (queue c) []).taken := by
    intro c head rest hqueue
    have hweight := hfits c head (by rw [hqueue]; exact List.mem_cons_self)
    rw [hqueue]
    exact head_mem_taken _ _ _ (by simpa using hweight)
  cases allow with
  | false =>
    obtain ⟨head, rest, hlive⟩ := List.exists_cons_of_ne_nil (hwork.resolve_right nofun)
    exact List.ne_nil_of_mem (hhead hlive) hfirst
  | true =>
    obtain ⟨head, rest, hback⟩ := List.exists_cons_of_ne_nil (hallow rfl)
    -- no live item was taken, so background starts from an empty batch
    rw [if_pos rfl, take_batch, hfirst] at hsecond
    exact List.ne_nil_of_mem (hhead hback) hsecond

/-- A composition takes the live head exactly when it fits besides the background floor, or besides
every stretch of background items that fits into a batch. -/
theorem head_mem_compose_iff (hlive : queue .live = head :: rest)
    (hback : head ∉ queue .background) (hweight : D.weight head.item ≤ D.maxBatch) :
    head ∈ (D.compose allow cancelled queue).taken ↔
      allow = false ∨ D.weight head.item ≤ D.maxBatch - D.backgroundFloor ∨
        ∀ stretch, stretch <+: queue .background →
          fits D.weight D.maxBatch cancelled 0 stretch = true →
            keptWeight D.weight cancelled stretch + D.weight head.item ≤ D.maxBatch := by
  cases allow with
  | false =>
    refine iff_of_true ?_ (.inl rfl)
    refine List.mem_append_left _ (List.mem_append_left _ ?_)
    rw [hlive]
    exact head_mem_taken _ _ _ (by simpa using hweight)
  | true =>
    rw [Bool.true_eq_false, false_or]
    by_cases hfirst : D.weight head.item ≤ D.maxBatch - D.backgroundFloor
    · refine iff_of_true ?_ (.inl hfirst)
      refine List.mem_append_left _ (List.mem_append_left _ ?_)
      rw [hlive]
      exact head_mem_taken _ _ _ (by simpa using hfirst)
    · -- The head waits behind the background items, which are taken as far as they fit.
      let second := take D.weight D.maxBatch cancelled (queue .background) []
      have hcompose : (D.compose true cancelled queue).taken = second.taken ++
          (take D.weight D.maxBatch cancelled (head :: rest) second.batch).taken := by
        have hskip := take_of_not_fits D.weight (D.maxBatch - D.backgroundFloor) cancelled head rest
          [] (by simp; omega)
        simp only [Discipline.compose, if_true, hlive, hskip, List.nil_append]
        rfl
      have hsplit : queue .background = second.taken ++ second.rest := take_split ..
      have hnot : head ∉ second.taken := by
        intro hmem
        rw [hsplit] at hback
        exact hback (List.mem_append_left _ hmem)
      have hload : totalWeight D.weight second.batch = keptWeight D.weight cancelled second.taken :=
        (totalWeight_take ..).trans (Nat.zero_add _)
      rw [hcompose, List.mem_append, or_iff_right hnot, or_iff_right hfirst]
      constructor
      · intro hmem stretch hstretch hfits
        have hlonger : keptWeight D.weight cancelled stretch ≤
            keptWeight D.weight cancelled second.taken :=
          keptWeight_le_of_prefix _ _ (prefix_taken_of_fits _ _ _ hstretch [] hfits)
        by_contra hheavy
        rw [take_of_not_fits _ _ _ _ _ _ (by rw [hload]; omega)] at hmem
        exact List.not_mem_nil hmem
      · intro hall
        refine head_mem_taken _ _ _ ?_
        rw [hload]
        exact hall second.taken ⟨second.rest, hsplit.symm⟩
          (fits_taken D.weight D.maxBatch cancelled (queue .background) [])

end

end RagForge.Batching
