import RagForge.Batching.Shutdown
import RagForge.Embedding.Scheduler
import RagForge.Rag.RerankScheduler

/-
`shutdown` of the two inference schedulers.

Both compute their result after they have failed and removed what was left in the queues, so the
result does not show whether there was anything left.
-/

namespace RagForge.Inference

open Batching

theorem length_embedding_distribute (batch : List Embedding.Item) (vectors rs : List Embedding.Vec)
    (h : Embedding.distribute batch vectors = .ok rs) : rs.length = batch.length := by
  unfold Embedding.distribute at h
  split at h
  · cases h
  · next hlen =>
    cases h
    exact not_not.mp hlen

theorem length_rerank_distribute (batch : List Rag.Rerank.Request) (scores : List Rat)
    (rs : List (List Rat)) (h : Rag.Rerank.distribute batch scores = .ok rs) :
    rs.length = batch.length := by
  unfold Rag.Rerank.distribute at h
  split at h
  · cases h
  · cases h
    exact Rag.Rerank.length_fanOut scores batch 0

theorem embedding_drains (cfg : Embedding.SchedulerConfig) : (Embedding.discipline cfg).Drains where
  distribute := length_embedding_distribute
  workers := cfg.workers_pos
  pending ok s hs hpending := by
    have hzero : Embedding.totalPending s.items = 0 := Int.natCast_eq_zero.mp hpending
    simpa [Embedding.totalPending, State.items, State.queued] using hzero

/-- The counters show no pending pairs only where nothing is queued, since every queued request has
pairs. -/
theorem rerank_drains (cfg : Rag.Rerank.SchedulerConfig) : (Rag.Rerank.discipline cfg).Drains where
  distribute := length_rerank_distribute
  workers := cfg.workers_pos
  pending ok s hs hpending := by
    have htracked := hs.tracked (Rag.Rerank.counters_accounting cfg)
    have hzero : s.ledger.totalPendingPairs = 0 := hpending
    rw [Rag.Rerank.totalPendingPairs_eq htracked] at hzero
    have hqueue : ∀ c, s.queue c = [] := by
      intro c
      have hweight : totalWeight Rag.Rerank.Request.pairs (s.queue c) = 0 := by
        have hsum : (totalWeight Rag.Rerank.Request.pairs (s.queue .live) : Int) +
          totalWeight Rag.Rerank.Request.pairs (s.queue .background) = 0 := hzero
        cases c with
        | live | background => omega
      cases hq : s.queue c with
      | nil => rfl
      | cons t rest =>
        have hpos := (Rag.Rerank.queued_pairs hs c t (hq ▸ List.mem_cons_self)).1
        rw [hq, totalWeight_cons] at hweight
        omega
    unfold State.queued
    rw [hqueue, hqueue, List.append_nil]

/-- A shutdown call that returned true left every accepted item settled by the model or cancelled by
its caller, and one item that a shutdown failed makes every call return false. -/
def ShutdownTold {ι ε ρ Λ : Type} (s : State ι ε ρ Λ) : Prop :=
  TruthfulShutdowns s ∧
    ∀ t ∈ s.accepted, s.futures t.id = .done .closed →
      ∀ (k : Nat) (result : Bool), s.shutdowns[k]? = some (.returned result) → result = false

theorem shutdownTold_of_truthful {ι ε ρ Λ : Type} {s : State ι ε ρ Λ} (h : TruthfulShutdowns s) :
    ShutdownTold s := by
  refine ⟨h, ?_⟩
  intro t ht hclosed k result hk
  cases result with
  | false => rfl
  | true =>
    have hserved := h k hk t ht
    rw [hclosed] at hserved
    exact hserved.elim

/-- In every orderly run of either scheduler every shutdown call tells the truth. -/
theorem shutdown_told (embedding : Embedding.SchedulerConfig)
    (rerank : Rag.Rerank.SchedulerConfig) :
    (∀ s : Embedding.SchedulerState,
      Reachable (Embedding.discipline embedding) (fun s a => s.orderly a = true) s →
        ShutdownTold s) ∧
    ∀ s : State Rag.Rerank.Request Rag.Rerank.InferenceError (List Rat) Rag.Rerank.Counters,
      Reachable (Rag.Rerank.discipline rerank) (fun s a => s.orderly a = true) s →
        ShutdownTold s := by
  refine ⟨?_, ?_⟩
  · intro s hs
    exact shutdownTold_of_truthful (hs.truthfulShutdowns (embedding_drains embedding))
  · intro s hs
    exact shutdownTold_of_truthful (hs.truthfulShutdowns (rerank_drains rerank))

/-- The deadline expires while the only item waits in the queue: it is failed and the call returns
false. -/
theorem shutdown_told_deadline :
    ∃ s : Embedding.SchedulerState,
      Reachable (Embedding.discipline Embedding.narrowConfig) (fun s a => s.orderly a = true) s ∧
        s.futures 0 = .done .closed ∧ s.shutdowns[0]? = some (.returned false) ∧
        ShutdownTold s := by
  obtain ⟨s, hs, hp⟩ := exists_reachable (Embedding.discipline Embedding.narrowConfig)
    (fun s a => s.orderly a = true)
    [.submit [⟨"a", .live⟩], .start, .close true, .look 0, .join 0, .join 0, .clear 0, .fail 0,
      .conclude 0]
    (fun s => s.futures 0 = .done .closed ∧ s.shutdowns[0]? = some (.returned false))
    (by decide +kernel)
  have hp := of_decide_eq_true hp
  exact ⟨s, hs, hp.1, hp.2, (shutdown_told Embedding.narrowConfig Rag.Rerank.narrowConfig).1 s hs⟩

/-- Without draining, both schedulers fail what is queued and still return true. -/
theorem shutdown_true_after_failing :
    (∃ s : Embedding.SchedulerState,
      Reachable (Embedding.discipline Embedding.narrowConfig) (fun _ _ => True) s ∧
        s.futures 0 = .done .closed ∧ s.shutdowns[0]? = some (.returned true) ∧
        ¬ ShutdownTold s) ∧
    ∃ s : State Rag.Rerank.Request Rag.Rerank.InferenceError (List Rat) Rag.Rerank.Counters,
      Reachable (Rag.Rerank.discipline Rag.Rerank.narrowConfig) (fun _ _ => True) s ∧
        s.futures 0 = .done .closed ∧ s.shutdowns[0]? = some (.returned true) ∧
        ¬ ShutdownTold s := by
  refine ⟨?_, ?_⟩
  · obtain ⟨s, hs, hp⟩ := exists_reachable (Embedding.discipline Embedding.narrowConfig)
      (fun _ _ => True)
      [.submit [⟨"a", .live⟩], .start, .close false, .wake 0, .look 0, .join 0, .join 0, .clear 0,
        .fail 0, .conclude 0]
      (fun s => s.accepted[0]? = some ⟨0, ⟨"a", .live⟩⟩ ∧ s.futures 0 = .done .closed ∧
        s.shutdowns[0]? = some (.returned true)) (by decide +kernel)
    obtain ⟨haccepted, hclosed, hreturned⟩ := of_decide_eq_true hp
    refine ⟨s, hs, hclosed, hreturned, fun htold => ?_⟩
    exact absurd (htold.2 _ (List.mem_of_getElem? haccepted) hclosed 0 true hreturned) (by decide)
  · obtain ⟨s, hs, hp⟩ := exists_reachable (Rag.Rerank.discipline Rag.Rerank.narrowConfig)
      (fun _ _ => True)
      [.submit [⟨"q", ["a"], .live⟩], .start, .close false, .wake 0, .look 0, .join 0, .join 0,
        .clear 0, .fail 0, .conclude 0]
      (fun s => s.accepted[0]? = some ⟨0, ⟨"q", ["a"], .live⟩⟩ ∧ s.futures 0 = .done .closed ∧
        s.shutdowns[0]? = some (.returned true)) (by decide +kernel)
    obtain ⟨haccepted, hclosed, hreturned⟩ := of_decide_eq_true hp
    refine ⟨s, hs, hclosed, hreturned, fun htold => ?_⟩
    exact absurd (htold.2 _ (List.mem_of_getElem? haccepted) hclosed 0 true hreturned) (by decide)

end RagForge.Inference
