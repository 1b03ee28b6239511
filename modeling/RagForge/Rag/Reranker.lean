import RagForge.Rag.Emitter
import RagForge.Rag.RerankScheduler

/-
What a rerank call returns while others share its batches (`learned_reranker.py` over
`rerank_scheduler.py`).
-/

namespace RagForge.Rag.Rerank

open Py Effect Batching

abbrev Callers : Type := System Request InferenceError (List Rat) Counters

/-- How `rerank` sees the end of its request.  It is busy where admission refused the request.  A
timeout is its own or one that the model raised.  A call that was cancelled returns nothing. -/
inductive Answered (sys : Callers) (query : String) (passages : List String) :
    RerankOutcome → Prop
  | busy : Answered sys query passages .busy
  | scores (c : Nat) (cls : SchedulingClass) (xs : List Rat)
      (h : sys.calls[c]? = some (.returned [⟨query, passages, cls⟩] [xs])) :
      Answered sys query passages (.scores xs)
  | timeout (c : Nat) (cls : SchedulingClass) (e : Raised InferenceError) (he : e ≠ .cancelled)
      (h : sys.calls[c]? = some (.raised [⟨query, passages, cls⟩] e)) :
      Answered sys query passages .timeout
  | error (c : Nat) (cls : SchedulingClass) (e : Raised InferenceError) (he : e ≠ .cancelled)
      (h : sys.calls[c]? = some (.raised [⟨query, passages, cls⟩] e)) :
      Answered sys query passages .error

variable {cfg : SchedulerConfig} {score : String × String → Rat} {sys : Callers} {query : String}

section

theorem soundOutput_reachable (hs : System.Reachable (discipline cfg) (Independent score) sys) :
    System.Reachable (discipline cfg) (SoundOutput (ownScores score) (discipline cfg)) sys :=
  hs.mono fun _ _ => soundOutput_of_independent score cfg

/-- Scores that reach a rerank call are those of its own pairs. -/
theorem scores_eq_of_answered (hs : System.Reachable (discipline cfg) (Independent score) sys)
    {passages : List String} {xs : List Rat} (h : Answered sys query passages (.scores xs)) :
    xs = passages.map fun p => score (query, p) := by
  cases h with
  | scores c cls xs hc =>
    have hsound := (soundOutput_reachable hs).calls_sound _ (List.mem_of_getElem? hc)
    have hxs : [xs] = [ownScores score ⟨query, passages, cls⟩] := hsound
    have hown : ownScores score ⟨query, passages, cls⟩ =
        passages.map fun p => score (query, p) := by
      simp [ownScores, Request.rows, Function.comp_def]
    rw [← hown]
    exact (List.cons.inj hxs).1

end

variable {result : List Json × String}

section

variable (rag : Config) (lib : Lib) (query : String) (candidates : List Json)
  {outcome : RerankOutcome} {bounded : List Json}

def passages : List String :=
  (candidates.take rag.rerankerCandidateLimit).map (rerankText lib)

/-- A rerank call returns what its outcome makes of the first candidates, or the candidates with a
status other than success. -/
theorem run_rerank {σ : Type} (h : Handler sig σ) (rt : Runtime) (st : σ)
    (hrun : ((rerank rag lib query candidates).run h rt st).1 = .ok result) :
    (∃ outcome, (h (.rerankScores query (passages rag lib candidates)) st).1 = .ok outcome ∧
      result = rerankOutcome (candidates.take rag.rerankerCandidateLimit) outcome) ∨
    result.1 = candidates.take rag.rerankerCandidateLimit ∧ result.2 ≠ "success" := by
  unfold rerank at hrun
  dsimp only at hrun
  split at hrun
  · right
    cases hrun
    exact ⟨rfl, by simp⟩
  · split at hrun
    · right
      cases hrun
      exact ⟨rfl, by simp⟩
    · left
      simp only [Proc.run, call, Proc.perform, bind, Proc.bind, Prog.bind, Prog.run] at hrun
      split at hrun
      · next outcome hout => exact ⟨outcome, hout, (Except.ok.inj hrun).symm⟩
      · cases hrun

theorem rerankOutcome_fst (h : (rerankOutcome bounded outcome).2 ≠ "success") :
    (rerankOutcome bounded outcome).1 = bounded := by
  cases outcome with
  | busy | timeout | error => rfl
  | scores xs =>
    simp only [rerankOutcome] at h ⊢
    split
    · rfl
    · next hlen =>
      rw [if_neg hlen] at h
      exact absurd rfl h

theorem exists_scores_of_success (h : (rerankOutcome bounded outcome).2 = "success") :
    ∃ xs, outcome = .scores xs := by
  cases outcome with
  | busy | timeout | error => simp [rerankOutcome] at h
  | scores xs => exact ⟨xs, rfl⟩

end

/-- What a rerank call may return while the scheduler is in the given state: its request was
answered by the scheduler, everything else is arbitrary. -/
def Returns (sys : Callers) (rag : Config) (lib : Lib) (query : String) (candidates : List Json)
    (result : List Json × String) : Prop :=
  ∃ (σ : Type) (h : Handler sig σ) (rt : Runtime) (st : σ),
    (∀ outcome, (h (.rerankScores query (passages rag lib candidates)) st).1 = .ok outcome →
      Answered sys query (passages rag lib candidates) outcome) ∧
    ((rerank rag lib query candidates).run h rt st).1 = .ok result

section

variable {rag : Config} {lib : Lib} {candidates : List Json}

/-- A call that succeeds returns the ranking by the model's scores of its own pairs. -/
theorem eq_rankByScores_of_success (hs : System.Reachable (discipline cfg) (Independent score) sys)
    (hresult : Returns sys rag lib query candidates result) (hsuccess : result.2 = "success") :
    result = (rankByScores (candidates.take rag.rerankerCandidateLimit)
      ((passages rag lib candidates).map fun p => score (query, p)), "success") := by
  obtain ⟨σ, h, rt, st, hanswer, hrun⟩ := hresult
  rcases run_rerank rag lib query candidates h rt st hrun with ⟨outcome, hout, rfl⟩ | hother
  · obtain ⟨xs, rfl⟩ := exists_scores_of_success hsuccess
    have hxs := scores_eq_of_answered hs (hanswer _ hout)
    rw [← hxs]
    simp only [rerankOutcome] at hsuccess ⊢
    split at hsuccess
    · simp at hsuccess
    · next hlen => rw [if_neg hlen]
  · exact absurd hsuccess hother.2

theorem eq_take_of_not_success (hresult : Returns sys rag lib query candidates result)
    (hstatus : result.2 ≠ "success") : result.1 = candidates.take rag.rerankerCandidateLimit := by
  obtain ⟨σ, h, rt, st, -, hrun⟩ := hresult
  rcases run_rerank rag lib query candidates h rt st hrun with ⟨outcome, -, rfl⟩ | hother
  · exact rerankOutcome_fst hstatus
  · exact hother.1

end

/-- In every run of the scheduler in which the model scores each pair by itself, a request that is
resolved with scores has the scores of its own pairs in the order of its passages.  A rerank call
that succeeds returns what it returns in a run that accepted no other request, and on any other
status it returns the first candidates as they were. -/
theorem rerank_isolated {cfg : SchedulerConfig} {score : String × String → Rat} {sys : Callers}
    (hs : System.Reachable (discipline cfg) (Independent score) sys) :
    (∀ t ∈ sys.scheduler.accepted, ∀ scores,
      sys.scheduler.futures t.id = .done (.value scores) →
        scores = t.item.passages.map fun p => score (t.item.query, p)) ∧
    ∀ rag lib query candidates result, Returns sys rag lib query candidates result →
      (result.2 = "success" →
        result.1 = rankByScores (candidates.take rag.rerankerCandidateLimit)
          ((passages rag lib candidates).map fun p => score (query, p)) ∧
        ∀ (alone : Callers) (own : List Json × String),
          System.Reachable (discipline cfg) (Independent score) alone →
          alone.scheduler.accepted.length = 1 → Returns alone rag lib query candidates own →
          own.2 = "success" → result = own) ∧
      (result.2 ≠ "success" → result.1 = candidates.take rag.rerankerCandidateLimit) := by
  refine ⟨?_, ?_⟩
  · intro t ht scores hscores
    have hown := (soundOutput_reachable hs).scheduler.aligned.futures t ht scores hscores
    rw [hown]
    simp [ownScores, Request.rows, Function.comp_def]
  · intro rag lib query candidates result hresult
    refine ⟨?_, eq_take_of_not_success hresult⟩
    intro hsuccess
    have hranked := eq_rankByScores_of_success hs hresult hsuccess
    refine ⟨by rw [hranked], ?_⟩
    intro alone own halone _ hown hownSuccess
    rw [hranked, eq_rankByScores_of_success halone hown hownSuccess]

def pairScore (pair : String × String) : Rat := if pair.2 = "a" then 1 else 2

/-- Two requests share a batch, and the first gets the scores of its own two pairs. -/
theorem rerank_isolated_shared :
    ∃ sys : Callers, System.Reachable (discipline smallConfig) (Independent pairScore) sys ∧
      sys.calls[0]? = some (.returned [liveRequest] [[1, 2]]) ∧
      [1, 2] = liveRequest.passages.map fun p => pairScore (liveRequest.query, p) := by
  obtain ⟨sys, hs, hp⟩ := System.exists_reachable (discipline smallConfig) (Independent pairScore)
    [.call [liveRequest], .call [backgroundRequest], .act .start, .act (.wake 0),
      .act (.compose 0), .act (.infer 0 (.ok [1, 2, 1])), .act (.settle 0), .act (.settle 0),
      .act (.finish 0), .read 0, .read 0]
    (fun sys => sys.calls[0]? = some (.returned [liveRequest] [[1, 2]]) ∧
      sys.scheduler.accepted[0]? = some ⟨0, liveRequest⟩ ∧
      sys.scheduler.futures 0 = .done (.value [1, 2])) (by decide +kernel)
  obtain ⟨hcall, haccepted, hfuture⟩ := of_decide_eq_true hp
  exact ⟨sys, hs, hcall,
    (rerank_isolated hs).1 ⟨0, liveRequest⟩ (List.mem_of_getElem? haccepted) [1, 2] hfuture⟩

end RagForge.Rag.Rerank
