import Mathlib.Data.Option.Basic

/-
Machines that take one action after the other.
-/

namespace RagForge.Sequence

variable {σ α : Type} {step : σ → α → Option σ} {ok : σ → α → Bool}

/-- Follow a list of actions; stop at one that is not possible or not allowed. -/
def follow (step : σ → α → Option σ) (ok : σ → α → Bool) : List α → σ → Option σ
  | [], s => some s
  | a :: rest, s => if ok s a then (step s a).bind (follow step ok rest) else none

/-- What every possible and allowed step keeps holds where the actions lead. -/
theorem exists_of_follow {R : σ → Prop} {p : σ → Bool}
    (hstep : ∀ s a s', R s → ok s a = true → step s a = some s' → R s') (actions : List α) {s : σ}
    (hs : R s) (h : (follow step ok actions s).any p = true) : ∃ s', R s' ∧ p s' = true := by
  induction actions generalizing s with
  | nil => exact ⟨s, hs, h⟩
  | cons a rest ih =>
    unfold follow at h
    split at h
    · next hok =>
      cases hnext : step s a with
      | none =>
        rw [hnext] at h
        cases h
      | some t =>
        rw [hnext] at h
        exact ih (hstep s a t hs hok hnext) h
    · cases h

end RagForge.Sequence
