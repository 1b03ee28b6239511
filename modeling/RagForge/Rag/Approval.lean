import RagForge.Rag.Emitter

/-
The approval buffer over whole histories of calls (`output_approval.py`).

Everything that reaches the client goes through an approval.  What one delivers depends only on the
tokens that were buffered since the last call that started, rejected or approved a candidate.
-/

namespace RagForge.Rag

open Py

theorem approvedTokens_join (tokens : List (String × Nat)) (finalAnswer : String) :
    rstrip (String.join ((approvedTokens tokens finalAnswer).map Prod.fst)) =
      rstrip finalAnswer := by
  unfold approvedTokens
  split
  · next heq => exact heq
  · split
    · next hempty =>
      rw [hempty]
      rfl
    · simp [String.join]

/-- A call to the buffer.  The flush of an approval ends early, with an exception, when it runs into
its timeout or the emitter fails; `stopped` then counts the tokens that were emitted before. -/
inductive BufferCall
  | startCandidate (source : String)
  | bufferToken (textDelta : String) (tokenIndex : Nat)
  | reject
  | approve (finalAnswer : String) (stopped : Option Nat)

namespace BufferCall

/-- The buffer after a call, and the tokens that the call emits. -/
def step (b : ApprovalBuffer) : BufferCall → ApprovalBuffer × List (String × Nat)
  | startCandidate source => (⟨source, []⟩, [])
  | bufferToken textDelta tokenIndex =>
    (if textDelta = "" then b else { b with tokens := b.tokens ++ [(textDelta, tokenIndex)] }, [])
  | reject => ({ b with tokens := [] }, [])
  | approve finalAnswer stopped =>
    let tokens := approvedTokens b.tokens finalAnswer
    ({ b with tokens := [] }, tokens.take (stopped.getD tokens.length))

def run (b : ApprovalBuffer) (calls : List BufferCall) : ApprovalBuffer :=
  calls.foldl (fun b call => (call.step b).1) b

/-- What a call emits after others. -/
def emits (before : List BufferCall) (call : BufferCall) : List (String × Nat) :=
  (call.step (run {} before)).2

def isToken : BufferCall → Bool
  | bufferToken .. => true
  | _ => false

def token? : BufferCall → Option (String × Nat)
  | bufferToken textDelta tokenIndex =>
    if textDelta = "" then none else some (textDelta, tokenIndex)
  | _ => none

/-- The tokens of the current candidate: those of the `buffer_token` calls since the last other
call. -/
def candidate (calls : List BufferCall) : List (String × Nat) :=
  (calls.reverse.takeWhile isToken).reverse.filterMap token?

theorem candidate_concat (calls : List BufferCall) (call : BufferCall) :
    candidate (calls ++ [call]) =
      if call.isToken then candidate calls ++ call.token?.toList else [] := by
  unfold candidate
  rw [List.reverse_concat, List.takeWhile_cons]
  split
  · rw [List.reverse_cons, List.filterMap_append]
    cases h : call.token? <;> simp [h]
  · rfl

theorem run_tokens (calls : List BufferCall) : (run {} calls).tokens = candidate calls := by
  induction calls using List.reverseRecOn with
  | nil => rfl
  | append_singleton calls call ih =>
    have hlast : run {} (calls ++ [call]) = (call.step (run {} calls)).1 := List.foldl_concat ..
    rw [candidate_concat, hlast, ← ih]
    cases call with
    | startCandidate | reject | approve => rfl
    | bufferToken textDelta tokenIndex =>
      simp only [step, isToken, token?, if_true]
      split
      · exact (List.append_nil _).symm
      · rfl

/-- Only approvals emit.  An approval emits tokens of the current candidate or the answer itself,
and together they are the answer up to trailing white space unless the flush is stopped. -/
theorem approval_emits_answer (before : List BufferCall) (call : BufferCall) :
    (emits before call ≠ [] → ∃ finalAnswer stopped, call = approve finalAnswer stopped) ∧
      ∀ finalAnswer stopped, call = approve finalAnswer stopped →
        (emits before call <+: candidate before ∨ emits before call <+: [(finalAnswer, 0)]) ∧
          (stopped = none → rstrip (String.join ((emits before call).map Prod.fst)) =
            rstrip finalAnswer) := by
  constructor
  · intro hne
    cases call with
    | startCandidate | bufferToken | reject => exact absurd rfl hne
    | approve finalAnswer stopped => exact ⟨finalAnswer, stopped, rfl⟩
  · intro finalAnswer stopped hcall
    subst hcall
    simp only [emits, step, run_tokens]
    refine ⟨?_, fun hstopped => ?_⟩
    · generalize stopped.getD _ = n
      unfold approvedTokens
      split
      · exact .inl (List.take_prefix _ _)
      · split
        · exact .inl (by rw [List.take_nil]; exact List.nil_prefix)
        · exact .inr (List.take_prefix _ _)
    · rw [hstopped, Option.getD_none, List.take_length]
      exact approvedTokens_join _ _

/-- A flush that runs into its timeout at once emits nothing of the answer. -/
theorem stopped_approval_emits_less :
    rstrip (String.join ((emits [] (approve "yes" (some 0))).map Prod.fst)) ≠ rstrip "yes" := by
  decide +kernel

end BufferCall

end RagForge.Rag
