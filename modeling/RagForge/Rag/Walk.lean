import RagForge.Rag.Run

/-
How a run walks through the nodes of its turn.

A fresh turn runs the whole execution path of its mode, in LangGraph or in the fallback loop, and a
resumed one the part after its milestone.  An invariant that says what holds while given nodes are
left is therefore proved node by node.
-/

namespace RagForge.Rag

open Effect Py

/-- The turn was blocked before any of its nodes completed. -/
def RunResult.endedByInputBlock (r : RunResult) : Bool :=
  r.outcome == "guardrail_blocked" && r.traceEvents.isEmpty

theorem nextNode_getElem? (mode : Mode) (k : Fin (executionPaths mode).length) :
    nextNode (executionPaths mode)[k] mode = (executionPaths mode)[k.val + 1]? := by
  revert k
  cases mode <;> decide

variable {rest : List NodeName} {n : NodeName} {mode : Mode}

theorem nextNode_of_suffix (mode : Mode) (h : (n :: rest) <:+ executionPaths mode) :
    nextNode n mode = rest.head? := by
  obtain ⟨before, hpath⟩ := h
  have hlt : before.length < (executionPaths mode).length := by
    rw [← hpath]
    simp
  have hn : (executionPaths mode)[before.length] = n := by
    simp [← hpath]
  have hnext := nextNode_getElem? mode ⟨before.length, hlt⟩
  simp only [Fin.getElem_fin, hn] at hnext
  rw [hnext, ← hpath]
  cases rest <;> simp

theorem inputGuardrails_not_mem_tail (h : (n :: rest) <:+ executionPaths mode) :
    NodeName.inputGuardrails ∉ rest := by
  obtain ⟨tail, hpath, htail⟩ := executionPaths_eq_cons mode
  rw [hpath] at h
  rcases List.suffix_cons_iff.mp h with heq | hsuffix
  · rw [(List.cons.inj heq).2]
    exact htail
  · exact fun hmem => htail (hsuffix.mem (List.mem_cons_of_mem n hmem))

/-- `I nodes` holds whenever these nodes are left, and `E` when one of them raised.  A node keeps
the mode of the state, except that the input scan takes the one of the request. -/
structure Walk {σ : Type} (cfg : Config) (lib : Lib) (A : Logic sig σ)
    (I : List NodeName → ConversationState → Runtime → σ → Prop) (E : Runtime → σ → Prop) :
    Prop where
  step : ∀ {mode : Mode} {n : NodeName} {rest : List NodeName} {state : ConversationState}
    {rt : Runtime} {s : σ}, (n :: rest) <:+ executionPaths mode → I (n :: rest) state rt s →
      Ends A (wrapNode cfg lib n state)
        (fun next rt' s' => I rest next rt' s' ∧
          next.mode = if n = .inputGuardrails then rt.request.mode else state.mode)
        (fun _ => E) rt s

namespace Walk

variable {σ : Type} {cfg : Config} {lib : Lib} {A : Logic sig σ} {E : Runtime → σ → Prop}
  {I : List NodeName → ConversationState → Runtime → σ → Prop} {state : ConversationState}
  {rt : Runtime} {s : σ}

theorem runNodes (h : Walk cfg lib A I E) (nodes : List NodeName)
    (hpath : nodes <:+ executionPaths mode) (hI : I nodes state rt s) :
    Ends A (runNodes cfg lib nodes state) (I []) (fun _ => E) rt s := by
  induction nodes generalizing state rt s with
  | nil => exact .pure hI
  | cons n rest ih =>
    refine (h.step hpath hI).bind ?_
    intro next rt' s' hnext
    exact ih ((List.suffix_cons n rest).trans hpath) hnext.1

/-- LangGraph follows the execution path of the mode that the input scan leaves in the state. -/
theorem runGraph (h : Walk cfg lib A I E) (fuel : Nat) (mode : Mode) (hfuel : rest.length < fuel)
    (hpath : (n :: rest) <:+ executionPaths mode)
    (hmode : if n = .inputGuardrails then rt.request.mode = mode else state.mode = mode)
    (hI : I (n :: rest) state rt s) :
    Ends A (runGraph cfg lib fuel n state) (I []) (fun _ => E) rt s := by
  induction fuel generalizing n rest state rt s with
  | zero => exact absurd hfuel (Nat.not_lt_zero _)
  | succ fuel ih =>
    refine (h.step hpath hI).bind ?_
    intro next rt' s' hnext
    obtain ⟨hI', hafter⟩ := hnext
    have hnextMode : next.mode = mode := by
      rw [hafter]
      split
      · next hin => rwa [if_pos hin] at hmode
      · next hin => rwa [if_neg hin] at hmode
    rw [hnextMode, nextNode_of_suffix mode hpath]
    cases rest with
    | nil => exact .pure hI'
    | cons n' rest' =>
      have hin : n' ≠ .inputGuardrails :=
        fun heq => inputGuardrails_not_mem_tail hpath (heq ▸ List.mem_cons_self)
      refine ih (Nat.lt_of_succ_lt_succ hfuel) ((List.suffix_cons n _).trans hpath) ?_ hI'
      rw [if_neg hin]
      exact hnextMode

def nodesOf (state : ConversationState) : Option Checkpoint → List NodeName
  | none => executionPaths state.mode
  | some c => resumeNodes state.mode c.stage

theorem runBody (h : Walk cfg lib A I E) {checkpoint : Option Checkpoint}
    {Q : RunResult → Runtime → σ → Prop}
    (hfresh : checkpoint = none → state.mode = rt.request.mode)
    (hI : I (nodesOf state checkpoint) state rt s)
    (hfinish : ∀ final rt s, I [] final rt s → Ends A (finishRun lib final) Q (fun _ => E) rt s) :
    Ends A (runBody cfg lib state checkpoint) Q (fun _ => E) rt s := by
  refine .bind ?_ hfinish
  cases checkpoint with
  | some c =>
    have hpath := resumeNodes_suffix state.mode c.stage
    dsimp only [nodesOf] at hI
    unfold resumeNodes at hpath hI
    dsimp only [resumeFromCheckpoint]
    cases hrest : remainingNodes state.mode c.stage with
    | none | some =>
      rw [hrest] at hpath hI
      exact h.runNodes _ hpath hI
  | none =>
    dsimp only [nodesOf] at hI ⊢
    split
    · obtain ⟨rest, hpath, -⟩ := executionPaths_eq_cons state.mode
      rw [hpath] at hI
      refine h.runGraph 25 state.mode ?_ (hpath ▸ List.suffix_rfl) ?_ hI
      · have hshort : (executionPaths state.mode).length < 25 := by
          cases state.mode <;> decide
        rw [hpath, List.length_cons] at hshort
        omega
      · rw [if_pos rfl]
        exact (hfresh rfl).symm
    · exact h.runNodes _ List.suffix_rfl hI

end Walk

end RagForge.Rag
