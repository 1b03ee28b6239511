import RagForge.Files.DecisionOnce
import RagForge.Files.Outcomes

/-
What a decision that raises leaves behind.

The checks of a redaction, of a stored path and of the chunk windows come after the case was
claimed, and on a standalone server nothing is rolled back.  `ClaimTaken` says when the claim takes
effect and `GoesThrough` when everything after it succeeds, both in terms of the request, of the
store it meets and of the store calls that fail.
-/

namespace RagForge.Files

open Effect Store Py

/-! ## A claimed case stays closed -/

variable {case : Row ReviewCase} {p : DecisionPayload} {decision : ReviewAction}
  {file : Row FileDoc} {task : Row TaskDoc} {cfg : Config} {reviewCaseId textHash : String}
  {x : Target} {r : Review}

/-- What follows the claim never opens the case again. -/
theorem resolveClaimed_closed {env : Env} {who : Identity} {w : World} {task : TaskDoc}
    (decision : ReviewAction) (textHash : String) (p : DecisionPayload)
    (hclosed : ¬ IsOpen w (who.key r.reviewCaseId)) :
    ¬ IsOpen ((resolveClaimed cfg x task r decision textHash p).run (handler env) who w).2.2
      (who.key r.reviewCaseId) := by
  have hfollows : Follows (resolveClaimed cfg x task r decision textHash p) Outbound who
      ⟨some (who.key r.reviewCaseId), [.claim]⟩ :=
    follows_resolveClaimed cfg x task r decision textHash p rfl rfl
  obtain ⟨-, -, -, hkept⟩ := hfollows.monitored
    (J := fun w _ => ¬ IsOpen w (who.key r.reviewCaseId))
    (fun _ _ _ hclosed hallow hopen => hclosed (isOpen_of_handler hallow hopen)) hclosed rfl
  exact hkept

/-! ## What a decision that raises leaves behind -/

def TokenUsable (who : Identity) (taskId reviewCaseId : String) (w : World) : Prop :=
  ∃ task case, w.tasks.find who.sees (who.key taskId) = some task ∧
    w.cases.find who.sees (who.key reviewCaseId) = some case ∧
    task.doc.resumeTokenHash.getD "" ≠ "" ∧
    case.doc.claimable case.doc.extractedTextHash (task.doc.resumeTokenHash.getD "") = true

/-- If the decision raises, the documents are the same and the token can still be used. -/
def LeavesIntact (cfg : Config) (env : Env) (who : Identity) (w : World)
    (fileId taskId reviewCaseId : String) (p : DecisionPayload) (actor : Actor) : Prop :=
  let out := (handleReviewDecision cfg fileId taskId reviewCaseId p actor).run (handler env) who w
  ∀ e, out.1 = .error e → SameDocuments w out.2.2 ∧
    (TokenUsable who taskId reviewCaseId w → TokenUsable who taskId reviewCaseId out.2.2)

/-- The claim of the decision takes effect, with what the handler read before. -/
structure ClaimTaken (env : Env) (who : Identity) (w : World)
    (fileId taskId reviewCaseId : String) (p : DecisionPayload) (file : Row FileDoc)
    (task : Row TaskDoc) (case : Row ReviewCase) (decision : ReviewAction) (textHash : String) :
    Prop where
  reads : Clear (fun k => env.fault k = none) w.tick 3
  findFile : w.files.find who.sees (who.key fileId) = some file
  findTask : w.tasks.find who.sees (who.key taskId) = some task
  findCase : w.cases.find who.sees (who.key reviewCaseId) = some case
  valid : validateReviewDecision (env.clock w.drawn) case.doc task.doc p = .ok (decision, textHash)
  claimable : case.doc.claimable textHash (task.doc.resumeTokenHash.getD "") = true
  applied : ∀ f, env.fault (w.tick + 3) = some f → f.applied = true

theorem ClaimTaken.unique {env : Env} {who : Identity} {w : World} {fileId taskId : String}
    {file' : Row FileDoc} {task' : Row TaskDoc} {case' : Row ReviewCase} {decision' : ReviewAction}
    {textHash' : String}
    (h : ClaimTaken env who w fileId taskId reviewCaseId p file task case decision textHash)
    (h' : ClaimTaken env who w fileId taskId reviewCaseId p file' task' case' decision' textHash') :
    file' = file ∧ task' = task ∧ case' = case ∧ decision' = decision := by
  obtain rfl := Option.some.inj (h.findFile.symm.trans h'.findFile)
  obtain rfl := Option.some.inj (h.findTask.symm.trans h'.findTask)
  obtain rfl := Option.some.inj (h.findCase.symm.trans h'.findCase)
  obtain ⟨rfl, -⟩ := Prod.mk.inj (Except.ok.inj (h.valid.symm.trans h'.valid))
  exact ⟨rfl, rfl, rfl, rfl⟩

/-- The claim and everything after it succeed. -/
structure GoesThrough (cfg : Config) (env : Env) (who : Identity) (w : World) (x : Target)
    (task : TaskDoc) (r : Review) (decision : ReviewAction) (patchMap : List Patch) : Prop where
  calls : Clear (fun k => env.fault k = none) (w.tick + 3)
    (6 + branchCalls cfg who w.chunks x r (task.graphState.extractedText.getD "") patchMap decision)
  fresh : who.key r.reviewCaseId ∉ w.decisions
  owner : OwnerFits who x.file.owner
  node : task.currentNode = .awaitHumanReview
  branch : BranchFits cfg who w.chunks x r (task.graphState.extractedText.getD "") patchMap decision

section Outcome

variable {α : Type} {env : Env} {who : Identity} {w : World}

theorem find_claimable (hcase : w.cases.find who.sees (who.key reviewCaseId) = some case)
    (textHash token : String) :
    w.cases.find (fun r => who.sees r && r.doc.claimable textHash token) (who.key reviewCaseId) =
      if case.doc.claimable textHash token = true then some case else none := by
  obtain ⟨hlookup, hsees⟩ := Table.find_eq_some_iff.mp hcase
  unfold Table.find
  rw [hlookup, Option.filter_some, hsees, Bool.true_and]

theorem resolveClaimed_outcome {task : TaskDoc} (decision : ReviewAction) (textHash : String)
    (p : DecisionPayload) (hclosed : ¬ IsOpen w (who.key r.reviewCaseId)) :
    (resolveClaimed cfg x task r decision textHash p).wp (handler env).logic (fun out _ w' =>
      ¬ IsOpen w' (who.key r.reviewCaseId) ∧ (out.toBool = true ↔
        Clear (fun k => env.fault k = none) w.tick (5 + branchCalls cfg who w.chunks x r
          (task.graphState.extractedText.getD "") p.patchMap decision) ∧
        who.key r.reviewCaseId ∉ w.decisions ∧ OwnerFits who x.file.owner ∧
        task.currentNode = .awaitHumanReview ∧ BranchFits cfg who w.chunks x r
          (task.graphState.extractedText.getD "") p.patchMap decision)) who w := by
  have hruns : Runs env _ _ (resolveClaimed cfg x task r decision textHash p) _ who w :=
    runs_resolveClaimed decision textHash p
  have hiff := (Proc.wp_logic_iff _ _ _ _ _).mp hruns.wp
  exact (Proc.wp_logic_iff _ _ _ _ _).mpr
    ⟨resolveClaimed_closed decision textHash p hclosed, hiff.1⟩

theorem goesThrough_iff {task : TaskDoc} {patchMap : List Patch} :
    GoesThrough cfg env who w x task r decision patchMap ↔ env.fault (w.tick + 3) = none ∧
      Clear (fun k => env.fault k = none) (w.tick + 3 + 1) (5 + branchCalls cfg who w.chunks x r
        (task.graphState.extractedText.getD "") patchMap decision) ∧
      who.key r.reviewCaseId ∉ w.decisions ∧ OwnerFits who x.file.owner ∧
      task.currentNode = .awaitHumanReview ∧ BranchFits cfg who w.chunks x r
        (task.graphState.extractedText.getD "") patchMap decision := by
  have hcalls : ∀ n, Clear (fun k => env.fault k = none) (w.tick + 3) (6 + n) ↔
      env.fault (w.tick + 3) = none ∧
        Clear (fun k => env.fault k = none) (w.tick + 3 + 1) (5 + n) := by
    intro n
    rw [Nat.add_assoc 1 5 n, clear_add, clear_one]
  constructor
  · intro h
    exact ⟨((hcalls _).mp h.calls).1, ((hcalls _).mp h.calls).2, h.fresh, h.owner, h.node, h.branch⟩
  · intro h
    obtain ⟨hnone, hrest, hfresh, howner, hnode, hbranch⟩ := h
    exact ⟨(hcalls _).mpr ⟨hnone, hrest⟩, hfresh, howner, hnode, hbranch⟩

/-- How a decision went: its claim took effect, or everything is as it was. -/
inductive Verdict (cfg : Config) (env : Env) (who : Identity) (w : World)
    (fileId taskId reviewCaseId : String) (p : DecisionPayload) (actor : Actor)
    (out : Except Err (List Message)) (w' : World) : Prop
  | claimed {file : Row FileDoc} {task : Row TaskDoc} {case : Row ReviewCase}
      {decision : ReviewAction} {textHash : String}
      (htaken : ClaimTaken env who w fileId taskId reviewCaseId p file task case decision textHash)
      (hclosed : ¬ IsOpen w' (who.key reviewCaseId))
      (hiff : out.toBool = true ↔ GoesThrough cfg env who w ⟨fileId, file, taskId, actor⟩ task.doc
        ⟨reviewCaseId, case.doc, env.newId (w.drawn + 1)⟩ decision p.patchMap)
  | unclaimed
      (hnot : ∀ file task case decision textHash,
        ¬ ClaimTaken env who w fileId taskId reviewCaseId p file task case decision textHash)
      (hsame : SameDocuments w w')

theorem claim_outcome {fileId taskId : String} {actor : Actor} {w₃ : World} {claimedAt : Nat}
    (hsame : w₃ = { w with tick := w.tick + 3, drawn := w.drawn + 3 })
    (hreads : Clear (fun k => env.fault k = none) w.tick 3)
    (hfile : w.files.find who.sees (who.key fileId) = some file)
    (htask : w.tasks.find who.sees (who.key taskId) = some task)
    (hcase : w.cases.find who.sees (who.key reviewCaseId) = some case)
    (hvalid : validateReviewDecision (env.clock w.drawn) case.doc task.doc p =
      .ok (decision, textHash)) :
    (do
      let claimed : Bool ← call (.claimReviewCase reviewCaseId textHash
        (task.doc.resumeTokenHash.getD "") (env.newId (w.drawn + 1)) claimedAt)
      if claimed then
        resolveClaimed cfg ⟨fileId, file, taskId, actor⟩ task.doc
          ⟨reviewCaseId, case.doc, env.newId (w.drawn + 1)⟩ decision textHash p
      else raise (.validation "Review case is already being resolved")).wp (handler env).logic
      (fun out _ w' => Verdict cfg env who w fileId taskId reviewCaseId p actor out w') who w₃ := by
  subst hsame
  have hfound := find_claimable hcase textHash (task.doc.resumeTokenHash.getD "")
  have hunique : ∀ file' task' case' decision' textHash', ClaimTaken env who w fileId taskId
      reviewCaseId p file' task' case' decision' textHash' →
      case.doc.claimable textHash (task.doc.resumeTokenHash.getD "") = true ∧
        ∀ f, env.fault (w.tick + 3) = some f → f.applied = true := by
    intro file' task' case' decision' textHash' h
    obtain rfl := Option.some.inj (htask.symm.trans h.findTask)
    obtain rfl := Option.some.inj (hcase.symm.trans h.findCase)
    obtain ⟨-, rfl⟩ := Prod.mk.inj (Except.ok.inj (hvalid.symm.trans h.valid))
    exact ⟨h.claimable, h.applied⟩
  by_cases hclaimable : case.doc.claimable textHash (task.doc.resumeTokenHash.getD "") = true
  · rw [if_pos hclaimable] at hfound
    have hclosed : ¬ IsOpen (StoreOp.effect env who
        { w with tick := w.tick + 3, drawn := w.drawn + 3 } (.claimReviewCase reviewCaseId textHash
          (task.doc.resumeTokenHash.getD "") (env.newId (w.drawn + 1)) claimedAt)).2
        (who.key reviewCaseId) := not_isOpen_claimed hfound _ _ rfl
    refine wp_call_bind rfl ?_ ?_ ?_
    · intro claimed hnone hclaimed
      obtain rfl : claimed = true := by
        cases hclaimed
        rw [hfound]
        rfl
      refine Proc.wp_mono (resolveClaimed_outcome decision textHash p hclosed) ?_
      intro out _ w' hout
      refine .claimed ⟨hreads, hfile, htask, hcase, hvalid, hclaimable, ?_⟩ hout.1 ?_
      · intro f hf
        exact absurd (hnone.symm.trans hf) (by simp)
      · rw [goesThrough_iff, and_iff_right hnone]
        exact hout.2
    · intro e e' he
      exact nomatch he
    · intro fault e hfault
      cases happlied : fault.applied with
      | true =>
        refine .claimed ⟨hreads, hfile, htask, hcase, hvalid, hclaimable, ?_⟩ hclosed ?_
        · intro f hf
          rw [← Option.some.inj (hfault.symm.trans hf)]
          exact happlied
        · refine iff_of_false (by simp [Except.toBool]) fun h => ?_
          exact absurd (hfault.symm.trans (h.calls 0 (by omega))) (by simp)
      | false =>
        refine .unclaimed (fun _ _ _ _ _ h => ?_) ⟨rfl, rfl, rfl, rfl, rfl⟩
        have := (hunique _ _ _ _ _ h).2 fault hfault
        rw [happlied] at this
        cases this
  · rw [if_neg hclaimable] at hfound
    have hcases : (StoreOp.effect env who { w with tick := w.tick + 3, drawn := w.drawn + 3 }
        (.claimReviewCase reviewCaseId textHash (task.doc.resumeTokenHash.getD "")
          (env.newId (w.drawn + 1)) claimedAt)).2.cases = w.cases := Table.update_of_none hfound _
    have hnot : ∀ file task case decision textHash, ¬ ClaimTaken env who w fileId taskId
        reviewCaseId p file task case decision textHash :=
      fun _ _ _ _ _ h => hclaimable (hunique _ _ _ _ _ h).1
    refine wp_call_bind rfl ?_ ?_ ?_
    · intro claimed hnone hclaimed
      obtain rfl : claimed = false := by
        cases hclaimed
        rw [hfound]
        rfl
      exact .unclaimed hnot ⟨rfl, rfl, hcases, rfl, rfl⟩
    · intro e e' he
      exact nomatch he
    · intro fault e _
      refine .unclaimed hnot ?_
      cases fault.applied with
      | true => exact ⟨rfl, rfl, hcases, rfl, rfl⟩
      | false => exact ⟨rfl, rfl, rfl, rfl, rfl⟩

theorem handleReviewDecision_outcome (cfg : Config) (fileId taskId reviewCaseId : String)
    (p : DecisionPayload) (actor : Actor) :
    (handleReviewDecision cfg fileId taskId reviewCaseId p actor).wp (handler env).logic
      (fun out _ w' => Verdict cfg env who w fileId taskId reviewCaseId p actor out w') who w := by
  refine wp_read_bind (a := w.files.find who.sees (who.key fileId)) rfl rfl ?_ fun e hfault =>
    .unclaimed (fun _ _ _ _ _ h => hfault (h.reads 0 (by omega))) ⟨rfl, rfl, rfl, rfl, rfl⟩
  intro hread₁
  refine wp_read_bind (a := w.tasks.find who.sees (who.key taskId)) rfl rfl ?_ fun e hfault =>
    .unclaimed (fun _ _ _ _ _ h => hfault (h.reads 1 (by omega))) ⟨rfl, rfl, rfl, rfl, rfl⟩
  intro hread₂
  refine wp_read_bind (a := w.cases.find who.sees (who.key reviewCaseId)) rfl rfl ?_
    fun e hfault =>
    .unclaimed (fun _ _ _ _ _ h => hfault (h.reads 2 (by omega))) ⟨rfl, rfl, rfl, rfl, rfl⟩
  intro hread₃
  have hreads : Clear (fun k => env.fault k = none) w.tick 3 := by
    intro i hi
    obtain rfl | rfl | rfl : i = 0 ∨ i = 1 ∨ i = 2 := by omega
    · exact hread₁
    · exact hread₂
    · exact hread₃
  -- Without one of the documents, or with a check that fails, no claim is made.
  cases hfile : w.files.find who.sees (who.key fileId) with
  | none =>
    refine .unclaimed (fun _ _ _ _ _ h => ?_) ⟨rfl, rfl, rfl, rfl, rfl⟩
    exact absurd (hfile.symm.trans h.findFile) (by simp)
  | some file =>
  cases htask : w.tasks.find who.sees (who.key taskId) with
  | none =>
    refine .unclaimed (fun _ _ _ _ _ h => ?_) ⟨rfl, rfl, rfl, rfl, rfl⟩
    exact absurd (htask.symm.trans h.findTask) (by simp)
  | some task =>
  cases hcase : w.cases.find who.sees (who.key reviewCaseId) with
  | none =>
    refine .unclaimed (fun _ _ _ _ _ h => ?_) ⟨rfl, rfl, rfl, rfl, rfl⟩
    exact absurd (hcase.symm.trans h.findCase) (by simp)
  | some case =>
  refine wp_draw_bind rfl rfl ?_
  dsimp only [World.tock]
  cases hvalid : validateReviewDecision (env.clock w.drawn) case.doc task.doc p with
  | error e =>
    refine .unclaimed (fun file' task' case' _ _ h => ?_) ⟨rfl, rfl, rfl, rfl, rfl⟩
    obtain rfl := Option.some.inj (htask.symm.trans h.findTask)
    obtain rfl := Option.some.inj (hcase.symm.trans h.findCase)
    exact absurd (hvalid.symm.trans h.valid) (by simp)
  | ok checked =>
    obtain ⟨decision, textHash⟩ := checked
    exact wp_draw_bind rfl rfl (wp_draw_bind rfl rfl
      (claim_outcome rfl hreads hfile htask hcase hvalid))

end Outcome

/-- A decision that raises leaves everything as it was if and only if whatever follows a claim that
takes effect succeeds. -/
theorem leavesIntact_iff (cfg : Config) (env : Env) (who : Identity) (w : World)
    (fileId taskId reviewCaseId : String) (p : DecisionPayload) (actor : Actor) :
    LeavesIntact cfg env who w fileId taskId reviewCaseId p actor ↔
      ∀ file task case decision textHash,
        ClaimTaken env who w fileId taskId reviewCaseId p file task case decision textHash →
        GoesThrough cfg env who w ⟨fileId, file, taskId, actor⟩ task.doc
          ⟨reviewCaseId, case.doc, env.newId (w.drawn + 1)⟩ decision p.patchMap := by
  unfold LeavesIntact
  dsimp only
  cases (Proc.wp_logic_iff _ _ _ _ _).mp
    (handleReviewDecision_outcome cfg fileId taskId reviewCaseId p actor) with
  | unclaimed hnot hsame =>
    refine iff_of_true (fun e _ => ⟨hsame, ?_⟩) fun _ _ _ _ _ h => absurd h (hnot _ _ _ _ _)
    unfold TokenUsable
    rw [hsame.tasks, hsame.cases]
    exact id
  | claimed htaken hclosed hiff =>
    constructor
    · intro hintact file task case decision textHash h
      obtain ⟨rfl, rfl, rfl, rfl⟩ := htaken.unique h
      refine hiff.mp ?_
      cases hout : ((handleReviewDecision cfg fileId taskId reviewCaseId p actor).run
          (handler env) who w).1 with
      | ok _ => rfl
      | error e =>
        -- The case was open, since it could be claimed, and is not open now.
        have hopen := htaken.claimable
        simp only [ReviewCase.claimable, Bool.and_eq_true, beq_iff_eq] at hopen
        refine absurd ⟨_, ?_, hopen.1.1.1⟩ hclosed
        rw [(hintact e hout).1.cases]
        exact (Table.find_eq_some_iff.mp htaken.findCase).1
    · intro hthrough e hout
      have hok := hiff.mpr (hthrough _ _ _ _ _ htaken)
      rw [hout] at hok
      exact absurd hok (by simp [Except.toBool])

def badRedaction : DecisionPayload :=
  decisionOf .removeProblematicText [⟨some 0, some 99, some "[REDACTED]"⟩]

/-- The redaction is refused after the case was resolved and its token consumed. -/
theorem not_leavesIntact_badRedaction :
    ¬ LeavesIntact sampleConfig (sampleEnv []) sampleAdmin pausedWorld "file" "task" "id-2"
      badRedaction sampleAdmin.actor := by
  intro h
  have hraises : ((handleReviewDecision sampleConfig "file" "task" "id-2" badRedaction
      sampleAdmin.actor).run (handler (sampleEnv [])) sampleAdmin pausedWorld).1.toBool =
      false := by decide +kernel
  have hbefore : (pausedWorld.cases.lookup (sampleAdmin.key "id-2")).map (·.doc.status) =
      some .isOpen := by decide +kernel
  have hafter : (((handleReviewDecision sampleConfig "file" "task" "id-2" badRedaction
      sampleAdmin.actor).run (handler (sampleEnv [])) sampleAdmin pausedWorld).2.2.cases.lookup
      (sampleAdmin.key "id-2")).map (·.doc.status) = some .resolved := by decide +kernel
  cases hout : ((handleReviewDecision sampleConfig "file" "task" "id-2" badRedaction
      sampleAdmin.actor).run (handler (sampleEnv [])) sampleAdmin pausedWorld).1 with
  | ok _ =>
    rw [hout] at hraises
    exact absurd hraises (by simp [Except.toBool])
  | error e =>
    rw [(h e hout).1.cases, hbefore] at hafter
    cases hafter

end RagForge.Files
