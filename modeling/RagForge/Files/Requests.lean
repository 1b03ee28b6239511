import RagForge.Files.Sequential

/-
What a request that returns has done, for the requests that move a file through its ingestion.
-/

namespace RagForge.Files

open Effect Store Py

/-! ## Code that runs alone and returns -/

/-- When the code returns, `P` holds of its result and of the world. -/
abbrev Returns {α : Type} (env : Env) (p : FilesM α) (P : α → World → Prop) (who : Identity)
    (w : World) : Prop :=
  Ensures (handler env).logic Frame.locals p (fun a who' w' => who' = who ∧ P a w') who w

variable {env : Env} {who : Identity} {w : World}

section Rules

variable {α β : Type} {P : α → World → Prop} {Q : β → World → Prop} {p : FilesM α}

theorem Returns.bind {f : α → FilesM β} (hp : Returns env p P who w)
    (hf : ∀ a w', P a w' → Returns env (f a) Q who w') : Returns env (p >>= f) Q who w := by
  refine Ensures.bind hp ?_
  intro a who' w' _ hP
  obtain ⟨rfl, hP⟩ := hP
  exact hf a w' hP

theorem Returns.pure {a : α} (h : P a w) : Returns env (pure a) P who w := Ensures.pure ⟨rfl, h⟩

theorem Returns.raise (e : Err) : Returns env (raise e) P who w := Ensures.raise (S := sig) e

theorem Returns.mono {P' : α → World → Prop} (h : Returns env p P who w)
    (hP : ∀ a w', P a w' → P' a w') : Returns env p P' who w :=
  Ensures.mono h fun a _ w' _ ha => ⟨ha.1, hP a w' ha.2⟩

theorem Returns.handle {f : Err → FilesM α} (hp : Returns env p P who w)
    (hf : ∀ e w', Returns env (f e) P who w') : Returns env (Proc.handle p f) P who w := by
  refine Ensures.handle hp ?_
  intro e who' w' hwho
  obtain rfl : who' = who := hwho
  exact hf e w'

theorem Quiet.returns (hp : Quiet env p) : Returns env p (fun _ w' => SameCore w w') who w := by
  refine ⟨Proc.wp_mono (hp who w).wp ?_⟩
  intro r who' w' hr
  exact ⟨hr.1.1, fun _ _ => ⟨hr.1.1, hr.1.2⟩⟩

theorem Does.returns {t : DocKey} {C : DocKey → Prop} (hp : Does env t C p P who w) :
    Returns env p (fun a w' => Touches t C w w' ∧ P a w') who w := by
  refine ⟨Proc.wp_mono hp.wp ?_⟩
  intro r who' w' hr
  exact ⟨hr.1.1, fun a ha => ⟨hr.1.1, hr.1.2, (hr.2 a ha).2⟩⟩

end Rules

/-! ## Publishing -/

structure Published (who : Identity) (messages : List Message) (w w' : World) : Prop where
  tasks : w'.tasks = w.tasks
  cases : w'.cases = w.cases
  decisions : w'.decisions = w.decisions
  sent : w'.sent = w.sent ++ messages.map fun m => (who.tenantId, m)
  drawn : w.drawn ≤ w'.drawn

variable {messages : List Message}

theorem Published.of_same {w₁ w₂ : World} (h : Published who messages w w₁)
    (hsame : SameCore w₁ w₂) : Published who messages w w₂ :=
  ⟨hsame.tasks.trans h.tasks, hsame.cases.trans h.cases, hsame.decisions.trans h.decisions,
    hsame.sent.trans h.sent, Nat.le_trans h.drawn hsame.drawn⟩

section Requests

theorem call_send_returns (m : Message) :
    Returns env (call (.send m)) (fun _ w' => Published who [m] w w') who w := by
  refine ⟨⟨rfl, ?_⟩⟩
  intro a hr
  obtain ⟨-, n, hstate⟩ := handler_ok (c := ⟨who, .send m⟩) hr
  refine ⟨rfl, ?_⟩
  rw [hstate]
  exact ⟨rfl, rfl, rfl, rfl, Nat.le_refl _⟩

theorem forEach_send_returns (messages : List Message) :
    Returns env (Proc.forEach messages fun m => call (.send m))
      (fun _ w' => Published who messages w w') who w := by
  induction messages generalizing w with
  | nil => exact .pure ⟨rfl, rfl, rfl, by simp, Nat.le_refl _⟩
  | cons m rest ih =>
    refine (call_send_returns m).bind ?_
    intro _ w₁ h₁
    refine ih.mono ?_
    intro _ w₂ h₂
    refine ⟨h₂.tasks.trans h₁.tasks, h₂.cases.trans h₁.cases,
      h₂.decisions.trans h₁.decisions, ?_, Nat.le_trans h₁.drawn h₂.drawn⟩
    rw [h₂.sent, h₁.sent]
    simp

theorem publishMessages_returns (messages : List Message) :
    Returns env (publishMessages messages) (fun _ w' => Published who messages w w') who w := by
  refine (forEach_send_returns messages).bind ?_
  intro _ w₁ h₁
  by_cases hnil : messages = []
  · rw [if_pos hnil]
    exact .pure h₁
  · rw [if_neg hnil]
    refine ((Quiet.call fun _ _ => .refl _).returns).mono ?_
    intro _ w₂ h₂
    exact h₁.of_same h₂

theorem getFile_returns (fileId : String) :
    Returns env (call (.getFile fileId))
      (fun file w' => file = w.files.find who.sees (who.key fileId) ∧ SameCore w w') who w := by
  refine ⟨⟨rfl, ?_⟩⟩
  intro a hr
  obtain ⟨hreply, n, hstate⟩ := handler_ok (c := ⟨who, .getFile fileId⟩) hr
  refine ⟨rfl, (Except.ok.inj hreply).symm, ?_⟩
  rw [hstate]
  exact ⟨rfl, rfl, rfl, rfl, Nat.le_refl _⟩

theorem quiet_getTask (taskId : String) : Quiet env (call (.getTask taskId)) :=
  .call fun _ _ => .refl _

theorem quiet_getReviewCase (id : String) : Quiet env (call (.getReviewCase id)) :=
  .call fun _ _ => .refl _

theorem quiet_getLatestReviewDecision (id : String) :
    Quiet env (call (.getLatestReviewDecision id)) :=
  .call fun _ _ => .refl _

theorem Returns.guarded {α : Type} {p : FilesM α} {P : α → World → Prop} {x : Target}
    {reviewCaseId : Option String} (hp : Returns env p P who w) :
    Returns env (Proc.handle p fun e => do
      writeIngestionFailureEvent x reviewCaseId e
      Files.raise e) P who w := by
  refine hp.handle fun e _ => ?_
  refine .bind (P := fun _ _ => True) ?_ fun _ _ _ => .raise e
  exact (quiet_audit.returns.mono fun _ _ _ => trivial).handle fun _ _ => .pure trivial

/-! ## Completions -/

/-- The task a completion is for: the one it names, or the current one of the file. -/
def completedTask (who : Identity) (w : World) (fileId : String) (given : Option String) :
    String :=
  optOr given (((w.files.find who.sees (who.key fileId)).bind fun f =>
    f.doc.currentTaskId).getD "")

/-- A completion that returned: the task left its first step, and the messages were sent. -/
structure CompletionDone (cfg : Config) (env : Env) (who : Identity) (taskId : String)
    (e : Extraction) (w w' : World) : Prop where
  done : ∃ messages w₁, Touches (who.key taskId) (· ∉ w.cases) w w₁ ∧
    (∃ row, w.tasks.find who.sees (who.key taskId) = some row ∧
      row.doc.currentNode = .loadExtractionResult) ∧
    Completed cfg env who taskId e w messages w₁ ∧ Published who messages w₁ w'

theorem handleCompleteExtraction_returns (cfg : Config) (fileId : String)
    (given : Option String) (e : Extraction) :
    Returns env (handleCompleteExtraction cfg fileId given e)
      (fun _ w' => CompletionDone cfg env who (completedTask who w fileId given) e w w')
      who w := by
  refine .read_bind ?_
  split
  · exact .raise _
  refine (getFile_returns fileId).bind ?_
  intro file w₁ h₁
  obtain ⟨hfile, h₁⟩ := h₁
  subst hfile
  refine (quiet_getTask _).returns.bind ?_
  intro task w₂ h₂
  have hsame : SameCore w w₂ := h₁.trans h₂
  split
  · next file task hfile _ =>
    refine .bind (P := fun messages w' =>
      Touches (who.key (completedTask who w fileId given)) (· ∉ w.cases) w w' ∧
        (∃ row, w.tasks.find who.sees (who.key (completedTask who w fileId given)) =
          some row ∧ row.doc.currentNode = .loadExtractionResult) ∧
        Completed cfg env who (completedTask who w fileId given) e w messages w') ?_ ?_
    · refine .guarded ((handleExtractionCompletion_does (C := (· ∉ w.cases))
        fun k hk => hsame.cases ▸ hk).returns.mono ?_)
      intro messages w₃ h₃
      obtain ⟨htouch, row, hfind, hnode, hcompleted⟩ := h₃
      refine ⟨(hsame.touches _ _).trans htouch, ⟨row, ?_, hnode⟩,
        hcompleted.of_before hsame.reviews hsame.drawn⟩
      rw [← hsame.tasks]
      exact hfind
    · intro messages w₃ h₃
      obtain ⟨htouch, hrow, hcompleted⟩ := h₃
      refine (publishMessages_returns messages).bind ?_
      intro _ w₄ h₄
      split
      · exact .pure ⟨messages, w₃, htouch, hrow, hcompleted, h₄⟩
      · refine (quiet_getFile fileId).returns.bind ?_
        intro refreshed w₅ h₅
        exact .pure ⟨messages, w₃, htouch, hrow, hcompleted, h₄.of_same h₅⟩
  · exact .raise _

/-! ## Decisions -/

theorem DecisionDone.of_same {cfg : Config} {taskId reviewCaseId : String} {p : DecisionPayload}
    {w₁ w' : World} (h : DecisionDone cfg who taskId reviewCaseId p w₁ messages w')
    (hsame : SameCore w w₁) : DecisionDone cfg who taskId reviewCaseId p w messages w' := by
  obtain ⟨⟨task, row, decision, hfind, hnode, hclaimed, htoken, hallowed, hdecided, hresolved⟩,
    hfinished⟩ := h
  have hfound := hclaimed.found
  have hfresh := hdecided.fresh
  rw [hsame.tasks] at hfind
  rw [hsame.cases] at hfound
  rw [hsame.decisions] at hfresh
  exact ⟨⟨task, row, decision, hfind, hnode, ⟨hfound, hclaimed.isOpen, hclaimed.token⟩, htoken,
    hallowed, ⟨hdecided.resolved, hfresh, hdecided.recorded⟩, hresolved⟩, hfinished⟩

/-- A decision that was carried out, and whose messages were sent. -/
structure SubmissionDone (cfg : Config) (who : Identity) (reviewCaseId : String)
    (p : DecisionPayload) (w w' : World) : Prop where
  done : ∃ taskId messages w₁,
    Touches (who.key taskId) (· = who.key reviewCaseId) w w₁ ∧
    DecisionDone cfg who taskId reviewCaseId p w messages w₁ ∧ Published who messages w₁ w'

theorem finishReviewDecision_returns (fileId taskId reviewCaseId : String) (file : Row FileDoc)
    (messages : List Message) :
    Returns env (finishReviewDecision fileId taskId reviewCaseId file messages)
      (fun _ w' => Published who messages w w') who w := by
  refine (publishMessages_returns messages).bind ?_
  intro _ w₁ h₁
  refine (quiet_getFile fileId).returns.bind ?_
  intro refreshed w₂ h₂
  refine (quiet_getLatestReviewDecision reviewCaseId).returns.bind ?_
  intro latest w₃ h₃
  refine (quiet_getTask taskId).returns.bind ?_
  intro task w₄ h₄
  exact .pure (((h₁.of_same h₂).of_same h₃).of_same h₄)

theorem handleSubmitReviewDecision_returns (cfg : Config) (fileId reviewCaseId : String)
    (p : DecisionPayload) :
    Returns env (handleSubmitReviewDecision cfg fileId reviewCaseId p)
      (fun _ w' => SameCore w w' ∨ SubmissionDone cfg who reviewCaseId p w w') who w := by
  refine .read_bind ?_
  split
  · exact Returns.pure (.inl (SameCore.refl _))
  refine (quiet_getFile fileId).returns.bind ?_
  intro file w₁ h₁
  refine (quiet_getReviewCase reviewCaseId).returns.bind ?_
  intro case w₂ h₂
  have hsame₂ : SameCore w w₂ := h₁.trans h₂
  split
  · next file case =>
    dsimp only
    split
    · exact .pure (.inl hsame₂)
    refine (quiet_getTask _).returns.bind ?_
    intro task w₃ h₃
    have hsame : SameCore w w₃ := hsame₂.trans h₃
    split
    · exact .pure (.inl hsame)
    refine .bind (P := fun messages w' =>
      Touches (who.key (optOr file.doc.currentTaskId case.doc.taskId))
        (· = who.key reviewCaseId) w w' ∧
      DecisionDone cfg who (optOr file.doc.currentTaskId case.doc.taskId) reviewCaseId p w
        messages w') ?_ ?_
    · refine .guarded
        ((handleReviewDecision_does (C := (· = who.key reviewCaseId)) rfl).returns.mono ?_)
      intro messages w₄ h₄
      exact ⟨(hsame.touches _ _).trans h₄.1, h₄.2.of_same hsame⟩
    · intro messages w₄ h₄
      refine (finishReviewDecision_returns _ _ _ _ messages).mono ?_
      intro _ w₅ h₅
      exact .inr ⟨_, messages, w₄, h₄.1, h₄.2, h₅⟩
  · exact .pure (.inl hsame₂)

/-! ## Uploads -/

/-- An upload that returned: one task was added, at its first step, and no job was sent. -/
structure StartDone (who : Identity) (w w' : World) : Prop where
  done : ∃ (taskId : String) (row : Row TaskDoc) (messages : List Message),
    who.key taskId ∉ w.tasks ∧ w'.tasks = w.tasks.insert (who.key taskId) row ∧
    row.doc.currentNode = .loadExtractionResult ∧ w'.cases = w.cases ∧
    w'.decisions = w.decisions ∧ w.drawn ≤ w'.drawn ∧
    w'.sent = w.sent ++ messages.map (fun m => (who.tenantId, m)) ∧
    messages.filter Message.isJob = []

theorem quiet_givenOrNew (given : Option String) : Quiet env (givenOrNew given) := by
  unfold givenOrNew
  by_cases hempty : given.getD "" = ""
  · rw [if_pos hempty]
    exact quiet_newId
  · rw [if_neg hempty]
    exact .pure _

theorem quiet_createFile (id : String) (owner : Ownership) (doc : FileDoc) :
    Quiet env (call (.createFile id owner doc)) := by
  refine .call fun who w => ?_
  show SameCore w (w.put _ _).2
  rcases w.put_insertOne who w.files id owner doc fun t => { w with files := t } with
    ⟨e, hout⟩ | ⟨o, -, hout⟩
  · rw [hout]
    exact .refl w
  · rw [hout]
    exact ⟨rfl, rfl, rfl, rfl, Nat.le_refl _⟩

theorem createTask_returns (taskId : String) (owner : Ownership) (doc : TaskDoc) :
    Returns env (call (.createTask taskId owner doc))
      (fun _ w' => who.key taskId ∉ w.tasks ∧ (∃ o, w'.tasks =
        w.tasks.insert (who.key taskId) ⟨o, doc⟩) ∧ w'.cases = w.cases ∧
        w'.decisions = w.decisions ∧ w'.sent = w.sent ∧ w'.drawn = w.drawn) who w := by
  refine ⟨⟨rfl, ?_⟩⟩
  intro a hr
  obtain ⟨hreply, n, hstate⟩ := handler_ok (c := ⟨who, .createTask taskId owner doc⟩) hr
  refine ⟨rfl, ?_⟩
  simp only [StoreOp.effect] at hreply hstate
  rcases w.put_insertOne who w.tasks taskId owner doc fun t => { w with tasks := t } with
    ⟨e, hout⟩ | ⟨o, hmem, hout⟩
  · rw [hout] at hreply
    cases hreply
  · rw [hout] at hstate
    rw [hstate]
    exact ⟨hmem, ⟨o, rfl⟩, rfl, rfl, rfl, rfl⟩

theorem handleStartFileIngestion_returns (cfg : Config) (u : Upload) :
    Returns env (handleStartFileIngestion cfg u) (fun _ w' => StartDone who w w') who w := by
  refine .read_bind ?_
  refine (Quiet.check _).returns.bind ?_
  intro filename w₁ h₁
  refine (quiet_givenOrNew _).returns.bind ?_
  intro fileId w₂ h₂
  refine (Quiet.check _).returns.bind ?_
  intro path w₃ h₃
  refine quiet_now.returns.bind ?_
  intro now w₄ h₄
  refine (quiet_givenOrNew _).returns.bind ?_
  intro taskId w₅ h₅
  refine quiet_newId.returns.bind ?_
  intro graphRunId w₆ h₆
  refine (quiet_createFile _ _ _).returns.bind ?_
  intro _ w₇ h₇
  have hsame : SameCore w w₇ :=
    (((((h₁.trans h₂).trans h₃).trans h₄).trans h₅).trans h₆).trans h₇
  refine (createTask_returns _ _ _).bind ?_
  intro _ w₈ h₈
  obtain ⟨hfresh, ⟨o, htasks⟩, hcases, hdecisions, hsent, hdrawn⟩ := h₈
  refine quiet_audit.returns.bind ?_
  intro _ w₉ h₉
  refine (publishMessages_returns _).bind ?_
  intro _ w₁₀ h₁₀
  rw [hsame.tasks] at hfresh htasks
  have hle : w.drawn ≤ w₁₀.drawn := by
    have := hsame.drawn
    have := h₉.drawn
    have := h₁₀.drawn
    omega
  refine .pure ⟨taskId,
    ⟨o, createFileTaskDocument fileId (optOr u.documentId fileId) graphRunId u.context now⟩,
    [.extract fileId (optOr u.documentId fileId) taskId path filename], hfresh, ?_, rfl, ?_, ?_,
    hle, ?_, rfl⟩
  · rw [h₁₀.tasks, h₉.tasks, htasks]
  · rw [h₁₀.cases, h₉.cases, hcases, hsame.cases]
  · rw [h₁₀.decisions, h₉.decisions, hdecisions, hsame.decisions]
  · rw [h₁₀.sent, h₉.sent, hsent, hsame.sent]

end Requests

end RagForge.Files
