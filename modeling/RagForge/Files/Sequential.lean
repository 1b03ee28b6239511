import RagForge.Files.Service

/-
What the handlers do when they run alone.

Each function gets one specification: which documents it can touch whatever happens, and what holds
when it returns.  `touching t C` names the one task and the cases that may change; files, chunks and
audit events are left out, since nothing below depends on them.
-/

namespace RagForge.Files

open Effect Store Py

/-! ## Frames -/

/-- Only the task `t` and the cases and decisions in `C` differ, and nothing was sent. -/
structure Touches (t : DocKey) (C : DocKey → Prop) (w w' : World) : Prop where
  tasks : ∀ k, k ≠ t → w'.tasks.lookup k = w.tasks.lookup k
  cases : ∀ k, ¬ C k → w'.cases.lookup k = w.cases.lookup k
  decisions : ∀ k, ¬ C k → w'.decisions.lookup k = w.decisions.lookup k
  sent : w'.sent = w.sent
  drawn : w.drawn ≤ w'.drawn

theorem Touches.refl (t : DocKey) (C : DocKey → Prop) (w : World) : Touches t C w w :=
  ⟨fun _ _ => rfl, fun _ _ => rfl, fun _ _ => rfl, rfl, Nat.le_refl _⟩

variable {t : DocKey} {C : DocKey → Prop} {w₁ w₂ w₃ : World}

theorem Touches.trans (h₁ : Touches t C w₁ w₂) (h₂ : Touches t C w₂ w₃) : Touches t C w₁ w₃ where
  tasks k hk := (h₂.tasks k hk).trans (h₁.tasks k hk)
  cases k hk := (h₂.cases k hk).trans (h₁.cases k hk)
  decisions k hk := (h₂.decisions k hk).trans (h₁.decisions k hk)
  sent := h₂.sent.trans h₁.sent
  drawn := Nat.le_trans h₁.drawn h₂.drawn

def touching (t : DocKey) (C : DocKey → Prop) : Frame Identity World where
  rel who w who' w' := who' = who ∧ Touches t C w w'
  refl _ w := ⟨rfl, .refl t C w⟩
  trans h₁ h₂ := ⟨h₂.1.trans h₁.1, h₁.2.trans h₂.2⟩

/-- Code that a run alone takes from `w`, with what it can touch and what it returns. -/
abbrev Does {α : Type} (env : Env) (t : DocKey) (C : DocKey → Prop) (p : FilesM α)
    (P : α → World → Prop) (who : Identity) (w : World) : Prop :=
  Ensures (handler env).logic (touching t C) p (fun a who' w' => who' = who ∧ P a w') who w

variable {α β : Type} {env : Env} {who : Identity} {w : World} {op : StoreOp}

section Rules

variable {P : α → World → Prop} {Q : β → World → Prop}

theorem Does.bind {p : FilesM α} {f : α → FilesM β} (hp : Does env t C p P who w)
    (hf : ∀ a w', Touches t C w w' → P a w' → Does env t C (f a) Q who w') :
    Does env t C (p >>= f) Q who w := by
  refine Ensures.bind hp ?_
  intro a who' w' hframe hP
  obtain ⟨rfl, hP⟩ := hP
  exact hf a w' hframe.2 hP

theorem Does.pure {a : α} (h : P a w) : Does env t C (pure a) P who w := Ensures.pure ⟨rfl, h⟩

theorem Does.raise (e : Err) : Does env t C (raise e) P who w := Ensures.raise (S := sig) e

theorem Does.check {x : Except Err α} (h : ∀ a, x = .ok a → P a w) :
    Does env t C (check x) P who w := by
  cases x with
  | error e => exact .raise e
  | ok a => exact Does.pure (h a rfl)

theorem Does.mono {P' : α → World → Prop} {p : FilesM α} (h : Does env t C p P who w)
    (hP : ∀ a w', Touches t C w w' → P a w' → P' a w') : Does env t C p P' who w :=
  Ensures.mono h fun a _ w' hframe ha => ⟨ha.1, hP a w' hframe.2 ha.2⟩

/-- One call: it may or may not take effect, and its reply means that it did. -/
theorem Does.call {P : op.Reply → World → Prop} (htouch : Touches t C w (op.effect env who w).2)
    (hP : ∀ a n, (op.effect env who w).1 = .ok a →
      P a { (op.effect env who w).2 with tick := n }) : Does env t C (call op) P who w := by
  refine ⟨⟨⟨rfl, ?_⟩, ?_⟩⟩
  · obtain ⟨n, hkept | htook⟩ := handler_state env ⟨who, op⟩ w
    · rw [hkept]
      exact ⟨fun _ _ => rfl, fun _ _ => rfl, fun _ _ => rfl, rfl, Nat.le_refl _⟩
    · show Touches t C w (handler env ⟨who, op⟩ w).2
      rw [htook]
      exact ⟨htouch.tasks, htouch.cases, htouch.decisions, htouch.sent, htouch.drawn⟩
  · intro a hr
    obtain ⟨hreply, n, hstate⟩ := handler_ok (c := ⟨who, op⟩) hr
    refine ⟨rfl, ?_⟩
    rw [hstate]
    exact hP a n hreply

end Rules

/-! ## Code that touches nothing -/

/-- Tasks, cases, decisions and messages are the same. -/
structure SameCore (w w' : World) : Prop where
  tasks : w'.tasks = w.tasks
  cases : w'.cases = w.cases
  decisions : w'.decisions = w.decisions
  sent : w'.sent = w.sent
  drawn : w.drawn ≤ w'.drawn

theorem SameCore.refl (w : World) : SameCore w w := ⟨rfl, rfl, rfl, rfl, Nat.le_refl _⟩

theorem SameCore.trans (h₁ : SameCore w₁ w₂) (h₂ : SameCore w₂ w₃) : SameCore w₁ w₃ :=
  ⟨h₂.tasks.trans h₁.tasks, h₂.cases.trans h₁.cases, h₂.decisions.trans h₁.decisions,
    h₂.sent.trans h₁.sent, Nat.le_trans h₁.drawn h₂.drawn⟩

variable {w' : World}

theorem SameCore.touches (h : SameCore w w') (t : DocKey) (C : DocKey → Prop) :
    Touches t C w w' where
  tasks k _ := by rw [h.tasks]
  cases k _ := by rw [h.cases]
  decisions k _ := by rw [h.decisions]
  sent := h.sent
  drawn := h.drawn

/-- Cases and decisions are the same. -/
structure SameReviews (w w' : World) : Prop where
  cases : w'.cases = w.cases
  decisions : w'.decisions = w.decisions

theorem SameReviews.trans (h₁ : SameReviews w₁ w₂) (h₂ : SameReviews w₂ w₃) : SameReviews w₁ w₃ :=
  ⟨h₂.cases.trans h₁.cases, h₂.decisions.trans h₁.decisions⟩

theorem SameCore.reviews (h : SameCore w w') : SameReviews w w' :=
  ⟨h.cases, h.decisions⟩

def sameCore : Frame Identity World where
  rel who w who' w' := who' = who ∧ SameCore w w'
  refl _ w := ⟨rfl, .refl w⟩
  trans h₁ h₂ := ⟨h₂.1.trans h₁.1, h₁.2.trans h₂.2⟩

def Quiet {α : Type} (env : Env) (p : FilesM α) : Prop :=
  ∀ who w, Ensures (handler env).logic sameCore p (fun _ _ _ => True) who w

variable {x : Target} {fileId : String} {owner : Ownership}

section Quiet

theorem Quiet.pure (a : α) : Quiet env (pure a : FilesM α) := fun _ _ => .pure trivial

theorem Quiet.bind {p : FilesM α} {f : α → FilesM β} (hp : Quiet env p)
    (hf : ∀ a, Quiet env (f a)) : Quiet env (p >>= f) :=
  fun who w => (hp who w).bind fun a who' w' _ _ => hf a who' w'

theorem Quiet.check (x : Except Err α) : Quiet env (check x) := by
  cases x with
  | error e => exact fun _ _ => .raise (S := sig) e
  | ok a => exact .pure a

theorem Quiet.call (h : ∀ who w, SameCore w (op.effect env who w).2) : Quiet env (call op) := by
  intro who w
  refine ⟨⟨⟨rfl, ?_⟩, fun _ _ => trivial⟩⟩
  have hsame := h who w
  obtain ⟨n, hkept | htook⟩ := handler_state env ⟨who, op⟩ w
  · rw [hkept]
    exact ⟨rfl, rfl, rfl, rfl, Nat.le_refl _⟩
  · show SameCore w (handler env ⟨who, op⟩ w).2
    rw [htook]
    exact ⟨hsame.tasks, hsame.cases, hsame.decisions, hsame.sent, hsame.drawn⟩

theorem Quiet.does {p : FilesM α} (hp : Quiet env p) :
    Does env t C p (fun _ w' => SameCore w w') who w := by
  refine ⟨Proc.wp_mono (hp who w).wp ?_⟩
  intro r who' w' hr
  exact ⟨⟨hr.1.1, hr.1.2.touches t C⟩, fun _ _ => ⟨hr.1.1, hr.1.2⟩⟩

theorem Quiet.then {p : FilesM α} {f : α → FilesM β} {P : β → World → Prop} (hp : Quiet env p)
    (hf : ∀ a w', SameCore w w' → Does env t C (f a) P who w') : Does env t C (p >>= f) P who w :=
  hp.does.bind fun a w' _ h => hf a w' h

theorem quiet_audit {eventType : AuditType} {reason : String} {details : Json}
    {ref : ReviewRef} {a b : Option FileStatus} :
    Quiet env (writeAuditEvent x eventType reason details ref a b) := by
  refine .call fun who w => ?_
  simp only [StoreOp.effect]
  split <;> exact ⟨rfl, rfl, rfl, rfl, Nat.le_refl _⟩

theorem quiet_updateFile {set : FileDoc → FileDoc} :
    Quiet env (RagForge.Files.call (.updateFile fileId set)) :=
  .call fun _ _ => ⟨rfl, rfl, rfl, rfl, Nat.le_refl _⟩

theorem quiet_now : Quiet env (RagForge.Files.call .now) :=
  .call fun _ _ => ⟨rfl, rfl, rfl, rfl, Nat.le_succ _⟩

theorem quiet_newId : Quiet env (RagForge.Files.call .newId) :=
  .call fun _ _ => ⟨rfl, rfl, rfl, rfl, Nat.le_succ _⟩

theorem quiet_createChunks {docs : List Chunk} : Quiet env (createChunks owner docs) := by
  unfold createChunks
  by_cases hnil : docs = []
  · rw [if_pos hnil]
    exact .pure 0
  · rw [if_neg hnil]
    refine .bind (fun _ _ => .read trivial) fun _ => ?_
    refine (Quiet.check _).bind fun _ => ?_
    exact .call fun _ _ => ⟨rfl, rfl, rfl, rfl, Nat.le_refl _⟩

end Quiet

/-! ## The stored task -/

/-- The caller sees the stored task, which is the caller's copy up to the time stamp. -/
def Holds (who : Identity) (taskId : String) (task : TaskDoc) (w : World) : Prop :=
  ∃ r n, w.tasks.find who.sees (who.key taskId) = some r ∧ r.doc = { task with updatedAt := n }

variable {taskId : String} {task : TaskDoc}

theorem Holds.of_tasks
    (h : Holds who taskId task w) (heq : w'.tasks = w.tasks) : Holds who taskId task w' := by
  unfold Holds
  rw [heq]
  exact h

theorem Holds.of_same
    (h : Holds who taskId task w) (hsame : SameCore w w') : Holds who taskId task w' :=
  h.of_tasks hsame.tasks

/-- Updates that do not look at the time stamp. -/
def Timeless (updates : TaskDoc → TaskDoc) : Prop :=
  ∀ task n, ∃ m, updates { task with updatedAt := n } = { updates task with updatedAt := m }

variable {actor : Actor} {textHash : String} {row : Row ReviewCase} {p : DecisionPayload}

section Specs

variable {reviewCaseId : String} {cfg : Config} {state : GraphState} {e : Extraction} {r : Review}

theorem transition_does (hold : Holds who taskId task w) (state : GraphState)
    (target : IngestionState) {updates : TaskDoc → TaskDoc} (htime : Timeless updates) :
    Does env (who.key taskId) C (transition taskId task state target updates)
      (fun task' w' => target ∈ task.currentNode.allowed ∧
        task' = { updates task with currentNode := target, graphState := state } ∧
        Holds who taskId task' w' ∧ SameReviews w w') who w := by
  refine .bind (P := fun next w' => (next = target ∧ target ∈ task.currentNode.allowed) ∧
    w' = w) (.check ?_) ?_
  · intro next hnext
    unfold transitionIngestionState at hnext
    split at hnext
    · next hmem => exact ⟨⟨(Except.ok.inj hnext).symm, hmem⟩, rfl⟩
    · cases hnext
  · intro next w₁ _ hnext
    obtain ⟨⟨rfl, hmem⟩, rfl⟩ := hnext
    obtain ⟨r, n, hfind, hdoc⟩ := hold
    refine .bind (P := fun _ w' =>
      Holds who taskId { updates task with currentNode := next, graphState := state } w' ∧
        SameReviews w₁ w') (.call ?_ ?_) ?_
    · exact ⟨fun k hk => Table.lookup_update_ne _ hk, fun _ _ => rfl, fun _ _ => rfl, rfl,
        Nat.le_refl _⟩
    · intro _ m _
      refine ⟨⟨_, env.clock w₁.drawn, Table.find_update_self hfind ?_, ?_⟩, rfl, rfl⟩
      · exact (Table.find_eq_some_iff.mp hfind).2
      · obtain ⟨m', hm'⟩ := htime task n
        show { ({ updates r.doc with currentNode := next, graphState := state } : TaskDoc) with
          updatedAt := env.clock w₁.drawn } = _
        rw [hdoc, hm']
    · intro _ w₂ _ hw₂
      exact .pure ⟨hmem, rfl, hw₂⟩

theorem finalizeAs_does (hold : Holds who taskId task w) (status : TaskStatus)
    (state : GraphState) :
    Does env (who.key taskId) C (finalizeAs status taskId task state)
      (fun task' w' => .finalize ∈ task.currentNode.allowed ∧
        task'.currentNode = .finalize ∧ task'.resumeTokenHash = task.resumeTokenHash ∧
        Holds who taskId task' w' ∧ SameReviews w w') who w := by
  refine quiet_now.then fun now w₁ hsame => ?_
  refine (transition_does (hold.of_same hsame) state .finalize ?_).mono ?_
  · exact fun task n => ⟨n, rfl⟩
  · intro task' w₂ _ h
    obtain ⟨hmem, rfl, hhold, hkept⟩ := h
    exact ⟨hmem, rfl, rfl, hhold, hsame.reviews.trans hkept⟩

/-! ## Chunking -/

/-- The texts of the chunks are the windows of `text`, in order. -/
def CutFrom (cfg : Config) (text : String) (chunks : List Chunk) : Prop :=
  ∃ spans, chunkText text cfg.chunkSize cfg.chunkOverlap = .ok spans ∧
    chunks.map Chunk.text = spans.map fun s => slice text s.1 s.2

theorem buildChunkDocuments_cutFrom {plan : ChunkPlan} {text : String} {version : Nat}
    {chunks : List Chunk} (h : buildChunkDocuments cfg x plan text version = .ok chunks) :
    CutFrom cfg text chunks := by
  obtain ⟨spans, hspans, rfl⟩ := ok_of_map h
  refine ⟨spans, hspans, List.ext_getElem? fun i => ?_⟩
  rw [List.getElem?_map, List.getElem?_mapIdx, List.getElem?_map, Option.map_map]
  rfl

def chunkingMessages (x : Target) (plan : ChunkPlan) (jobId : String) (chunks : List Chunk) :
    List Message :=
  [.chunkingCompleted x.fileId x.document x.taskId chunks.length plan.textSource
      plan.ref.reviewCaseId,
    .processEmbeddingJob ⟨jobId, x.fileId, x.document, chunks⟩]

def Finished (who : Identity) (taskId : String) (token : Option String) (w : World) : Prop :=
  ∃ task : TaskDoc, Holds who taskId task w ∧ task.currentNode = .finalize ∧
    task.resumeTokenHash = token

theorem completeChunkingFlow_does (hold : Holds who x.taskId task w) (state : GraphState)
    (plan : ChunkPlan) :
    Does env (who.key x.taskId) C (completeChunkingFlow cfg x task state plan)
      (fun messages w' => Finished who x.taskId task.resumeTokenHash w' ∧ SameReviews w w' ∧
        ∃ jobId chunks, CutFrom cfg (plan.sourceText state) chunks ∧
          messages = chunkingMessages x plan jobId chunks) who w := by
  refine (Quiet.call fun _ _ => .refl _).then fun version w₁ h₁ => ?_
  refine .bind (P := fun chunks w' => CutFrom cfg (plan.sourceText state) chunks ∧ w' = w₁)
    (.check fun chunks h => ⟨buildChunkDocuments_cutFrom h, rfl⟩) ?_
  intro chunks w₂ _ hcut
  obtain ⟨hcut, rfl⟩ := hcut
  refine quiet_createChunks.then fun created w₃ h₃ => ?_
  refine quiet_newId.then fun jobId w₄ h₄ => ?_
  refine quiet_updateFile.then fun _ w₅ h₅ => ?_
  have hsame₅ := h₁.trans (h₃.trans (h₄.trans h₅))
  refine (transition_does (hold.of_same hsame₅) _ .requestEmbeddings
    fun task n => ⟨n, rfl⟩).bind ?_
  intro task₆ w₆ _ h₆
  obtain ⟨-, rfl, hold₆, hkept₆⟩ := h₆
  refine (finalizeAs_does hold₆ _ _).bind ?_
  intro task₇ w₇ _ h₇
  obtain ⟨-, hnode, htoken, hold₇, hkept₇⟩ := h₇
  refine quiet_audit.then fun _ w₈ h₈ => ?_
  refine quiet_audit.then fun _ w₉ h₉ => ?_
  refine quiet_audit.then fun _ w₁₀ h₁₀ => ?_
  have hsame₁₀ := h₈.trans (h₉.trans h₁₀)
  refine .pure ⟨⟨task₇, hold₇.of_same hsame₁₀, hnode, htoken⟩, ?_, jobId, chunks, hcut, rfl⟩
  exact hsame₅.reviews.trans (hkept₆.trans (hkept₇.trans hsame₁₀.reviews))

/-! ## Pausing for review -/

def Drawn (cfg : Config) (env : Env) (w w' : World) (hash : String) : Prop :=
  ∃ n, w.drawn ≤ n ∧ n < w'.drawn ∧ hash = cfg.hashText (env.newToken n)

theorem makeResumeToken_does (cfg : Config) :
    Does env t C (makeResumeToken cfg)
      (fun token w' => SameCore w w' ∧ Drawn cfg env w w' token.tokenHash) who w := by
  refine .bind (P := fun token w' => SameCore w w' ∧ w'.drawn = w.drawn + 1 ∧
    token = env.newToken w.drawn) (.call ?_ ?_) ?_
  · exact ⟨fun _ _ => rfl, fun _ _ => rfl, fun _ _ => rfl, rfl, Nat.le_succ _⟩
  · intro token n h
    exact ⟨⟨rfl, rfl, rfl, rfl, Nat.le_succ _⟩, rfl, (Except.ok.inj h).symm⟩
  · intro token w₁ _ h₁
    obtain ⟨hsame₁, hdrawn, rfl⟩ := h₁
    refine quiet_now.then fun now w₂ hsame₂ => ?_
    have hle := hsame₂.drawn
    refine .pure ⟨?_, w.drawn, Nat.le_refl _, by omega, rfl⟩
    exact hsame₁.trans hsame₂

/-- The task waits for a decision about a case that was opened for it since `w`. -/
structure Paused (cfg : Config) (env : Env) (who : Identity) (taskId : String)
    (text : Option String) (w w' : World) : Prop where
  opened : ∃ caseId row hash, who.key caseId ∉ w.cases ∧
    w'.cases = w.cases.insert (who.key caseId) row ∧ row.doc.taskId = taskId ∧
    row.doc.status = .isOpen ∧ row.doc.allowedActions = allowedActions ∧
    row.doc.interrupt.resumeTokenHash = some hash ∧ Drawn cfg env w w' hash ∧
      ∃ task : TaskDoc, Holds who taskId task w' ∧
      task.currentNode = .awaitHumanReview ∧ task.graphState.extractedText = text ∧
      task.resumeTokenHash = some hash
  decisions : w'.decisions = w.decisions

theorem createReviewCase_call_does (hC : ∀ k, k ∉ w.cases → C k) (caseId : String)
    (owner : Ownership) (doc : ReviewCase) :
    Does env t C (call (.createReviewCase caseId owner doc))
      (fun _ w' => who.key caseId ∉ w.cases ∧ (∃ o, w'.cases =
        w.cases.insert (who.key caseId) ⟨o, doc⟩) ∧ w'.tasks = w.tasks ∧
        w'.decisions = w.decisions ∧ w'.drawn = w.drawn) who w := by
  have heffect : ∀ out, StoreOp.effect env who w (.createReviewCase caseId owner doc) = out →
      (∃ e, out = (.error e, w)) ∨ ∃ o, who.key caseId ∉ w.cases ∧
        out = (.ok (), { w with cases := w.cases.insert (who.key caseId) ⟨o, doc⟩ }) := by
    intro out hout
    simp only [StoreOp.effect] at hout
    split at hout
    · exact .inl ⟨_, hout.symm⟩
    · rw [← hout]
      exact w.put_insertOne who w.cases caseId owner doc _
  refine .call ?_ ?_
  · rcases heffect _ rfl with ⟨e, hout⟩ | ⟨o, hmem, hout⟩
    · rw [hout]
      exact .refl t C w
    · rw [hout]
      refine ⟨fun _ _ => rfl, fun k hk => ?_, fun _ _ => rfl, rfl, Nat.le_refl _⟩
      exact AList.lookup_insert_ne fun heq => hk (hC k (heq ▸ hmem))
  · intro _ n hok
    rcases heffect _ rfl with ⟨e, hout⟩ | ⟨o, hmem, hout⟩
    · rw [hout] at hok
      cases hok
    · rw [hout]
      exact ⟨hmem, ⟨o, rfl⟩, rfl, rfl, rfl⟩

theorem createReviewCase_does (hold : Holds who x.taskId task w) (hC : ∀ k, k ∉ w.cases → C k)
    (state : GraphState) (highest : Finding) :
    Does env (who.key x.taskId) C (createReviewCase cfg x task state highest)
      (fun messages w' => Paused cfg env who x.taskId state.extractedText w w' ∧
        messages.filter Message.isJob = []) who w := by
  refine quiet_newId.then fun caseId w₁ h₁ => ?_
  refine (makeResumeToken_does cfg).bind ?_
  intro token w₂ _ h₂
  obtain ⟨h₂, n, hle, hlt, hhash⟩ := h₂
  refine quiet_now.then fun now w₃ h₃ => ?_
  have hsame₃ := h₁.trans (h₂.trans h₃)
  refine (createReviewCase_call_does (hsame₃.cases ▸ hC) _ _ _).bind ?_
  intro _ w₄ _ h₄
  obtain ⟨hfresh, ⟨o, hcases₄⟩, htasks₄, hdecisions₄, hdrawn₄⟩ := h₄
  refine quiet_updateFile.then fun _ w₅ h₅ => ?_
  refine (transition_does (((hold.of_same hsame₃).of_tasks htasks₄).of_same h₅) _
    .awaitHumanReview fun task n => ⟨n, rfl⟩).bind ?_
  intro task₆ w₆ htouch₆ h₆
  obtain ⟨-, rfl, hold₆, hkept₆⟩ := h₆
  refine quiet_audit.then fun _ w₇ h₇ => ?_
  refine quiet_audit.then fun _ w₈ h₈ => ?_
  refine quiet_audit.then fun _ w₉ h₉ => ?_
  have hsame₉ := h₇.trans (h₈.trans h₉)
  have hkept₉ := h₅.reviews.trans (hkept₆.trans hsame₉.reviews)
  have hcases : w₉.cases = w.cases.insert (who.key caseId)
      ⟨o, newReviewCase x task state highest ("checkpoint-" ++ caseId) token now⟩ := by
    rw [hkept₉.cases, hcases₄, hsame₃.cases]
  have hdecisions : w₉.decisions = w.decisions :=
    hkept₉.decisions.trans (hdecisions₄.trans hsame₃.decisions)
  have hdrawn : w.drawn ≤ n ∧ n < w₉.drawn := by
    have := h₁.drawn
    have := h₃.drawn
    have := h₅.drawn
    have := htouch₆.drawn
    have := hsame₉.drawn
    omega
  refine .pure ⟨⟨⟨caseId, _, token.tokenHash, hsame₃.cases ▸ hfresh, hcases, rfl, rfl, rfl,
    rfl, ⟨n, hdrawn.1, hdrawn.2, hhash⟩, _, hold₆.of_same hsame₉, rfl, rfl, rfl⟩, hdecisions⟩, rfl⟩

/-! ## Extraction results -/

def needsReview (cfg : Config) (e : Extraction) : Bool :=
  (cfg.detect e.text e.diagnostics).any Finding.needsReview

theorem enrichFindings_needsReview (cfg : Config) (text : String) (findings : List Finding) :
    (enrichFindings cfg text findings).any Finding.needsReview =
      findings.any Finding.needsReview := by
  unfold enrichFindings
  rw [List.any_map]
  rfl

/-- What a completion that returns has done: the text was clean and is chunked, or the task waits
for a decision. -/
inductive Completed (cfg : Config) (env : Env) (who : Identity) (taskId : String)
    (e : Extraction) (w : World) (messages : List Message) (w' : World) : Prop
  | clean (hreview : needsReview cfg e = false)
      (hfinished : ∃ token, Finished who taskId token w')
      (hcases : w'.cases = w.cases) (hdecisions : w'.decisions = w.decisions)
      (hjob : ∃ x plan jobId chunks, x.taskId = taskId ∧ CutFrom cfg e.text chunks ∧
        messages = chunkingMessages x plan jobId chunks)
  | paused (hreview : needsReview cfg e = true)
      (hpaused : Paused cfg env who taskId (some e.text) w w')
      (hjob : messages.filter Message.isJob = [])

theorem detectIssues_does (hold : Holds who x.taskId task w) (hC : ∀ k, k ∉ w.cases → C k)
    (htext : state.extractedText = some e.text) :
    Does env (who.key x.taskId) C (detectIssues cfg x task state e)
      (fun messages w' => Completed cfg env who x.taskId e w messages w') who w := by
  unfold detectIssues
  dsimp only
  have hany : (enrichFindings cfg e.text (cfg.detect e.text e.diagnostics)).any
      Finding.needsReview = needsReview cfg e := enrichFindings_needsReview _ _ _
  split
  · next highest hreq hhighest =>
    refine (createReviewCase_does hold hC _ highest).mono ?_
    intro messages w' _ h
    exact .paused (hany ▸ hreq) (htext ▸ h.1) h.2
  · next hother =>
    -- Without a finding there is no highest one, so only a clean text comes here.
    have hclean : needsReview cfg e = false := by
      rw [← hany]
      cases hfindings : enrichFindings cfg e.text (cfg.detect e.text e.diagnostics) with
      | nil => rfl
      | cons f rest =>
        rw [hfindings] at hother
        cases hreq : (f :: rest).any Finding.needsReview with
        | false => rfl
        | true => exact absurd rfl (hother _ hreq)
    refine quiet_updateFile.then fun _ w₁ h₁ => ?_
    refine (transition_does (hold.of_same h₁) _ .chunkText
      fun task n => ⟨n, rfl⟩).bind ?_
    intro task₂ w₂ _ h₂
    obtain ⟨-, rfl, hold₂, hkept₂⟩ := h₂
    refine (completeChunkingFlow_does hold₂ _ _).mono ?_
    intro messages w₃ _ h₃
    obtain ⟨hfinished, hkept₃, jobId, chunks, hcut, hmessages⟩ := h₃
    have hkept := h₁.reviews.trans (hkept₂.trans hkept₃)
    refine .clean hclean ⟨_, hfinished⟩ hkept.cases hkept.decisions
      ⟨x, _, jobId, chunks, rfl, ?_, hmessages⟩
    simpa [ChunkPlan.sourceText, htext] using hcut

theorem Completed.of_before {messages : List Message}
    (h : Completed cfg env who taskId e w₁ messages w') (hkept : SameReviews w w₁)
    (hdrawn : w.drawn ≤ w₁.drawn) :
    Completed cfg env who taskId e w messages w' := by
  cases h with
  | clean hreview hfinished hcases' hdecisions' hjob =>
    exact .clean hreview hfinished (hcases'.trans hkept.cases)
      (hdecisions'.trans hkept.decisions) hjob
  | paused hreview hpaused hjob =>
    obtain ⟨⟨caseId, row, hash, hfresh, hinsert, htask, hopen, hallowed, htoken, hn, hrest⟩,
      hdec⟩ := hpaused
    obtain ⟨n, hle, hlt, hhash⟩ := hn
    exact .paused hreview ⟨⟨caseId, row, hash, hkept.cases ▸ hfresh, hkept.cases ▸ hinsert, htask,
      hopen, hallowed, htoken, ⟨n, Nat.le_trans hdrawn hle, hlt, hhash⟩, hrest⟩,
      hdec.trans hkept.decisions⟩ hjob

theorem getTask_does (taskId : String) :
    Does env t C (call (.getTask taskId))
      (fun task w' => task = w.tasks.find who.sees (who.key taskId) ∧ SameCore w w') who w :=
  .call (.refl t C w) fun _ _ h =>
    ⟨(Except.ok.inj h).symm, rfl, rfl, rfl, rfl, Nat.le_refl _⟩

theorem quiet_getFile (fileId : String) : Quiet env (call (.getFile fileId)) :=
  .call fun _ _ => .refl _

theorem holds_of_find {row : Row TaskDoc} (h : w.tasks.find who.sees (who.key taskId) = some row) :
    Holds who taskId row.doc w :=
  ⟨row, row.doc.updatedAt, h, rfl⟩

theorem handleExtractionCompletion_does (hC : ∀ k, k ∉ w.cases → C k) :
    Does env (who.key taskId) C (handleExtractionCompletion cfg fileId taskId e actor)
      (fun messages w' => ∃ row, w.tasks.find who.sees (who.key taskId) = some row ∧
        row.doc.currentNode = .loadExtractionResult ∧
        Completed cfg env who taskId e w messages w') who w := by
  refine (quiet_getFile fileId).then fun file w₁ h₁ => ?_
  refine (getTask_does taskId).bind ?_
  intro task w₂ _ h₂
  obtain ⟨htask, h₂⟩ := h₂
  split
  · next file row =>
    refine quiet_updateFile.then fun _ w₃ h₃ => ?_
    have hfind : w.tasks.find who.sees (who.key taskId) = some row := by
      rw [← h₁.tasks]
      exact htask.symm
    have hsame₃ := h₁.trans (h₂.trans h₃)
    have hold := (holds_of_find hfind).of_same hsame₃
    refine (transition_does hold _ .detectIssues fun task n => ⟨n, rfl⟩).bind ?_
    intro task₄ w₄ htouch₄ h₄
    obtain ⟨hmem, rfl, hold₄, hkept₄⟩ := h₄
    have hnode : row.doc.currentNode = .loadExtractionResult := by
      revert hmem
      cases row.doc.currentNode <;> decide
    refine quiet_audit.then fun _ w₅ h₅ => ?_
    have hkept := hsame₃.reviews.trans (hkept₄.trans h₅.reviews)
    have hdrawn : w.drawn ≤ w₅.drawn :=
      Nat.le_trans hsame₃.drawn (Nat.le_trans htouch₄.drawn h₅.drawn)
    refine (detectIssues_does (x := ⟨fileId, file, taskId, actor⟩) (hold₄.of_same h₅)
      (hkept.cases ▸ hC) rfl).mono ?_
    intro messages w₆ _ h₆
    exact ⟨row, hfind, hnode, h₆.of_before hkept hdrawn⟩
  · exact .raise _

/-! ## Review decisions -/

/-- What a decision that was carried out sends. -/
inductive Resolved (cfg : Config) (taskId text : String) (decision : ReviewAction)
    (patchMap : List Patch) (messages : List Message) : Prop
  | rejected (hdecision : decision = .deleteFile) (hjob : messages.filter Message.isJob = [])
  | sanitized (hdecision : decision = .removeProblematicText)
      (hjob : ∃ x plan jobId chunks sanitized, x.taskId = taskId ∧
        redact text patchMap = .ok sanitized ∧ CutFrom cfg sanitized chunks ∧
        messages = chunkingMessages x plan jobId chunks)
  | accepted (hdelete : decision ≠ .deleteFile) (hremove : decision ≠ .removeProblematicText)
      (hjob : ∃ x plan jobId chunks, x.taskId = taskId ∧ CutFrom cfg text chunks ∧
        messages = chunkingMessages x plan jobId chunks)

theorem quiet_removeStored (path : Option (List String)) : Quiet env (removeStored path) := by
  cases path with
  | none => exact .pure ()
  | some path => exact .call fun _ _ => ⟨rfl, rfl, rfl, rfl, Nat.le_refl _⟩

theorem applyDeleteDecision_does (hold : Holds who x.taskId task w) :
    Does env (who.key x.taskId) C (applyDeleteDecision cfg x task r state)
      (fun messages w' => Finished who x.taskId task.resumeTokenHash w' ∧ SameReviews w w' ∧
        messages.filter Message.isJob = []) who w := by
  refine (Quiet.call fun _ _ => ⟨rfl, rfl, rfl, rfl, Nat.le_refl _⟩).then fun deleted w₁ h₁ => ?_
  refine Quiet.then (fun _ _ => Ensures.read trivial) fun caller w₂ h₂ => ?_
  refine (Quiet.check _).then fun path w₃ h₃ => ?_
  refine (quiet_removeStored path).then fun _ w₄ h₄ => ?_
  refine quiet_updateFile.then fun _ w₅ h₅ => ?_
  have hsame₅ := h₁.trans (h₂.trans (h₃.trans (h₄.trans h₅)))
  refine .bind (finalizeAs_does (hold.of_same hsame₅) _ _) ?_
  intro task₆ w₆ _ h₆
  obtain ⟨-, hnode, htoken, hold₆, hkept₆⟩ := h₆
  have hended : ∀ w', SameCore w₆ w' → Finished who x.taskId task.resumeTokenHash w' ∧
      SameReviews w w' := fun w' h => ⟨⟨task₆, hold₆.of_same h, hnode, htoken⟩,
        hsame₅.reviews.trans (hkept₆.trans h.reviews)⟩
  refine quiet_audit.then fun _ w₇ h₇ => ?_
  split
  · refine quiet_audit.then fun _ w₈ h₈ => ?_
    refine quiet_audit.then fun _ w₉ h₉ => ?_
    obtain ⟨hfinished, hkept⟩ := hended w₉ (h₇.trans (h₈.trans h₉))
    exact .pure ⟨hfinished, hkept, rfl⟩
  · refine quiet_audit.then fun _ w₈ h₈ => ?_
    obtain ⟨hfinished, hkept⟩ := hended w₈ (h₇.trans h₈)
    exact .pure ⟨hfinished, hkept, rfl⟩

theorem beginChunking_flow_does (hold : Holds who x.taskId task w) (state : GraphState)
    (plan : ChunkPlan) :
    Does env (who.key x.taskId) C (do
        let task ← beginChunking x.taskId task state
        completeChunkingFlow cfg x task state plan)
      (fun messages w' => Finished who x.taskId task.resumeTokenHash w' ∧ SameReviews w w' ∧
        ∃ jobId chunks, CutFrom cfg (plan.sourceText state) chunks ∧
          messages = chunkingMessages x plan jobId chunks) who w := by
  refine (transition_does hold state .chunkText fun task n => ⟨n, rfl⟩).bind ?_
  intro task₁ w₁ _ h₁
  obtain ⟨-, rfl, hold₁, hkept₁⟩ := h₁
  refine (completeChunkingFlow_does hold₁ state plan).mono ?_
  intro messages w₂ _ h₂
  obtain ⟨hfinished, hkept₂, hjob⟩ := h₂
  exact ⟨hfinished, hkept₁.trans hkept₂, hjob⟩

theorem applyDecision_does (hold : Holds who x.taskId task w) (decision : ReviewAction)
    (patchMap : List Patch) :
    Does env (who.key x.taskId) C (applyDecision cfg x task r state decision patchMap)
      (fun messages w' => Finished who x.taskId task.resumeTokenHash w' ∧ SameReviews w w' ∧
        Resolved cfg x.taskId (state.extractedText.getD "") decision patchMap messages) who w := by
  have haccept : decision ≠ .deleteFile → decision ≠ .removeProblematicText →
      Does env (who.key x.taskId) C (applyAcceptDecision cfg x task r state)
        (fun messages w' => Finished who x.taskId task.resumeTokenHash w' ∧ SameReviews w w' ∧
          Resolved cfg x.taskId (state.extractedText.getD "") decision patchMap messages)
        who w := by
    intro hdelete hremove
    refine quiet_updateFile.then fun _ w₁ h₁ => ?_
    refine quiet_audit.then fun _ w₂ h₂ => ?_
    refine (beginChunking_flow_does (hold.of_same (h₁.trans h₂)) state _).mono ?_
    intro messages w₃ _ h₃
    obtain ⟨hfinished, hkept, jobId, chunks, hcut, hmessages⟩ := h₃
    exact ⟨hfinished, (h₁.trans h₂).reviews.trans hkept, .accepted hdelete hremove
      ⟨x, _, jobId, chunks, rfl, hcut, hmessages⟩⟩
  cases decision with
  | deleteFile =>
    refine (applyDeleteDecision_does hold).mono ?_
    intro messages w' _ h
    exact ⟨h.1, h.2.1, .rejected rfl h.2.2⟩
  | removeProblematicText =>
    refine .bind (P := fun sanitized w' =>
      redact (state.extractedText.getD "") patchMap = .ok sanitized ∧ w' = w)
      (.check fun sanitized h => ⟨h, rfl⟩) ?_
    intro sanitized w₀ _ h₀
    obtain ⟨hredact, rfl⟩ := h₀
    refine quiet_updateFile.then fun _ w₁ h₁ => ?_
    refine quiet_audit.then fun _ w₂ h₂ => ?_
    refine (beginChunking_flow_does (hold.of_same (h₁.trans h₂)) _ _).mono ?_
    intro messages w₃ _ h₃
    obtain ⟨hfinished, hkept, jobId, chunks, hcut, hmessages⟩ := h₃
    exact ⟨hfinished, (h₁.trans h₂).reviews.trans hkept, .sanitized rfl
      ⟨x, _, jobId, chunks, sanitized, rfl, hredact, hcut, hmessages⟩⟩
  | acceptAsIs | other => exact haccept (by simp) (by simp)

/-- The claim found the case open and with the token of the task. -/
structure Claimed (who : Identity) (reviewCaseId : String) (token : String) (w : World)
    (row : Row ReviewCase) : Prop where
  found : w.cases.find who.sees (who.key reviewCaseId) = some row
  isOpen : row.doc.status = .isOpen
  token : row.doc.interrupt.resumeTokenHash = some token

theorem claimReviewCase_does {token claimId : String} {claimedAt : Nat}
    (hC : C (who.key reviewCaseId)) :
    Does env t C (call (.claimReviewCase reviewCaseId textHash token claimId claimedAt))
      (fun claimed w' => (claimed = true → ∃ row, Claimed who reviewCaseId token w row ∧
        w'.cases.find who.sees (who.key reviewCaseId) =
          some { row with doc := row.doc.claim claimId claimedAt }) ∧
        w'.tasks = w.tasks ∧ w'.decisions = w.decisions) who w := by
  refine .call ?_ ?_
  · refine ⟨fun _ _ => rfl, fun k hk => Table.lookup_update_ne _ ?_, fun _ _ => rfl, rfl,
      Nat.le_refl _⟩
    intro heq
    exact hk (heq ▸ hC)
  · intro claimed n h
    refine ⟨?_, rfl, rfl⟩
    intro hclaimed
    subst hclaimed
    obtain ⟨row, hrow⟩ := Option.isSome_iff_exists.mp (Except.ok.inj h)
    obtain ⟨hlookup, hvisible⟩ := Table.find_eq_some_iff.mp hrow
    simp only [ReviewCase.claimable, Bool.and_eq_true, beq_iff_eq] at hvisible
    obtain ⟨hsees, ⟨⟨hopen, -⟩, -⟩, htoken⟩ := hvisible
    refine ⟨row, ⟨Table.find_eq_some_iff.mpr ⟨hlookup, hsees⟩, hopen, htoken⟩, ?_⟩
    exact Table.find_eq_some_iff.mpr ⟨Table.lookup_update_self hrow _, hsees⟩

theorem createReviewDecision_does {doc : Decision} (hC : C (who.key reviewCaseId)) :
    Does env t C (call (.createReviewDecision reviewCaseId owner doc))
      (fun _ w' => w.decisions.lookup (who.key reviewCaseId) = none ∧
        (∃ o, w'.decisions.lookup (who.key reviewCaseId) = some ⟨o, doc⟩) ∧
        w'.tasks = w.tasks ∧ w'.cases = w.cases) who w := by
  have heffect := w.put_insertOne who w.decisions reviewCaseId owner doc
    fun t => { w with decisions := t }
  refine .call ?_ ?_
  · show Touches t C w (w.put _ _).2
    rcases heffect with ⟨e, hout⟩ | ⟨o, hmem, hout⟩
    · rw [hout]
      exact .refl t C w
    · rw [hout]
      refine ⟨fun _ _ => rfl, fun _ _ => rfl, fun k hk => ?_, rfl, Nat.le_refl _⟩
      exact AList.lookup_insert_ne fun heq => hk (heq ▸ hC)
  · intro _ n hok
    simp only [StoreOp.effect] at hok ⊢
    rcases heffect with ⟨e, hout⟩ | ⟨o, hmem, hout⟩
    · rw [hout] at hok
      cases hok
    · rw [hout]
      exact ⟨AList.lookup_eq_none.mpr hmem, ⟨o, AList.lookup_insert _⟩, rfl, rfl⟩

theorem updateReviewCase_does {set : ReviewCase → ReviewCase} (hC : C (who.key reviewCaseId))
    (hfind : w.cases.find who.sees (who.key reviewCaseId) = some row) :
    Does env t C (call (.updateReviewCase reviewCaseId set))
      (fun _ w' => w'.cases.lookup (who.key reviewCaseId) =
        some { row with doc := set row.doc } ∧ w'.tasks = w.tasks ∧
        w'.decisions = w.decisions) who w := by
  refine .call ?_ fun _ _ _ => ⟨Table.lookup_update_self hfind _, rfl, rfl⟩
  refine ⟨fun _ _ => rfl, fun k hk => Table.lookup_update_ne _ ?_, fun _ _ => rfl, rfl,
    Nat.le_refl _⟩
  intro heq
  exact hk (heq ▸ hC)

/-- The case is resolved and the decision about it recorded, which it was not in `w`. -/
structure Decided (who : Identity) (reviewCaseId taskId : String) (decision : ReviewAction)
    (patchMap : List Patch) (row : Row ReviewCase) (w w' : World) : Prop where
  resolved : ∃ row', w'.cases.lookup (who.key reviewCaseId) = some row' ∧
    row'.doc.status = .resolved ∧ row'.doc.taskId = row.doc.taskId ∧
    row'.doc.allowedActions = row.doc.allowedActions ∧
    row'.doc.interrupt.resumeTokenHash = none
  fresh : w.decisions.lookup (who.key reviewCaseId) = none
  recorded : ∃ d, w'.decisions.lookup (who.key reviewCaseId) = some d ∧ d.doc.taskId = taskId ∧
    d.doc.decision = decision ∧ d.doc.submittedPatchMap = patchMap

theorem resolveClaimed_does {decision : ReviewAction} (hC : C (who.key r.reviewCaseId))
    (hold : Holds who x.taskId task w)
    (hfind : w.cases.find who.sees (who.key r.reviewCaseId) = some row) :
    Does env (who.key x.taskId) C (resolveClaimed cfg x task r decision textHash p)
      (fun messages w' => task.currentNode = .awaitHumanReview ∧
        Finished who x.taskId none w' ∧
        Decided who r.reviewCaseId x.taskId decision p.patchMap row w w' ∧
        Resolved cfg x.taskId (task.graphState.extractedText.getD "") decision p.patchMap
          messages) who w := by
  refine quiet_now.then fun createdAt w₁ h₁ => ?_
  refine (createReviewDecision_does hC).bind ?_
  intro _ w₂ _ h₂
  obtain ⟨hfresh, ⟨o, hrecorded⟩, htasks₂, hcases₂⟩ := h₂
  refine quiet_now.then fun resolvedAt w₃ h₃ => ?_
  have hfind₃ : w₃.cases.find who.sees (who.key r.reviewCaseId) = some row := by
    rw [h₃.cases, hcases₂, h₁.cases]
    exact hfind
  refine (updateReviewCase_does hC hfind₃).bind ?_
  intro _ w₄ _ h₄
  obtain ⟨hresolved, htasks₄, hdecisions₄⟩ := h₄
  have hold₄ : Holds who x.taskId task w₄ :=
    (((hold.of_same h₁).of_tasks htasks₂).of_same h₃).of_tasks htasks₄
  refine (transition_does hold₄ _ .applyDecision fun task n => ⟨n, rfl⟩).bind ?_
  intro task₅ w₅ _ h₅
  obtain ⟨hmem, rfl, hold₅, hkept₅⟩ := h₅
  have hnode : task.currentNode = .awaitHumanReview := by
    revert hmem
    cases task.currentNode <;> decide
  refine quiet_audit.then fun _ w₆ h₆ => ?_
  refine quiet_audit.then fun _ w₇ h₇ => ?_
  refine (applyDecision_does (hold₅.of_same (h₆.trans h₇)) decision p.patchMap).mono ?_
  intro messages w₈ _ h₈
  obtain ⟨hfinished, hkept₈, hmessages⟩ := h₈
  have hkept := hkept₅.trans ((h₆.trans h₇).reviews.trans hkept₈)
  have hdecisions : w₈.decisions = w₂.decisions :=
    hkept.decisions.trans (hdecisions₄.trans h₃.decisions)
  rw [← hkept.cases] at hresolved
  rw [← hdecisions] at hrecorded
  rw [h₁.decisions] at hfresh
  exact ⟨hnode, hfinished, ⟨⟨_, hresolved, rfl, rfl, rfl, rfl⟩, hfresh,
    ⟨_, hrecorded, rfl, rfl, rfl⟩⟩, hmessages⟩

/-- What a decision that returns has done. -/
structure DecisionDone (cfg : Config) (who : Identity) (taskId reviewCaseId : String)
    (p : DecisionPayload) (w : World) (messages : List Message) (w' : World) : Prop where
  done : ∃ (task : Row TaskDoc) (row : Row ReviewCase) (decision : ReviewAction),
    w.tasks.find who.sees (who.key taskId) = some task ∧
    task.doc.currentNode = .awaitHumanReview ∧
    Claimed who reviewCaseId (task.doc.resumeTokenHash.getD "") w row ∧
    task.doc.resumeTokenHash.getD "" ≠ "" ∧ decision ∈ row.doc.allowedActions ∧
    Decided who reviewCaseId taskId decision p.patchMap row w w' ∧
    Resolved cfg taskId (task.doc.graphState.extractedText.getD "") decision p.patchMap messages
  finished : Finished who taskId none w'

theorem validateReviewDecision_ok {now : Nat} {c : ReviewCase}
    {out : ReviewAction × String} (h : validateReviewDecision now c task p = .ok out) :
    task.resumeTokenHash.getD "" ≠ "" ∧ out.1 ∈ c.allowedActions := by
  obtain ⟨-, h⟩ := ok_of_ite h
  obtain ⟨-, h⟩ := ok_of_ite h
  obtain ⟨-, h⟩ := ok_of_ite h
  obtain ⟨-, h⟩ := ok_of_ite h
  obtain ⟨htoken, h⟩ := ok_of_ite h
  refine ⟨htoken, ?_⟩
  cases hdecision : p.decision with
  | none =>
    rw [hdecision] at h
    cases h
  | some decision =>
    rw [hdecision] at h
    obtain ⟨hmem, h⟩ := ok_of_ite h
    obtain ⟨-, h⟩ := ok_of_ite h
    obtain ⟨-, h⟩ := ok_of_ite h
    cases h
    exact not_not.mp hmem

theorem handleReviewDecision_does (hC : C (who.key reviewCaseId)) :
    Does env (who.key taskId) C (handleReviewDecision cfg fileId taskId reviewCaseId p actor)
      (fun messages w' => DecisionDone cfg who taskId reviewCaseId p w messages w') who w := by
  refine (quiet_getFile fileId).then fun file w₁ h₁ => ?_
  refine (getTask_does taskId).bind ?_
  intro task w₂ _ h₂
  obtain ⟨htask, h₂⟩ := h₂
  refine .bind (P := fun case w' => case = w₂.cases.find who.sees (who.key reviewCaseId) ∧
    SameCore w₂ w') (.call (.refl _ _ _) fun _ _ h =>
      ⟨(Except.ok.inj h).symm, rfl, rfl, rfl, rfl, Nat.le_refl _⟩) ?_
  intro case w₃ _ h₃
  obtain ⟨hcase, h₃⟩ := h₃
  split
  · next file task case =>
    have hfind : w.tasks.find who.sees (who.key taskId) = some task := by
      rw [← h₁.tasks]
      exact htask.symm
    refine quiet_now.then fun now w₄ h₄ => ?_
    refine .bind (P := fun out w' => (task.doc.resumeTokenHash.getD "" ≠ "" ∧
      out.1 ∈ case.doc.allowedActions) ∧ w' = w₄)
      (.check fun _ h => ⟨validateReviewDecision_ok h, rfl⟩) ?_
    intro checked w₅ _ h₅
    obtain ⟨⟨htoken, hallowed⟩, rfl⟩ := h₅
    refine quiet_newId.then fun decisionId w₆ h₆ => ?_
    refine quiet_now.then fun claimedAt w₇ h₇ => ?_
    have hsame₇ := h₁.trans (h₂.trans (h₃.trans (h₄.trans (h₆.trans h₇))))
    have hold := (holds_of_find hfind).of_same hsame₇
    refine (claimReviewCase_does hC).bind ?_
    intro claimed w₈ _ h₈
    obtain ⟨hclaim, htasks₈, hdecisions₈⟩ := h₈
    cases claimed with
    | false => exact .raise _
    | true =>
      obtain ⟨row, hclaimed, hfind₈⟩ := hclaim rfl
      refine (resolveClaimed_does (x := ⟨fileId, file, taskId, actor⟩)
        (r := ⟨reviewCaseId, case.doc, decisionId⟩) hC (hold.of_tasks htasks₈)
        hfind₈).mono ?_
      intro messages w₉ _ h₉
      obtain ⟨hnode, hfinished, hdecided, hresolved⟩ := h₉
      have hfound := hclaimed.found
      rw [hsame₇.cases] at hfound
      have hrow : case = row := by
        rw [h₂.cases, h₁.cases, hfound] at hcase
        exact Option.some.inj hcase
      have hfresh := hdecided.fresh
      rw [hdecisions₈, hsame₇.decisions] at hfresh
      exact ⟨⟨task, row, _, hfind, hnode, ⟨hfound, hclaimed.isOpen, hclaimed.token⟩, htoken,
        hrow ▸ hallowed, ⟨hdecided.resolved, hfresh, hdecided.recorded⟩, hresolved⟩, hfinished⟩
  · exact .raise _

end Specs

end RagForge.Files
