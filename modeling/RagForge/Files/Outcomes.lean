import RagForge.Effect.Outcome
import RagForge.Files.Service

/-
When the parts of a decision return.

`Runs n c` says of a piece of code that it returns if and only if none of its `n` store calls fails
and the check `c` holds.  The checks are stated over the request and over what the code finds in the
store, so that together they say beforehand how a decision will go.
-/

namespace RagForge.Files

open Effect Store Py

/-! ## When store calls succeed -/

/-- The code returns if and only if its `n` store calls do not fail and `c` holds. -/
abbrev Runs {α : Type} (env : Env) (n : Nat) (c : Prop) (p : FilesM α) (P : α → World → Prop)
    (who : Identity) (w : World) : Prop :=
  Settles (handler env).logic World.tick (fun k => env.fault k = none) n c p
    (fun a who' w' => who' = who ∧ P a w') who w

variable {α : Type} {env : Env} {who : Identity} {w : World} {op : StoreOp}

section Rules

variable {β : Type} {m n : Nat} {c d : Prop} {P : α → World → Prop} {Q : β → World → Prop}
  {f : α → FilesM β} {p : FilesM α} {a : α}

theorem Runs.bind (hp : Runs env m c p P who w)
    (hf : ∀ a w', P a w' → Runs env n d (f a) Q who w') :
    Runs env (m + n) (c ∧ d) (p >>= f) Q who w := by
  refine Settles.bind hp ?_
  intro a who' w' h
  obtain ⟨rfl, hP⟩ := h
  exact hf a w' hP

theorem Runs.pure (h : P a w) : Runs env 0 True (pure a) P who w := Settles.pure ⟨rfl, h⟩

theorem Runs.check {x : Except Err α} (h : ∀ a, x = .ok a → P a w) :
    Runs env 0 (x.toBool = true) (check x) P who w :=
  .ofExcept fun a ha => ⟨rfl, h a ha⟩

theorem Runs.read_bind {f : Identity → FilesM β} (hf : Runs env n d (f who) Q who w) :
    Runs env n d (Proc.read (S := sig) >>= f) Q who w := ⟨hf.wp⟩

theorem Runs.check_error {e : Err} : Runs env n False (Files.check (.error e) >>= f) Q who w :=
  .raise (S := sig) e

theorem Runs.check_ok (hf : Runs env n d (f a) Q who w) :
    Runs env n d (Files.check (.ok a) >>= f) Q who w := hf

theorem Runs.congr (h : Runs env m c p P who w) (hn : m = n) (hc : c ↔ d) :
    Runs env n d p P who w :=
  hn ▸ Settles.mono h hc fun _ _ _ hP => hP

section Call

variable {P : op.Reply → World → Prop} (h : ∀ a k, (op.effect env who w).1 = .ok a →
  P a { (op.effect env who w).2 with tick := k })

include h

theorem Runs.of_call (hn : (if op.isStore then w.tick + 1 else w.tick) = w.tick + n)
    (hc : (op.isStore = true → env.fault w.tick = none) ∧ (op.effect env who w).1.toBool = true ↔
      Clear (fun k => env.fault k = none) w.tick n ∧ c) : Runs env n c (call op) P who w := by
  refine ⟨⟨(handler_toBool env ⟨who, op⟩ w).trans hc, ?_⟩⟩
  intro a ha
  obtain ⟨hreply, k, hstate⟩ := handler_ok (c := ⟨who, op⟩) ha
  refine ⟨(handler_tick env ⟨who, op⟩ w).trans hn, rfl, ?_⟩
  rw [hstate]
  exact h a k hreply

theorem Runs.call (hstore : op.isStore = true) :
    Runs env 1 ((op.effect env who w).1.toBool = true) (call op) P who w := by
  refine .of_call h (if_pos hstore) ?_
  rw [clear_one]
  exact ⟨fun hok => ⟨hok.1 hstore, hok.2⟩, fun hok => ⟨fun _ => hok.1, hok.2⟩⟩

theorem Runs.call_free (hstore : op.isStore = false)
    (hok : (op.effect env who w).1.toBool = true) :
    Runs env 0 True (RagForge.Files.call op) P who w := by
  have hfree : ¬ op.isStore = true := by rw [hstore]; simp
  refine .of_call h (if_neg hfree) ?_
  exact iff_of_true ⟨fun h => absurd h hfree, hok⟩ ⟨Clear.zero _ _, trivial⟩

end Call

end Rules

/-! ## Step by step -/

structure SameDocuments (w w' : World) : Prop where
  files : w'.files = w.files
  tasks : w'.tasks = w.tasks
  cases : w'.cases = w.cases
  decisions : w'.decisions = w.decisions
  chunks : w'.chunks = w.chunks

@[simp] theorem SameDocuments.refl (w : World) : SameDocuments w w := ⟨rfl, rfl, rfl, rfl, rfl⟩

variable {w' : World}

@[simp] theorem sameDocuments_tock : SameDocuments w w'.tock ↔ SameDocuments w w' :=
  ⟨fun ⟨hf, ht, hc, hd, hk⟩ => ⟨hf, ht, hc, hd, hk⟩,
    fun ⟨hf, ht, hc, hd, hk⟩ => ⟨hf, ht, hc, hd, hk⟩⟩

variable {x : Target}

section Steps

variable {Q : Except Err α → Identity → World → Prop} {f : op.Reply → FilesM α} {a : op.Reply}

theorem wp_call_of {r : Except Err op.Reply} (hrun : handler env ⟨who, op⟩ w = (r, w'))
    (hok : ∀ a, r = .ok a → (f a).wp (handler env).logic Q who w')
    (hfail : ∀ e, r = .error e → Q (.error e) who w') :
    (call op >>= f).wp (handler env).logic Q who w := by
  refine (Proc.wp_bind (call op) f).mpr (Proc.wp_mono
    (P := fun r₁ who₁ w₁ => (r₁, w₁) = handler env ⟨who, op⟩ w ∧ who₁ = who) ⟨rfl, rfl⟩ ?_)
  intro r₁ who₁ w₁ h₁
  obtain ⟨hsame, rfl⟩ := h₁
  obtain ⟨rfl, rfl⟩ := Prod.mk.inj (hsame.trans hrun)
  cases r₁ with
  | ok a => exact hok a rfl
  | error e => exact hfail e rfl

/-- The three ways a store call can go. -/
theorem wp_call_bind (hstore : op.isStore = true)
    (hok : ∀ a, env.fault w.tick = none → (op.effect env who w).1 = .ok a →
      (f a).wp (handler env).logic Q who (op.effect env who w).2.tock)
    (hrefused : ∀ e e', (op.effect env who w).1 = .error e →
      Q (.error e') who (op.effect env who w).2.tock)
    (hfault : ∀ fault e, env.fault w.tick = some fault →
      Q (.error e) who (if fault.applied then (op.effect env who w).2 else w).tock) :
    (call op >>= f).wp (handler env).logic Q who w := by
  have hrun : handler env ⟨who, op⟩ w = _ := if_pos hstore
  cases hf : env.fault w.tick with
  | some fault =>
    rw [hf] at hrun
    exact wp_call_of hrun nofun fun e _ => hfault fault e hf
  | none =>
    rw [hf] at hrun
    cases hout : (op.effect env who w).1 with
    | error e =>
      rw [hout] at hrun
      exact wp_call_of hrun nofun fun e' _ => hrefused e e' hout
    | ok a =>
      rw [hout] at hrun
      exact wp_call_of hrun (fun b hb => Except.ok.inj hb ▸ hok a hf hout) nofun

theorem wp_read_bind (hstore : op.isStore = true) (heffect : op.effect env who w = (.ok a, w))
    (hok : env.fault w.tick = none → (f a).wp (handler env).logic Q who w.tock)
    (hfail : ∀ e, env.fault w.tick ≠ none → Q (.error e) who w.tock) :
    (call op >>= f).wp (handler env).logic Q who w := by
  refine wp_call_bind hstore ?_ ?_ ?_
  · intro b hnone hb
    rw [heffect] at hb ⊢
    cases hb
    exact hok hnone
  · intro e e' he
    rw [heffect] at he
    exact nomatch he
  · intro fault e hfault
    rw [heffect, ite_self]
    exact hfail e (by rw [hfault]; simp)

theorem wp_draw_bind (hstore : op.isStore = false)
    (heffect : op.effect env who w = (.ok a, w')) (h : (f a).wp (handler env).logic Q who w') :
    (call op >>= f).wp (handler env).logic Q who w := by
  have hrun : handler env ⟨who, op⟩ w = (.ok a, w') := by
    unfold handler
    rw [hstore, heffect]
    rfl
  exact wp_call_of hrun (fun b hb => Except.ok.inj hb ▸ h) nofun

theorem wp_failureEvent {reviewCaseId : Option String} {err : Err}
    (h : ∀ w', SameDocuments w w' → Q (.error err) who w') :
    (do
      writeIngestionFailureEvent x reviewCaseId err
      raise err : FilesM α).wp (handler env).logic Q who w := by
  have hevent : (writeIngestionFailureEvent x reviewCaseId err).wp (handler env).logic
      (fun r who' w' => r = .ok () ∧ who' = who ∧ SameDocuments w w') who w := by
    refine (Proc.wp_handle _ _).mpr ?_
    have haudit : (writeAuditEvent x .graphFailed "The file ingestion workflow failed."
        (.obj [("error", .str err.text), ("error_type", .str err.typeName)]) ⟨reviewCaseId, none⟩
        none none).wp (handler env).logic (fun _ who' w' => who' = who ∧ SameDocuments w w') who
        w := by
      refine ⟨rfl, ?_⟩
      obtain ⟨n, hkept | htook⟩ := handler_state env ⟨who, .insertAuditEvent _ _⟩ w
      · rw [hkept]
        exact ⟨rfl, rfl, rfl, rfl, rfl⟩
      · rw [htook]
        simp only [StoreOp.effect]
        split <;> exact ⟨rfl, rfl, rfl, rfl, rfl⟩
    refine Proc.wp_mono haudit ?_
    intro r who' w' hr
    cases r with
    | error | ok => exact ⟨rfl, hr⟩
  refine (Proc.wp_bind _ _).mpr (Proc.wp_mono hevent ?_)
  intro r who' w' hr
  obtain ⟨rfl, rfl, hsame⟩ := hr
  exact h w' hsame

end Steps

/-! ## The parts of a decision -/

section Parts

variable {cfg : Config} {task : TaskDoc}

abbrev SameChunks {α : Type} (w : World) (_ : α) (w' : World) : Prop := w'.chunks = w.chunks

theorem runs_now : Runs env 0 True (call .now) (SameChunks w) who w :=
  .call_free (fun _ _ _ => rfl) rfl rfl

theorem runs_newId : Runs env 0 True (call .newId) (SameChunks w) who w :=
  .call_free (fun _ _ _ => rfl) rfl rfl

theorem runs_updateFile (fileId : String) (set : FileDoc → FileDoc) :
    Runs env 1 True (call (.updateFile fileId set)) (SameChunks w) who w :=
  (Runs.call (fun _ _ _ => rfl) rfl).congr rfl (iff_of_true rfl trivial)

theorem runs_updateReviewCase (id : String) (set : ReviewCase → ReviewCase) :
    Runs env 1 True (call (.updateReviewCase id set)) (SameChunks w) who w :=
  (Runs.call (fun _ _ _ => rfl) rfl).congr rfl (iff_of_true rfl trivial)

def OwnerFits (who : Identity) (owner : Ownership) : Prop :=
  (scopeDocument who owner).toBool = true

theorem runs_audit (x : Target) (eventType : AuditType) (reason : String) (details : Json)
    (ref : ReviewRef) (a b : Option FileStatus) :
    Runs env 1 (OwnerFits who x.file.owner) (writeAuditEvent x eventType reason details ref a b)
      (SameChunks w) who w := by
  unfold OwnerFits
  refine (Runs.call ?_ rfl).congr rfl ?_
  · intro _ k _
    simp only [StoreOp.effect]
    split <;> rfl
  · simp only [StoreOp.effect]
    cases scopeDocument who x.file.owner <;> rfl

theorem runs_transition (taskId : String) (task : TaskDoc) (state : GraphState)
    (target : IngestionState) (updates : TaskDoc → TaskDoc) :
    Runs env 1 (target ∈ task.currentNode.allowed)
      (transition taskId task state target updates)
      (fun task' w' => task'.currentNode = target ∧ w'.chunks = w.chunks) who w := by
  have hcheck : (transitionIngestionState task.currentNode target).toBool = true ↔
      target ∈ task.currentNode.allowed := by
    unfold transitionIngestionState
    by_cases hmem : target ∈ task.currentNode.allowed
    · rw [if_pos hmem]
      exact iff_of_true rfl hmem
    · rw [if_neg hmem]
      exact iff_of_false (by simp [Except.toBool]) hmem
  refine (Runs.bind (P := fun next w' => next = target ∧ w' = w) (n := 1)
    (.check ?_) ?_).congr rfl (by rw [hcheck, and_true])
  · intro next hnext
    unfold transitionIngestionState at hnext
    split at hnext
    · exact ⟨(Except.ok.inj hnext).symm, rfl⟩
    · cases hnext
  · intro next w' hnext
    obtain ⟨rfl, rfl⟩ := hnext
    refine ((Runs.call (fun _ _ _ => rfl) rfl).bind fun _ w₂ h₂ =>
      .pure ⟨rfl, h₂⟩).congr rfl ?_
    exact iff_of_true ⟨rfl, trivial⟩ trivial

theorem runs_finalizeAs (status : TaskStatus) (taskId : String) (task : TaskDoc)
    (state : GraphState) :
    Runs env 1 (.finalize ∈ task.currentNode.allowed) (finalizeAs status taskId task state)
      (SameChunks w) who w := by
  refine (runs_now.bind fun now w₁ h₁ =>
    (runs_transition taskId task state .finalize _).mono Iff.rfl ?_).congr rfl
      (by rw [true_and])
  intro task' who' w₂ h₂
  exact ⟨h₂.1, h₂.2.2.trans h₁⟩

/-! ## Chunking -/

def flowChunks (cfg : Config) (who : Identity) (t : Collection Chunk) (x : Target)
    (plan : ChunkPlan) (text : String) : Except Err (List Chunk) :=
  buildChunkDocuments cfg x plan text (nextChunkVersion who t x.document)

def ChunksFit (who : Identity) (owner : Ownership) (chunks : List Chunk) (t : Collection Chunk) :
    Prop :=
  chunks = [] ∨ ∃ o, scopeDocument who owner = .ok o ∧ (insertChunks who o chunks t).1.toBool = true

def FlowFits (cfg : Config) (who : Identity) (t : Collection Chunk) (x : Target)
    (plan : ChunkPlan) (text : String) : Prop :=
  ∃ chunks, flowChunks cfg who t x plan text = .ok chunks ∧ ChunksFit who x.file.owner chunks t

def flowCalls (cfg : Config) (who : Identity) (t : Collection Chunk) (x : Target)
    (plan : ChunkPlan) (text : String) : Nat :=
  match flowChunks cfg who t x plan text with
  | .ok (_ :: _) => 8
  | _ => 7

theorem runs_createChunks (owner : Ownership) (chunks : List Chunk) :
    Runs env (if chunks = [] then 0 else 1) (ChunksFit who owner chunks w.chunks)
      (createChunks owner chunks) (fun _ _ => True) who w := by
  unfold createChunks ChunksFit
  by_cases hnil : chunks = []
  · rw [if_pos hnil, if_pos hnil]
    exact (Runs.pure trivial).congr rfl (iff_of_true trivial (.inl hnil))
  · rw [if_neg hnil, if_neg hnil]
    refine .read_bind ?_
    cases hscope : scopeDocument who owner with
    | error e =>
      refine Runs.check_error.congr rfl (iff_of_false id ?_)
      simp [hnil]
    | ok o =>
      refine ((Runs.call (fun _ _ _ => trivial) rfl).congr rfl ?_).check_ok
      simp only [StoreOp.effect, hnil, false_or, Except.ok.injEq, exists_eq_left']
      cases (insertChunks who o chunks w.chunks).1 <;> rfl

theorem runs_completeChunkingFlow (state : GraphState) (plan : ChunkPlan)
    (hnode : task.currentNode = .chunkText) :
    Runs env (flowCalls cfg who w.chunks x plan (plan.sourceText state))
      (OwnerFits who x.file.owner ∧ FlowFits cfg who w.chunks x plan (plan.sourceText state))
      (completeChunkingFlow cfg x task state plan) (fun _ _ => True) who w := by
  have hversion : Runs env 1 True (call (.getNextChunkVersion x.document))
      (fun version w' => version = nextChunkVersion who w.chunks x.document ∧
        w'.chunks = w.chunks) who w :=
    (Runs.call (fun _ _ h => ⟨(Except.ok.inj h).symm, rfl⟩) rfl).congr rfl
      (iff_of_true rfl trivial)
  cases hbuild : flowChunks cfg who w.chunks x plan (plan.sourceText state) with
  | error e =>
    refine (Runs.bind (n := 6) (d := False) hversion ?_).congr ?_ ?_
    · intro version w₁ h₁
      obtain ⟨rfl, -⟩ := h₁
      unfold flowChunks at hbuild
      rw [hbuild]
      exact .check_error
    · unfold flowCalls
      rw [hbuild]
    · simp [FlowFits, hbuild]
  | ok chunks =>
    refine (Runs.bind (n := (if chunks = [] then 0 else 1) + 6)
      (d := OwnerFits who x.file.owner ∧ ChunksFit who x.file.owner chunks w.chunks)
      hversion ?_).congr ?_ ?_
    · intro version w₁ h₁
      obtain ⟨rfl, hchunks⟩ := h₁
      unfold flowChunks at hbuild
      rw [hbuild, ← hchunks]
      refine .check_ok ?_
      refine ((runs_createChunks _ _).bind fun created w₂ _ =>
        .bind runs_newId fun jobId w₃ _ =>
        .bind (runs_updateFile _ _) fun _ w₄ _ =>
        .bind (runs_transition _ _ _ .requestEmbeddings _) fun task₅ w₅ h₅ =>
        .bind ((runs_finalizeAs .completed _ task₅ _).congr rfl
          (iff_of_true (by rw [h₅.1]; decide) trivial)) fun _ w₆ _ =>
        .bind (runs_audit _ _ _ _ _ _ _) fun _ w₇ _ =>
        .bind (runs_audit _ _ _ _ _ _ _) fun _ w₈ _ =>
        .bind (runs_audit _ _ _ _ _ _ _) fun _ w₉ _ => .pure trivial).congr rfl ?_
      have hallowed : IngestionState.requestEmbeddings ∈ task.currentNode.allowed := by
        rw [hnode]
        decide
      constructor
      · intro h
        exact ⟨h.2.2.2.2.2.1, h.1⟩
      · intro h
        exact ⟨h.2, trivial, trivial, hallowed, trivial, h.1, h.1, h.1, trivial⟩
    · unfold flowCalls
      rw [hbuild]
      cases chunks <;> rfl
    · simp [FlowFits, hbuild]

/-! ## The three branches -/

def redactionPlan (r : Review) : ChunkPlan :=
  ⟨.sanitized, .sanitized, issueCategories r.case, true, r.ref⟩

def acceptPlan (r : Review) : ChunkPlan :=
  ⟨.original, .acceptedWithRisk, issueCategories r.case, false, r.ref⟩

def cleansUp (who : Identity) (t : Collection Chunk) (x : Target) : Bool :=
  decide (0 < (t.select fun k r =>
    k.tenantId == who.tenantId && chunksOfFile who x.fileId r).length) ||
    x.file.doc.stage.get? "chunking" == some "done"

def BranchFits (cfg : Config) (who : Identity) (t : Collection Chunk) (x : Target)
    (r : Review) (text : String) (patchMap : List Patch) : ReviewAction → Prop
  | .deleteFile => (storedPath cfg who.tenantId x).toBool = true
  | .removeProblematicText => ∃ sanitized, redact text patchMap = .ok sanitized ∧
      FlowFits cfg who t x (redactionPlan r) sanitized
  | .acceptAsIs | .other _ => FlowFits cfg who t x (acceptPlan r) text

def branchCalls (cfg : Config) (who : Identity) (t : Collection Chunk) (x : Target)
    (r : Review) (text : String) (patchMap : List Patch) : ReviewAction → Nat
  | .deleteFile => if cleansUp who t x then 6 else 5
  | .removeProblematicText =>
    match redact text patchMap with
    | .ok sanitized => 3 + flowCalls cfg who t x (redactionPlan r) sanitized
    | .error _ => 0
  | .acceptAsIs | .other _ => 3 + flowCalls cfg who t x (acceptPlan r) text

theorem runs_removeStored (path : Option (List String)) :
    Runs env 0 True (removeStored path) (SameChunks w) who w := by
  cases path with
  | none => exact .pure rfl
  | some path => exact .call_free (fun _ _ _ => rfl) rfl rfl

theorem runs_applyDeleteDecision (r : Review) (state : GraphState)
    (hnode : task.currentNode = .applyDecision) :
    Runs env (if cleansUp who w.chunks x then 6 else 5)
      (OwnerFits who x.file.owner ∧ (storedPath cfg who.tenantId x).toBool = true)
      (applyDeleteDecision cfg x task r state) (fun _ _ => True) who w := by
  have hfinal : IngestionState.finalize ∈ task.currentNode.allowed := by
    rw [hnode]
    decide
  have hdelete : Runs env 1 True (call (.deleteChunksForFile x.fileId))
      (fun deleted _ => deleted = (w.chunks.select fun k r =>
        k.tenantId == who.tenantId && chunksOfFile who x.fileId r).length) who w :=
    (Runs.call (by
      intro deleted k h
      exact (Except.ok.inj h).symm) rfl).congr rfl (iff_of_true rfl trivial)
  refine (Runs.bind (n := if cleansUp who w.chunks x then 5 else 4)
    (d := OwnerFits who x.file.owner ∧ (storedPath cfg who.tenantId x).toBool = true) hdelete
    ?_).congr ?_ (by rw [true_and])
  · intro deleted w₁ hdeleted
    subst hdeleted
    refine ((Runs.bind
      (d := OwnerFits who x.file.owner)
      (.check fun _ _ => rfl) ?_).congr (Nat.zero_add _) and_comm).read_bind
    intro path w₂ _
    cases hclean : cleansUp who w.chunks x with
    | true =>
      unfold cleansUp at hclean
      rw [hclean]
      refine ((runs_removeStored path).bind fun _ w₃ _ =>
        .bind (runs_updateFile _ _) fun _ w₄ _ =>
        .bind (runs_finalizeAs .rejected _ _ _) fun _ w₅ _ =>
        .bind (runs_audit _ _ _ _ _ _ _) fun _ w₆ _ =>
        .bind (runs_audit _ _ _ _ _ _ _) fun _ w₇ _ =>
        .bind (runs_audit _ _ _ _ _ _ _) fun _ w₈ _ => .pure trivial).congr rfl ?_
      exact ⟨fun h => h.2.2.2.1, fun h => ⟨trivial, trivial, hfinal, h, h, h, trivial⟩⟩
    | false =>
      unfold cleansUp at hclean
      rw [hclean]
      refine ((runs_removeStored path).bind fun _ w₃ _ =>
        .bind (runs_updateFile _ _) fun _ w₄ _ =>
        .bind (runs_finalizeAs .rejected _ _ _) fun _ w₅ _ =>
        .bind (runs_audit _ _ _ _ _ _ _) fun _ w₆ _ =>
        .bind (runs_audit _ _ _ _ _ _ _) fun _ w₈ _ => .pure trivial).congr rfl ?_
      exact ⟨fun h => h.2.2.2.1, fun h => ⟨trivial, trivial, hfinal, h, h, trivial⟩⟩
  · split <;> rfl

theorem runs_applyDecision (r : Review) (state : GraphState) (patchMap : List Patch)
    (decision : ReviewAction) (hnode : task.currentNode = .applyDecision) :
    Runs env
      (branchCalls cfg who w.chunks x r (state.extractedText.getD "") patchMap decision)
      (OwnerFits who x.file.owner ∧
        BranchFits cfg who w.chunks x r (state.extractedText.getD "") patchMap decision)
      (applyDecision cfg x task r state decision patchMap) (fun _ _ => True) who w := by
  have hchunk : IngestionState.chunkText ∈ task.currentNode.allowed := by
    rw [hnode]
    decide
  -- Redaction and acceptance write the file and an event and then cut the text.
  have hflow : ∀ (set : FileDoc → FileDoc) (eventType : AuditType) (reason : String)
      (details : Json) (plan : ChunkPlan) (state : GraphState),
      Runs env (3 + flowCalls cfg who w.chunks x plan (plan.sourceText state))
        (OwnerFits who x.file.owner ∧ FlowFits cfg who w.chunks x plan (plan.sourceText state))
        (do
          let _ ← call (.updateFile x.fileId set)
          writeAuditEvent x eventType reason details r.ref (some .awaitingReview)
            (some .processing)
          let task ← beginChunking x.taskId task state
          completeChunkingFlow cfg x task state plan) (fun _ _ => True) who w := by
    intro set eventType reason details plan state
    refine (Runs.bind (runs_updateFile _ _) fun _ w₁ h₁ =>
      .bind (runs_audit _ _ _ _ _ _ _) fun _ w₂ h₂ =>
      .bind (n := flowCalls cfg who w.chunks x plan (plan.sourceText state))
        (d := OwnerFits who x.file.owner ∧ FlowFits cfg who w.chunks x plan (plan.sourceText state))
        (runs_transition _ _ _ .chunkText _) fun task₃ w₃ h₃ => ?_).congr ?_ ?_
    · have hchunks : w₃.chunks = w.chunks := h₃.2.trans (h₂.trans h₁)
      rw [← hchunks]
      exact runs_completeChunkingFlow state plan h₃.1
    · omega
    · exact ⟨fun h => ⟨h.2.1, h.2.2.2.2⟩, fun h => ⟨trivial, h.1, hchunk, h⟩⟩
  cases decision with
  | deleteFile => exact runs_applyDeleteDecision r state hnode
  | removeProblematicText =>
    show Runs env _ _ (applyRedactionDecision cfg x task r state patchMap) _ who w
    unfold applyRedactionDecision branchCalls BranchFits
    cases hredact : redact (state.extractedText.getD "") patchMap with
    | error e => exact Runs.check_error.congr rfl (by simp)
    | ok sanitized =>
      refine .check_ok ((hflow _ _ _ _ (redactionPlan r) _).congr rfl ?_)
      simp [ChunkPlan.sourceText, redactionPlan]
  | acceptAsIs | other => exact hflow _ _ _ _ (acceptPlan r) state

theorem runs_createReviewDecision (id : String) (owner : Ownership) (doc : Decision) :
    Runs env 1 (OwnerFits who owner ∧ who.key id ∉ w.decisions)
      (call (.createReviewDecision id owner doc)) (SameChunks w) who w := by
  refine (Runs.call ?_ rfl).congr rfl ?_
  · intro _ k _
    show (w.put _ _).2.chunks = w.chunks
    rcases w.put_insertOne who w.decisions id owner doc fun t => { w with decisions := t } with
      ⟨e, hout⟩ | ⟨o, -, hout⟩ <;> rw [hout]
  · show (w.put (insertOne who w.decisions id owner doc) _).1.toBool = true ↔ _
    unfold OwnerFits insertOne
    cases scopeDocument who owner with
    | error e => simp [World.put, Except.toBool]
    | ok o =>
      dsimp only [insertRow]
      by_cases hmem : who.key id ∈ w.decisions <;> simp [World.put, Except.toBool, hmem]

theorem runs_resolveClaimed {r : Review} (decision : ReviewAction) (textHash : String)
    (p : DecisionPayload) :
    Runs env (5 + branchCalls cfg who w.chunks x r (task.graphState.extractedText.getD "")
        p.patchMap decision)
      (who.key r.reviewCaseId ∉ w.decisions ∧ OwnerFits who x.file.owner ∧
        task.currentNode = .awaitHumanReview ∧
        BranchFits cfg who w.chunks x r (task.graphState.extractedText.getD "") p.patchMap decision)
      (resolveClaimed cfg x task r decision textHash p) (fun _ _ => True) who w := by
  have hnode : IngestionState.applyDecision ∈ task.currentNode.allowed ↔
      task.currentNode = .awaitHumanReview := by
    cases task.currentNode <;> decide
  have hnow : Runs env 0 True (call .now)
      (fun _ w' => w'.chunks = w.chunks ∧ w'.decisions = w.decisions) who w :=
    .call_free (fun _ _ _ => ⟨rfl, rfl⟩) rfl rfl
  refine (Runs.bind hnow fun createdAt w₁ h₁ =>
    .bind
      (h₁.2 ▸ runs_createReviewDecision _ _ _) fun _ w₂ h₂ =>
    .bind runs_now fun resolvedAt w₃ h₃ =>
    .bind (runs_updateReviewCase _ _) fun _ w₄ h₄ =>
    .bind (runs_transition _ _ _ .applyDecision _) fun task₅ w₅ h₅ =>
    .bind (runs_audit _ _ _ _ _ _ _) fun _ w₆ h₆ =>
    .bind (n := branchCalls cfg who w.chunks x r (task.graphState.extractedText.getD "")
        p.patchMap decision)
      (d := OwnerFits who x.file.owner ∧ BranchFits cfg who w.chunks x r
        (task.graphState.extractedText.getD "") p.patchMap decision)
      (runs_audit _ _ _ _ _ _ _) fun _ w₇ h₇ => ?_).congr ?_ ?_
  · have hchunks : w₇.chunks = w.chunks := by
      rw [h₇, h₆, h₅.2, h₄, h₃, h₂, h₁.1]
    have happly : Runs env _ _ (applyDecision cfg x task₅ r _ decision p.patchMap) _ who w₇ :=
      runs_applyDecision r { task.graphState with
        context := task.graphState.context.merge p.context
        reviewDecision := some decision
        reviewCaseId := some r.reviewCaseId } p.patchMap decision h₅.1
    rw [hchunks] at happly
    exact happly
  · omega
  · rw [hnode]
    constructor
    · intro h
      exact ⟨h.2.1.2, h.2.1.1, h.2.2.2.2.1, h.2.2.2.2.2.2.2.2⟩
    · intro h
      exact ⟨trivial, ⟨h.2.1, h.1⟩, trivial, trivial, h.2.2.1, h.2.1, h.2.1, h.2.1, h.2.2.2⟩

end Parts

end RagForge.Files
