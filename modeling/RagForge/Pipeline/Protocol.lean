import RagForge.Pipeline.System

/-
What the programs of the pipeline may do.

`protocol` watches one program: which record it took, whether its chunks were stored or its deletion
was carried out, and which files it has read.  It says when a program may publish an upsert or a
job, store chunks, report a stage or complete a file.  Every program of the system follows it
whatever the replies are, so the results about the pipeline are proved about the protocol alone.
-/

namespace RagForge.Pipeline

open Py Files RagForge.Embedding RagForge.Vector Effect
open Messaging

/-! ## The protocol -/

def VectorDone (f : FileDoc) : Prop := f.stage.get? "vector" = some "done"

/-- An update that neither completes the file nor its vector stage. -/
def Modest (set : FileDoc → FileDoc) : Prop :=
  ∀ f, (VectorDone (set f) → VectorDone f) ∧ ((set f).status = .complete → f.status = .complete)

/-- What one program has done so far. -/
structure View where
  took : Option Record
  stored : Bool
  deleted : Bool
  failed : Bool
  read : List (DocKey × FileDoc)

namespace View

def initial : View := ⟨none, false, false, false, []⟩

def fileOf (u : Upsert) : String := (u.chunks.head?.map fun c => c.fileId).getD ""

def allowFiles (v : View) : Files.Call → Prop
  | ⟨_, .createFile _ _ doc⟩ => ¬ VectorDone doc ∧ doc.status ≠ .complete
  | ⟨who, .updateFile id set⟩ =>
    Modest set ∨ (∃ doc, (who.key id, doc) ∈ v.read ∧ VectorDone doc) ∧
      ∀ f, VectorDone (set f) → VectorDone f
  | ⟨who, .updateStage id stageName status⟩ =>
    stageName = "vector" → status = "done" →
      v.took = some (.stage (some who) ⟨id, stageName, status⟩)
  | ⟨who, .send (.processEmbeddingJob j)⟩ => ∃ doc, (who.key j.fileId, doc) ∈ v.read
  | _ => True

def allowEmbedding (cfg : Config) (v : View) (who : Option Identity) : Embedding.Op → Prop
  | .publishUpsertRequested u => ∃ raw env, v.took = some (.job who raw) ∧
      parseAndValidateJob cfg.job raw = .ok env ∧
        u.chunks.map EmbeddedChunk.toJobChunk ∈ batches cfg.job.batchSize env.eligibleChunks
  | .sendStageUpdate s => s.stage = "embedding"
  | _ => True

def allowVector (v : View) : Vector.Call → Prop
  | ⟨who, .upsertChunks chunks⟩ => ∃ u, v.took = some (.upsert who u) ∧
      ownedChunks who u.chunks = .ok chunks
  | ⟨who, .deleteChunks filters⟩ => ∃ admin fileId documentId,
      v.took = some (.delete admin fileId documentId) ∧ who = some admin ∧
        filters = scopedFilters who (cleanupFilters fileId documentId)
  | ⟨who, .sendStageUpdate s⟩ => ∃ u, v.took = some (.upsert who u) ∧ v.stored = true ∧
      s.fileId = fileOf u
  | _ => True

def allow (cfg : Config) (v : View) : Op → Prop
  | .poll _ => v.took = none
  | .rewind .. => True
  | .verify r => v.took = some r
  | .files c => v.allowFiles c
  | .embedding who op => v.allowEmbedding cfg who op
  | .vector c => v.allowVector c

def nextFiles (v : View) : (c : Files.Call) → Files.sig.Result c → View
  | ⟨who, .getFile id⟩, .ok (some row) => { v with read := (who.key id, row.doc) :: v.read }
  | _, _ => v

def nextVector (v : View) : (c : Vector.Call) → Vector.sig.Result c → View
  | ⟨_, .upsertChunks _⟩, r => { v with stored := v.stored || r.toBool }
  | ⟨_, .deleteChunks _⟩, r =>
    { v with deleted := v.deleted || r.toBool, failed := v.failed || !r.toBool }
  | _, _ => v

def next (v : View) : (op : Op) → sig.Result op → View
  | .poll _, r => { v with took := reply r }
  | .verify _, r => { v with failed := v.failed || !(reply r : Bool) }
  | .files c, r => v.nextFiles c (reply r)
  | .vector c, r => v.nextVector c (reply r)
  | .rewind .., _ | .embedding .., _ => v

/-- A program that took a deletion ends only after it was carried out or failed. -/
def Settled (v : View) : Prop :=
  ∀ who fileId documentId, v.took = some (.delete who fileId documentId) → who.role ≠ .user →
    fileId ≠ "" → v.deleted = true ∨ v.failed = true

end View

def protocol (cfg : Config) : Monitor sig View := ⟨View.allow cfg, View.next⟩

variable {cfg : Config} {set : FileDoc → FileDoc}

abbrev Accepted (cfg : Config) (p : Prog sig Bool) (v : View) : Prop :=
  p.wp (protocol cfg).logic (fun _ v' => v'.Settled) v

theorem accepted_lift {S : Sig} {L α : Type} {ι : Inclusion S sig} {p : Proc S L α} {l : L}
    {v : View} :
    Accepted cfg (lift ι p l) v ↔
      p.wp ((protocol cfg).logic.along ι) (fun _ _ v' => v'.Settled) l v :=
  wp_lift

/-! ## Requests to the files service -/

abbrev filesLogic (cfg : Config) : Logic Files.sig View := (protocol cfg).logic.along filesOps

/-- A request keeps its identity and can only learn about more files. -/
def learning : Frame Identity View where
  rel who v who' v' := who' = who ∧ ∃ learned, v' = { v with read := learned ++ v.read }
  refl _ _ := ⟨rfl, [], rfl⟩
  trans h₁ h₂ := by
    obtain ⟨rfl, l₁, rfl⟩ := h₁
    obtain ⟨rfl, l₂, rfl⟩ := h₂
    exact ⟨rfl, l₂ ++ l₁, by rw [List.append_assoc]⟩

/-- Code that follows the protocol and ends in a view that satisfies `P`. -/
abbrev Follows (cfg : Config) {α : Type} (p : FilesM α) (P : α → View → Prop) (who : Identity)
    (v : View) : Prop :=
  Ensures (filesLogic cfg) learning p (fun a _ v' => P a v') who v

/-- Code that follows the protocol and reads no file. -/
abbrev Calm (cfg : Config) {α : Type} (v : View) (p : FilesM α) (P : α → Prop) : Prop :=
  Still (filesLogic cfg) v p P

theorem modest_of (hstage : ∀ f, (set f).stage.get? "vector" = f.stage.get? "vector")
    (hstatus : ∀ {f}, (set f).status = .complete → f.status = .complete) : Modest set := by
  intro f
  refine ⟨?_, hstatus⟩
  intro hdone
  exact (hstage f).symm.trans hdone

theorem setStage_vector (f : FileDoc) {name : String} (h : name ≠ "vector") (status : String) :
    (f.setStage name status).stage.get? "vector" = f.stage.get? "vector" :=
  f.stage.get?_set_ne h status

section Files

variable {v : View} {who : Identity} {α : Type}

variable (fcfg : Files.Config) (x : Target) (task : TaskDoc) {messages : List Message}
  {fileId : String} {p : FilesM α} {op : StoreOp} {β : Type}

theorem calm_call (hallow : ∀ who, v.allowFiles ⟨who, op⟩)
    (hnext : ∀ who r, v.nextFiles ⟨who, op⟩ r = v) : Calm cfg v (Files.call op) fun _ => True := by
  intro who
  exact ⟨⟨hallow who, fun r => ⟨⟨rfl, hnext who (reply r)⟩, fun _ _ => trivial⟩⟩⟩

theorem calm_check (x : Except Files.Err α) : Calm cfg v (Files.check x) fun a => x = .ok a :=
  .ofExcept fun _ h => h

theorem calm_updateFile (fileId : String) (h : Modest set) :
    Calm cfg v (Files.call (.updateFile fileId set)) fun _ => True :=
  calm_call (fun _ => .inl h) fun _ _ => rfl

theorem calm_plain (h : op.plain = true) : Calm cfg v (Files.call op) fun _ => True := by
  cases op with
  | send m =>
    cases m with
    | processEmbeddingJob j => cases h
    | _ => exact calm_call (fun _ => trivial) fun _ _ => rfl
  | _ => first | exact calm_call (fun _ => trivial) fun _ _ => rfl | cases h

theorem calm_createChunks (owner : Ownership) (docs : List Chunk) :
    Calm cfg v (createChunks owner docs) fun _ => True := by
  unfold createChunks
  by_cases hnil : docs = []
  · rw [if_pos hnil]
    exact .pure trivial
  · rw [if_neg hnil]
    refine Still.read.bind fun _ _ => ?_
    refine (calm_check _).bind fun _ _ => ?_
    exact calm_call (fun _ => trivial) fun _ _ => rfl

def JobsFor (fileId : String) (messages : List Message) : Prop :=
  ∀ j, .processEmbeddingJob j ∈ messages → j.fileId = fileId

section

variable (r : Review) (state : GraphState) (decision : ReviewAction) (patchMap : List Patch)

theorem calm_completeChunkingFlow (plan : ChunkPlan) :
    Calm cfg v (completeChunkingFlow fcfg x task state plan) (JobsFor x.fileId) := by
  refine (calm_plain rfl).bind fun version _ => ?_
  refine (calm_check _).bind fun chunks _ => ?_
  refine (calm_createChunks _ _).bind fun created _ => ?_
  refine (calm_plain rfl).bind fun jobId _ => ?_
  refine .bind (calm_updateFile _ (modest_of (fun f => ?_) nofun)) fun _ _ => ?_
  · rw [setStage_vector _ (by decide), setStage_vector _ (by decide),
      setStage_vector _ (by decide)]
  refine (plain_transition calm_plain).bind fun task _ => ?_
  refine (plain_finalizeAs calm_plain).bind fun _ _ => ?_
  refine (plain_audit calm_plain).bind fun _ _ => ?_
  refine (plain_audit calm_plain).bind fun _ _ => ?_
  refine (plain_audit calm_plain).bind fun _ _ => ?_
  refine .pure ?_
  intro j hj
  simp only [List.mem_cons, reduceCtorEq, Message.processEmbeddingJob.injEq, List.not_mem_nil,
    or_false, false_or] at hj
  rw [hj]

theorem calm_createReviewCase (highest : Finding) :
    Calm cfg v (createReviewCase fcfg x task state highest) (JobsFor x.fileId) := by
  refine (calm_plain rfl).bind fun caseId _ => ?_
  refine .bind (P := fun _ => True) ?_ fun token _ => ?_
  · refine (calm_plain rfl).bind fun token _ => ?_
    refine (calm_plain rfl).bind fun now _ => ?_
    exact .pure trivial
  refine (calm_plain rfl).bind fun now _ => ?_
  refine .bind (calm_call (fun _ => trivial) fun _ _ => rfl) fun _ _ => ?_
  refine .bind (calm_updateFile _ (modest_of (fun f => setStage_vector _ (by decide) _)
    nofun)) fun _ _ => ?_
  refine (plain_transition calm_plain).bind fun task _ => ?_
  refine (plain_audit calm_plain).bind fun _ _ => ?_
  refine (plain_audit calm_plain).bind fun _ _ => ?_
  refine (plain_audit calm_plain).bind fun _ _ => ?_
  refine .pure ?_
  intro j hj
  simp at hj

theorem calm_detectIssues (e : Extraction) :
    Calm cfg v (detectIssues fcfg x task state e) (JobsFor x.fileId) := by
  unfold detectIssues
  dsimp only
  split
  · exact calm_createReviewCase fcfg x task _ _
  · refine .bind (calm_updateFile _ (modest_of
      (fun f => setStage_vector _ (by decide) _) nofun)) fun _ _ => ?_
    refine (plain_transition calm_plain).bind fun task _ => ?_
    exact calm_completeChunkingFlow fcfg x task _ _

/-! ### Reading a file -/

def View.Knows (v : View) (k : DocKey) : Prop := ∃ doc, (k, doc) ∈ v.read

theorem follows_getFile (fileId : String) : Follows cfg (Files.call (.getFile fileId))
      (fun file v' => ∀ row, file = some row → (who.key fileId, row.doc) ∈ v'.read) who v := by
  refine ⟨⟨trivial, ?_⟩⟩
  intro r
  match r with
  | .error e => exact nomatch e
  | .ok (.error e) => exact ⟨learning.refl who v, fun _ h => nomatch h⟩
  | .ok (.ok none) =>
    refine ⟨learning.refl who v, ?_⟩
    intro a ha row hrow
    cases ha
    cases hrow
  | .ok (.ok (some row)) =>
    refine ⟨⟨rfl, [(who.key fileId, row.doc)], rfl⟩, ?_⟩
    intro a ha row' hrow
    cases ha
    cases hrow
    exact List.mem_cons_self

theorem Calm.follows {P : α → Prop} (h : Calm cfg v p P) :
    Follows cfg p (fun a v' => P a ∧ v' = v) who v := by
  refine ⟨Proc.wp_mono (h who).wp ?_⟩
  intro r who' v' hr
  obtain ⟨⟨rfl, rfl⟩, hP⟩ := hr
  exact ⟨learning.refl _ _, fun a ha => ⟨hP a ha, rfl⟩⟩

/-- A job is sent only for a file that the request has read. -/
theorem follows_publishMessages (hjobs : JobsFor fileId messages)
    (hknows : v.Knows (who.key fileId)) :
    Follows cfg (publishMessages messages) (fun _ _ => True) who v := by
  have hsend : ∀ m ∈ messages, Follows cfg (Files.call (.send m)) (fun _ v' => v' = v) who v := by
    intro m hm
    cases hjob : m.isJob with
    | false =>
      refine ((calm_plain (by simp [StoreOp.plain, hjob])).follows).mono ?_
      intro _ _ _ _ h
      exact h.2
    | true =>
      cases m with
      | processEmbeddingJob j =>
        have hj : j.fileId = fileId := hjobs j hm
        obtain ⟨doc, hdoc⟩ := hknows
        refine ⟨⟨⟨doc, hj ▸ hdoc⟩, fun r => ⟨learning.refl _ _, fun _ _ => rfl⟩⟩⟩
      | _ => exact absurd hjob (by simp [Message.isJob])
  have hall : ∀ rest, (∀ m ∈ rest, m ∈ messages) →
      Follows cfg (Proc.forEach rest fun m => Files.call (.send m)) (fun _ v' => v' = v) who v := by
    intro rest
    induction rest with
    | nil => exact fun _ => .pure rfl
    | cons m rest ih =>
      intro hrest
      refine (hsend m (hrest m List.mem_cons_self)).bind ?_
      intro _ who' v' hframe hv'
      obtain ⟨rfl, -⟩ := hframe
      subst hv'
      exact ih fun m' hm' => hrest m' (List.mem_cons_of_mem m hm')
  refine (hall messages fun _ h => h).bind ?_
  intro _ who' v' _ _
  by_cases hnil : messages = []
  · rw [if_pos hnil]
    exact .pure trivial
  · rw [if_neg hnil]
    have hflush : Calm cfg v' (Files.call .flush) fun _ => True :=
      calm_plain rfl
    exact hflush.follows.mono fun _ _ _ _ _ => trivial

/-- The messages of a request for a file that it has read. -/
structure Outbound (who : Identity) (fileId : String) (messages : List Message) (v : View) :
    Prop where
  jobs : JobsFor fileId messages
  knows : v.Knows (who.key fileId)

theorem follows_outbound {p : FilesM (List Message)} (hknows : v.Knows (who.key fileId))
    (hp : Calm cfg v p (JobsFor fileId)) : Follows cfg p (Outbound who fileId) who v := by
  refine hp.follows.mono ?_
  intro messages _ v' _ h
  obtain ⟨hjobs, rfl⟩ := h
  exact ⟨hjobs, hknows⟩

theorem follows_getFile_then {f : Option (Row FileDoc) → FilesM β} {Q : β → View → Prop}
    (hf : ∀ file v', learning.rel who v who v' →
      (∀ row, file = some row → (who.key fileId, row.doc) ∈ v'.read) →
        Follows cfg (f file) Q who v') :
    Follows cfg (Files.call (.getFile fileId) >>= f) Q who v := by
  refine (follows_getFile fileId).bind ?_
  intro file who' v' hframe hfile
  obtain rfl : who' = who := hframe.1
  exact hf file v' hframe hfile

/-! ### Starting and extraction results -/

theorem calm_givenOrNew (given : Option String) : Calm cfg v (givenOrNew given) fun _ => True := by
  unfold givenOrNew
  split
  · exact calm_plain rfl
  · exact .pure trivial

theorem createFileDocument_modest (documentId filename path taskId : String) (now : Nat) :
    ¬ VectorDone (createFileDocument documentId filename path taskId now) ∧
      (createFileDocument documentId filename path taskId now).status ≠ .complete := by
  refine ⟨?_, fun h => nomatch h⟩
  show ¬ Dict.get? (Dict.set (stageNames.map fun name => (name, "waiting")) "extraction" "running")
    "vector" = some "done"
  decide

theorem follows_handleStartFileIngestion (u : Upload) :
    Follows cfg (handleStartFileIngestion fcfg u) (fun _ _ => True) who v := by
  refine .read_bind ?_
  refine (calm_check _).before fun filename _ => ?_
  refine (calm_givenOrNew _).before fun fileId _ => ?_
  refine (calm_check _).before fun path _ => ?_
  refine (calm_plain rfl).before fun now _ => ?_
  refine (calm_givenOrNew _).before fun taskId _ => ?_
  refine (calm_plain rfl).before fun runId _ => ?_
  refine Still.before (calm_call (fun _ => createFileDocument_modest _ _ _ _ _)
    fun _ _ => rfl) fun _ _ => ?_
  refine (calm_plain rfl).before fun _ _ => ?_
  refine (plain_audit calm_plain).before fun _ _ => ?_
  -- The only message asks for the extraction, so it needs no file.
  refine Still.before (P := fun _ => True) ?_ fun _ _ => Ensures.pure trivial
  refine Still.bind (P := fun _ => True) ?_ fun _ _ => ?_
  · exact (calm_plain rfl).bind fun _ _ => .pure trivial
  · rw [if_neg (by simp)]
    exact calm_plain rfl

theorem follows_guarded {Q : α → View → Prop} {x : Target} {reviewCaseId : Option String}
    (hp : Follows cfg p Q who v) :
    Follows cfg (Proc.handle p fun e => do
      writeIngestionFailureEvent x reviewCaseId e
      Files.raise e) Q who v := by
  refine hp.handle ?_
  intro e who' v' _
  exact (plain_failureEvent calm_plain).before fun _ _ => .raise
    e

theorem follows_handleExtractionCompletion (fileId taskId : String)
    (e : Extraction) (actor : Actor) :
    Follows cfg (handleExtractionCompletion fcfg fileId taskId e actor) (Outbound who fileId)
      who v := by
  refine follows_getFile_then fun file v' _ hfile => ?_
  refine (calm_plain rfl).before fun task _ => ?_
  split
  · next file task =>
    have hknows : v'.Knows (who.key fileId) := ⟨_, hfile file rfl⟩
    refine Still.before (calm_updateFile _ (modest_of
      (fun f => setStage_vector _ (by decide) _) nofun)) fun _ _ => ?_
    refine (plain_transition calm_plain).before fun task _ => ?_
    refine (plain_audit calm_plain).before fun _ _ => ?_
    exact follows_outbound hknows (calm_detectIssues fcfg ⟨fileId, file, taskId, actor⟩ task _ e)
  · exact .raise _

theorem follows_publish_then {f : Unit → FilesM β} {Q : β → View → Prop}
    (hout : Outbound who fileId messages v) (hf : ∀ v', Follows cfg (f ()) Q who v') :
    Follows cfg (publishMessages messages >>= f) Q who v := by
  refine (follows_publishMessages hout.jobs hout.knows).bind ?_
  intro _ who' v' hframe _
  obtain rfl : who' = who := hframe.1
  exact hf v'

theorem follows_handleCompleteExtraction (fileId : String)
    (given : Option String) (e : Extraction) :
    Follows cfg (handleCompleteExtraction fcfg fileId given e) (fun _ _ => True) who v := by
  refine .read_bind ?_
  split
  · exact .raise _
  · refine follows_getFile_then fun file v₁ _ _ => ?_
    refine (calm_plain rfl).before fun task _ => ?_
    split
    · refine (follows_guarded
        (follows_handleExtractionCompletion fcfg fileId _ e who.actor)).bind ?_
      intro outbound who' v₂ hframe hout
      obtain rfl : who' = who := hframe.1
      refine follows_publish_then hout fun v₃ => ?_
      split
      · exact .pure trivial
      · exact follows_getFile_then fun _ _ _ _ => .pure trivial
    · exact .raise _

/-! ### Review decisions -/

theorem jobsFor_nil (fileId : String) : JobsFor fileId [] := fun _ h => nomatch h

theorem calm_applyDeleteDecision :
    Calm cfg v (applyDeleteDecision fcfg x task r state) (JobsFor x.fileId) := by
  refine (calm_plain rfl).bind fun deleted _ => ?_
  refine Still.read.bind fun _ _ => ?_
  refine (calm_check _).bind fun path _ => ?_
  refine (plain_removeStored calm_plain).bind fun _ _ => ?_
  refine .bind (calm_updateFile _ (modest_of (fun f => ?_) nofun)) fun _ _ => ?_
  · rw [setStage_vector _ (by decide), setStage_vector _ (by decide),
      setStage_vector _ (by decide)]
  refine (plain_finalizeAs calm_plain).bind fun _ _ => ?_
  refine (plain_audit calm_plain).bind fun _ _ => ?_
  split
  · refine (plain_audit calm_plain).bind fun _ _ => ?_
    refine (plain_audit calm_plain).bind fun _ _ => ?_
    refine .pure ?_
    intro j hj
    simp at hj
  · refine (plain_audit calm_plain).bind fun _ _ => ?_
    exact .pure (jobsFor_nil _)

theorem calm_applyAcceptDecision :
    Calm cfg v (applyAcceptDecision fcfg x task r state) (JobsFor x.fileId) := by
  refine .bind (calm_updateFile _ (modest_of (fun f => setStage_vector _ (by decide) _)
    nofun)) fun _ _ => ?_
  refine (plain_audit calm_plain).bind fun _ _ => ?_
  refine (plain_transition calm_plain).bind fun task _ => ?_
  exact calm_completeChunkingFlow fcfg x task state _

theorem calm_applyDecision :
    Calm cfg v (applyDecision fcfg x task r state decision patchMap) (JobsFor x.fileId) := by
  cases decision with
  | deleteFile => exact calm_applyDeleteDecision fcfg x task r state
  | removeProblematicText =>
    refine (calm_check _).bind fun sanitized _ => ?_
    refine .bind (calm_updateFile _ (modest_of
      (fun f => setStage_vector _ (by decide) _) nofun)) fun _ _ => ?_
    refine (plain_audit calm_plain).bind fun _ _ => ?_
    refine (plain_transition calm_plain).bind fun task _ => ?_
    exact calm_completeChunkingFlow fcfg x task _ _
  | acceptAsIs | other => exact calm_applyAcceptDecision fcfg x task r state

theorem calm_resolveClaimed (textHash : String) (p : DecisionPayload) :
    Calm cfg v (resolveClaimed fcfg x task r decision textHash p) (JobsFor x.fileId) := by
  refine (calm_plain rfl).bind fun createdAt _ => ?_
  refine .bind (calm_call (fun _ => trivial) fun _ _ => rfl) fun _ _ => ?_
  refine (calm_plain rfl).bind fun resolvedAt _ => ?_
  refine .bind (calm_call (fun _ => trivial) fun _ _ => rfl) fun _ _ => ?_
  refine (plain_transition calm_plain).bind fun task _ => ?_
  refine (plain_audit calm_plain).bind fun _ _ => ?_
  refine (plain_audit calm_plain).bind fun _ _ => ?_
  exact calm_applyDecision fcfg x task r _ decision p.patchMap

end

theorem follows_handleReviewDecision (fileId taskId reviewCaseId : String)
    (p : DecisionPayload) (actor : Actor) :
    Follows cfg (handleReviewDecision fcfg fileId taskId reviewCaseId p actor)
      (Outbound who fileId) who v := by
  refine follows_getFile_then fun file v' _ hfile => ?_
  refine (calm_plain rfl).before fun task _ => ?_
  refine Still.before (calm_call (fun _ => trivial) fun _ _ => rfl) fun case _ => ?_
  split
  · next file task case =>
    have hknows : v'.Knows (who.key fileId) := ⟨_, hfile file rfl⟩
    refine (calm_plain rfl).before fun now _ => ?_
    refine (calm_check _).before fun checked _ => ?_
    refine (calm_plain rfl).before fun decisionId _ => ?_
    refine (calm_plain rfl).before fun claimedAt _ => ?_
    refine Still.before (calm_call (fun _ => trivial) fun _ _ => rfl) fun claimed _ => ?_
    split
    · exact follows_outbound hknows
        (calm_resolveClaimed fcfg ⟨fileId, file, taskId, actor⟩ task.doc _ _ _ p)
    · exact .raise _
  · exact .raise _

theorem follows_handleSubmitReviewDecision (fileId reviewCaseId : String) (p : DecisionPayload) :
    Follows cfg (handleSubmitReviewDecision fcfg fileId reviewCaseId p)
      (fun _ _ => True) who v := by
  refine .read_bind ?_
  split
  · exact .pure trivial
  · refine follows_getFile_then fun file v₁ _ _ => ?_
    refine Still.before (calm_call (fun _ => trivial) fun _ _ => rfl) fun case _ => ?_
    split
    · dsimp only
      split
      · exact .pure trivial
      · refine (calm_plain rfl).before fun task _ => ?_
        split
        · exact .pure trivial
        · refine (follows_guarded
            (follows_handleReviewDecision fcfg fileId _ reviewCaseId p who.actor)).bind ?_
          intro outbound who' v₂ hframe hout
          obtain rfl : who' = who := hframe.1
          refine follows_publish_then hout fun v₃ => ?_
          refine follows_getFile_then fun _ v₄ _ _ => ?_
          refine (calm_plain rfl).before fun _ _ => ?_
          exact (calm_plain rfl).before fun _ _ => .pure trivial
    · exact .pure trivial

/-! ### Updates and deletion -/

theorem vectorDone_of_stagesDone {f : FileDoc} (h : f.stagesDone = true) : VectorDone f := by
  unfold FileDoc.stagesDone at h
  rw [Bool.and_eq_true, List.all_eq_true] at h
  have hvector := h.2 "vector" (by decide)
  unfold VectorDone
  cases hget : f.stage.get? "vector" with
  | none =>
    rw [hget] at hvector
    cases hvector
  | some status =>
    rw [hget] at hvector
    exact congrArg some (beq_iff_eq.mp hvector)

theorem follows_checkAndUpdateOverallStatus (fileId : String) :
    Follows cfg (checkAndUpdateOverallStatus fileId) (fun _ _ => True) who v := by
  refine follows_getFile_then fun file v' _ hfile => ?_
  split
  · exact .pure trivial
  · next file =>
    split
    · exact .pure trivial
    · split
      · next hdone =>
        refine .bind (P := fun _ _ _ => True) ?_ fun _ _ _ _ _ => .pure trivial
        have hread := hfile file rfl
        exact ⟨⟨.inr ⟨⟨file.doc, hread, vectorDone_of_stagesDone hdone⟩, fun _ h => h⟩,
          fun r => ⟨learning.refl _ _, fun _ _ => trivial⟩⟩⟩
      · exact .pure trivial

theorem follows_checkAfter (fileId : String) (updated : Bool) :
    Follows cfg (checkAfter fileId updated) (fun _ _ => True) who v := by
  unfold checkAfter
  split
  · exact follows_checkAndUpdateOverallStatus fileId
  · exact .pure trivial

/-- A stage update is a request of its own, or comes from the record of the program. -/
theorem follows_handleUpdateStage (fileId stageName status : String)
    (h : stageName = "vector" → status = "done" →
      v.took = some (.stage (some who) ⟨fileId, stageName, status⟩)) :
    Follows cfg (handleUpdateStage fileId stageName status) (fun _ _ => True) who v := by
  unfold handleUpdateStage
  split
  · exact .pure trivial
  · refine .bind (P := fun _ _ _ => True)
      ⟨⟨h, fun r => ⟨learning.refl _ _, fun _ _ => trivial⟩⟩⟩ ?_
    intro updated who' v' hframe _
    obtain rfl : who' = who := hframe.1
    exact follows_checkAfter fileId updated

theorem follows_handleUpdateSummary (fileId summary : String) :
    Follows cfg (handleUpdateSummary fileId summary) (fun _ _ => True) who v := by
  unfold handleUpdateSummary
  split
  · exact .pure trivial
  · refine Still.before (calm_updateFile _ (modest_of
      (fun f => setStage_vector _ (by decide) _) fun h => h)) fun updated _ => ?_
    exact follows_checkAfter fileId updated

theorem follows_handleUpdateMetadata (fileId : String) (keywords : List String) :
    Follows cfg (handleUpdateMetadata fileId keywords) (fun _ _ => True) who v := by
  unfold handleUpdateMetadata
  split
  · exact .pure trivial
  · refine Still.before (calm_updateFile _ (modest_of
      (fun f => setStage_vector _ (by decide) _) fun h => h)) fun updated _ => ?_
    exact follows_checkAfter fileId updated

theorem follows_handleDelete (fileId : String) :
    Follows cfg (handleDelete fcfg fileId) (fun _ _ => True) who v := by
  unfold handleDelete
  split
  · exact .pure trivial
  · refine follows_getFile_then fun file v' _ hfile => ?_
    split
    · exact .pure trivial
    · next file =>
      have hknows : v'.Knows (who.key fileId) := ⟨_, hfile file rfl⟩
      refine .read_bind ?_
      refine (calm_check _).before fun path _ => ?_
      refine (plain_removeStored calm_plain).before fun _ _ => ?_
      refine (calm_plain rfl).before fun deleted _ => ?_
      refine (calm_plain rfl).before fun _ _ => ?_
      refine (calm_plain rfl).before fun _ _ => ?_
      refine (calm_plain rfl).before fun _ _ => ?_
      refine follows_publish_then ⟨fun j hj => ?_, hknows⟩ fun _ => .pure trivial
      simp at hj

theorem follows_handleRerunStage (fileId stageName : String) :
    Follows cfg (handleRerunStage fileId stageName) (fun _ _ => True) who v := by
  unfold handleRerunStage
  split
  · exact .pure trivial
  · refine follows_getFile_then fun file v' _ hfile => ?_
    split
    · exact .pure trivial
    · next file =>
      have hknows : v'.Knows (who.key fileId) := ⟨_, hfile file rfl⟩
      have hwaiting : ∀ who, v'.allowFiles ⟨who, .updateStage fileId stageName "waiting"⟩ :=
        fun _ _ hstatus => absurd hstatus (by decide)
      refine (calm_call hwaiting fun _ _ => rfl).before fun updated _ => ?_
      split
      · split
        · refine follows_publish_then ⟨fun j hj => ?_, hknows⟩ fun _ => .pure trivial
          simp at hj
        · exact .bind (P := fun _ _ _ => True) (.pure trivial)
            fun _ _ _ _ _ => .pure trivial
      · exact .pure trivial

/-- Every request follows the protocol; a request that completes the vector stage has to come from a
record. -/
theorem follows_processRequest (a : Action)
    (h : ∀ fileId stageName status, a = .updateStage fileId stageName status →
      stageName = "vector" → status = "done" →
        v.took = some (.stage (some who) ⟨fileId, stageName, status⟩)) :
    Follows cfg (processRequest cfg.files a) (fun _ _ => True) who v := by
  have hdrop : ∀ {β : Type} {p : FilesM β}, Follows cfg p (fun _ _ => True) who v →
      Follows cfg (do let _ ← p; return ()) (fun _ _ => True) who v :=
    fun hp => hp.bind fun _ _ _ _ _ => .pure trivial
  refine .read_bind ?_
  refine (calm_check _).before fun _ _ => ?_
  cases a with
  | startFileIngestion u => exact hdrop (follows_handleStartFileIngestion cfg.files u)
  | completeExtraction fileId taskId e =>
    exact hdrop (follows_handleCompleteExtraction cfg.files fileId taskId e)
  | submitReviewDecision fileId reviewCaseId p =>
    exact hdrop (follows_handleSubmitReviewDecision cfg.files fileId reviewCaseId p)
  | updateStage fileId stageName status =>
    exact follows_handleUpdateStage fileId stageName status (h fileId stageName status rfl)
  | updateSummary fileId summary => exact follows_handleUpdateSummary fileId summary
  | updateMetadata fileId keywords => exact follows_handleUpdateMetadata fileId keywords
  | delete fileId => exact hdrop (follows_handleDelete cfg.files fileId)
  | rerunStage fileId stageName => exact hdrop (follows_handleRerunStage fileId stageName)

end Files

end RagForge.Pipeline
