import RagForge.Pipeline.Protocol

/-
The message workers follow the protocol: embedding jobs, upserts, deletions and stage updates.
-/

namespace RagForge.Pipeline

open Py Files RagForge.Embedding RagForge.Vector Effect
open Messaging

variable {cfg : Config} {v : View} {p : Prog sig Bool}

/-! ## Embedding jobs -/

abbrev embeddingLogic (cfg : Config) (who : Option Identity) : Logic Embedding.sig View :=
  (protocol cfg).logic.along (embeddingOps who)

abbrev Works (cfg : Config) (who : Option Identity) (v : View) {α : Type} (p : JobM α)
    (P : α → Prop) : Prop :=
  Still (embeddingLogic cfg who) v p P

section Jobs

variable {who : Option Identity} {raw : Json} {env : JobEnvelope}

theorem works_call {op : Embedding.Op} (h : v.allowEmbedding cfg who op) :
    Works cfg who v (Embedding.call op) fun _ => True :=
  fun _ => ⟨⟨h, fun _ => ⟨⟨rfl, rfl⟩, fun _ _ => trivial⟩⟩⟩

theorem works_publishCompletedEvent (c : Completed) :
    Works cfg who v (publishCompletedEvent c) fun _ => True := by
  refine .bind (works_call trivial) fun _ _ => ?_
  refine .handle ?_ fun e => .raise _
  refine .bind (works_call trivial) fun _ _ => ?_
  refine .bind (works_call rfl) fun _ _ => ?_
  exact works_call trivial

theorem works_publishUpsert (hjob : v.took = some (.job who raw))
    (hparse : parseAndValidateJob cfg.job raw = .ok env) {u : Upsert} (batchIndex : Nat)
    (hu : u.chunks.map EmbeddedChunk.toJobChunk ∈ batches cfg.job.batchSize env.eligibleChunks) :
    Works cfg who v (publishUpsert u batchIndex) fun _ => True := by
  refine .bind (works_call trivial) fun _ _ => ?_
  refine .handle ?_ fun e => .raise _
  refine .bind (works_call ⟨raw, env, hjob, hparse, hu⟩) fun _ _ => ?_
  exact works_call trivial

theorem works_embedBatch (batchIndex : Nat) (chunks : List JobChunk) :
    Works cfg who v (embedBatch cfg.job batchIndex chunks)
      fun embeddings => embeddings.length = chunks.length := by
  refine .bind (works_call trivial) fun _ _ => ?_
  refine .bind
    (.handle (works_call trivial) fun e => .raise _) fun embeddings
      _ => ?_
  split
  · exact .raise _
  · next hlen => exact .pure (not_not.mp hlen)

theorem buildUpsertEnvelope_chunks (jcfg : JobConfig) (env : JobEnvelope) {chunks : List JobChunk}
    {embeddings : List Vec} (h : embeddings.length = chunks.length) :
    (buildUpsertEnvelope jcfg env chunks embeddings).chunks.map EmbeddedChunk.toJobChunk =
      chunks := by
  show ((chunks.zip embeddings).map fun x => EmbeddedChunk.mk x.1 x.2).map
    EmbeddedChunk.toJobChunk = chunks
  rw [List.map_map]
  exact List.map_fst_zip (Nat.le_of_eq h.symm)

theorem works_embedBatches (hjob : v.took = some (.job who raw))
    (hparse : parseAndValidateJob cfg.job raw = .ok env) (groups : List (List JobChunk)) :
    ∀ batchIndex dimensions,
      (∀ b ∈ groups, b ∈ batches cfg.job.batchSize env.eligibleChunks) →
        Works cfg who v (embedBatches cfg.job env groups batchIndex dimensions) fun _ => True := by
  induction groups with
  | nil => exact fun _ _ _ => .pure trivial
  | cons chunks rest ih =>
    intro batchIndex dimensions hgroups
    refine (works_embedBatch batchIndex chunks).bind fun embeddings hlen => ?_
    refine .bind (works_call trivial) fun _ _ => ?_
    refine (works_publishUpsert hjob hparse batchIndex ?_).bind fun _ _ => ?_
    · rw [buildUpsertEnvelope_chunks cfg.job env hlen]
      exact hgroups chunks List.mem_cons_self
    · exact ih _ _ fun b hb => hgroups b (List.mem_cons_of_mem chunks hb)

theorem works_processJobOnce (hjob : v.took = some (.job who raw)) :
    Works cfg who v (processJobOnce cfg.job raw) fun _ => True := by
  refine .bind (works_call trivial) fun available _ => ?_
  split
  · exact .raise _
  · refine (Still.ofExcept fun _ h => h).bind fun env hparse => ?_
    refine .bind (works_call trivial) fun _ _ => ?_
    refine .bind (works_call trivial) fun _ _ => ?_
    refine .bind (works_call trivial) fun _ _ => ?_
    dsimp only
    split
    · exact works_publishCompletedEvent _
    · refine (works_embedBatches hjob hparse _ 0 0 fun _ hb => hb).bind fun _ _ => ?_
      exact works_publishCompletedEvent _

theorem works_execute {body : JobM Unit} (hbody : Works cfg who v body fun _ => True)
    (remaining : Nat) : ∀ attempt last,
      Works cfg who v (execute body remaining attempt last) fun _ => True := by
  induction remaining with
  | zero => exact fun _ _ => .pure trivial
  | succ remaining ih =>
    intro attempt last
    refine (hbody.bind fun _ _ => .pure trivial).handle fun e => ?_
    split
    · exact .bind (works_call trivial) fun _ _ => ih _ _
    · exact .pure trivial
    · exact .raise _

theorem works_sendToDlq (e : Embedding.Exc) (retryCount : Nat) :
    Works cfg who v (sendToDlq raw e retryCount) fun _ => True := by
  refine .bind (works_call trivial) fun _ _ => ?_
  refine .bind (P := fun _ => True) ?_ fun _ _ => ?_
  · refine .handle ?_ fun _ => .pure trivial
    refine .bind (works_call trivial) fun _ _ => ?_
    refine .bind (works_call trivial) fun _ _ => ?_
    exact .pure trivial
  · refine .bind (works_call trivial) fun _ _ => ?_
    exact .pure trivial

theorem works_consumeJob (hjob : v.took = some (.job who raw)) :
    Works cfg who v (consumeJob cfg.job raw) fun _ => True := by
  refine .bind (P := fun _ => True) ?_ fun _ _ => ?_
  · refine .bind (P := fun _ => True) ?_ fun _ _ => ?_
    · refine (Still.ofExcept fun _ _ => trivial).bind fun _ _ => ?_
      exact .bind (works_call trivial) fun _ _ => works_call trivial
    refine (works_execute (works_processJobOnce hjob) _ 0 none).bind fun ended _ => ?_
    cases ended with
    | done => exact .pure trivial
    | rejected attempt e => exact works_sendToDlq e _
    | exhausted attempts last => exact works_sendToDlq _ _
  · refine .bind (works_call trivial) fun _ _ => ?_
    exact works_call trivial

theorem accepted_job (hjob : v.took = some (.job who raw)) :
    Accepted cfg (handleRecord cfg (.job who raw)) v := by
  refine accepted_lift.mpr (Proc.wp_mono (works_consumeJob hjob ()).wp ?_)
  intro _ _ v' h
  obtain ⟨⟨-, rfl⟩, -⟩ := h
  intro who' fileId documentId htook
  rw [hjob] at htook
  cases htook

end Jobs

/-! ## Upserts -/

abbrev vectorLogic (cfg : Config) : Logic Vector.sig View := (protocol cfg).logic.along vectorOps

/-- A worker of the vector service keeps its identity and its record. -/
def holding : Frame (Option Identity) View where
  rel who v who' v' := who' = who ∧ v'.took = v.took
  refl _ _ := ⟨rfl, rfl⟩
  trans h₁ h₂ := ⟨h₂.1.trans h₁.1, h₂.2.trans h₁.2⟩

/-- Code of the vector service that follows the protocol and ends in a view that satisfies `P`. -/
abbrev Serves (cfg : Config) {α : Type} (p : VectorM α) (P : α → View → Prop)
    (who : Option Identity) (v : View) : Prop :=
  Ensures (vectorLogic cfg) holding p (fun a _ v' => P a v') who v

section Upserts

variable {who : Option Identity} {u : Upsert} {P : View → Prop}

theorem serves_send (op : Vector.Op) (hallow : v.allowVector ⟨who, op⟩)
    (hnext : ∀ r, v.nextVector ⟨who, op⟩ r = v) (hP : P v) :
    Serves cfg (Vector.call op) (fun _ v' => P v') who v := by
  refine ⟨⟨hallow, fun r => ?_⟩⟩
  have hsame : (protocol cfg).next v (.vector ⟨who, op⟩) r = v := hnext (reply r)
  have hP' : P ((protocol cfg).next v (.vector ⟨who, op⟩) r) := by
    rw [hsame]
    exact hP
  exact ⟨⟨rfl, congrArg View.took hsame⟩, fun _ _ => hP'⟩

theorem still_check {α : Type} (x : Except Vector.Err α) :
    Still (vectorLogic cfg) v (Vector.check x) fun a => x = .ok a := by
  cases x with
  | error e => exact .raise _
  | ok a => exact .pure rfl

theorem serves_publishUpsertCompleted (event : UpsertCompleted) (hP : P v) :
    Serves cfg (publishUpsertCompleted event) (fun _ v' => P v') who v := by
  refine (serves_send (.sendUpsertCompleted event) trivial (fun _ => rfl) hP).bind ?_
  intro _ who' v' _ hv'
  exact serves_send .flush trivial (fun _ => rfl) hv'

/-- The chunks were stored and may be reported for the file. -/
structure Stored (who : Option Identity) (u : Upsert) (v : View) : Prop where
  took : v.took = some (.upsert who u)
  stored : v.stored = true

theorem serves_publishFilesStageUpdates (h : Stored who u v) :
    Serves cfg (publishFilesStageUpdates (View.fileOf u)) (fun _ _ => True) who v := by
  have hstage : ∀ stage v', Stored who u v' →
      Serves cfg (Vector.call (.sendStageUpdate ⟨View.fileOf u, stage, "done"⟩))
        (fun _ v'' => Stored who u v'') who v' :=
    fun stage v' h' => serves_send (.sendStageUpdate _) ⟨u, h'.took, h'.stored, rfl⟩
      (fun _ => rfl) h'
  have hall : ∀ stages v', Stored who u v' →
      Serves cfg (Proc.forEach stages fun stage =>
        Vector.call (.sendStageUpdate ⟨View.fileOf u, stage, "done"⟩))
          (fun _ v'' => Stored who u v'') who v' := by
    intro stages
    induction stages with
    | nil => exact fun v' h' => .pure h'
    | cons stage rest ih =>
      intro v' h'
      refine (hstage stage v' h').bind ?_
      intro _ who' v'' hframe h''
      obtain rfl : who' = who := hframe.1
      exact ih v'' h''
  unfold publishFilesStageUpdates
  split
  · exact .pure trivial
  · refine (hall _ v h).bind ?_
    intro _ who' v' _ _
    exact serves_send .flush trivial (fun _ => rfl) trivial

theorem ownedChunks_fileOf {chunks prepared : List EmbeddedChunk}
    (h : ownedChunks who chunks = .ok prepared) :
    (prepared.head?.map fun c => c.fileId) = chunks.head?.map fun c => c.fileId := by
  cases who with
  | none => rw [← Except.ok.inj h]
  | some who =>
    cases chunks with
    | nil =>
      obtain rfl : [] = prepared := Except.ok.inj h
      rfl
    | cons c rest =>
      have hmap : (c :: rest).mapM (ownedChunk who) = .ok prepared := h
      obtain ⟨y, ys, hy, -, rfl⟩ := List.forall₂_cons_left_iff.mp (forall₂_of_mapM hmap)
      obtain ⟨⟨_, _, _, rfl⟩, -⟩ := ownedChunk_restamps hy
      rfl

theorem serves_upsertChunks (hu : v.took = some (.upsert who u)) :
    Serves cfg (upsertChunks cfg.store (.ofEnvelope u))
      (fun result v' => Stored who u v' ∧ result.fileId = View.fileOf u) who v := by
  unfold upsertChunks
  split
  · exact .raise _
  · refine .read_bind ?_
    split
    · next hreview => exact absurd rfl hreview.1
    · refine (still_check _).before fun prepared hprepared => ?_
      refine Still.before (P := fun x => x = (0, id)) (Still.pure rfl) fun x hx => ?_
      subst hx
      dsimp only [id]
      rw [List.map_id']
      refine .bind (P := fun _ _ v' => Stored who u v') ?_ ?_
      · refine .handle ?_ fun e _ _ _ => .raise _
        refine ⟨⟨⟨u, hu, hprepared⟩, ?_⟩⟩
        intro r
        match r with
        | .error e => exact nomatch e
        | .ok (.error e) => exact ⟨⟨rfl, rfl⟩, fun _ h => nomatch h⟩
        | .ok (.ok count) => exact ⟨⟨rfl, rfl⟩, fun _ _ => ⟨hu, Bool.or_true v.stored⟩⟩
      · intro count who' v' _ hstored
        refine .pure ⟨hstored, ?_⟩
        rw [ownedChunks_fileOf hprepared]
        rfl

theorem serves_sendReply_none (payload : ReplyPayload) (hP : P v) :
    Serves cfg (Vector.sendReply none payload) (fun _ v' => P v') who v :=
  .pure hP

theorem serves_reportFailure (u : Upsert) (message : String) :
    Serves cfg (reportFailure cfg.store (.upsert (.ofEnvelope u)) message)
      (fun _ _ => True) who v := by
  refine (serves_sendReply_none (P := fun _ => True) _ trivial).bind ?_
  intro _ who' v' _ _
  exact serves_publishUpsertCompleted _ trivial

theorem serves_processUpsert (hu : v.took = some (.upsert who u)) :
    Serves cfg (processKafkaMessage cfg.store (.upsert (.ofEnvelope u)))
      (fun _ _ => True) who v := by
  refine .handle ?_ ?_
  · refine (serves_upsertChunks hu).bind ?_
    intro result who₁ v₁ hframe hresult
    obtain rfl : who₁ = who := hframe.1
    refine (serves_sendReply_none _ hresult.1).bind ?_
    intro _ who₂ v₂ hframe hv₂
    obtain rfl : who₂ = who₁ := hframe.1
    refine (serves_publishUpsertCompleted _ hv₂).bind ?_
    intro _ who₃ v₃ hframe hv₃
    obtain rfl : who₃ = who₂ := hframe.1
    rw [hresult.2]
    exact serves_publishFilesStageUpdates hv₃
  · intro e who' v' _
    cases e with
    | service e => exact serves_reportFailure u e.text
    | validation m => exact serves_reportFailure u m
    | store | other => exact .raise _

end Upserts

/-! ## Records and programs -/

theorem settled_of_failed (h : v.failed = true) : v.Settled := fun _ _ _ _ _ _ => .inr h

/-- A refused ticket ends the program, and an accepted one changes nothing. -/
theorem accepted_verified {r : Record} (hr : v.took = some r)
    (hp : ∀ v' : View, v'.took = v.took → Accepted cfg p v') : Accepted cfg (verified r p) v := by
  refine ⟨hr, ?_⟩
  intro ok
  match ok with
  | .error e => exact nomatch e
  | .ok true => exact hp _ rfl
  | .ok false => exact settled_of_failed (Bool.or_true v.failed)

theorem accepted_upsert {who : Option Identity} {u : Upsert}
    (hu : v.took = some (.upsert who u)) : Accepted cfg (handleRecord cfg (.upsert who u)) v := by
  refine accepted_verified hu ?_
  intro v₁ hv₁
  rw [hu] at hv₁
  refine accepted_lift.mpr (Proc.wp_mono (serves_processUpsert hv₁).wp ?_)
  intro _ _ v₂ h
  have hv₂ : v₂.took = some (.upsert who u) := h.1.2.trans hv₁
  intro who' fileId documentId htook
  rw [hv₂] at htook
  cases htook

theorem validateDelete_cleanup {fileId : String} (h : fileId ≠ "") (documentId : String) :
    validateDelete (cleanupFilters fileId documentId) = .ok () := by
  refine if_neg ?_
  have hfile : deleteValue (cleanupFilters fileId documentId) "file_id" =
      some ⟨"file_id", .value (.str fileId)⟩ := by
    simp [deleteValue, cleanupFilters, h, Dict.get?]
  rw [List.filterMap_cons, hfile]
  simp

section Deletions

variable {who : Identity} {fileId documentId : String}

section

variable (hd : v.took = some (.delete who fileId documentId))

include hd

theorem wp_deleteChunks :
    (Vector.deleteChunks (cleanupFilters fileId documentId)).wp (vectorLogic cfg)
      (fun _ who' v' => who' = some who ∧ v'.Settled) (some who) v := by
  refine (Proc.wp_bind _ _).mpr ?_
  refine (Proc.wp_read _).mpr ?_
  dsimp only
  by_cases hrole : privileged (some who) = true
  · rw [if_pos hrole]
    refine (Proc.wp_handle _ _).mpr ⟨⟨who, fileId, documentId, hd, rfl, rfl⟩, ?_⟩
    intro r
    match r with
    | .error e => exact nomatch e
    | .ok (.error e) => exact ⟨rfl, settled_of_failed (Bool.or_true v.failed)⟩
    | .ok (.ok count) => exact ⟨rfl, fun _ _ _ _ _ _ => .inl (Bool.or_true v.deleted)⟩
  · rw [if_neg hrole]
    refine ⟨rfl, ?_⟩
    intro who' fileId' documentId' htook hnotUser
    rw [hd] at htook
    cases htook
    simp [privileged, hnotUser] at hrole

theorem wp_processDelete :
    (processKafkaMessage cfg.store (.delete (.ofCleanup fileId documentId))).wp (vectorLogic cfg)
      (fun _ _ v' => v'.Settled) (some who) v := by
  have hhandled : (handleDeleteRequest cfg.store (.ofCleanup fileId documentId)).wp
      (vectorLogic cfg) (fun _ who' v' => who' = some who ∧ v'.Settled) (some who) v := by
    refine (Proc.wp_bind _ _).mpr ((Proc.wp_ofExcept _).mpr ?_)
    cases hvalid : validateDelete (DeleteRequest.ofCleanup fileId documentId).filters with
    | error e =>
      -- The schema refuses only a deletion without identifiers, which has nothing to settle.
      refine ⟨rfl, ?_⟩
      intro who' fileId' documentId' htook _ hfile
      rw [hd] at htook
      cases htook
      cases hvalid.symm.trans (validateDelete_cleanup hfile documentId)
    | ok _ =>
      refine (Proc.wp_bind _ _).mpr (Proc.wp_mono (wp_deleteChunks hd) ?_)
      intro r who' v' h
      cases r with
      | error | ok => exact h
  refine (Proc.wp_handle _ _).mpr (Proc.wp_mono hhandled ?_)
  intro r who' v' h
  cases r with
  | ok _ => exact h.2
  | error e =>
    cases e with
    | service | validation | store | other => exact h.2

theorem accepted_delete : Accepted cfg (handleRecord cfg (.delete who fileId documentId)) v := by
  refine accepted_verified hd ?_
  intro v₁ hv₁
  exact accepted_lift.mpr (wp_processDelete (hv₁.trans hd))

end

end Deletions

/-- A request to the files service settles nothing, so it may follow any record but a deletion. -/
theorem accepted_request {who : Identity} {a : Action}
    (htook : ∀ admin fileId documentId, v.took ≠ some (.delete admin fileId documentId))
    (h : ∀ fileId stageName status, a = .updateStage fileId stageName status →
      stageName = "vector" → status = "done" →
        v.took = some (.stage (some who) ⟨fileId, stageName, status⟩)) :
    Accepted cfg (request cfg who a) v := by
  refine accepted_lift.mpr (Proc.wp_mono (follows_processRequest a h).wp ?_)
  intro _ _ v' hframe
  obtain ⟨⟨-, learned, rfl⟩, -⟩ := hframe
  intro admin fileId documentId hd
  exact absurd hd (htook admin fileId documentId)

theorem accepted_stage {who : Option Identity} {s : StageUpdate}
    (hs : v.took = some (.stage who s)) : Accepted cfg (handleRecord cfg (.stage who s)) v := by
  refine accepted_verified hs ?_
  intro v₁ hv₁
  rw [hs] at hv₁
  have htook : ∀ admin fileId documentId, v₁.took ≠ some (.delete admin fileId documentId) := by
    intro admin fileId documentId
    rw [hv₁]
    exact fun h => nomatch h
  cases who with
  | none => exact fun admin fileId documentId hd => absurd hd (htook admin fileId documentId)
  | some who =>
    refine accepted_request htook ?_
    intro fileId stageName status ha _ _
    cases ha
    exact hv₁

theorem accepted_handleRecord (r : Record) (hr : v.took = some r) :
    Accepted cfg (handleRecord cfg r) v := by
  cases r with
  | job who raw => exact accepted_job hr
  | upsert who u => exact accepted_upsert hr
  | delete who fileId documentId => exact accepted_delete hr
  | stage who s => exact accepted_stage hr

/-- Every program of the system follows the protocol. -/
theorem starts_accepted (hp : Starts cfg p) : Accepted cfg p View.initial := by
  have hnothing : View.initial.Settled := fun _ _ _ htook => nomatch htook
  cases hp with
  | worker p =>
    refine ⟨rfl, ?_⟩
    intro r
    match r with
    | .error e => exact nomatch e
    | .ok none => exact hnothing
    | .ok (some r) => exact accepted_handleRecord r rfl
  | request who a h =>
    refine accepted_request (fun _ _ _ h => nomatch h) ?_
    intro fileId stageName status ha hstage
    subst ha
    simp only [Action.external, hstage, Bool.and_eq_true] at h
    exact absurd h.1 (by decide)
  | rewind p offset => exact ⟨trivial, fun _ => hnothing⟩

end RagForge.Pipeline
