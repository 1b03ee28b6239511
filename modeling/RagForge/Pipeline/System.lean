import RagForge.Effect.Embed
import RagForge.Embedding.Consumer
import RagForge.Files.Updates
import RagForge.Messaging.Broker
import RagForge.Vector.Handlers

/-
The ingestion pipeline: the files service, the embedding service and the vector service, and the
Kafka topics between them.

Every service runs any number of requests and message workers at once, and they interleave at the
single calls of a store, the producer or the model.  A worker takes the next record of a partition
and handles it.  Nothing keeps two workers from handling records of one partition at the same time,
which is more than the services do, and a consumer group may go back to an older position at any
time.
-/

namespace RagForge.Pipeline

open Py Files RagForge.Embedding RagForge.Vector Effect
open Messaging

/-! ## Topics -/

inductive Topic
  | jobs
  | upserts
  | deletes
  | files
  deriving DecidableEq

/-- A record, with the identity its ticket was signed for. -/
inductive Record
  | job (who : Option Identity) (raw : Json)
  | upsert (who : Option Identity) (u : Upsert)
  | delete (who : Identity) (fileId documentId : String)
  | stage (who : Option Identity) (s : StageUpdate)

def Record.topic : Record → Topic
  | .job .. => .jobs
  | .upsert .. => .upserts
  | .delete .. => .deletes
  | .stage .. => .files

abbrev Partition : Type := Topic × Nat

/-- `kafka_document_key` on the identifiers of a payload. -/
def documentKey (documentId fileId : String) : Option String :=
  let key := strOr documentId fileId
  if key = "" then none else some key

/-- The settings of the services.  `jobCommand` is the JSON of a job as the files service sends it,
which the embedding service reads back as a job for the same file; `partitioner` is the producer's
choice of a partition for a key. -/
structure Config where
  files : Files.Config
  job : JobConfig
  engine : Engine
  store : StoreConfig
  partitioner : Topic → Option String → Nat
  jobCommand : Identity → EmbeddingJob → Json
  jobCommand_fileId : ∀ who j env,
    job.parseModel (jobCommand who j) = .ok env → env.fileId = j.fileId

/-! ## The shared world -/

structure World where
  files : Files.World
  points : Vector.Collection
  broker : Broker Partition Record
  /-- The number of operations of the embedding and the vector service so far. -/
  tick : Nat

def World.empty : World := ⟨Files.World.empty, ∅, Broker.empty, 0⟩

/-- The surroundings of the services, which may let every operation fail.  A call of the vector
store and a publication may have taken effect when they raise. -/
structure Env where
  files : Files.Env
  embedding : Nat → (op : Embedding.Op) → Except Embedding.Exc op.Reply
  vector : Nat → Vector.Op → Option (Vector.Exc × Bool)
  verify : Nat → Record → Bool
  delivered : Nat → Bool

inductive Op
  | poll (p : Partition)
  | rewind (p : Partition) (offset : Nat)
  | verify (r : Record)
  | files (c : Files.Call)
  | embedding (who : Option Identity) (op : Embedding.Op)
  | vector (c : Vector.Call)

@[reducible] def Op.Reply : Op → Type
  | .poll _ => Option Record
  | .rewind .. => Unit
  | .verify _ => Bool
  | .files c => Files.sig.Result c
  | .embedding _ op => Embedding.sig.Result op
  | .vector c => Vector.sig.Result c

/-- The exceptions of a service are part of the reply, so no operation of the system fails. -/
def sig : Sig := ⟨Op, Op.Reply, Empty⟩

section

variable (cfg : Config) (env : Env)

def Config.publish (b : Broker Partition Record) (key : Option String) (r : Record) :
    Broker Partition Record :=
  b.publish (r.topic, cfg.partitioner r.topic key) r

def Config.publishMessage (who : Identity) (b : Broker Partition Record) :
    Message → Broker Partition Record
  | .processEmbeddingJob j =>
    cfg.publish b (documentKey j.documentId j.fileId) (.job (some who) (cfg.jobCommand who j))
  | .vectorDeleteRequested fileId documentId _ _ =>
    cfg.publish b (documentKey documentId fileId) (.delete who fileId documentId)
  | .extract .. | .reviewRequired .. | .chunkingCompleted .. => b

/-- What a call of the files service publishes: the messages that it added to those sent. -/
def Config.publishSent (who : Identity) (before after : Files.World)
    (b : Broker Partition Record) : Broker Partition Record :=
  ((after.sent.drop before.sent.length).map Prod.snd).foldl (cfg.publishMessage who) b

def Config.publishEmbedding (who : Option Identity) (b : Broker Partition Record) :
    Embedding.Op → Broker Partition Record
  | .publishUpsertRequested u =>
    cfg.publish b (u.chunks.head?.bind fun c => documentKey c.documentId c.fileId) (.upsert who u)
  | .sendStageUpdate s => cfg.publish b (documentKey "" s.fileId) (.stage who s)
  | _ => b

/-- What an operation of the vector service replies and does when it does not fail. -/
def Config.vectorEffect (w : World) (who : Option Identity) :
    (op : Vector.Op) → Except Vector.Exc op.Reply × World
  | .upsertChunks chunks =>
    match upsertPoints cfg.engine cfg.store w.points chunks with
    | .error e => (.error (.store e), w)
    | .ok (count, points) => (.ok count, { w with points := points })
  | .deleteChunks filters =>
    match deletePoints w.points filters with
    | .error e => (.error (.store e), w)
    | .ok (count, points) => (.ok count, { w with points := points })
  | .sendStageUpdate s =>
    (.ok (), { w with broker := cfg.publish w.broker (documentKey "" s.fileId) (.stage who s) })
  | .sendReply .. | .sendUpsertCompleted _ | .flush => (.ok (), w)

def World.tock (w : World) : World := { w with tick := w.tick + 1 }

def Config.filesCall (w : World) (c : Files.Call) : Files.sig.Result c × World :=
  let out := Files.handler env.files c w.files
  (out.1, { w with files := out.2, broker := cfg.publishSent c.who w.files out.2 w.broker })

def Config.embeddingCall (w : World) (who : Option Identity) (op : Embedding.Op) :
    Embedding.sig.Result op × World :=
  let reply := env.embedding w.tick op
  let broker :=
    if reply.toBool || env.delivered w.tick then cfg.publishEmbedding who w.broker op else w.broker
  (reply, { w with broker := broker }.tock)

def Config.vectorCall (w : World) (c : Vector.Call) : Vector.sig.Result c × World :=
  let out := cfg.vectorEffect w c.who c.op
  match env.vector w.tick c.op with
  | none => (out.1, out.2.tock)
  | some (e, applied) => (.error e, (if applied then out.2 else w).tock)

def handler : Handler sig World
  | .poll p, w => (.ok (w.broker.poll p).1, { w with broker := (w.broker.poll p).2 })
  | .rewind p offset, w => (.ok (), { w with broker := w.broker.rewind p offset })
  | .verify r, w => (.ok (env.verify w.tick r), w.tock)
  | .files c, w => (.ok (cfg.filesCall env w c).1, (cfg.filesCall env w c).2)
  | .embedding who op, w =>
    (.ok (cfg.embeddingCall env w who op).1, (cfg.embeddingCall env w who op).2)
  | .vector c, w => (.ok (cfg.vectorCall env w c).1, (cfg.vectorCall env w c).2)

end

/-! ## What an operation publishes -/

inductive Publishes (cfg : Config) : Op → Record → Prop
  | job {who : Identity} {j : EmbeddingJob} :
      Publishes cfg (.files ⟨who, .send (.processEmbeddingJob j)⟩)
        (.job (some who) (cfg.jobCommand who j))
  | delete {who : Identity} {fileId documentId : String} {taskId : Option String}
      {reason : String} :
      Publishes cfg (.files ⟨who, .send (.vectorDeleteRequested fileId documentId taskId reason)⟩)
        (.delete who fileId documentId)
  | upsert {who : Option Identity} {u : Upsert} :
      Publishes cfg (.embedding who (.publishUpsertRequested u)) (.upsert who u)
  | embedded {who : Option Identity} {s : StageUpdate} :
      Publishes cfg (.embedding who (.sendStageUpdate s)) (.stage who s)
  | stored {who : Option Identity} {s : StageUpdate} :
      Publishes cfg (.vector ⟨who, .sendStageUpdate s⟩) (.stage who s)

/-- The broker after an operation that is no poll: the same, or with one record more. -/
inductive Published (cfg : Config) (op : Op) (b : Broker Partition Record) :
    Broker Partition Record → Prop
  | same : Published cfg op b b
  | one (key : Option String) {r : Record} (h : Publishes cfg op r) :
      Published cfg op b (cfg.publish b key r)

theorem sent_handler (env : Files.Env) (c : Files.Call) (w : Files.World) :
    (Files.handler env c w).2.sent = w.sent ∨
      ∃ m, c.op = .send m ∧ (Files.handler env c w).2.sent = w.sent ++ [(c.who.tenantId, m)] := by
  have heffect : (c.op.effect env c.who w).2.sent = w.sent ∨
      ∃ m, c.op = .send m ∧
        (c.op.effect env c.who w).2.sent = w.sent ++ [(c.who.tenantId, m)] := by
    obtain ⟨who, op⟩ := c
    have hput : ∀ {δ : Type} (r : Except String (Files.Collection δ))
        (set : Files.Collection δ → Files.World), (∀ t, (set t).sent = w.sent) →
          (w.put r set).2.sent = w.sent := by
      intro δ r set hset
      cases r with
      | error e => rfl
      | ok t => exact hset t
    cases op with
    | send m => exact .inr ⟨m, rfl, rfl⟩
    | createFile | createTask | createReviewDecision => exact .inl (hput _ _ fun _ => rfl)
    | createReviewCase id owner doc =>
      refine .inl ?_
      simp only [StoreOp.effect]
      split
      · rfl
      · exact hput _ _ fun _ => rfl
    | insertAuditEvent | deleteFile =>
      refine .inl ?_
      simp only [StoreOp.effect]
      split <;> rfl
    | _ => exact .inl rfl
  obtain ⟨t, hstate | hstate⟩ := Files.handler_state env c w
  · rw [hstate]
    exact .inl rfl
  · rw [hstate]
    exact heffect

variable {who : Identity} {before after : Files.World} {b : Broker Partition Record} {op : Op}
  {w : World}

section

variable {cfg : Config} {env : Env}

theorem publishSent_eq_of_sent (h : after.sent = before.sent) :
    cfg.publishSent who before after b = b := by
  unfold Config.publishSent
  rw [h, List.drop_length]
  rfl

theorem publishSent_append {tenant : String} {m : Message}
    (h : after.sent = before.sent ++ [(tenant, m)]) :
    cfg.publishSent who before after b = cfg.publishMessage who b m := by
  unfold Config.publishSent
  rw [h, List.drop_left]
  rfl

theorem handler_published (op : Op) (w : World) :
    (∃ p, op = .poll p) ∨ (∃ p offset, op = .rewind p offset) ∨
      Published cfg op w.broker (handler cfg env op w).2.broker := by
  cases op with
  | poll p => exact .inl ⟨p, rfl⟩
  | rewind p offset => exact .inr (.inl ⟨p, offset, rfl⟩)
  | verify r => exact .inr (.inr .same)
  | files c =>
    refine .inr (.inr ?_)
    show Published cfg (.files c) w.broker
      (cfg.publishSent c.who w.files (Files.handler env.files c w.files).2 w.broker)
    rcases sent_handler env.files c w.files with hsame | ⟨m, hop, hsent⟩
    · rw [publishSent_eq_of_sent hsame]
      exact .same
    · rw [publishSent_append hsent]
      obtain ⟨who, op⟩ := c
      obtain rfl : op = .send m := hop
      cases m with
      | processEmbeddingJob j => exact .one _ .job
      | vectorDeleteRequested fileId documentId taskId reason => exact .one _ .delete
      | _ => exact .same
  | embedding who op =>
    refine .inr (.inr ?_)
    show Published cfg (.embedding who op) w.broker
      (if _ then cfg.publishEmbedding who w.broker op else w.broker)
    split
    · cases op with
      | publishUpsertRequested u => exact .one _ .upsert
      | sendStageUpdate s => exact .one _ .embedded
      | _ => exact .same
    · exact .same
  | vector c =>
    obtain ⟨who, op⟩ := c
    have heffect : Published cfg (.vector ⟨who, op⟩) w.broker
        (cfg.vectorEffect w who op).2.broker := by
      cases op with
      | upsertChunks | deleteChunks =>
        simp only [Config.vectorEffect]
        split <;> exact .same
      | sendStageUpdate s => exact .one _ .stored
      | _ => exact .same
    refine .inr (.inr ?_)
    show Published cfg (.vector ⟨who, op⟩) w.broker
      (cfg.vectorCall env w ⟨who, op⟩).2.broker
    unfold Config.vectorCall
    split
    · exact heffect
    · split
      · exact heffect
      · exact .same

theorem mem_log_handler {p : Partition} {r : Record}
    (h : r ∈ (handler cfg env op w).2.broker.log p) :
    r ∈ w.broker.log p ∨
      Publishes cfg op r ∧ ∃ key, p = (r.topic, cfg.partitioner r.topic key) := by
  rcases handler_published op w with ⟨q, rfl⟩ | ⟨q, offset, rfl⟩ | hpublished
  · have hlog : r ∈ (w.broker.poll q).2.log p := h
    rw [Broker.poll_log] at hlog
    exact .inl hlog
  · exact .inl h
  · generalize (handler cfg env op w).2.broker = b at h hpublished
    cases hpublished with
    | same => exact .inl h
    | one key hpub =>
      rcases Broker.mem_log_publish.mp h with h | ⟨hp, rfl⟩
      · exact .inl h
      · exact .inr ⟨hpub, key, hp⟩

theorem handler_file {k : DocKey} {row : Row FileDoc}
    (h : (handler cfg env op w).2.files.files.lookup k = some row) :
    w.files.files.lookup k = some row ∨
      ∃ c, op = .files c ∧ FileWritten c w.files.files k row.doc := by
  cases op with
  | files c =>
    rcases @Files.handler_file row w.files k env.files c h with h | h
    · exact .inl h
    · exact .inr ⟨c, rfl, h⟩
  | vector c =>
    obtain ⟨who, op⟩ := c
    have heffect : (cfg.vectorEffect w who op).2.files = w.files := by
      cases op with
      | upsertChunks | deleteChunks =>
        simp only [Config.vectorEffect]
        split <;> rfl
      | _ => rfl
    have hfiles : (cfg.vectorCall env w ⟨who, op⟩).2.files = w.files := by
      unfold Config.vectorCall
      split
      · exact heffect
      · split
        · exact heffect
        · rfl
    have hlookup : (cfg.vectorCall env w ⟨who, op⟩).2.files.files.lookup k = some row := h
    rw [hfiles] at hlookup
    exact .inl hlookup
  | _ => exact .inl h

end

/-! ## Programs -/

def reply {α : Type} : Except Empty α → α
  | .ok a => a
  | .error e => nomatch e

def filesOps : Inclusion Files.sig sig := ⟨.files, fun _ r => reply r⟩

def embeddingOps (who : Option Identity) : Inclusion Embedding.sig sig :=
  ⟨.embedding who, fun _ r => reply r⟩

def vectorOps : Inclusion Vector.sig sig := ⟨.vector, fun _ r => reply r⟩

/-- Code of a service as a program of the system, which tells whether the code returned. -/
def lift {S : Sig} {L α : Type} (ι : Inclusion S sig) (p : Proc S L α) (l : L) : Prog sig Bool :=
  ((p.start l).embed ι).bind fun x => .ret x.1.toBool

theorem wp_lift {S : Sig} {L α σ : Type} {A : Logic sig σ} {ι : Inclusion S sig} {p : Proc S L α}
    {l : L} {s : σ} {Q : Bool → σ → Prop} :
    (lift ι p l).wp A Q s ↔ p.wp (A.along ι) (fun r _ s' => Q r.toBool s') l s := by
  unfold lift
  rw [Prog.wp_bind, Prog.wp_embed]
  exact Iff.rfl

def consumeJob (cfg : JobConfig) (raw : Json) : JobM Unit := do
  let _ ← settleMessage cfg raw
  Embedding.call .commit
  Embedding.call (.log "embedding_job:commit")

section

variable (cfg : Config)

def request (who : Identity) (a : Action) : Prog sig Bool :=
  lift filesOps (processRequest cfg.files a) who

def verified (r : Record) (p : Prog sig Bool) : Prog sig Bool :=
  .call (.verify r) fun ok => if (reply ok : Bool) then p else .ret false

def handleRecord (r : Record) : Prog sig Bool :=
  match r with
  | .job who raw => lift (embeddingOps who) (consumeJob cfg.job raw) ()
  | .upsert who u =>
    verified r (lift vectorOps (processKafkaMessage cfg.store (.upsert (.ofEnvelope u))) who)
  | .delete who fileId documentId =>
    verified r (lift vectorOps
      (processKafkaMessage cfg.store (.delete (.ofCleanup fileId documentId))) (some who))
  | .stage who s =>
    verified r (match who with
      | none => .ret false
      | some who => request cfg who (.updateStage s.fileId s.stage s.status))

def worker (p : Partition) : Prog sig Bool :=
  .call (.poll p) fun r =>
    match reply r with
    | none => .ret true
    | some r => handleRecord cfg r

end

/-- The requests that reach the files service from elsewhere: the gateway, the extraction and the
language model.  Of the stages, extraction reports only its own failure. -/
def Action.external : Action → Bool
  | .updateStage _ stageName status => stageName = "extraction" && status = "error"
  | _ => true

inductive Starts (cfg : Config) : Prog sig Bool → Prop
  | worker (p : Partition) : Starts cfg (worker cfg p)
  | request (who : Identity) (a : Action) (h : Action.external a = true) :
      Starts cfg (request cfg who a)
  | rewind (p : Partition) (offset : Nat) :
      Starts cfg (.call (.rewind p offset) fun _ => .ret true)

end RagForge.Pipeline
