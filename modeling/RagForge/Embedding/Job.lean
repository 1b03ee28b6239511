import RagForge.Effect.Logic
import RagForge.Embedding.Types

/-
Processing of one embedding job (`embedding_job_service.py`, `embedding_job_publisher.py`,
`shared/retry.py`, `shared/dlq.py`).

Everything outside the job service is an operation that may raise: the inference scheduler, the
Kafka producer, the tracer and the logger.
-/

namespace RagForge.Embedding

open Py Files Effect

/-- The exceptions of the job service and of what it calls. -/
inductive Exc
  | retryable (message : String)
  | nonRetryable (message : String)
  | resultMismatch (message : String)
  | overloaded (message : String)
  | other (message : String)

def Exc.text : Exc → String
  | .retryable m | .nonRetryable m | .resultMismatch m | .overloaded m | .other m => m

structure DeadLetter where
  message : Json
  error : Exc
  retryCount : Nat

inductive Op
  | isAvailable
  | encode (texts : List String)
  | publishUpsertRequested (u : Upsert)
  | publishJobCompleted (c : Completed)
  | sendStageUpdate (s : StageUpdate)
  | sendDeadLetter (d : DeadLetter)
  | flush
  | span (name : String)
  | log (event : String)
  | verifyTicket (message : Json)
  | commit

def Op.Reply : Op → Type
  | .isAvailable => Bool
  | .encode _ => List Vec
  | _ => Unit

def sig : Sig := ⟨Op, Op.Reply, Exc⟩

abbrev JobM (α : Type) : Type := Proc sig Unit α

def call (op : Op) : JobM op.Reply := Proc.perform (S := sig) op

def raise {α : Type} (e : Exc) : JobM α := Proc.raise (S := sig) e

structure JobConfig where
  embeddingMaxBatchSize : Nat
  passagePrefix : String
  collectionName : String
  modelName : String
  kafkaMaxRetries : Nat
  /-- Validation of the raw message against the schema. -/
  parseModel : Json → Except String JobEnvelope

def JobConfig.batchSize (cfg : JobConfig) : Nat := max 1 cfg.embeddingMaxBatchSize

/-! ## Validation -/

/-- The checks of `_parse_and_validate_job` on one chunk. -/
def validateChunk (env : JobEnvelope) (c : JobChunk) : Except Exc Unit :=
  if c.fileId ≠ env.fileId then
    .error (.nonRetryable ("Chunk " ++ c.chunkId ++ " file_id does not match payload file_id"))
  else if c.documentId ≠ env.documentId then
    .error (.nonRetryable
      ("Chunk " ++ c.chunkId ++ " document_id does not match payload document_id"))
  else .ok ()

def parseAndValidateJob (cfg : JobConfig) (raw : Json) : Except Exc JobEnvelope :=
  match cfg.parseModel raw with
  | .error m => .error (.nonRetryable ("Invalid embedding job envelope: " ++ m))
  | .ok env =>
    match env.chunks.mapM (validateChunk env) with
    | .error e => .error e
    | .ok _ =>
      if 1 < (env.chunks.map JobChunk.sourceName).dedup.length then
        .error (.nonRetryable "All chunks in a job must share the same source_name")
      else .ok env

/-- The chunks `_split_chunks` keeps for embedding. -/
def JobChunk.eligible (c : JobChunk) : Bool := c.retrievalAllowed && c.reviewStatus != .removed

def JobEnvelope.eligibleChunks (env : JobEnvelope) : List JobChunk :=
  env.chunks.filter JobChunk.eligible

def JobEnvelope.skippedChunks (env : JobEnvelope) : List JobChunk :=
  env.chunks.filter fun c => !c.eligible

/-- `[xs[i:i + size] for i in range(0, len(xs), size)]`. -/
def batches {α : Type} (size : Nat) (xs : List α) : List (List α) :=
  (List.range ((xs.length + size - 1) / size)).map fun i => (xs.drop (i * size)).take size

def JobConfig.modelInput (cfg : JobConfig) (c : JobChunk) : String := cfg.passagePrefix ++ c.text

/-! ## Publishing -/

def buildUpsertEnvelope (cfg : JobConfig) (env : JobEnvelope) (chunks : List JobChunk)
    (embeddings : List Vec) : Upsert where
  requestId := env.requestId
  traceId := env.traceId
  correlationId := env.correlationId
  collectionName := cfg.collectionName
  chunks := (chunks.zip embeddings).map fun x => { toJobChunk := x.1, embedding := x.2 }

def buildCompletedEnvelope (cfg : JobConfig) (env : JobEnvelope)
    (embedded skipped batchesProcessed dimensions : Nat) : Completed where
  requestId := env.requestId
  traceId := env.traceId
  correlationId := env.correlationId
  jobId := env.jobId
  fileId := env.fileId
  documentId := env.documentId
  requestedChunks := env.chunks.length
  embeddedChunks := embedded
  skippedChunks := skipped
  batchesProcessed := batchesProcessed
  modelName := cfg.modelName
  vectorDimensions := dimensions

def publishUpsert (u : Upsert) (batchIndex : Nat) : JobM Unit := do
  call (.span "embedding_job.publish_upsert")
  (do call (.publishUpsertRequested u)
      call .flush : JobM Unit).handle fun e =>
    raise (.retryable
      ("Failed to publish upsert payload for batch " ++ toString batchIndex ++ ": " ++ e.text))

def publishCompletedEvent (c : Completed) : JobM Unit := do
  call (.span "embedding_job.publish_completed")
  (do call (.publishJobCompleted c)
      call (.sendStageUpdate ⟨c.fileId, "embedding", "done"⟩)
      call .flush : JobM Unit).handle fun e =>
    raise (.retryable ("Failed to publish embedding job completion: " ++ e.text))

/-! ## One attempt -/

def encodeError (batchIndex : Nat) (e : Exc) : Exc :=
  match e with
  | .resultMismatch m =>
    .nonRetryable ("Embedding count mismatch for batch " ++ toString batchIndex ++ ": " ++ m)
  | .overloaded m =>
    .retryable ("Embedding batch " ++ toString batchIndex ++ " refused by backpressure: " ++ m)
  | e => .retryable ("Embedding batch " ++ toString batchIndex ++ " failed: " ++ e.text)

def embedBatch (cfg : JobConfig) (batchIndex : Nat) (chunks : List JobChunk) : JobM (List Vec) := do
  call (.span "embedding_job.embed_batch")
  let embeddings ← (call (.encode (chunks.map cfg.modelInput)) : JobM (List Vec)).handle fun e =>
    raise (encodeError batchIndex e)
  if embeddings.length ≠ chunks.length then
    raise (.nonRetryable ("Embedding count mismatch for batch " ++ toString batchIndex
      ++ ": expected " ++ toString chunks.length ++ ", got " ++ toString embeddings.length))
  else pure embeddings

/-- The loop over the batches; its result is the dimension of the first vector. -/
def embedBatches (cfg : JobConfig) (env : JobEnvelope) :
    List (List JobChunk) → Nat → Nat → JobM Nat
  | [], _, dimensions => pure dimensions
  | chunks :: rest, batchIndex, dimensions => do
      let embeddings ← embedBatch cfg batchIndex chunks
      let dimensions := if dimensions = 0 then (embeddings.head?.map List.length).getD 0
        else dimensions
      call (.span "embedding_job.package_output")
      publishUpsert (buildUpsertEnvelope cfg env chunks embeddings) batchIndex
      embedBatches cfg env rest (batchIndex + 1) dimensions

/-- `_process_job_once` after the job was parsed. -/
def processJob (cfg : JobConfig) (env : JobEnvelope) : JobM Unit := do
  call (.log "embedding_job:process")
  call (.span "embedding_job.process")
  call (.span "embedding_job.prepare_batches")
  let eligible := env.eligibleChunks
  let skipped := env.skippedChunks.length
  if eligible = [] then
    publishCompletedEvent (buildCompletedEnvelope cfg env 0 skipped 0 0)
  else
    let groups := batches cfg.batchSize eligible
    let dimensions ← embedBatches cfg env groups 0 0
    publishCompletedEvent
      (buildCompletedEnvelope cfg env eligible.length skipped groups.length dimensions)

def processJobOnce (cfg : JobConfig) (raw : Json) : JobM Unit := do
  let available : Bool ← call .isAvailable
  if !available then raise (.retryable "Embedding model not available")
  else
    let env ← (Proc.ofExcept (parseAndValidateJob cfg raw) : JobM JobEnvelope)
    processJob cfg env

/-! ## Retries and the dead-letter queue -/

/-- How `RetryPolicy.execute` ended. -/
inductive Attempts
  | done
  | rejected (attempt : Nat) (e : Exc)
  | exhausted (attempts : Nat) (last : Option Exc)

/-- `RetryPolicy.execute` with `remaining` attempts left.  A rejected job leaves the loop at once,
any other exception leaves the service. -/
def execute (body : JobM Unit) : Nat → Nat → Option Exc → JobM Attempts
  | 0, attempt, last => pure (.exhausted attempt last)
  | remaining + 1, attempt, _ =>
    (do body
        pure .done : JobM Attempts).handle fun e =>
      match e with
      | .retryable _ => do
          call (.log "embedding_job:retry")
          execute body remaining (attempt + 1) (some e)
      | .nonRetryable _ => pure (.rejected attempt e)
      | e => raise e

/-- How a message was settled.  `DeadLetterQueue.send` swallows the failure of its own publication,
so a dead-lettered message may not have been written. -/
inductive Settlement
  | processed
  | deadLettered (written : Bool)
  deriving DecidableEq

/-- `DeadLetterQueue.send`. -/
def sendDeadLetter (d : DeadLetter) : JobM Bool :=
  (do call (.sendDeadLetter d)
      call .flush
      pure true : JobM Bool).handle fun _ => pure false

def sendToDlq (raw : Json) (e : Exc) (retryCount : Nat) : JobM Settlement := do
  call (.log "embedding_job:dlq")
  let written ← sendDeadLetter ⟨raw, e, retryCount⟩
  call .flush
  return .deadLettered written

/-- `process_message`.  The source returns `True` in all three cases. -/
def processMessage (cfg : JobConfig) (raw : Json) : JobM Settlement := do
  let ended ← execute (processJobOnce cfg raw) (max 1 cfg.kafkaMaxRetries) 0 none
  match ended with
  | .done => pure .processed
  | .rejected attempt e => sendToDlq raw e (max 1 (attempt + 1))
  | .exhausted attempts last =>
    sendToDlq raw (last.getD (.retryable "Embedding job retries exhausted")) (max 1 attempts)

end RagForge.Embedding
