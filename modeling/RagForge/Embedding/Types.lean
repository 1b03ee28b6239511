import RagForge.Files.Types

/-
The messages of the embedding-job path (`embedding/app/schemas/embedding_job.py`).
-/

namespace RagForge.Embedding

open Files

abbrev Vec : Type := List Rat

structure JobChunk where
  fileId : String
  documentId : String
  chunkId : String
  chunkIndex : Int
  chunkVersion : Int
  text : String
  textPreview : String
  sourceName : String
  page : Option Int
  sectionName : Option String
  retrievalAllowed : Bool
  reviewStatus : ChunkReview
  issueFlags : List String
  createdAt : String
  tenantId : Option String
  ownerUserId : Option String
  ownerAdminId : Option String
  deriving DecidableEq

/-- `EmbeddedJobChunk`, which is also what the vector service accepts for an upsert. -/
structure EmbeddedChunk extends JobChunk where
  embedding : Vec
  deriving DecidableEq

/-- `EmbeddingJobRequestedEnvelope` with its payload. -/
structure JobEnvelope where
  messageId : String
  requestId : String
  traceId : String
  correlationId : String
  jobId : String
  fileId : String
  documentId : String
  chunks : List JobChunk

/-- `VectorDbUpsertRequestedEnvelope`. -/
structure Upsert where
  requestId : String
  traceId : String
  correlationId : String
  collectionName : String
  chunks : List EmbeddedChunk

/-- `EmbeddingJobsCompletedEnvelope`. -/
structure Completed where
  requestId : String
  traceId : String
  correlationId : String
  jobId : String
  fileId : String
  documentId : String
  requestedChunks : Nat
  embeddedChunks : Nat
  skippedChunks : Nat
  batchesProcessed : Nat
  modelName : String
  vectorDimensions : Nat

structure StageUpdate where
  fileId : String
  stage : String
  status : String

end RagForge.Embedding
