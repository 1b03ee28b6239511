import RagForge.Effect.Logic
import RagForge.Vector.Service

/-
What the vector service does with an upsert or a delete (`upsert_chunks`, `delete_chunks` and the
Kafka handlers of `vector_service.py`).

The store and the producer are operations that may raise.  The identity bound to the request is the
local variable of the code.
-/

namespace RagForge.Vector

open Py Files RagForge.Embedding Effect

/-! ## Requests -/

inductive ReviewOutcome
  | none
  | removeProblematicText
  | acceptAsIs
  | other (name : String)
  deriving DecidableEq

structure UpsertRequest where
  chunks : List EmbeddedChunk
  reviewOutcome : ReviewOutcome
  targetFilters : Filters
  replyTo : Option String

def UpsertRequest.ofEnvelope (u : Upsert) : UpsertRequest := ⟨u.chunks, .none, [], none⟩

inductive DeleteOutcome
  | none
  | deleteFile

structure DeleteRequest where
  filters : Filters
  reviewOutcome : DeleteOutcome
  replyTo : Option String

inductive KafkaRequest
  | upsert (req : UpsertRequest)
  | delete (req : DeleteRequest)

def KafkaRequest.replyTo : KafkaRequest → Option String
  | .upsert req => req.replyTo
  | .delete req => req.replyTo

structure UpsertResult where
  collectionName : String
  upsertedCount : Nat
  deletedCount : Nat
  documentId : String
  fileId : String
  reviewOutcome : ReviewOutcome

/-- The payload of `UpsertCompletedEvent`. -/
structure UpsertCompleted where
  status : String
  collectionName : String
  documentId : Option String
  fileId : Option String
  reviewOutcome : ReviewOutcome
  upsertedCount : Nat
  deletedCount : Nat
  message : String
  error : Option String

inductive ReplyPayload
  | upserted (result : UpsertResult)
  | deleted (count : Nat) (collectionName : String) (filters : Filters) (outcome : DeleteOutcome)
  | error (message : String)

/-! ## Operations -/

inductive Exc
  | service (e : Err)
  | validation (message : String)
  | store (e : StoreErr)
  | other (message : String)

inductive Op
  | upsertChunks (chunks : List EmbeddedChunk)
  | deleteChunks (filters : Filters)
  | sendReply (replyTo : String) (payload : ReplyPayload)
  | sendUpsertCompleted (event : UpsertCompleted)
  | sendStageUpdate (s : StageUpdate)
  | flush

@[reducible] def Op.Reply : Op → Type
  | .upsertChunks _ | .deleteChunks _ => Nat
  | .sendReply .. | .sendUpsertCompleted _ | .sendStageUpdate _ | .flush => Unit

structure Call where
  who : Option Identity
  op : Op

def sig : Sig := ⟨Call, fun c => c.op.Reply, Exc⟩

abbrev VectorM (α : Type) : Type := Proc sig (Option Identity) α

def call (op : Op) : VectorM op.Reply := fun who =>
  Proc.perform (S := sig) (⟨who, op⟩ : Call) who

def raise {α : Type} (e : Exc) : VectorM α := Proc.raise (S := sig) e

def check {α : Type} (x : Except Err α) : VectorM α :=
  Proc.ofExcept (S := sig) (x.mapError .service)

/-! ## Ownership -/

/-- `_owned_chunks` for one chunk.  The chunk of a request has every key, so the default owner that
an administrator's chunk would get is never set. -/
def ownedChunk (who : Identity) (c : EmbeddedChunk) : Except Err EmbeddedChunk :=
  if c.tenantId.getD "" ≠ "" ∧ c.tenantId ≠ some who.tenantId then
    .error (.invalidVector "Cross-tenant chunk write denied")
  else
    match who.role with
    | .admin =>
      if c.ownerAdminId = none ∨ c.ownerAdminId = some who.userId then
        .ok { c with tenantId := some who.tenantId, ownerAdminId := some who.userId }
      else .error (.invalidVector "Chunk is outside the administrator scope")
    | .service =>
      if c.ownerUserId.getD "" = "" ∨ c.ownerAdminId.getD "" = "" then
        .error (.invalidVector "Service chunk writes require explicit ownership")
      else .ok { c with tenantId := some who.tenantId }
    | .user =>
      .ok { c with
        tenantId := some who.tenantId
        ownerUserId := some who.userId
        ownerAdminId := some (optOr who.adminId who.userId) }

def ownedChunks (who : Option Identity) (chunks : List EmbeddedChunk) :
    Except Err (List EmbeddedChunk) :=
  match who with
  | none => .ok chunks
  | some who => chunks.mapM (ownedChunk who)

def privileged : Option Identity → Bool
  | none => true
  | some who => who.role != .user

/-! ## The two operations of the service -/

section

variable (cfg : StoreConfig)

def storeFailure (failure : String) : Exc → Exc
  | .store (.value m) => .service (.invalidVector m)
  | .store (.engine m) | .other m => .service (.vectorStore (failure ++ m))
  | e => e

def deleteChunks (filters : Filters) : VectorM Nat := do
  let who ← Proc.read (S := sig)
  if privileged who then
    Proc.handle (call (.deleteChunks (scopedFilters who filters))) fun e =>
      raise (storeFailure "Failed to delete chunks: " e)
  else raise (.service (.invalidVector "Administrator role required for chunk deletion"))

/-- What the review outcome does before the chunks are written: the number of chunks it deleted and
the status it gives to the new ones. -/
def applyReviewOutcome (req : UpsertRequest) : VectorM (Nat × (ChunkReview → ChunkReview)) :=
  match req.reviewOutcome with
  | .none => pure (0, id)
  | .acceptAsIs => pure (0, fun _ => .acceptedWithRisk)
  | .removeProblematicText =>
    if req.targetFilters = [] then
      raise (.service (.invalidVector "target_filters is required for remove_problematic_text"))
    else do
      let deleted ← deleteChunks req.targetFilters
      return (deleted, fun _ => .sanitized)
  | .other name => raise (.service (.invalidVector ("Unsupported review_outcome: " ++ name)))

def upsertChunks (req : UpsertRequest) : VectorM UpsertResult := do
  if req.chunks = [] then raise (.service (.invalidVector "chunks is required"))
  else
    let who ← Proc.read (S := sig)
    if req.reviewOutcome ≠ .none ∧ privileged who = false then
      raise (.service (.invalidVector "Administrator role required for review decisions"))
    else
      let prepared ← check (ownedChunks who req.chunks)
      let (deleted, status) ← applyReviewOutcome req
      let prepared := prepared.map fun c => { c with reviewStatus := status c.reviewStatus }
      let count : Nat ← Proc.handle (call (.upsertChunks prepared)) fun e =>
        raise (storeFailure "Failed to upsert chunks: " e)
      return {
        collectionName := cfg.collectionName
        upsertedCount := count
        deletedCount := deleted
        documentId := (prepared.head?.map fun c => c.documentId).getD ""
        fileId := (prepared.head?.map fun c => c.fileId).getD ""
        reviewOutcome := req.reviewOutcome }

/-! ## Kafka handlers -/

/-- A reply is sent only to a caller that waits for one. -/
def sendReply (replyTo : Option String) (payload : ReplyPayload) : VectorM Unit :=
  if replyTo.getD "" = "" then pure ()
  else do
    call (.sendReply (replyTo.getD "") payload)
    call .flush

def publishUpsertCompleted (event : UpsertCompleted) : VectorM Unit := do
  call (.sendUpsertCompleted event)
  call .flush

def upsertCompletionStages : List String := ["semantic", "vector"]

def publishFilesStageUpdates (fileId : String) : VectorM Unit :=
  if fileId = "" then pure ()
  else do
    Proc.forEach upsertCompletionStages fun stage => call (.sendStageUpdate ⟨fileId, stage, "done"⟩)
    call .flush

def handleUpsertRequest (req : UpsertRequest) : VectorM Unit := do
  let result ← upsertChunks cfg req
  sendReply req.replyTo (.upserted result)
  publishUpsertCompleted
    { status := "success"
      collectionName := cfg.collectionName
      documentId := some result.documentId
      fileId := some result.fileId
      reviewOutcome := req.reviewOutcome
      upsertedCount := result.upsertedCount
      deletedCount := result.deletedCount
      message := "Chunk upsert completed"
      error := none }
  publishFilesStageUpdates result.fileId

def validateDelete (filters : Filters) : Except Exc Unit :=
  if ["file_id", "document_id"].filterMap (deleteValue filters) = [] then
    .error (.validation "filters must include file_id, document_id, or both")
  else .ok ()

def handleDeleteRequest (req : DeleteRequest) : VectorM Unit := do
  (Proc.ofExcept (S := sig) (validateDelete req.filters) : VectorM Unit)
  let deleted ← deleteChunks req.filters
  sendReply req.replyTo (.deleted deleted cfg.collectionName req.filters req.reviewOutcome)

def handleRequest : KafkaRequest → VectorM Unit
  | .upsert req => handleUpsertRequest cfg req
  | .delete req => handleDeleteRequest cfg req

/-- What follows an error of the request itself. -/
def reportFailure (req : KafkaRequest) (message : String) : VectorM Unit := do
  sendReply req.replyTo (.error message)
  match req with
  | .delete _ => pure ()
  | .upsert req =>
    publishUpsertCompleted
      { status := "error"
        collectionName := cfg.collectionName
        documentId := none
        fileId := none
        reviewOutcome := req.reviewOutcome
        upsertedCount := 0
        deletedCount := 0
        message := "Chunk upsert failed"
        error := some message }

/-- `process_kafka_message` on the topics for upserts and deletes.  Errors of the request end it;
any other exception leaves it. -/
def processKafkaMessage (req : KafkaRequest) : VectorM Unit :=
  Proc.handle (handleRequest cfg req) fun e =>
    match e with
    | .service e => reportFailure cfg req e.text
    | .validation m => reportFailure cfg req m
    | e => raise e

/-- The filters that a cleanup event of the files service is turned into. -/
def cleanupFilters (fileId documentId : String) : Filters :=
  [("file_id", fileId), ("document_id", documentId)].filterMap fun e =>
    if e.2 = "" then none else some (e.1, .one (.str e.2))

/-- `_normalize_delete_topic_request` on a cleanup event. -/
def DeleteRequest.ofCleanup (fileId documentId : String) : DeleteRequest :=
  ⟨cleanupFilters fileId documentId, .deleteFile, none⟩

end

/-! ## What a chunk is written as -/

variable {α β ε : Type} {f : α → Except ε β} {xs : List α}

theorem forall₂_of_mapM :
    ∀ {ys : List β}, xs.mapM f = .ok ys → List.Forall₂ (fun x y => f x = .ok y) xs ys := by
  induction xs with
  | nil =>
    intro ys h
    obtain rfl : [] = ys := Except.ok.inj h
    exact .nil
  | cons a rest ih =>
    intro ys h
    rw [List.mapM_cons] at h
    cases ha : f a with
    | error e =>
      rw [ha] at h
      cases h
    | ok b =>
      rw [ha] at h
      cases hrest : rest.mapM f with
      | error e =>
        rw [hrest] at h
        cases h
      | ok bs =>
        rw [hrest] at h
        obtain rfl : b :: bs = ys := Except.ok.inj h
        exact .cons ha (ih hrest)

variable {ys : List β}

theorem exists_mem_of_forall₂ {R : α → β → Prop}
    (h : List.Forall₂ R xs ys) : ∀ x ∈ xs, ∃ y ∈ ys, R x y := by
  induction h with
  | nil => exact nofun
  | @cons a b _ bs hab _ ih =>
    intro x hx
    rcases List.mem_cons.mp hx with rfl | hx
    · exact ⟨b, List.mem_cons_self, hab⟩
    · obtain ⟨y, hy, hxy⟩ := ih x hx
      exact ⟨y, List.mem_cons_of_mem b hy, hxy⟩

theorem exists_image_of_mapM (h : xs.mapM f = .ok ys) : ∀ x ∈ xs, ∃ y ∈ ys, f x = .ok y :=
  exists_mem_of_forall₂ (forall₂_of_mapM h)

theorem exists_source_of_mapM (h : xs.mapM f = .ok ys) : ∀ y ∈ ys, ∃ x ∈ xs, f x = .ok y :=
  exists_mem_of_forall₂ (forall₂_of_mapM h).flip

/-- The chunk is `c` with its ownership settled. -/
def EmbeddedChunk.Restamps (y c : EmbeddedChunk) : Prop :=
  ∃ tenant user admin, y = { c with tenantId := tenant, ownerUserId := user, ownerAdminId := admin }

theorem ownedChunk_restamps {who : Identity} {c y : EmbeddedChunk} (h : ownedChunk who c = .ok y) :
    EmbeddedChunk.Restamps y c ∧ y.tenantId = some who.tenantId := by
  unfold ownedChunk at h
  split at h
  · cases h
  · split at h
    · split at h
      · cases h
        exact ⟨⟨_, _, _, rfl⟩, rfl⟩
      · cases h
    · split at h
      · cases h
      · cases h
        exact ⟨⟨_, _, _, rfl⟩, rfl⟩
    · cases h
      exact ⟨⟨_, _, _, rfl⟩, rfl⟩

end RagForge.Vector
