import RagForge.Store.Table
import RagForge.Py.Value

/-
The documents of the files service and the messages it sends.
-/

namespace RagForge.Files

open Py Store

/-! ## Identities and ownership -/

inductive Role
  | user
  | admin
  | service
  deriving DecidableEq

/-- `AuthIdentity`: whom the current request acts for. -/
structure Identity where
  tenantId : String
  userId : String
  role : Role
  adminId : Option String
  email : Option String

structure Actor where
  actorId : String
  actorType : Role
  displayName : String

def Identity.actor (who : Identity) : Actor where
  actorId := who.userId
  actorType := who.role
  displayName := optOr who.email who.userId

/-- The ownership fields of a document besides its tenant. -/
structure Ownership where
  userId : Option String
  adminId : Option String

/-- Documents of one tenant have distinct ids: the unique indexes of the collections. -/
structure DocKey where
  tenantId : String
  id : String
  deriving DecidableEq

structure Row (δ : Type) where
  owner : Ownership
  doc : δ

abbrev Collection (δ : Type) : Type := Table DocKey (Row δ)

def Identity.key (who : Identity) (id : String) : DocKey := ⟨who.tenantId, id⟩

/-- The ownership predicate of `_scope_filter`. -/
def Identity.sees {δ : Type} (who : Identity) (r : Row δ) : Bool :=
  match who.role with
  | .user => r.owner.userId == some who.userId
  | .admin => r.owner.adminId == some who.userId
  | .service => true

inductive Err
  | notFound (message : String)
  | validation (message : String)
  | database (message : String)
  | value (message : String)

def Err.text : Err → String
  | .notFound m | .validation m | .database m | .value m => m

def Err.typeName : Err → String
  | .notFound _ => "NotFoundError"
  | .validation _ => "ValidationError"
  | .database _ => "DatabaseException"
  | .value _ => "ValueError"

/-- `_scope_document`: the ownership a new document gets.  The tenant of the documents the handlers
write is always the one of the caller. -/
def scopeDocument (who : Identity) (o : Ownership) : Except Err Ownership :=
  match who.role with
  | .user => .ok ⟨some who.userId, some (optOr who.adminId who.userId)⟩
  | .admin =>
    if o.adminId = none ∨ o.adminId = some who.userId then
      .ok ⟨some (o.userId.getD who.userId), some who.userId⟩
    else .error (.database "Document is outside the administrator scope")
  | .service =>
    if o.userId.getD "" = "" ∨ o.adminId.getD "" = "" then
      .error (.database "Service document writes require explicit ownership")
    else .ok o

/-! ## Files -/

inductive FileStatus
  | started
  | processing
  | awaitingReview
  | rejected
  | complete
  | error
  deriving DecidableEq

inductive ReviewStatus
  | notRequired
  | pending
  | approvedSanitized
  | approvedAsIs
  | rejected

structure FileDoc where
  documentId : Option String
  filename : String
  path : String
  status : FileStatus
  reviewStatus : ReviewStatus
  currentTaskId : Option String
  latestReviewCaseId : Option String
  sanitizedTextVersion : Nat
  acceptedRiskCategories : List String
  stage : Dict String String
  summary : String
  keywords : List String
  updatedAt : Nat

/-- `file_doc.get("document_id") or file_doc["file_id"]`. -/
def FileDoc.document (f : FileDoc) (fileId : String) : String := optOr f.documentId fileId

def FileDoc.setStage (f : FileDoc) (name status : String) : FileDoc :=
  { f with stage := Dict.set f.stage name status }

/-! ## Reviews -/

inductive ReviewAction
  | deleteFile
  | removeProblematicText
  | acceptAsIs
  | other (name : String)
  deriving DecidableEq

/-- One entry of a patch map.  A bound that is not an integer and a replacement that is not a text
are `none`. -/
structure Patch where
  start : Option Int
  stop : Option Int
  replacement : Option String

structure Finding where
  category : String
  score : Rat
  threshold : Rat
  problemDescription : String
  whyProblematic : String
  spanStart : Nat
  spanEnd : Nat
  problematicText : String

inductive CaseStatus
  | isOpen
  | resolving
  | resolved
  deriving DecidableEq

inductive DecisionStatus
  | pending
  | resolving
  | decided (action : ReviewAction)
  deriving DecidableEq

structure Interrupt where
  graphRunId : String
  checkpointId : String
  resumeTokenHash : Option String
  resumeTokenExpiresAt : Option Nat

structure ReviewCase where
  fileId : String
  documentId : String
  taskId : String
  status : CaseStatus
  decisionStatus : DecisionStatus
  highestSeverityScore : Rat
  extractedTextHash : String
  problemDescription : String
  problematicText : String
  whyProblematic : String
  issueCategories : List Finding
  allowedActions : List ReviewAction
  redactionPatchMap : List Patch
  interrupt : Interrupt
  openedAt : Nat
  resolvedAt : Option Nat
  resolvedBy : Option Actor
  resolutionClaimId : Option String
  resolutionClaimedAt : Option Nat

structure Decision where
  decisionId : String
  fileId : String
  documentId : String
  taskId : String
  decision : ReviewAction
  comment : String
  basedOnTextHash : String
  submittedBy : Actor
  submittedPatchMap : List Patch
  createdAt : Nat

/-! ## Tasks -/

inductive IngestionState
  | loadExtractionResult
  | detectIssues
  | awaitHumanReview
  | applyDecision
  | chunkText
  | requestEmbeddings
  | finalize
  deriving DecidableEq

def IngestionState.text : IngestionState → String
  | .loadExtractionResult => "load_extraction_result"
  | .detectIssues => "detect_issues"
  | .awaitHumanReview => "await_human_review"
  | .applyDecision => "apply_decision"
  | .chunkText => "chunk_text"
  | .requestEmbeddings => "request_embeddings"
  | .finalize => "finalize"

inductive TaskStatus
  | queued
  | running
  | waitingForReview
  | resuming
  | completed
  | rejected

structure RequestContext where
  requestId : Option String
  traceId : Option String
  correlationId : Option String
  sourceService : Option String
  replyTo : Option String
  streamTo : Option String

/-- `_merge_request_context`. -/
def RequestContext.merge (old new : RequestContext) : RequestContext where
  requestId := new.requestId <|> old.requestId
  traceId := new.traceId <|> old.traceId
  correlationId := new.correlationId <|> old.correlationId
  sourceService := new.sourceService <|> old.sourceService
  replyTo := new.replyTo <|> old.replyTo
  streamTo := new.streamTo <|> old.streamTo

structure GraphState where
  extractedText : Option String
  extractedTextHash : Option String
  sanitizedText : Option String
  sanitizedTextVersion : Nat
  issueFindings : List Finding
  reviewRequired : Bool
  reviewCaseId : Option String
  reviewDecision : Option ReviewAction
  redactionPatchMap : List Patch
  chunkIds : List String
  embeddingJobIds : List String
  cleanupRequired : Bool
  context : RequestContext

structure TaskDoc where
  fileId : String
  documentId : String
  graphRunId : String
  status : TaskStatus
  currentNode : IngestionState
  checkpointId : Option String
  resumeTokenHash : Option String
  resumeTokenExpiresAt : Option Nat
  graphState : GraphState
  completedAt : Option Nat
  updatedAt : Nat

/-! ## Chunks, audit events and messages -/

inductive TextSource
  | original
  | sanitized

inductive ChunkReview
  | clean
  | sanitized
  | acceptedWithRisk
  | removed
  deriving DecidableEq

structure Chunk where
  chunkId : String
  fileId : String
  documentId : String
  taskId : String
  chunkIndex : Nat
  chunkVersion : Nat
  text : String
  textPreview : String
  textSource : TextSource
  charStart : Nat
  charEnd : Nat
  sourceName : String
  reviewStatus : ChunkReview
  retrievalAllowed : Bool
  issueFlags : List String
  redactionApplied : Bool

inductive AuditType
  | fileUploaded
  | extractionCompleted
  | issueDetected
  | reviewCaseCreated
  | ingestionPausedForReview
  | reviewDecisionSubmitted
  | graphResumed
  | fileRejected
  | vectorDeleteRequested
  | cleanupCompleted
  | fileSanitized
  | fileAcceptedWithRisk
  | chunkingCompleted
  | embeddingJobsRequested
  | ingestionCompleted
  | graphFailed

structure AuditEvent where
  fileId : String
  documentId : String
  taskId : Option String
  reviewCaseId : Option String
  decisionId : Option String
  eventType : AuditType
  fromStatus : Option FileStatus
  toStatus : Option FileStatus
  actor : Actor
  reason : String
  details : Json

structure EmbeddingJob where
  jobId : String
  fileId : String
  documentId : String
  chunks : List Chunk

inductive Message
  | extract (fileId documentId taskId path filename : String)
  | reviewRequired (fileId documentId taskId reviewCaseId : String) (categories : List String)
      (highestSeverityScore : Rat) (allowedActions : List ReviewAction)
  | chunkingCompleted (fileId documentId taskId : String) (chunkCount : Nat)
      (textSource : TextSource) (reviewCaseId : Option String)
  | processEmbeddingJob (job : EmbeddingJob)
  | vectorDeleteRequested (fileId documentId : String) (taskId : Option String) (reason : String)

def Message.isJob : Message → Bool
  | .processEmbeddingJob _ => true
  | _ => false

/-! ## What the service is configured with -/

/-- The settings, and what the service takes from the Python library: hashing, character classes
and the resolution of paths to their components.  `detect` is the issue detector. -/
structure Config where
  chunkSize : Int
  chunkOverlap : Int
  chunkPreviewMaxChars : Nat
  reviewSnippetMaxChars : Nat
  reviewResumeTokenTtlSeconds : Nat
  uploadDir : String
  maxUploadBytes : Nat
  hashText : String → String
  isAlnum : Char → Bool
  resolvePath : String → List String
  detect : String → Json → List Finding

end RagForge.Files
