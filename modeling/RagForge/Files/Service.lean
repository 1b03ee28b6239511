import RagForge.Files.ReviewDecision

/-
The request handlers of the files service around the state machine (`services/_file_*.py`).
-/

namespace RagForge.Files

open Py Effect

/-! ## Shared helpers -/

def publishMessages (messages : List Message) : FilesM Unit := do
  Proc.forEach messages fun m => call (.send m)
  if messages = [] then pure () else call .flush

def writeIngestionFailureEvent (x : Target) (reviewCaseId : Option String) (e : Err) :
    FilesM Unit :=
  Proc.handle
    (writeAuditEvent x .graphFailed "The file ingestion workflow failed."
      (.obj [("error", .str e.text), ("error_type", .str e.typeName)]) ⟨reviewCaseId, none⟩ none
      none)
    fun _ => pure ()

/-! ## Starting -/

/-- What an upload brings: the decoded content, text that is no base64, or the path of a stored file
with its size if there is such a file. -/
inductive Content
  | bytes (size : Nat)
  | undecodable
  | stored (path : String) (size : Option Nat)

structure Upload where
  filename : Option String
  fileId : Option String
  documentId : Option String
  taskId : Option String
  content : Option Content
  context : RequestContext

def basename (path : String) : String := String.ofList (path.toList.rtakeWhile (· ≠ '/'))

def uploadName (u : Upload) : Except Err String :=
  let name := strip (basename (optOr u.filename "unknown"))
  if name = "" ∨ name = "." ∨ name = ".." ∨ '\x00' ∈ name.toList ∨ 255 < name.toList.length then
    .error (.validation "Invalid filename")
  else .ok name

def pathText (components : List String) : String := "/" ++ "/".intercalate components

def getFilePath (cfg : Config) (tenantId fileId : String) : Except Err (List String) :=
  if cfg.safeId tenantId = "" ∨ cfg.safeId tenantId ≠ tenantId ∨ cfg.safeId fileId = "" ∨
      cfg.safeId fileId ≠ fileId then
    .error (.validation "Invalid tenant or file identifier")
  else
    let target := cfg.resolvePath (cfg.uploadDir ++ "/" ++ tenantId ++ "/" ++ fileId)
    if cfg.resolvePath cfg.uploadDir <+: target then .ok target
    else .error (.validation "Invalid upload path")

def uploadPath (cfg : Config) (tenantId fileId filename : String) :
    Option Content → Except Err String
  | none | some (.stored "" _) =>
    .error (.validation "File content or path is required to start ingestion")
  | some .undecodable => .error (.validation "Invalid file content encoding")
  | some (.bytes size) =>
    if cfg.maxUploadBytes < size then
      .error (.validation "File exceeds the configured upload size limit")
    else (getFilePath cfg tenantId fileId).map fun dir => pathText (dir ++ [filename])
  | some (.stored path size) => do
      let managed ← validateManagedFilePath cfg tenantId fileId path
      match size with
      | none => .error (.validation "Managed file path does not exist")
      | some size =>
        if cfg.maxUploadBytes < size then
          .error (.validation "File exceeds the configured upload size limit")
        else .ok (pathText managed)

def stageNames : List String :=
  ["extraction", "review", "chunking", "summary", "embedding", "semantic", "vector", "metadata"]

/-- `create_file_document` with what `handle_start_file_ingestion` sets on it. -/
def createFileDocument (documentId filename path taskId : String) (now : Nat) : FileDoc where
  documentId := some documentId
  filename := filename
  path := path
  status := .started
  reviewStatus := .notRequired
  currentTaskId := some taskId
  latestReviewCaseId := none
  sanitizedTextVersion := 0
  acceptedRiskCategories := []
  stage := Dict.set (stageNames.map fun name => (name, "waiting")) "extraction" "running"
  summary := ""
  keywords := []
  updatedAt := now

def createFileTaskDocument (fileId documentId graphRunId : String) (context : RequestContext)
    (now : Nat) : TaskDoc where
  fileId := fileId
  documentId := documentId
  graphRunId := graphRunId
  status := .queued
  currentNode := .loadExtractionResult
  checkpointId := none
  resumeTokenHash := none
  resumeTokenExpiresAt := none
  graphState :=
    { extractedText := none, extractedTextHash := none, sanitizedText := none
      sanitizedTextVersion := 0, issueFindings := [], reviewRequired := false
      reviewCaseId := none, reviewDecision := none, redactionPatchMap := [], chunkIds := []
      embeddingJobIds := [], cleanupRequired := false, context := context }
  completedAt := none
  updatedAt := now

/-- `payload.get(key) or generate_id()`. -/
def givenOrNew (given : Option String) : FilesM String :=
  if given.getD "" = "" then call .newId else pure (given.getD "")

/-- `handle_start_file_ingestion`, with the identifiers of the file and its task. -/
def handleStartFileIngestion (cfg : Config) (u : Upload) : FilesM (String × String) := do
  let who ← Proc.read (S := sig)
  let filename ← check (uploadName u)
  let fileId ← givenOrNew u.fileId
  let documentId := optOr u.documentId fileId
  let path ← check (uploadPath cfg who.tenantId fileId filename u.content)
  let now : Nat ← call .now
  let taskId ← givenOrNew u.taskId
  let graphRunId : String ← call .newId
  let doc := createFileDocument documentId filename path taskId now
  -- The documents come without an owner; the repository stamps the caller's.
  let unowned : Ownership := ⟨none, none⟩
  call (.createFile fileId unowned doc)
  call (.createTask taskId unowned
    (createFileTaskDocument fileId documentId graphRunId u.context now))
  writeAuditEvent ⟨fileId, ⟨unowned, doc⟩, taskId, who.actor⟩ .fileUploaded
    "File ingestion started." (.obj [("path", .str path)]) .none none (some .started)
  publishMessages [.extract fileId documentId taskId path filename]
  return (fileId, taskId)

/-! ## Extraction results and review decisions -/

structure ExtractionReply where
  taskId : String
  status : FileStatus
  reviewStatus : ReviewStatus
  latestReviewCaseId : Option String

/-- `handle_complete_extraction`, which replies only to a request with a correlation id. -/
def handleCompleteExtraction (cfg : Config) (fileId : String) (taskId : Option String)
    (e : Extraction) : FilesM (Option ExtractionReply) := do
  let who ← Proc.read (S := sig)
  if fileId = "" then raise (.validation "file_id is required")
  else
    let file : Option (Row FileDoc) ← call (.getFile fileId)
    let taskId := optOr taskId ((file.bind fun f => f.doc.currentTaskId).getD "")
    let task : Option (Row TaskDoc) ← call (.getTask taskId)
    match file, task with
    | some file, some _ =>
      let outbound ← Proc.handle (handleExtractionCompletion cfg fileId taskId e who.actor)
        fun err => do
          writeIngestionFailureEvent ⟨fileId, file, taskId, who.actor⟩ none err
          raise err
      publishMessages outbound
      if e.context.correlationId.getD "" = "" then return none
      else
        let refreshed : Option (Row FileDoc) ← call (.getFile fileId)
        let doc := (refreshed.getD file).doc
        return some ⟨taskId, doc.status, doc.reviewStatus, doc.latestReviewCaseId⟩
    | _, _ => raise (.notFound "File task not found")

inductive DecisionReply
  | failed (message : String)
  | applied (decisionId : Option String) (fileStatus : FileStatus) (reviewStatus : ReviewStatus)
      (taskStatus : Option TaskStatus)

def finishReviewDecision (fileId taskId reviewCaseId : String) (file : Row FileDoc)
    (outbound : List Message) : FilesM DecisionReply := do
  publishMessages outbound
  let refreshed : Option (Row FileDoc) ← call (.getFile fileId)
  let latest : Option (Row Decision) ← call (.getLatestReviewDecision reviewCaseId)
  let task : Option (Row TaskDoc) ← call (.getTask taskId)
  let file := refreshed.getD file
  return .applied (latest.map fun d => d.doc.decisionId) file.doc.status file.doc.reviewStatus
    (task.map fun t => t.doc.status)

def handleSubmitReviewDecision (cfg : Config) (fileId reviewCaseId : String)
    (p : DecisionPayload) : FilesM DecisionReply := do
  let who ← Proc.read (S := sig)
  if fileId = "" ∨ reviewCaseId = "" then
    return .failed "file_id and review_case_id are required"
  else
    let file : Option (Row FileDoc) ← call (.getFile fileId)
    let case : Option (Row ReviewCase) ← call (.getReviewCase reviewCaseId)
    match file, case with
    | some file, some case =>
      let taskId := optOr file.doc.currentTaskId case.doc.taskId
      if taskId = "" then return .failed "File task not found"
      else
        let task : Option (Row TaskDoc) ← call (.getTask taskId)
        match task with
        | none => return .failed "File task not found"
        | some _ =>
          let outbound ← Proc.handle
            (handleReviewDecision cfg fileId taskId reviewCaseId p who.actor) fun err => do
              writeIngestionFailureEvent ⟨fileId, file, taskId, who.actor⟩
                (some reviewCaseId) err
              raise err
          finishReviewDecision fileId taskId reviewCaseId file outbound
    | _, _ => return .failed "Review case not found"

/-! ## Code of plain calls -/

/-- Calls that concern neither reviews nor stages nor jobs. -/
def StoreOp.plain : StoreOp → Bool
  | .getTask _ | .getLatestReviewDecision _ | .getNextChunkVersion _ | .createTask ..
  | .insertAuditEvent .. | .updateTask .. | .deleteFile _ | .deleteChunksForFile _ | .flush
  | .removeStoredFile _ | .newId | .newToken | .now => true
  | .send m => !m.isJob
  | _ => false

section Plain

variable {σ : Type} {A : Logic sig σ} {s : σ}
  (h : ∀ {op : StoreOp}, op.plain = true → Still A s (call op) fun _ => True) {state : GraphState}
  {task : TaskDoc} {x : Target} {taskId : String}
include h

theorem plain_audit {eventType : AuditType} {reason : String} {details : Json} {ref : ReviewRef}
    {a b : Option FileStatus} :
    Still A s (writeAuditEvent x eventType reason details ref a b) fun _ => True := h rfl

theorem plain_transition {target : IngestionState} {updates : TaskDoc → TaskDoc} :
    Still A s (transition taskId task state target updates) fun _ => True := by
  refine (Still.ofExcept fun _ _ => trivial).bind fun next _ => ?_
  exact (h rfl).bind fun _ _ => .pure trivial

theorem plain_finalizeAs {status : TaskStatus} :
    Still A s (finalizeAs status taskId task state) fun _ => True := by
  exact (h rfl).bind fun now _ => plain_transition h

theorem plain_removeStored {path : Option (List String)} :
    Still A s (removeStored path) fun _ => True := by
  cases path with
  | none => exact .pure trivial
  | some path => exact h rfl

theorem plain_failureEvent {reviewCaseId : Option String} {e : Err} :
    Still A s (writeIngestionFailureEvent x reviewCaseId e) fun _ => True :=
  (plain_audit h).handle fun _ => .pure trivial

end Plain

end RagForge.Files
