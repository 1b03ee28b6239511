import RagForge.Files.Service

/-
The requests that report progress, delete a file or reset one of its stages (`_file_update.py`,
`_file_delete.py`), and the dispatch of requests by their action (`file_service.py`).
-/

namespace RagForge.Files

open Py Effect

/-! ## The overall status -/

def requiredStages : List String :=
  ["extraction", "embedding", "semantic", "vector", "summary", "metadata"]

/-- The condition of `_check_and_update_overall_status` on the stages.  A file from before reviews
and chunking has neither stage. -/
def FileDoc.stagesDone (f : FileDoc) : Bool :=
  (f.stage.get? "review").getD "done" == "done" &&
    (f.stage.get? "chunking").getD "done" == "done" &&
    requiredStages.all fun name => (f.stage.get? name).getD "waiting" == "done"

def FileStatus.held : FileStatus → Bool
  | .awaitingReview | .rejected | .error => true
  | _ => false

section

variable (cfg : Config) (fileId : String) (file : Row FileDoc)

def checkAndUpdateOverallStatus : FilesM Unit := do
  let file : Option (Row FileDoc) ← call (.getFile fileId)
  match file with
  | none => pure ()
  | some file =>
    if file.doc.status.held then pure ()
    else if file.doc.stagesDone then do
      let _ ← call (.updateFile fileId fun f => { f with status := .complete })
      pure ()
    else pure ()

/-! ## Progress -/

def checkAfter (updated : Bool) : FilesM Unit :=
  if updated then checkAndUpdateOverallStatus fileId else pure ()

def handleUpdateStage (fileId stageName status : String) : FilesM Unit :=
  if fileId = "" ∨ stageName = "" then pure ()
  else do
    let updated : Bool ← call (.updateStage fileId stageName status)
    checkAfter fileId updated

def handleUpdateSummary (fileId summary : String) : FilesM Unit :=
  if fileId = "" then pure ()
  else do
    let updated : Bool ← call (.updateFile fileId fun f =>
      { f with summary := summary }.setStage "summary" "done")
    checkAfter fileId updated

def handleUpdateMetadata (keywords : List String) : FilesM Unit :=
  if fileId = "" then pure ()
  else do
    let updated : Bool ← call (.updateFile fileId fun f =>
      { f with keywords := keywords }.setStage "metadata" "done")
    checkAfter fileId updated

/-! ## Deletion and reruns -/

inductive UpdateReply
  | failed (message : String)
  | success (message : String)

def deletionEvent (actor : Actor) (eventType : AuditType)
    (reason : String) (details : Json) : FilesM Unit :=
  call (.insertAuditEvent file.owner
    { fileId := fileId
      documentId := file.doc.document fileId
      taskId := file.doc.currentTaskId
      reviewCaseId := none
      decisionId := none
      eventType := eventType
      fromStatus := none
      toStatus := none
      actor := actor
      reason := reason
      details := details })

def deleteFile : FilesM UpdateReply := do
  let who ← Proc.read (S := sig)
  let path ← check (storedPath cfg who.tenantId ⟨fileId, file, "", who.actor⟩)
  removeStored path
  let deleted : Nat ← call (.deleteChunksForFile fileId)
  let _ ← call (.deleteFile fileId)
  deletionEvent fileId file who.actor .vectorDeleteRequested
    "Vector cleanup requested by explicit delete flow." (.obj [("reason", .str "explicit_delete")])
  deletionEvent fileId file who.actor .cleanupCompleted "File deleted through legacy delete flow."
    (.obj [("deleted_chunks", .num deleted), ("reason", .str "explicit_delete")])
  publishMessages [.vectorDeleteRequested fileId (file.doc.document fileId) file.doc.currentTaskId
    "explicit_delete"]
  return .success "File deleted successfully"

def handleDelete : FilesM UpdateReply :=
  if fileId = "" then pure (.failed "file_id is required")
  else do
    let file : Option (Row FileDoc) ← call (.getFile fileId)
    match file with
    | none => pure (.failed "File not found")
    | some file => deleteFile cfg fileId file

end

def handleRerunStage (fileId stageName : String) : FilesM UpdateReply :=
  if fileId = "" ∨ stageName = "" then pure (.failed "file_id and stage are required")
  else do
    let file : Option (Row FileDoc) ← call (.getFile fileId)
    match file with
    | none => pure (.failed "File not found")
    | some file => do
        let updated : Bool ← call (.updateStage fileId stageName "waiting")
        if updated then do
          if stageName = "extraction" then
            publishMessages [.extract fileId (file.doc.document fileId)
              (file.doc.currentTaskId.getD "") file.doc.path file.doc.filename]
          return .success ("Stage " ++ stageName ++ " reset and triggered")
        else return .failed "Failed to update stage"

/-! ## Dispatch -/

/-- The requests that write, with their payloads. -/
inductive Action
  | startFileIngestion (u : Upload)
  | completeExtraction (fileId : String) (taskId : Option String) (e : Extraction)
  | submitReviewDecision (fileId reviewCaseId : String) (p : DecisionPayload)
  | updateStage (fileId stageName status : String)
  | updateSummary (fileId summary : String)
  | updateMetadata (fileId : String) (keywords : List String)
  | delete (fileId : String)
  | rerunStage (fileId stageName : String)

/-- The actions of `admin_actions`. -/
def Action.administrative : Action → Bool
  | .submitReviewDecision .. | .delete _ | .rerunStage .. => true
  | _ => false

def authorizeAction (who : Identity) (a : Action) : Except Err Unit :=
  if a.administrative ∧ who.role = .user then .error (.validation "Administrator role required")
  else .ok ()

def Action.code (cfg : Config) : Action → FilesM Unit
  | .startFileIngestion u => do
      let _ ← handleStartFileIngestion cfg u
      return ()
  | .completeExtraction fileId taskId e => do
      let _ ← handleCompleteExtraction cfg fileId taskId e
      return ()
  | .submitReviewDecision fileId reviewCaseId p => do
      let _ ← handleSubmitReviewDecision cfg fileId reviewCaseId p
      return ()
  | .updateStage fileId stageName status => handleUpdateStage fileId stageName status
  | .updateSummary fileId summary => handleUpdateSummary fileId summary
  | .updateMetadata fileId keywords => handleUpdateMetadata fileId keywords
  | .delete fileId => do
      let _ ← handleDelete cfg fileId
      return ()
  | .rerunStage fileId stageName => do
      let _ ← handleRerunStage fileId stageName
      return ()

/-- `process_request` for the identity of a verified ticket. -/
def processRequest (cfg : Config) (a : Action) : FilesM Unit := do
  let who ← Proc.read (S := sig)
  check (authorizeAction who a)
  a.code cfg

end RagForge.Files
