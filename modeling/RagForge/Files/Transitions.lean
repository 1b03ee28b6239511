import RagForge.Files.Repository

/-
The steps of an ingestion task and the writes that record them (`services/ingestion_state.py`).
-/

namespace RagForge.Files

open Py Effect

/-- `ALLOWED_INGESTION_TRANSITIONS`. -/
def IngestionState.allowed : IngestionState → List IngestionState
  | .loadExtractionResult => [.detectIssues]
  | .detectIssues => [.awaitHumanReview, .chunkText]
  | .awaitHumanReview => [.applyDecision]
  | .applyDecision => [.chunkText, .finalize]
  | .chunkText => [.requestEmbeddings]
  | .requestEmbeddings => [.finalize]
  | .finalize => []

def transitionIngestionState (current target : IngestionState) : Except Err IngestionState :=
  if target ∈ current.allowed then .ok target
  else .error (.value ("Invalid ingestion transition: " ++ current.text ++ " -> " ++ target.text))

section

variable (status : TaskStatus) (taskId : String) (task : TaskDoc) (state : GraphState)

/-- `_transition`: the step is checked against the caller's copy of the task, and both the stored
task and the copy are updated. -/
def transition (target : IngestionState) (updates : TaskDoc → TaskDoc) : FilesM TaskDoc := do
  let next ← check (transitionIngestionState task.currentNode target)
  let set : TaskDoc → TaskDoc := fun t =>
    { updates t with currentNode := next, graphState := state }
  let _ ← call (.updateTask taskId set)
  return set task

def beginIssueDetection : FilesM TaskDoc :=
  transition taskId task state .detectIssues fun t => { t with status := .running }

structure ResumeToken where
  tokenHash : String
  expiresAt : Nat

def pauseForReview (checkpointId : String) (token : ResumeToken) : FilesM TaskDoc :=
  transition taskId task state .awaitHumanReview fun t =>
    { t with
      status := .waitingForReview
      checkpointId := some checkpointId
      resumeTokenHash := some token.tokenHash
      resumeTokenExpiresAt := some token.expiresAt }

def resumeReview : FilesM TaskDoc :=
  transition taskId task state .applyDecision fun t =>
    { t with
      status := .resuming
      checkpointId := none
      resumeTokenHash := none
      resumeTokenExpiresAt := none }

def beginChunking : FilesM TaskDoc :=
  transition taskId task state .chunkText fun t => { t with status := .running }

def requestEmbeddings : FilesM TaskDoc :=
  transition taskId task state .requestEmbeddings fun t => { t with status := .running }

/-- `finalize` and `finalize_rejected`, which differ in the status. -/
def finalizeAs : FilesM TaskDoc := do
  let now : Nat ← call .now
  transition taskId task state .finalize fun t =>
    { t with status := status, completedAt := some now }

def finalize : FilesM TaskDoc :=
  finalizeAs .completed taskId task state

def finalizeRejected : FilesM TaskDoc :=
  finalizeAs .rejected taskId task state

end

end RagForge.Files
