import RagForge.Files.Transitions

/-
The ingestion state machine (`services/file_ingestion_state_machine.py`) on a standalone server: the
transaction yields no session, so the writes of a handler take effect one by one.
-/

namespace RagForge.Files

open Py Effect

structure Target where
  fileId : String
  file : Row FileDoc
  taskId : String
  actor : Actor

section

variable (cfg : Config) (x : Target) (task : TaskDoc) (state : GraphState) (plan : ChunkPlan)

def Target.document : String := x.file.doc.document x.fileId

structure ReviewRef where
  reviewCaseId : Option String
  decisionId : Option String

def ReviewRef.none : ReviewRef := ⟨.none, .none⟩

def writeAuditEvent (eventType : AuditType) (reason : String) (details : Json)
    (ref : ReviewRef) (fromStatus toStatus : Option FileStatus) : FilesM Unit :=
  call (.insertAuditEvent x.file.owner
    { fileId := x.fileId
      documentId := x.document
      taskId := some x.taskId
      reviewCaseId := ref.reviewCaseId
      decisionId := ref.decisionId
      eventType := eventType
      fromStatus := fromStatus
      toStatus := toStatus
      actor := x.actor
      reason := reason
      details := details })

/-! ## Findings -/

def enrichFindings (text : String) (findings : List Finding) : List Finding :=
  findings.map fun f =>
    { f with
      problematicText := buildSnippet text f.spanStart f.spanEnd cfg.reviewSnippetMaxChars }

def Finding.needsReview (f : Finding) : Bool := f.threshold ≤ f.score

/-- `max(findings, key=score)`: the first of those with the highest score. -/
def highestFinding : List Finding → Option Finding
  | [] => none
  | f :: rest => some (rest.foldl (fun best g => if best.score < g.score then g else best) f)

def defaultPatchMap (findings : List Finding) : List Patch :=
  (findings.filter fun f => f.spanStart < f.spanEnd).map fun f =>
    { start := some f.spanStart
      stop := some f.spanEnd
      replacement := some ("[REDACTED_" ++ upper f.category ++ "]") }

/-- `_issue_categories`: each category once, in the order of the findings. -/
def issueCategories (c : ReviewCase) : List String :=
  c.issueCategories.foldl
    (fun seen f => if f.category = "" ∨ f.category ∈ seen then seen else seen ++ [f.category]) []

/-! ## Chunking -/

/-- How the text of a file came to be chunked. -/
structure ChunkPlan where
  textSource : TextSource
  reviewStatus : ChunkReview
  issueFlags : List String
  redactionApplied : Bool
  ref : ReviewRef

/-- The text `_complete_chunking_flow` cuts. -/
def ChunkPlan.sourceText (state : GraphState) : String :=
  match plan.textSource with
  | .sanitized => state.sanitizedText.getD ""
  | .original => state.extractedText.getD ""

def buildChunk (text : String) (version : Nat) (index : Nat) (span : Nat × Nat) : Chunk :=
  let body := slice text span.1 span.2
  { chunkId := x.document ++ "__v" ++ toString version ++ "__c" ++ toString index
    fileId := x.fileId
    documentId := x.document
    taskId := x.taskId
    chunkIndex := index
    chunkVersion := version
    text := body
    textPreview := buildPreview body cfg.chunkPreviewMaxChars
    textSource := plan.textSource
    charStart := span.1
    charEnd := span.2
    sourceName := x.file.doc.filename
    reviewStatus := plan.reviewStatus
    retrievalAllowed := plan.reviewStatus != .removed
    issueFlags := plan.issueFlags
    redactionApplied := plan.redactionApplied }

def buildChunkDocuments (text : String) (version : Nat) : Except Err (List Chunk) :=
  (chunkText text cfg.chunkSize cfg.chunkOverlap).map fun spans =>
    spans.mapIdx fun index span => buildChunk cfg x plan text version index span

def TextSource.text : TextSource → String
  | .original => "original"
  | .sanitized => "sanitized"

def completeChunkingFlow : FilesM (List Message) := do
  let text := plan.sourceText state
  let version : Nat ← call (.getNextChunkVersion x.document)
  let chunks ← check (buildChunkDocuments cfg x plan text version)
  let created ← createChunks x.file.owner chunks
  let jobId : String ← call .newId
  let state := { state with chunkIds := chunks.map Chunk.chunkId, embeddingJobIds := [jobId] }
  let _ ← call (.updateFile x.fileId fun f =>
    (({ f with status := .processing }.setStage "review" "done").setStage "chunking"
      "done").setStage "embedding" "running")
  let task ← requestEmbeddings x.taskId task state
  let _ ← finalize x.taskId task state
  let source := Json.str plan.textSource.text
  writeAuditEvent x .chunkingCompleted "File text was chunked for embedding."
    (.obj [("chunk_count", .num created), ("text_source", source)]) plan.ref none none
  writeAuditEvent x .embeddingJobsRequested "Embedding jobs were requested for file chunks."
    (.obj [("chunk_count", .num chunks.length), ("text_source", source)]) plan.ref none none
  writeAuditEvent x .ingestionCompleted
    "File ingestion completed and handed off downstream processing."
    (.obj [("task_status", .str "completed")]) plan.ref none none
  return [.chunkingCompleted x.fileId x.document x.taskId chunks.length plan.textSource
      plan.ref.reviewCaseId,
    .processEmbeddingJob ⟨jobId, x.fileId, x.document, chunks⟩]

/-! ## Pausing for review -/

def makeResumeToken : FilesM ResumeToken := do
  let token : String ← call .newToken
  let now : Nat ← call .now
  return ⟨cfg.hashText token, now + cfg.reviewResumeTokenTtlSeconds⟩

def allowedActions : List ReviewAction := [.deleteFile, .removeProblematicText, .acceptAsIs]

def ReviewAction.text : ReviewAction → String
  | .deleteFile => "delete_file"
  | .removeProblematicText => "remove_problematic_text"
  | .acceptAsIs => "accept_as_is"
  | .other name => name

def newReviewCase (highest : Finding)
    (checkpointId : String) (token : ResumeToken) (openedAt : Nat) : ReviewCase where
  fileId := x.fileId
  documentId := x.document
  taskId := x.taskId
  status := .isOpen
  decisionStatus := .pending
  highestSeverityScore := highest.score
  extractedTextHash := state.extractedTextHash.getD ""
  problemDescription := highest.problemDescription
  problematicText := highest.problematicText
  whyProblematic := highest.whyProblematic
  issueCategories := state.issueFindings
  allowedActions := allowedActions
  redactionPatchMap := defaultPatchMap state.issueFindings
  interrupt := ⟨task.graphRunId, checkpointId, some token.tokenHash, some token.expiresAt⟩
  openedAt := openedAt
  resolvedAt := none
  resolvedBy := none
  resolutionClaimId := none
  resolutionClaimedAt := none

def createReviewCase (highest : Finding) : FilesM (List Message) := do
  let reviewCaseId : String ← call .newId
  let checkpointId := "checkpoint-" ++ reviewCaseId
  let token ← makeResumeToken cfg
  let now : Nat ← call .now
  let doc := newReviewCase x task state highest checkpointId token now
  let state := { state with
    reviewRequired := true
    reviewCaseId := some reviewCaseId
    redactionPatchMap := doc.redactionPatchMap }
  call (.createReviewCase reviewCaseId x.file.owner doc)
  let _ ← call (.updateFile x.fileId fun f =>
    { f with
      status := .awaitingReview
      reviewStatus := .pending
      latestReviewCaseId := some reviewCaseId
      currentTaskId := some x.taskId }.setStage "review" "paused")
  let _ ← pauseForReview x.taskId task state checkpointId token
  let ref : ReviewRef := ⟨some reviewCaseId, none⟩
  let categories := state.issueFindings.map Finding.category
  writeAuditEvent x .issueDetected
    "One or more issue detectors exceeded the configured threshold."
    (.obj [("issue_categories", .arr (categories.map .str))]) ref
    (some .processing) (some .awaitingReview)
  writeAuditEvent x .reviewCaseCreated "A review case was created for human approval."
    (.obj [("allowed_actions", .arr (allowedActions.map fun a => .str a.text))]) ref
    (some .processing) (some .awaitingReview)
  writeAuditEvent x .ingestionPausedForReview "Ingestion paused pending human review."
    (.obj [("checkpoint_id", .str checkpointId)]) ref (some .processing) (some .awaitingReview)
  return [.reviewRequired x.fileId x.document x.taskId reviewCaseId categories highest.score
    allowedActions]

/-! ## Extraction results -/

structure Extraction where
  text : String
  diagnostics : Json
  context : RequestContext

/-- The graph state of a task once its extraction result is loaded. -/
def loadState (file : FileDoc) (task : TaskDoc) (e : Extraction) : GraphState where
  extractedText := some e.text
  extractedTextHash := some (cfg.hashText e.text)
  sanitizedText := none
  sanitizedTextVersion := file.sanitizedTextVersion
  issueFindings := []
  reviewRequired := false
  reviewCaseId := none
  reviewDecision := none
  redactionPatchMap := []
  chunkIds := []
  embeddingJobIds := []
  cleanupRequired := false
  context := task.graphState.context.merge e.context

/-- The rest of a completion after the step to issue detection: pause, or chunk the text. -/
def detectIssues (e : Extraction) : FilesM (List Message) := do
  let findings := enrichFindings cfg e.text (cfg.detect e.text e.diagnostics)
  let required := findings.any Finding.needsReview
  let state := { state with issueFindings := findings, reviewRequired := required }
  match required, highestFinding findings with
  | true, some highest => createReviewCase cfg x task state highest
  | _, _ =>
    let _ ← call (.updateFile x.fileId fun f =>
      { f with
        status := .processing
        reviewStatus := .notRequired
        latestReviewCaseId := none }.setStage "review" "done")
    let task ← beginChunking x.taskId task state
    completeChunkingFlow cfg x task state ⟨.original, .clean, [], false, .none⟩

def handleExtractionCompletion (fileId taskId : String) (e : Extraction)
    (actor : Actor) : FilesM (List Message) := do
  let file : Option (Row FileDoc) ← call (.getFile fileId)
  let task : Option (Row TaskDoc) ← call (.getTask taskId)
  match file, task with
  | some file, some task =>
    let x : Target := ⟨fileId, file, taskId, actor⟩
    let state := loadState cfg file.doc task.doc e
    let _ ← call (.updateFile fileId fun f =>
      { f with
        documentId := some x.document
        currentTaskId := some taskId
        status := .processing }.setStage "extraction" "done")
    let task ← beginIssueDetection taskId task.doc state
    writeAuditEvent x .extractionCompleted
      "Text extraction completed and ingestion processing started."
      (.obj [("diagnostics", e.diagnostics)]) .none (some .started) (some .processing)
    detectIssues cfg x task state e
  | _, _ => raise (.notFound "File task not found")

end

end RagForge.Files
