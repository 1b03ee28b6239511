import RagForge.Files.StateMachine

/-
Review decisions: the checks, the claim of the case and the three ways to go on
(`handle_review_decision`).
-/

namespace RagForge.Files

open Py Effect

/-- The payload of a decision.  A missing patch map and an empty one are the same to the checks. -/
structure DecisionPayload where
  decision : Option ReviewAction
  basedOnTextHash : Option String
  patchMap : List Patch
  comment : String
  context : RequestContext

/-- `_validate_review_decision`, with the decision and the text hash it lets through. -/
def validateReviewDecision (now : Nat) (c : ReviewCase) (task : TaskDoc) (p : DecisionPayload) :
    Except Err (ReviewAction × String) :=
  if c.status ≠ .isOpen then .error (.validation "Review case is not active")
  else if c.decisionStatus ≠ .pending then
    .error (.validation "Review case already has a decision")
  else if p.basedOnTextHash ≠ some c.extractedTextHash then
    .error (.validation "based_on_text_hash does not match extracted text")
  else if c.interrupt.resumeTokenExpiresAt.any (· ≤ now) then
    .error (.validation "Review resume token has expired")
  else if task.resumeTokenHash.getD "" = "" then
    .error (.validation "Review resume token has already been consumed")
  else
    match p.decision with
    | none => .error (.validation "Decision is not allowed for this review case")
    | some decision =>
      if decision ∉ c.allowedActions then
        .error (.validation "Decision is not allowed for this review case")
      else if decision = .removeProblematicText ∧ p.patchMap.isEmpty then
        .error (.validation "patch_map is required for remove_problematic_text")
      else if (decision = .deleteFile ∨ decision = .acceptAsIs) ∧ ¬ p.patchMap.isEmpty then
        .error (.validation "patch_map is not allowed for this decision")
      else .ok (decision, c.extractedTextHash)

structure Review where
  reviewCaseId : String
  case : ReviewCase
  decisionId : String

section

variable (cfg : Config) (x : Target) (task : TaskDoc) (r : Review) (state : GraphState)

def Review.ref : ReviewRef := ⟨some r.reviewCaseId, some r.decisionId⟩

/-! ## The three branches -/

/-- The path of the stored upload, if the file has one. -/
def storedPath (tenantId : String) (x : Target) : Except Err (Option (List String)) :=
  if x.file.doc.path = "" then .ok none
  else (validateManagedFilePath cfg tenantId x.fileId x.file.doc.path).map some

def removeStored : Option (List String) → FilesM Unit
  | none => pure ()
  | some path => call (.removeStoredFile path)

def applyDeleteDecision : FilesM (List Message) := do
  let deleted : Nat ← call (.deleteChunksForFile x.fileId)
  let who ← Proc.read (S := sig)
  let path ← check (storedPath cfg who.tenantId x)
  removeStored path
  let cleanup := decide (0 < deleted) || x.file.doc.stage.get? "chunking" == some "done"
  let state := { state with
    reviewDecision := some .deleteFile
    cleanupRequired := cleanup
    extractedText := none
    sanitizedText := none
    chunkIds := []
    embeddingJobIds := [] }
  let _ ← call (.updateFile x.fileId fun f =>
    (({ f with status := .rejected, reviewStatus := .rejected }.setStage "review"
      "done").setStage "chunking" "skipped").setStage "embedding" "skipped")
  let _ ← finalizeRejected x.taskId task state
  let deletedChunks := Json.obj [("deleted_chunks", .num deleted)]
  writeAuditEvent x .fileRejected "The file was rejected during human review." deletedChunks
    r.ref (some .awaitingReview) (some .rejected)
  if cleanup then
    writeAuditEvent x .vectorDeleteRequested "Vector cleanup requested after review rejection."
      (.obj [("reason", .str "review_delete_file")]) r.ref none none
  writeAuditEvent x .cleanupCompleted "Review rejection cleanup completed." deletedChunks r.ref
    none none
  return if cleanup then
    [.vectorDeleteRequested x.fileId x.document (some x.taskId) "review_delete_file"] else []

def applyRedactionDecision (patchMap : List Patch) : FilesM (List Message) := do
  let sanitized ← check (redact (state.extractedText.getD "") patchMap)
  let version := x.file.doc.sanitizedTextVersion + 1
  let state := { state with
    sanitizedText := some sanitized
    sanitizedTextVersion := version
    redactionPatchMap := patchMap }
  let _ ← call (.updateFile x.fileId fun f =>
    { f with
      reviewStatus := .approvedSanitized
      status := .processing
      sanitizedTextVersion := version }.setStage "review" "done")
  writeAuditEvent x .fileSanitized "Problematic text was redacted and ingestion resumed."
    (.obj [("sanitized_text_version", .num version)]) r.ref (some .awaitingReview)
    (some .processing)
  let task ← beginChunking x.taskId task state
  completeChunkingFlow cfg x task state
    ⟨.sanitized, .sanitized, issueCategories r.case, true, r.ref⟩

def applyAcceptDecision : FilesM (List Message) := do
  let categories := issueCategories r.case
  let _ ← call (.updateFile x.fileId fun f =>
    { f with
      reviewStatus := .approvedAsIs
      status := .processing
      acceptedRiskCategories := categories }.setStage "review" "done")
  writeAuditEvent x .fileAcceptedWithRisk "The file was accepted as-is after human review."
    (.obj [("accepted_risk_categories", .arr (categories.map .str))]) r.ref
    (some .awaitingReview) (some .processing)
  let task ← beginChunking x.taskId task state
  completeChunkingFlow cfg x task state
    ⟨.original, .acceptedWithRisk, categories, false, r.ref⟩

/-- The branch of a decision.  Whatever is neither a deletion nor a redaction is accepted. -/
def applyDecision (decision : ReviewAction) (patchMap : List Patch) : FilesM (List Message) :=
  match decision with
  | .deleteFile => applyDeleteDecision cfg x task r state
  | .removeProblematicText => applyRedactionDecision cfg x task r state patchMap
  | .acceptAsIs | .other _ => applyAcceptDecision cfg x task r state

/-! ## The handler -/

def ReviewCase.resolve (decision : ReviewAction) (now : Nat) (actor : Actor) (c : ReviewCase) :
    ReviewCase :=
  { c with
    status := .resolved
    decisionStatus := .decided decision
    resolvedAt := some now
    resolvedBy := some actor
    interrupt := { c.interrupt with resumeTokenHash := none, resumeTokenExpiresAt := none } }

/-- What follows the claim of the case: the decision is recorded and carried out. -/
def resolveClaimed (decision : ReviewAction) (textHash : String) (p : DecisionPayload) :
    FilesM (List Message) := do
  let state := { task.graphState with
    context := task.graphState.context.merge p.context
    reviewDecision := some decision
    reviewCaseId := some r.reviewCaseId }
  let createdAt : Nat ← call .now
  call (.createReviewDecision r.reviewCaseId x.file.owner
    { decisionId := r.decisionId
      fileId := x.fileId
      documentId := x.document
      taskId := x.taskId
      decision := decision
      comment := p.comment
      basedOnTextHash := textHash
      submittedBy := x.actor
      submittedPatchMap := p.patchMap
      createdAt := createdAt })
  let resolvedAt : Nat ← call .now
  let _ ← call (.updateReviewCase r.reviewCaseId fun c => c.resolve decision resolvedAt x.actor)
  let task ← resumeReview x.taskId task state
  let details := Json.obj [("decision", .str decision.text)]
  writeAuditEvent x .reviewDecisionSubmitted "A human review decision was submitted." details
    r.ref none none
  writeAuditEvent x .graphResumed "Graph resumed after human review decision." details r.ref
    none none
  applyDecision cfg x task r state decision p.patchMap

def handleReviewDecision (fileId taskId reviewCaseId : String)
    (p : DecisionPayload) (actor : Actor) : FilesM (List Message) := do
  let file : Option (Row FileDoc) ← call (.getFile fileId)
  let task : Option (Row TaskDoc) ← call (.getTask taskId)
  let case : Option (Row ReviewCase) ← call (.getReviewCase reviewCaseId)
  match file, task, case with
  | some file, some task, some case =>
    let now : Nat ← call .now
    let (decision, textHash) ← check (validateReviewDecision now case.doc task.doc p)
    let decisionId : String ← call .newId
    let claimedAt : Nat ← call .now
    let claimed : Bool ← call (.claimReviewCase reviewCaseId textHash
      (task.doc.resumeTokenHash.getD "") decisionId claimedAt)
    if claimed then
      resolveClaimed cfg ⟨fileId, file, taskId, actor⟩ task.doc
        ⟨reviewCaseId, case.doc, decisionId⟩ decision textHash p
    else raise (.validation "Review case is already being resolved")
  | _, _, _ => raise (.notFound "Review decision target not found")

end

end RagForge.Files
