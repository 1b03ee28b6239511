import RagForge.Rag.Emitter

/-
The nodes of the conversation graph (`ConversationGraphRunner`).

A node returns the graph state with its updates applied and the `_meta` entry that `_wrap_node`
turns into events.  Timers and metrics are left out.
-/

namespace RagForge.Rag

open Effect Py

/-- The `_meta` entry of a node's update. -/
structure Meta where
  phase : String := "completed"
  decision : Option String := none
  message : Option String := none
  counters : Dict String Nat := []
  debugExcerpt : Option Json := none

abbrev Node : Type := ConversationState → RunM (ConversationState × Meta)

section

variable (cfg : Config) (lib : Lib)

def excerpt (text : String) : Option Json := some (.str (clip 120 text))

def firstChunkExcerpt (chunks : List Json) : Option Json :=
  match chunks with
  | [] => some (.str "no chunks")
  | c :: _ => excerpt (c.get "text").text

/-! ## Input and context -/

def inputGuardrails : Node := fun state => do
  let request ← getRequest
  let userMessage := strip request.userMessage
  if userMessage = "" then raise (.valueError "Question is required")
  else
    let scan ← riskScan userMessage .input
    let debugPayloads := appendDebug cfg lib state.debugPayloads [("input_safety_flags", scan)]
    if (scan.get "blocked").truthy then raise (.guardrailBlocked "input")
    else
      let snapshot := { state with userMessage := userMessage, debugPayloads := debugPayloads }
      saveCheckpoint snapshot "input_guardrails" .graphStart "started" []
      return ({ state with mode := request.mode, userMessage := userMessage,
                           debugPayloads := debugPayloads },
        { message := some "Input validated"
          debugExcerpt := some ((scan.get "message").orElse (.str "input accepted")) })

def loadShortTermContext : Node := fun state => do
  let rt ← Proc.read
  let context : LoadedContext ← call
    (.loadContext rt.owner rt.request.conversationId cfg.maxRecentMessages)
  let summary := strOr context.summary state.shortTermSummary
  let recentMessages :=
    if context.recentMessages.isEmpty then state.recentMessages else context.recentMessages
  let snapshot := { state with shortTermSummary := summary, recentMessages := recentMessages }
  saveCheckpoint snapshot "load_short_term_context" .afterContextLoad "ok" []
  return (snapshot,
    { message := some "Short-term context loaded"
      counters := [("recent_messages", recentMessages.length)]
      debugExcerpt := excerpt summary })

def loadMemory (depth : Depth) (message : String) : Node := fun state => do
  let response ← getRelevantMemories depth
  let memories := (firstTrue [response.get "memories", response.get "items"] (.arr [])).items
  return ({ state with
      memoryHits := (truncate cfg lib (.arr (memories.take cfg.maxMemoryHits))).items },
    { message := some message
      counters := [("memory_hits", memories.length)]
      debugExcerpt := excerpt (lib.str (.arr (memories.take 1))) })

def loadMemoryLight : Node := loadMemory cfg lib .light "Light memory loaded"

def loadMemoryDeep : Node := loadMemory cfg lib .deep "Deep memory loaded"

/-! ## Retrieval -/

/-- The `top_k` a retrieval asks for when the reranker is on. -/
def rerankerTopK (minimum : Nat) : Option Nat :=
  if cfg.rerankerEnabled then some (max minimum cfg.rerankerCandidateLimit) else none

def retrieveChunksOnce : Node := fun state => do
  let request ← getRequest
  let response ← searchChunks cfg request.userMessage state.retrievalPlan "regular"
    (rerankerTopK cfg cfg.topKDocuments)
  let now ← utcNow
  let chunks := normalizeChunks cfg lib (lib.isoformat now) response
  let snapshot := { state with retrievedChunks := chunks }
  saveCheckpoint snapshot "retrieve_chunks_once" .afterRetrieval "ok" []
  return (snapshot,
    { message := some "Chunks retrieved"
      counters := [("chunk_count", chunks.length)]
      debugExcerpt := firstChunkExcerpt chunks })

def rewriteOrDecomposeQuery : Node := fun state => do
  let request ← getRequest
  let response ← queryRewrite ⟨state.shortTermSummary, state.recentMessages, state.memoryHits⟩
  let rewritten := (response.get "rewritten_query").orElse (.str request.userMessage)
  let plan := Json.obj
    [("rewritten_query", rewritten),
      ("subqueries", (response.get "subqueries").orElse (.arr [])),
      ("pass_two_hints", (response.get "pass_two_hints").orElse (.arr [])),
      ("decision", (response.get? "decision").getD (.str "rewrite"))]
  return ({ state with
      retrievalPlan := truncate cfg lib plan
      debugPayloads := appendDebug cfg lib state.debugPayloads [("rewrite_response", response)] },
    { message := some "Query rewrite complete"
      debugExcerpt := excerpt (rewritten.orElse (.str request.userMessage)).text })

/-- `plan.get("rewritten_query") or request.user_message`. -/
def plannedQuery (plan : Json) (request : ConversationRequest) : String :=
  strOr (plan.get "rewritten_query").text request.userMessage

def passOneQueries (plan : Json) (request : ConversationRequest) : List String :=
  let subqueries := (((plan.get "subqueries").orElse (.arr [])).items).map Json.text
  (plannedQuery plan request :: subqueries).take cfg.debugPayloadMaxItems

/-- A task that was started: its result is kept until it is awaited. -/
def startTask {α : Type} (task : RunM α) : RunM (Except Err α) :=
  Proc.handle (do return .ok (← task)) fun e => return .error e

def startTasks {α : Type} (tasks : List (RunM α)) : RunM (List (Except Err α)) :=
  match tasks with
  | [] => return []
  | t :: rest => do
      let x ← startTask t
      let xs ← startTasks rest
      return x :: xs

/-- The window of `_retrieve_pass_one`: await the oldest task, then start the next query.  A task
runs when it is started; one that failed raises when it is awaited. -/
def awaitWindow (search : String → RunM Json) :
    Nat → List (Except Err Json) → List String → RunM (List Json)
  | _, [], _ => return []
  | 0, _, _ => return []
  | _ + 1, .error e :: _, _ => raise e
  | fuel + 1, .ok response :: pending, queued => do
      match queued with
      | [] =>
        let rest ← awaitWindow search fuel pending []
        return response :: rest
      | query :: queued =>
        let task ← startTask (search query)
        let rest ← awaitWindow search fuel (pending ++ [task]) queued
        return response :: rest

def retrievePassOne : Node := fun state => do
  let request ← getRequest
  let plan := state.retrievalPlan
  let queries := passOneQueries cfg plan request
  let search (query : String) : RunM Json :=
    searchChunks cfg query plan "pass_one" (rerankerTopK cfg 0)
  let concurrency := max 1 cfg.extendedRetrievalMaxConcurrency
  let pending ← startTasks ((queries.take concurrency).map search)
  let responses ← awaitWindow search queries.length pending (queries.drop concurrency)
  let now ← utcNow
  let chunks := responses.flatMap (normalizeChunks cfg lib (lib.isoformat now))
  let snapshot := { state with retrievedChunks := chunks }
  saveCheckpoint snapshot "retrieve_pass_one" .afterPassOne "ok" []
  return (snapshot,
    { message := some "Pass one retrieval complete"
      counters := [("chunk_count", chunks.length)]
      debugExcerpt := firstChunkExcerpt chunks })

def retrievePassTwoIfNeeded : Node := fun state => do
  let request ← getRequest
  let chunks := state.retrievedChunks
  let topScore := (chunks.head?.map chunkScore).getD 0
  let hints := ((state.retrievalPlan.get "pass_two_hints").orElse (.arr [])).items
  if ¬ (chunks.length < cfg.passTwoChunkThreshold ∨ topScore < cfg.passTwoScoreThreshold ∨
      hints ≠ []) then
    saveCheckpoint state "retrieve_pass_two_if_needed" .afterPassTwo "skipped" []
    return (state,
      { phase := "skipped"
        decision := some "sufficient_pass_one"
        message := some "Second retrieval skipped"
        debugExcerpt := some (.str ("top_score=" ++ lib.fixed3 topScore)) })
  else
    let altQuery := strOr ((hints.head?.map Json.text).getD "")
      (plannedQuery state.retrievalPlan request)
    let response ← searchChunks cfg altQuery state.retrievalPlan "pass_two" (rerankerTopK cfg 0)
    let now ← utcNow
    let merged := chunks ++ normalizeChunks cfg lib (lib.isoformat now) response
    let snapshot := { state with retrievedChunks := merged }
    saveCheckpoint snapshot "retrieve_pass_two_if_needed" .afterPassTwo "ok" []
    return (snapshot,
      { message := some "Second retrieval complete"
        counters := [("chunk_count", merged.length)]
        debugExcerpt := firstChunkExcerpt merged })

def mergeCandidates : Node := fun state => do
  let kept := (byScore ((mergedChunks state.retrievedChunks).map Prod.snd)).take
    cfg.rerankerCandidateLimit
  return ({ state with retrievedChunks := kept },
    { message := some "Candidate results merged"
      counters := [("chunk_count", kept.length)]
      debugExcerpt := some (.str (match kept with
        | [] => "no merged chunks"
        | c :: _ => "top_retrieval_score=" ++ lib.fixed3 (chunkScore c))) })

def rerankCandidates : Node := fun state => do
  let request ← getRequest
  let outcome ← rerank cfg lib (plannedQuery state.retrievalPlan request) state.retrievedChunks
  let snapshot := { state with retrievedChunks := outcome.1 }
  saveCheckpoint snapshot "rerank_candidates" .afterFinalRanking "ok" []
  return (snapshot,
    { message := some ("Candidate reranking " ++ outcome.2)
      decision := some outcome.2
      counters := [("candidate_count", outcome.1.length)]
      debugExcerpt := some (.str (match outcome.1 with
        | [] => "no candidates"
        | c :: _ => "top_reranker_score=" ++ lib.str (c.get "reranker_score"))) })

/-! ## Generation and evaluation -/

def Passage.toJson (p : Passage) : Json :=
  .obj [("source_id", .str p.sourceId), ("text", .str p.text),
    ("locator", (p.locator.map Json.str).getD .null)]

/-- `_generate_common`: a new candidate replaces the buffered one before the call. -/
def generateCommon (source : String) (mode : Mode) (checkpointNode : String) (reviewIssues : Json)
    (isRevision : Bool) : Node := fun state => do
  let request ← getRequest
  let prompt := buildPrompt lib state mode reviewIssues
  startCandidate source
  let response ← generateAnswerCall prompt
  let answerText := (response.get "answer").text
  let now ← utcNow
  let draftAnswer : DraftAnswer :=
    { text := answerText
      citations := response.get "citations"
      invalidCitationCount := response.get "invalid_citation_count"
      sources := state.retrievedChunks
      modelName := strOr (response.get "model_name").text (optOr request.model "default")
      createdAt := lib.isoformat now
      source := source
      revisionAttempted := isRevision || state.draftAnswer.revisionAttempted }
  let debugPayloads := appendDebug cfg lib state.debugPayloads
    [("generation_instructions", .str prompt.instructions),
      ("generation_context", .arr (prompt.retrievedContext.map Passage.toJson)),
      ("raw_output", (response.get "raw_output").orElse (.str answerText)),
      ("visible_reasoning_summary", response.get "visible_reasoning_summary"),
      ("raw_prompt", (response.get "raw_prompt").orElse (.str "")),
      ("system_prompt", (response.get "system_prompt").orElse (.str ""))]
  let snapshot := { state with draftAnswer := draftAnswer, debugPayloads := debugPayloads }
  saveCheckpoint snapshot checkpointNode .afterGeneration "ok" []
  return (snapshot,
    { message := some "Answer generated"
      counters := [("chunk_count", state.retrievedChunks.length)]
      debugExcerpt := excerpt answerText })

def generateAnswer : Node :=
  generateCommon cfg lib "final" .regular "generate_answer" .null false

def generateDraftAnswer : Node :=
  generateCommon cfg lib "draft" .extended "generate_draft_answer" .null false

def evaluateCommon (mode : Mode) : Node := fun state => do
  let request ← getRequest
  let passages := chunkPassages lib state.retrievedChunks
  let response ← evaluateAnswerCall state.draftAnswer.text passages mode
  let _ ← Proc.ofExcept (reviewClaims lib response passages)
  let id ← newId
  let now ← utcNow
  let review := buildReview lib response request passages id (lib.isoformat now)
  let review :=
    if state.draftAnswer.revisionAttempted then { review with revisionApplied := true } else review
  emit (.answerReview (publicReview (some review)))
  let debugPayloads := appendDebug cfg lib state.debugPayloads
    (structuredOutputDebugPayloads response "answer_review")
  let snapshot := { state with answerReview := some review, debugPayloads := debugPayloads }
  saveCheckpoint snapshot "evaluate_answer" .afterEvaluation "ok" []
  return (snapshot,
    { message := some "Answer evaluated"
      counters := [("issues", review.issues.items.length)]
      debugExcerpt := some (.str ("verdict=" ++ lib.str review.verdict)) })

def evaluateAnswerLight : Node := evaluateCommon cfg lib .regular

def evaluateAnswerDeep : Node := evaluateCommon cfg lib .extended

/-- `_revise_once_if_needed`: at most one revision, and only when the judge asked for it. -/
def reviseOnceIfNeeded : Node := fun state => do
  let skipped (applied : Bool) : ConversationState × Meta :=
    (state,
      { phase := "skipped"
        decision := some "no_revision_needed"
        message := some "Revision skipped"
        debugExcerpt := some (.str ("revision_applied=" ++ lib.str (.bool applied))) })
  match state.answerReview with
  | none => return skipped false
  | some review =>
    if ¬ review.shouldRevise ∨ review.revisionApplied ∨ state.draftAnswer.revisionAttempted then
      return skipped review.revisionApplied
    else
      let updated ← generateCommon cfg lib "final" .extended "revise_once_if_needed"
        review.issues true state
      let review := { review with revisionApplied := true }
      emit (.answerReview (publicReview (some review)))
      return ({ updated.1 with answerReview := some review },
        { message := some "Revision applied"
          debugExcerpt := some (.str "single revision applied") })

/-! ## Output -/

def safeReplacement (scan : Json) : String :=
  ((scan.get "safe_output").orElse (.str "I can't help with that request.")).text

def outputGuardrails : Node := fun state => do
  let answerText := state.draftAnswer.text
  let response ← riskScan answerText .output
  let blocked := (response.get "blocked").truthy
  let draftAnswer ← (if blocked then do
      rejectCandidate
      return { state.draftAnswer with text := safeReplacement response }
    else do
      approveCandidate answerText
      return state.draftAnswer)
  let debugPayloads := appendDebug cfg lib state.debugPayloads
    (("output_safety_flags", response) :: structuredOutputDebugPayloads response "output_safety")
  return ({ state with
      draftAnswer := draftAnswer
      debugPayloads := debugPayloads
      outcome := if blocked then "guardrail_blocked" else "success"
      guardrailStage := if blocked then some "output" else none },
    { message := some "Output guardrails completed"
      debugExcerpt := some ((response.get "message").orElse
        (.str (if blocked then "blocked" else "clear"))) })

def saveReview (state : ConversationState) : RunM Unit := do
  let rt ← Proc.read
  match state.answerReview with
  | none => return ()
  | some review => call (.saveAnswerReview ⟨rt.owner, rt.request.turnId, review⟩)

def doPersistTurn (summary : String) : Node := fun state => do
  let rt ← Proc.read
  let request := rt.request
  call (.saveThread
    { owner := rt.owner
      conversationId := request.conversationId
      latestTurnId := request.turnId
      latestMode := request.mode })
  let now ← utcNow
  call (.saveTurn
    { owner := rt.owner
      conversationId := request.conversationId
      turnId := request.turnId
      requestId := request.requestId
      mode := request.mode
      userMessage := request.userMessage
      finalAnswer := state.draftAnswer.text
      retrievedChunks := state.retrievedChunks
      reviewId := state.answerReview.map Review.reviewId
      createdAt := now })
  call (.saveSummary ⟨rt.owner, request.conversationId, summary⟩)
  saveReview state
  let snapshot := { state with shortTermSummary := summary }
  saveCheckpoint snapshot "persist_turn" .afterPersistence "persisted" []
  call (.publishDomainEvent "rag.answer.generated" request)
  call (.publishDomainEvent "rag.answer.evaluated" request)
  return (snapshot,
    { message := some "Turn persisted", debugExcerpt := some (.str request.turnId) })

/-- `_persist_turn`: a failure to store the turn does not fail the turn. -/
def persistTurn : Node := fun state => do
  let request ← getRequest
  let summary := summarizeTurn cfg state
  Proc.handle (doPersistTurn summary state) fun e => do
    return ({ state with shortTermSummary := summary },
      { message := some ("Turn persist FAILED: " ++ Err.text e)
        debugExcerpt := some (.str request.turnId) })

def streamDone : Node := fun state => do
  emit (.done state.draftAnswer.text state.retrievedChunks (publicReview state.answerReview)
    state.retrievalPlan (some state.traceEvents) (some state.debugPayloads))
  return (state, { message := some "Done emitted" })

def nodeMap : NodeName → Node
  | .inputGuardrails => inputGuardrails cfg lib
  | .loadShortTermContext => loadShortTermContext cfg
  | .loadMemoryLight => loadMemoryLight cfg lib
  | .retrieveChunksOnce => retrieveChunksOnce cfg lib
  | .generateAnswer => generateAnswer cfg lib
  | .evaluateAnswerLight => evaluateAnswerLight cfg lib
  | .loadMemoryDeep => loadMemoryDeep cfg lib
  | .rewriteOrDecomposeQuery => rewriteOrDecomposeQuery cfg lib
  | .retrievePassOne => retrievePassOne cfg lib
  | .retrievePassTwoIfNeeded => retrievePassTwoIfNeeded cfg lib
  | .mergeCandidates => mergeCandidates cfg lib
  | .rerankCandidates => rerankCandidates cfg lib
  | .generateDraftAnswer => generateDraftAnswer cfg lib
  | .evaluateAnswerDeep => evaluateAnswerDeep cfg lib
  | .reviseOnceIfNeeded => reviseOnceIfNeeded cfg lib
  | .outputGuardrails => outputGuardrails cfg lib
  | .persistTurn => persistTurn cfg
  | .streamDone => streamDone

end

end RagForge.Rag
