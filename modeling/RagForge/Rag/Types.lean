import RagForge.Py.Value

/-
The types of the conversation runtime (`conversation_types.py`) and the request normalisation of
`RAGService.build_request`.

Loosely typed payloads stay `Json`.  The two dictionaries of the graph state that later nodes read
field by field, the draft answer and the review, are records; an empty dictionary is the record of
the defaults the readers use, and a missing review is `none`.
-/

namespace RagForge.Rag

open Py

inductive Mode
  | regular
  | extended
  deriving DecidableEq

inductive OwnerType
  | user
  | session
  | conversation
  deriving DecidableEq

structure Identity where
  tenantId : String
  userId : String
  role : String
  adminId : Option String

structure ConversationRequest where
  userMessage : String
  mode : Mode
  model : Option String
  conversationId : String
  turnId : String
  requestId : String
  traceId : String
  graphRunId : String
  correlationId : Option String
  ownerId : Option String
  ownerType : Option OwnerType
  sessionId : Option String
  connectionId : Option String
  tenantId : Option String
  userId : Option String
  role : Option String
  adminId : Option String
  history : Option String
  debug : Bool

/-- `__post_init__`: the owner used for feedback and memory aggregation. -/
def ConversationRequest.postInit (r : ConversationRequest) : ConversationRequest :=
  let present (o : Option String) : Bool := o.getD "" != ""
  if present r.userId then { r with ownerId := r.userId, ownerType := some .user }
  else
    let r := if r.ownerType = some .session ∧ ¬ present r.ownerId ∧ present r.sessionId then
      { r with ownerId := r.sessionId } else r
    let r := if r.ownerType = some .conversation ∧ ¬ present r.ownerId then
      { r with ownerId := some r.conversationId } else r
    if present r.ownerId then { r with ownerType := some (r.ownerType.getD .user) }
    else { r with ownerId := some r.conversationId, ownerType := some .conversation }

/-- `normalize_mode`: every raw mode other than `extended` is regular. -/
def normalizeMode (mode answerMode : Option String) : Mode :=
  let raw := (strip (optOr mode (optOr answerMode "regular"))).toLower
  if raw = "quick" then .regular
  else if raw = "extended" then .extended
  else .regular

structure ChatData where
  question : String
  mode : Option String
  answerMode : Option String
  model : Option String
  conversationId : Option String
  turnId : Option String
  requestId : Option String
  traceId : Option String
  graphRunId : Option String
  correlationId : Option String
  sessionId : Option String
  connectionId : Option String
  history : Option String
  debug : Bool
  resume : Bool

/-- The identifiers `uuid4` gives when the client sends none. -/
structure FreshIds where
  conversationId : String
  turnId : String
  requestId : String
  traceId : String
  graphRunId : String

def buildRequest (identity : Identity) (fresh : FreshIds) (data : ChatData)
    (sessionId connectionId : Option String) : ConversationRequest :=
  let orId (a b : Option String) : Option String := if a.getD "" = "" then b else a
  ConversationRequest.postInit
    { userMessage := strip data.question
      mode := normalizeMode data.mode data.answerMode
      model := data.model
      conversationId := optOr data.conversationId fresh.conversationId
      turnId := optOr data.turnId fresh.turnId
      requestId := optOr data.requestId fresh.requestId
      traceId := optOr data.traceId fresh.traceId
      graphRunId := optOr data.graphRunId fresh.graphRunId
      correlationId := data.correlationId
      ownerId := some identity.userId
      ownerType := some .user
      sessionId := orId data.sessionId sessionId
      connectionId := orId data.connectionId connectionId
      tenantId := some identity.tenantId
      userId := some identity.userId
      role := some identity.role
      adminId := identity.adminId
      history := data.history
      debug := identity.role == "admin" && data.debug }

theorem ConversationRequest.postInit_userMessage (r : ConversationRequest) :
    r.postInit.userMessage = r.userMessage := by
  unfold postInit
  dsimp only
  repeat' split
  all_goals rfl

@[simp] theorem buildRequest_userMessage (identity : Identity) (fresh : FreshIds) (data : ChatData)
    (sessionId connectionId : Option String) :
    (buildRequest identity fresh data sessionId connectionId).userMessage =
      strip data.question := by
  unfold buildRequest
  rw [ConversationRequest.postInit_userMessage]

structure DraftAnswer where
  text : String := ""
  citations : Json := .null
  invalidCitationCount : Json := .null
  sources : List Json := []
  modelName : String := ""
  createdAt : String := ""
  source : String := ""
  revisionAttempted : Bool := false

/-- The internal review record. -/
structure Review where
  reviewId : String
  verdict : Json
  groundednessScore : Rat
  completenessScore : Rat
  safetyScore : Rat
  issues : Json
  claims : List Json
  unsupportedClaimCount : Json
  hallucinationVerdict : Json
  revisionApplied : Bool
  modelName : String
  createdAt : String
  shouldRevise : Bool

/-- One entry of `trace_events`; its latency is a clock reading and is left out. -/
structure TraceEvent where
  node : String
  event : String
  decision : String
  counters : Dict String Nat
  debugExcerpt : Option Json

structure ConversationState where
  conversationId : String
  turnId : String
  mode : Mode
  userMessage : String
  shortTermSummary : String
  recentMessages : List Json
  memoryHits : List Json
  retrievedChunks : List Json
  retrievalPlan : Json
  draftAnswer : DraftAnswer
  answerReview : Option Review
  traceEvents : List TraceEvent
  debugPayloads : Dict String Json
  outcome : String
  guardrailStage : Option String

def buildInitialState (r : ConversationRequest) : ConversationState where
  conversationId := r.conversationId
  turnId := r.turnId
  mode := r.mode
  userMessage := r.userMessage
  shortTermSummary := r.history.getD ""
  recentMessages := []
  memoryHits := []
  retrievedChunks := []
  retrievalPlan := .obj []
  draftAnswer := {}
  answerReview := none
  traceEvents := []
  debugPayloads := []
  outcome := "success"
  guardrailStage := none

/-- The fields of `RAGConfig` the graph reads. -/
structure Config where
  topKDocuments : Nat
  generationInputTokenBudget : Int
  generationSystemPromptReserveTokens : Int
  contextTokenBudget : Int
  contextDiversityScoreTolerance : Rat
  maxRecentMessages : Nat
  maxMemoryHits : Nat
  extendedRetrievalMaxConcurrency : Nat
  passTwoChunkThreshold : Nat
  passTwoScoreThreshold : Rat
  debugPayloadMaxChars : Nat
  debugPayloadMaxItems : Nat
  allowDebugPayloads : Bool
  rerankerEnabled : Bool
  rerankerCandidateLimit : Nat
  /-- Whether `langgraph` could be imported. -/
  hasLanggraph : Bool

/-- The functions of the Python standard library whose results enter prompts and debug texts. -/
structure Lib where
  /-- `str` of a value. -/
  str : Json → String
  /-- The format specification `.3f`. -/
  fixed3 : Rat → String
  /-- The substitutions of `_secret_string_patterns`. -/
  redact : String → String
  /-- `_secret_key_pattern.search`. -/
  secretKey : String → Bool
  casefold : String → String
  /-- `re.findall` of word characters. -/
  words : String → List String
  /-- `s.isdigit()`. -/
  isDigit : String → Bool
  /-- `int(s)` for a text of digits, or the message of its `ValueError`. -/
  int : String → Except String Nat
  /-- `isoformat` of a point in time, counted in microseconds. -/
  isoformat : Nat → String

/-- The exceptions the graph distinguishes or reports. -/
inductive Err
  | valueError (message : String)
  | typeError (message : String)
  | guardrailBlocked (stage : String)
  | downstream (code message : String)
  | runtime (message : String)
  | timeout
  | store (message : String)
  | publish (message : String)

/-- `str(exc)`. -/
def Err.text : Err → String
  | .valueError m => m
  | .typeError m => m
  | .guardrailBlocked stage => stage ++ " guardrail blocked the request"
  | .downstream code m => code ++ ": " ++ m
  | .runtime m => m
  | .timeout => ""
  | .store m => m
  | .publish m => m

end RagForge.Rag
