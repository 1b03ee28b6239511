import RagForge.Rag.Citations
import RagForge.Rag.Nodes

/-
One run of the conversation graph: `_wrap_node`, the graph that LangGraph executes, the resume path
and `ConversationGraphRunner.run`.
-/

namespace RagForge.Rag

open Effect Py

section

variable (cfg : Config) (lib : Lib)

section

variable (name : NodeName) (state : ConversationState)

/-- `_commit_final_context`: the first commit wins. -/
def commitFinalContext : RunM Unit :=
  Proc.modify fun rt => { rt with finalContext := some (rt.finalContext.getD
    state.retrievedChunks) }

/-- The mode of the nodes in `GENERATION_NODES`. -/
def generationMode : NodeName → Option Mode
  | .generateAnswer => some .regular
  | .generateDraftAnswer => some .extended
  | _ => none

def enterNode : RunM ConversationState := do
  Proc.modify fun rt => { rt with currentNode := name.text }
  let request ← getRequest
  match generationMode name with
  | none => return state
  | some mode =>
    let state := { state with
      retrievedChunks := assembleGenerationContext cfg lib state request mode }
    commitFinalContext state
    return state

def tracePayload (m : Meta) : TraceEvent where
  node := name.text
  event := m.phase
  decision := m.decision.getD m.phase
  counters := m.counters
  debugExcerpt := (m.debugExcerpt.filter Json.truthy).map (truncate cfg lib)

def wrapNode : RunM ConversationState := do
  let state ← enterNode cfg lib name state
  let request ← getRequest
  emit (.status name "started" (name.text ++ " started") request.mode)
  let update ← nodeMap cfg lib name state
  let payload := tracePayload cfg lib name update.2
  let next := { update.1 with traceEvents := update.1.traceEvents ++ [payload] }
  let rt ← Proc.read
  if name = .streamDone ∧ rt.terminalSent then return next
  else
    emit (.status name update.2.phase
      (update.2.message.getD (name.text ++ " " ++ update.2.phase)) request.mode)
    emit (.trace payload)
    return next

def runNodes : List NodeName → ConversationState → RunM ConversationState
  | [], state => return state
  | name :: rest, state => do
      let state ← wrapNode cfg lib name state
      runNodes rest state

/-- The successors of a node on the paths that contain it; `none` is the end. -/
def successors (node : NodeName) : List (Mode × Option NodeName) :=
  [Mode.regular, .extended].filterMap fun mode =>
    let path := executionPaths mode
    if node ∈ path then some (mode, path[path.idxOf node + 1]?) else none

/-- `_build_graph`: an edge branches on the mode of the state where the successors differ. -/
def nextNode (node : NodeName) (mode : Mode) : Option NodeName :=
  match successors node with
  | [] => none
  | (_, target) :: rest =>
    if rest.all fun x => x.2 == target then target
    else (((successors node).find? fun x => x.1 == mode).map Prod.snd).getD none

/-- `graph.ainvoke`, for at most `fuel` nodes. -/
def runGraph : Nat → NodeName → ConversationState → RunM ConversationState
  | 0, _, state => return state
  | fuel + 1, node, state => do
      let state ← wrapNode cfg lib node state
      match nextNode node state.mode with
      | none => return state
      | some next => runGraph fuel next state

def runFallbackGraph : RunM ConversationState :=
  runNodes cfg lib (executionPaths state.mode) state

def resumeFromCheckpoint (stage : Stage) : RunM ConversationState :=
  match remainingNodes state.mode stage with
  | none => runFallbackGraph cfg lib state
  | some nodes => runNodes cfg lib nodes state

/-- The result of a run; one that failed has no citation figures. -/
structure RunResult where
  answer : String
  sources : List Json
  citations : Json
  review : Json
  citationMetrics : Option CitationMetrics
  traceEvents : List TraceEvent
  debugPayloads : Dict String Json
  outcome : String
  guardrailStage : Option String
  error : Option String
  failedNode : Option String

def buildResult (sources : List Json) : RunResult where
  answer := state.draftAnswer.text
  sources := sources
  citations := state.draftAnswer.citations
  review := publicReview state.answerReview
  citationMetrics := some (citationMetrics lib state.draftAnswer.citations
    ((state.answerReview.map Review.claims).getD [])
    (chunkPassages lib state.retrievedChunks).length)
  traceEvents := state.traceEvents
  debugPayloads := state.debugPayloads
  outcome := state.outcome
  guardrailStage := state.guardrailStage
  error := none
  failedNode := none

def failureResult (outcome : String) (sources : List Json) (guardrailStage error failedNode :
    Option String) : RunResult where
  answer := ""
  sources := sources
  citations := .null
  review := .obj []
  citationMetrics := none
  traceEvents := []
  debugPayloads := []
  outcome := outcome
  guardrailStage := guardrailStage
  error := error
  failedNode := failedNode

def finishRun (final : ConversationState) : RunM RunResult := do
  commitFinalContext final
  let rt ← Proc.read
  return buildResult lib final (rt.finalContext.getD [])

/-- The part of `run` inside its `try` block. -/
def runBody (checkpoint : Option Checkpoint) : RunM RunResult := do
  let final ← (match checkpoint with
    | some c => resumeFromCheckpoint cfg lib state c.stage
    | none =>
      if cfg.hasLanggraph then runGraph cfg lib 25 .inputGuardrails state
      else runFallbackGraph cfg lib state)
  finishRun lib final

/-- The `except` blocks of `run`.  The checkpoint they store holds the state the run started
from, since `state` is not rebound while the nodes run. -/
def runFailed (e : Err) : RunM RunResult := do
  let rt ← Proc.read
  match e with
  | .guardrailBlocked stage =>
    saveCheckpoint state rt.currentNode .guardrailBlocked "guardrail_blocked"
      [("outcome", .str "guardrail_blocked"), ("guardrail_stage", .str stage)]
    return failureResult "guardrail_blocked" [] (some stage) none none
  | e =>
    saveCheckpoint state rt.currentNode .error "error" [("error", .str e.text)]
    -- `emit` drops a second terminal event, as the test on `terminal_sent` does.
    emit (.error "graph_execution_error" rt.currentNode true e.text)
    return failureResult "failed" (rt.finalContext.getD []) none (some e.text)
      (some rt.currentNode)

end

def adoptCheckpoint (c : Checkpoint) (request : ConversationRequest) : ConversationRequest :=
  let request := if c.graphRunId = "" then request else { request with graphRunId := c.graphRunId }
  let request :=
    if c.ownerId.getD "" ≠ "" ∧
        (request.ownerId = some request.conversationId ∨ request.ownerId.getD "" = "") then
      { request with ownerId := c.ownerId }
    else request
  if c.ownerType.isSome ∧ (request.ownerType = none ∨ request.ownerType = some .conversation) then
    { request with ownerType := c.ownerType }
  else request

def findCheckpoint (resume : Bool) : RunM (Option Checkpoint) := do
  let rt ← Proc.read
  if resume then call (.getLatestCheckpoint rt.owner rt.request) else return none

/-- The part of `run` before its `try` block: the state the run starts from, and the checkpoint it
comes from. -/
def startRun (resume : Bool) : RunM (ConversationState × Option Checkpoint) := do
  let request ← getRequest
  let checkpoint ← findCheckpoint resume
  match checkpoint with
  | none =>
    call (.publishDomainEvent "rag.turn.started" request)
    return (buildInitialState request, none)
  | some c =>
    Proc.modify fun rt => { rt with request := adoptCheckpoint c rt.request }
    return (c.state, some c)

def run (resume : Bool) : RunM RunResult := do
  let start ← startRun resume
  Proc.handle (runBody cfg lib start.1 start.2) (runFailed start.1)

section

variable (identity : Identity) (fresh : FreshIds) (data : ChatData)
  (sessionId connectionId : Option String)

/-- `handle_question`. -/
def answerQuestion : RunM RunResult :=
  if strip data.question = "" then raise (.valueError "Question is required")
  else run cfg lib data.resume

def newRuntime : Runtime where
  owner := identity.owner
  request := buildRequest identity fresh data sessionId connectionId

/-- What one chat request of a client makes the service do. -/
def handleQuestion : Prog sig (Except Err RunResult × Runtime) :=
  (answerQuestion cfg lib data).start (newRuntime identity fresh data sessionId connectionId)

end

end

end RagForge.Rag
