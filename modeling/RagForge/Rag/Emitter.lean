import RagForge.Rag.Effects

/-
The event emitter (`conversation_events.py`), the approval buffer (`output_approval.py`) and the
backend calls, over the mutable objects of one run.
-/

namespace RagForge.Rag

open Effect Py

/-- `OutputApprovalBuffer`: the tokens of one candidate answer. -/
structure ApprovalBuffer where
  source : String := "final"
  tokens : List (String × Nat) := []

/-- The objects one run mutates: its request, its emitter, its approval buffer and the entries of
the `runtime` dictionary that a later step reads. -/
structure Runtime where
  owner : Owner
  request : ConversationRequest
  terminalSent : Bool := false
  buffer : ApprovalBuffer := {}
  currentNode : String := "graph_start"
  finalContext : Option (List Json) := none

abbrev RunM (α : Type) : Type := Proc sig Runtime α

def call (op : Op) : RunM op.Reply := Proc.perform (S := sig) op

def raise {α : Type} (e : Err) : RunM α := Proc.raise (S := sig) e

def getRequest : RunM ConversationRequest := do
  let rt ← Proc.read
  return rt.request

/-! ## Events -/

def EventData.isTerminal : EventData → Bool
  | .done .. => true
  | .error .. => true
  | _ => false

/-- What of an event a client without the admin role gets: no trace events, and a final event
without its trace and debug fields. -/
def EventData.publicFor (role : Option String) : EventData → Option EventData
  | .trace payload => if role = some "admin" then some (.trace payload) else none
  | .done answer sources review plan events payloads =>
    if role = some "admin" then some (.done answer sources review plan events payloads)
    else some (.done answer sources review plan none none)
  | data => some data

def emit (data : EventData) : RunM Unit := do
  let rt ← Proc.read
  if rt.terminalSent && data.isTerminal then return ()
  else
    match data.publicFor rt.request.role with
    | none => return ()
    | some publicData =>
      -- The flag is set before the event is published, so a failed publication still counts.
      Proc.modify fun rt => { rt with terminalSent := rt.terminalSent || data.isTerminal }
      call (.publish rt.request publicData)

/-! ## The approval buffer -/

def startCandidate (source : String) : RunM Unit :=
  Proc.modify fun rt => { rt with buffer := { source := source, tokens := [] } }

/-- `buffer_token` for each delta a generation streams; empty deltas are not counted. -/
def bufferTokens (deltas : List String) : RunM Unit :=
  Proc.modify fun rt => { rt with buffer :=
    { rt.buffer with tokens := rt.buffer.tokens ++ (deltas.filter fun d => d != "").zipIdx } }

def rejectCandidate : RunM Unit :=
  Proc.modify fun rt => { rt with buffer := { rt.buffer with tokens := [] } }

/-- The tokens `approve` delivers: the streamed ones if they spell the approved answer up to
trailing white space, and otherwise the answer as one token. -/
def approvedTokens (tokens : List (String × Nat)) (finalAnswer : String) : List (String × Nat) :=
  if rstrip (String.join (tokens.map Prod.fst)) = rstrip finalAnswer then tokens
  else if finalAnswer = "" then [] else [(finalAnswer, 0)]

/-- `approve`.  A flush that runs into its timeout is one whose publication fails. -/
def approveCandidate (finalAnswer : String) : RunM Unit := do
  let rt ← Proc.read
  Proc.modify fun rt => { rt with buffer := { rt.buffer with tokens := [] } }
  Proc.forEach (approvedTokens rt.buffer.tokens finalAnswer) fun t =>
    emit (.token t.1 t.2 rt.buffer.source)

/-! ## Backend calls -/

def riskScan (text : String) (stage : ScanStage) : RunM Json := do
  let request ← getRequest
  call (.riskScan request text stage)

def getRelevantMemories (depth : Depth) : RunM Json := do
  let request ← getRequest
  call (.getRelevantMemories request depth)

/-- `search_chunks`: embed the query, then search the vector store. -/
def searchChunks (cfg : Config) (query : String) (plan : Json) (passName : String)
    (topK : Option Nat) : RunM Json := do
  let request ← getRequest
  let embedding ← call (.embed request query)
  let queryVector := ((Json.get embedding "embedding").orElse (.arr [])).items
  if queryVector.isEmpty then raise (.runtime "Embedding query returned no query_vector")
  else call (.searchChunks request query queryVector plan passName (topK.getD cfg.topKDocuments))

def queryRewrite (context : RewriteContext) : RunM Json := do
  let request ← getRequest
  call (.queryRewrite request context)

/-- `generate_answer`: the streamed deltas go into the approval buffer, also those that come before
a failure, and an answer missing from the reply is what was streamed. -/
def generateAnswerCall (prompt : Prompt) : RunM Json := do
  let request ← getRequest
  let generation : Generation ← call (.generateAnswer request prompt)
  bufferTokens generation.deltas
  match generation.response with
  | .error e => raise e
  | .ok response =>
    if (response.get "answer").truthy then return response
    else
      match response, String.join generation.deltas with
      | .obj fields, text =>
        if text = "" then return response
        else return .obj (Dict.set fields "answer" (.str text))
      | other, _ => return other

def evaluateAnswerCall (answer : String) (passages : List Passage) (mode : Mode) : RunM Json := do
  let request ← getRequest
  call (.evaluateAnswer request answer passages mode)

def utcNow : RunM Nat := call .now

def newId : RunM String := call .newId

/-- `_text` of the reranker. -/
def rerankText (lib : Lib) (candidate : Json) : String :=
  let payload := (candidate.get "payload").orElse (.obj [])
  let metadata := firstTrue [candidate.get "metadata", payload.get "metadata"] (.obj [])
  lib.str (firstTrue [candidate.get "text", candidate.get "chunk", candidate.get "content",
    payload.get "text", metadata.get "text"] (.str ""))

/-- The candidates by descending score; equal scores keep their order. -/
def rankByScores (bounded : List Json) (scores : List Rat) : List Json :=
  let scored := (bounded.zip scores).map fun x =>
    (setText (setText x.1 "retrieval_score" (x.1.get "score")) "reranker_score" (.num x.2), x.2)
  (scored.insertionSort fun a b => b.2 ≤ a.2).map Prod.fst

/-- What `rerank` makes of the end of its request. -/
def rerankOutcome (bounded : List Json) : RerankOutcome → List Json × String
  | .busy => (bounded, "busy")
  | .timeout => (bounded, "timeout")
  | .error => (bounded, "error")
  | .scores scores =>
    if scores.length ≠ bounded.length then (bounded, "error")
    else (rankByScores bounded scores, "success")

/-- `CrossEncoderReranker.rerank`: the reranked candidates and the status. -/
def rerank (cfg : Config) (lib : Lib) (query : String) (candidates : List Json) :
    RunM (List Json × String) := do
  let bounded := candidates.take cfg.rerankerCandidateLimit
  let passages := bounded.map (rerankText lib)
  if ¬ cfg.rerankerEnabled then return (bounded, "disabled")
  else if bounded.length < 2 ∨ query = "" ∨ "" ∈ passages then
    return (bounded, "insufficient_input")
  else
    let outcome : RerankOutcome ← call (.rerankScores query passages)
    return rerankOutcome bounded outcome

def saveCheckpoint (state : ConversationState) (node : String) (stage : Stage) (status : String)
    (extra : List (String × Json)) : RunM Unit := do
  let rt ← Proc.read
  call (.saveCheckpoint
    { owner := rt.owner
      conversationId := rt.request.conversationId
      turnId := rt.request.turnId
      requestId := rt.request.requestId
      traceId := rt.request.traceId
      graphRunId := rt.request.graphRunId
      ownerId := rt.request.ownerId
      ownerType := rt.request.ownerType
      node := node
      stage := stage
      status := status
      state := state
      extra := extra })

end RagForge.Rag
