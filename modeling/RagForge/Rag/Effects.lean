import RagForge.Effect.Pool
import RagForge.Rag.Context

/-
What a conversation turn asks of its surroundings: the calls of `ConversationBackendClient`, the
conversation store and the client's event channel.

A store call is answered from the stored documents.  Every other reply, every fault and every clock
reading comes from an `Env`, so a statement about all environments is a statement about all
behaviours of the other services.
-/

namespace RagForge.Rag

open Effect Py

inductive ScanStage
  | input
  | output

inductive Depth
  | light
  | deep

/-- What the generation call streams before its reply, and the reply itself. -/
structure Generation where
  deltas : List String
  response : Except Err Json

/-- How one cross-encoder request ends. -/
inductive RerankOutcome
  | scores (xs : List Rat)
  | busy
  | timeout
  | error

structure RewriteContext where
  summary : String
  recentMessages : List Json
  memoryHits : List Json

/-- The payloads of the frontend events. -/
inductive EventData
  | status (node : NodeName) (phase message : String) (mode : Mode)
  | trace (payload : TraceEvent)
  | token (textDelta : String) (tokenIndex : Nat) (source : String)
  | answerReview (review : Json)
  | done (finalAnswer : String) (sources : List Json) (reviewSummary : Json) (plan : Json)
      (traceSummary : Option (List TraceEvent)) (safeDebugPayloads : Option (Dict String Json))
  | error (code failedNode : String) (retryable : Bool) (message : String)

/-! ## Stored documents -/

/-- `_ownership`: the boundary every stored document is read and written within. -/
structure Owner where
  tenantId : String
  userId : String
  deriving DecidableEq

def Identity.owner (i : Identity) : Owner := ⟨i.tenantId, i.userId⟩

structure CheckpointData where
  owner : Owner
  conversationId : String
  turnId : String
  requestId : String
  traceId : String
  graphRunId : String
  ownerId : Option String
  ownerType : Option OwnerType
  node : String
  stage : Stage
  status : String
  state : ConversationState
  extra : List (String × Json)

/-- A stored checkpoint: `created_at` is the time of the call. -/
structure Checkpoint extends CheckpointData where
  createdAt : Nat

structure Turn where
  owner : Owner
  conversationId : String
  turnId : String
  requestId : String
  mode : Mode
  userMessage : String
  finalAnswer : String
  retrievedChunks : List Json
  reviewId : Option String
  createdAt : Nat

structure Summary where
  owner : Owner
  conversationId : String
  summary : String

structure Thread where
  owner : Owner
  conversationId : String
  latestTurnId : String
  latestMode : Mode

structure StoredReview where
  owner : Owner
  turnId : String
  review : Review

/-- What `load_context` gives the graph. -/
structure LoadedContext where
  summary : String
  recentMessages : List Json

inductive Op
  | riskScan (request : ConversationRequest) (text : String) (stage : ScanStage)
  | getRelevantMemories (request : ConversationRequest) (depth : Depth)
  | embed (request : ConversationRequest) (query : String)
  | searchChunks (request : ConversationRequest) (query : String) (vector : List Json)
      (plan : Json) (passName : String) (topK : Nat)
  | queryRewrite (request : ConversationRequest) (context : RewriteContext)
  | generateAnswer (request : ConversationRequest) (prompt : Prompt)
  | evaluateAnswer (request : ConversationRequest) (answer : String) (passages : List Passage)
      (mode : Mode)
  | rerankScores (query : String) (passages : List String)
  | publish (request : ConversationRequest) (data : EventData)
  | publishDomainEvent (action : String) (request : ConversationRequest)
  | now
  | newId
  | loadContext (owner : Owner) (conversationId : String) (recentLimit : Nat)
  | saveThread (doc : Thread)
  | saveTurn (doc : Turn)
  | saveSummary (doc : Summary)
  | saveAnswerReview (doc : StoredReview)
  | saveCheckpoint (doc : CheckpointData)
  | getLatestCheckpoint (owner : Owner) (request : ConversationRequest)

def Op.Reply : Op → Type
  | .riskScan .. | .getRelevantMemories .. | .embed .. | .searchChunks .. | .queryRewrite ..
  | .evaluateAnswer .. => Json
  | .generateAnswer .. => Generation
  | .rerankScores .. => RerankOutcome
  | .now => Nat
  | .newId => String
  | .loadContext .. => LoadedContext
  | .getLatestCheckpoint .. => Option Checkpoint
  | .publish .. | .publishDomainEvent .. | .saveThread .. | .saveTurn .. | .saveSummary ..
  | .saveAnswerReview .. | .saveCheckpoint .. => Unit

def sig : Sig := ⟨Op, Op.Reply, Err⟩

/-! ## The store -/

structure World where
  checkpoints : List Checkpoint
  turns : List Turn
  summaries : List Summary
  threads : List Thread
  reviews : List StoredReview
  /-- The number of operations performed so far. -/
  tick : Nat

def World.empty : World := ⟨[], [], [], [], [], 0⟩

/-- A store call that fails before or after it took effect. -/
structure Fault where
  message : String
  applied : Bool

/-- The surroundings: what others answer to the `n`th operation, what the clock shows then, and
which store calls fail. -/
structure Env where
  reply : (op : Op) → Nat → Except Err op.Reply
  clock : Nat → Nat
  fault : Nat → Option Fault

/-- `update_one(.., upsert=True)`. -/
def upsert {δ : Type} (same : δ → Bool) (doc : δ) : List δ → List δ
  | [] => [doc]
  | d :: rest => if same d then doc :: rest else d :: upsert same doc rest

/-- The checkpoints a lookup may see. -/
def matching (w : World) (owner : Owner) (request : ConversationRequest) : List Checkpoint :=
  w.checkpoints.filter fun c =>
    c.owner == owner && c.conversationId == request.conversationId &&
      c.requestId == request.requestId

/-- The newest document; of documents of one time, the one stored last. -/
def newest : List Checkpoint → Option Checkpoint
  | [] => none
  | c :: rest =>
    match newest rest with
    | none => some c
    | some d => if d.createdAt < c.createdAt then some c else some d

/-- `load_context`: the newest turns, oldest first, as alternating messages. -/
def loadContext (w : World) (owner : Owner) (conversationId : String) (recentLimit : Nat) :
    LoadedContext :=
  let turns := w.turns.filter fun t => t.owner == owner && t.conversationId == conversationId
  let latest := ((turns.insertionSort fun a b => b.createdAt ≤ a.createdAt).take
    (max recentLimit 1)).reverse
  let messages := latest.flatMap fun t =>
    [Json.obj [("role", .str "user"), ("content", .str t.userMessage)],
      Json.obj [("role", .str "assistant"), ("content", .str t.finalAnswer)]]
  let summary := (w.summaries.find? fun s =>
    s.owner == owner && s.conversationId == conversationId).map Summary.summary
  ⟨summary.getD "", messages.drop (messages.length - recentLimit)⟩

def World.write (env : Env) (w w' : World) : Except Err Unit × World :=
  match env.fault w.tick with
  | none => (.ok (), { w' with tick := w.tick + 1 })
  | some f => (.error (.store f.message), { (if f.applied then w' else w) with tick := w.tick + 1 })

def World.read {α : Type} (env : Env) (w : World) (a : α) : Except Err α × World :=
  match env.fault w.tick with
  | none => (.ok a, { w with tick := w.tick + 1 })
  | some f => (.error (.store f.message), { w with tick := w.tick + 1 })

def World.save (w : World) (now : Nat) : Op → World
  | .saveThread doc => { w with
      threads := upsert (fun d => d.owner == doc.owner && d.conversationId == doc.conversationId)
        doc w.threads }
  | .saveTurn doc => { w with
      turns := upsert (fun d => d.owner == doc.owner && d.turnId == doc.turnId) doc w.turns }
  | .saveSummary doc => { w with
      summaries := upsert (fun d => d.owner == doc.owner && d.conversationId == doc.conversationId)
        doc w.summaries }
  | .saveAnswerReview doc => { w with
      reviews := upsert (fun d => d.owner == doc.owner && d.review.reviewId == doc.review.reviewId)
        doc w.reviews }
  | .saveCheckpoint doc => { w with checkpoints := w.checkpoints ++ [⟨doc, now⟩] }
  | _ => w

/-- The store and the other services, for a lookup that returns `choose n` of the checkpoints that
match when the `n`th operation happens. -/
def handlerWith (choose : Nat → List Checkpoint → Option Checkpoint) (env : Env) :
    Handler sig World
  | .loadContext owner conversationId limit, w =>
    w.read env (loadContext w owner conversationId limit)
  | .getLatestCheckpoint owner request, w =>
    w.read env (choose w.tick (matching w owner request))
  | .saveThread doc, w => w.write env (w.save (env.clock w.tick) (.saveThread doc))
  | .saveTurn doc, w => w.write env (w.save (env.clock w.tick) (.saveTurn doc))
  | .saveSummary doc, w => w.write env (w.save (env.clock w.tick) (.saveSummary doc))
  | .saveAnswerReview doc, w => w.write env (w.save (env.clock w.tick) (.saveAnswerReview doc))
  | .saveCheckpoint doc, w => w.write env (w.save (env.clock w.tick) (.saveCheckpoint doc))
  | .now, w => (.ok (env.clock w.tick), { w with tick := w.tick + 1 })
  | op, w => (env.reply op w.tick, { w with tick := w.tick + 1 })

/-- The system as it is: `get_latest_checkpoint` returns the newest match. -/
def handler (env : Env) : Handler sig World := handlerWith (fun _ => newest) env

theorem World.read_state {α : Type} (env : Env) (w : World) (a : α) :
    (w.read env a).2 = { w with tick := w.tick + 1 } := by
  unfold World.read
  cases env.fault w.tick <;> rfl

theorem World.write_state (env : Env) (w w' : World) :
    (w.write env w').2 = { w' with tick := w.tick + 1 } ∨
      (w.write env w').2 = { w with tick := w.tick + 1 } := by
  unfold World.write
  cases env.fault w.tick with
  | none => exact .inl rfl
  | some f =>
    cases hf : f.applied with
    | true => exact .inl (by simp [hf])
    | false => exact .inr (by simp [hf])

theorem handlerWith_state (choose : Nat → List Checkpoint → Option Checkpoint) (env : Env)
    (op : Op) (w : World) :
    (handlerWith choose env op w).2 = { w.save (env.clock w.tick) op with tick := w.tick + 1 } ∨
      (handlerWith choose env op w).2 = { w with tick := w.tick + 1 } := by
  cases op
  case saveThread | saveTurn | saveSummary | saveAnswerReview | saveCheckpoint =>
    exact World.write_state env w _
  case loadContext | getLatestCheckpoint => exact .inr (World.read_state env w _)
  all_goals exact .inr rfl

theorem handlerWith_checkpoints (choose : Nat → List Checkpoint → Option Checkpoint) (env : Env)
    (op : Op) (w : World) :
    (handlerWith choose env op w).2.checkpoints = w.checkpoints ∨
      ∃ doc, op = .saveCheckpoint doc ∧
        (handlerWith choose env op w).2.checkpoints =
          w.checkpoints ++ [⟨doc, env.clock w.tick⟩] := by
  rcases handlerWith_state choose env op w with h | h
  · rw [h]
    cases op
    case saveCheckpoint doc => exact .inr ⟨doc, rfl, rfl⟩
    all_goals exact .inl rfl
  · rw [h]
    exact .inl rfl

theorem mem_upsert {δ : Type} {same : δ → Bool} {doc d : δ} {docs : List δ}
    (h : d ∈ upsert same doc docs) : d = doc ∨ d ∈ docs := by
  induction docs with
  | nil => exact .inl (List.mem_singleton.mp h)
  | cons e rest ih =>
    unfold upsert at h
    split at h
    · rcases List.mem_cons.mp h with rfl | hrest
      · exact .inl rfl
      · exact .inr (List.mem_cons_of_mem e hrest)
    · rcases List.mem_cons.mp h with rfl | hrest
      · exact .inr List.mem_cons_self
      · rcases ih hrest with rfl | hold
        · exact .inl rfl
        · exact .inr (List.mem_cons_of_mem e hold)

theorem handlerWith_turns {choose : Nat → List Checkpoint → Option Checkpoint} {env : Env}
    {op : Op} {w : World} {t : Turn} (ht : t ∈ (handlerWith choose env op w).2.turns) :
    t ∈ w.turns ∨ op = .saveTurn t := by
  rcases handlerWith_state choose env op w with h | h
  · rw [h] at ht
    cases op
    case saveTurn doc =>
      rcases mem_upsert ht with rfl | hold
      · exact .inr rfl
      · exact .inl hold
    all_goals exact .inl ht
  · rw [h] at ht
    exact .inl ht

theorem newest_mem {cs : List Checkpoint} {c : Checkpoint} (h : newest cs = some c) : c ∈ cs := by
  induction cs with
  | nil => exact nomatch h
  | cons d rest ih =>
    unfold newest at h
    cases hrest : newest rest with
    | none =>
      rw [hrest] at h
      exact Option.some.inj h ▸ List.mem_cons_self
    | some e =>
      rw [hrest] at h ih
      by_cases hlt : e.createdAt < d.createdAt
      · simp only [hlt, if_true] at h
        exact Option.some.inj h ▸ List.mem_cons_self
      · simp only [hlt, if_false] at h
        exact List.mem_cons_of_mem d (ih h)

theorem mem_matching {w : World} {owner : Owner} {request : ConversationRequest} {c : Checkpoint}
    (h : c ∈ matching w owner request) :
    c ∈ w.checkpoints ∧ c.owner = owner ∧ c.conversationId = request.conversationId ∧
      c.requestId = request.requestId := by
  simp only [matching, List.mem_filter, Bool.and_eq_true, beq_iff_eq] at h
  exact ⟨h.1, h.2.1.1, h.2.1.2, h.2.2⟩

end RagForge.Rag
