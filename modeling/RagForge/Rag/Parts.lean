import RagForge.Effect.Built
import RagForge.Rag.Protocol

/-
What the nodes of the conversation graph are made of.

Every node is built from emitted events, calls to other services and changes of the run's own
objects that leave the request and the terminal flag alone.  The walk over the nodes is done once
here; what a run publishes, and which answer a judge saw, follow from it in other modules.
-/

namespace RagForge.Rag

open Effect Py

/-- An operation that only `emit` performs. -/
def Op.isPublish : Op → Bool
  | .publish .. => true
  | _ => false

theorem isTerminal_of_publicFor {data publicData : EventData} {role : Option String}
    (h : data.publicFor role = some publicData) : publicData.isTerminal = data.isTerminal := by
  cases data
  case trace payload =>
    simp only [EventData.publicFor] at h
    split at h
    · exact Option.some.inj h ▸ rfl
    · cases h
  case done =>
    simp only [EventData.publicFor] at h
    split at h <;> exact Option.some.inj h ▸ rfl
  all_goals exact Option.some.inj h ▸ rfl

inductive Part (allowed : Op → Prop) : {α : Type} → RunM α → Prop
  | emit {data : EventData} (h : data.isTerminal = false) : Part allowed (emit data)
  | call {op : Op} (h : allowed op) : Part allowed (call op)
  | set {g : Runtime → Runtime}
      (h : ∀ rt, (g rt).request = rt.request ∧ (g rt).terminalSent = rt.terminalSent ∧
        (g rt).owner = rt.owner) : Part allowed (Proc.modify g)

def parts (request : ConversationRequest) (allowed : Op → Prop) : Rules sig Runtime where
  inv rt := rt.request = request
  block := Part allowed

/-- A resume after this stage does not judge the answer again. -/
def Stage.skipsJudge : Stage → Bool
  | .afterEvaluation | .afterPersistence => true
  | _ => false

/-- The operations of the nodes that neither judge the answer nor store the turn. -/
def Op.isLight : Op → Bool
  | .publish .. | .evaluateAnswer .. | .saveTurn .. | .saveAnswerReview ..
  | .getLatestCheckpoint .. => false
  | .saveCheckpoint doc => !doc.stage.skipsJudge
  | _ => true

/-- What a node that neither generates, judges nor scans leaves alone. -/
structure Kept (state : ConversationState) (next : ConversationState) : Prop where
  mode : next.mode = state.mode
  draftAnswer : next.draftAnswer = state.draftAnswer
  answerReview : next.answerReview = state.answerReview

/-! ## Nodes that neither scan nor generate -/

/-- The nodes before the answer is judged that neither scan nor generate. -/
def NodeName.isLight : NodeName → Bool
  | .loadShortTermContext | .loadMemoryLight | .loadMemoryDeep | .retrieveChunksOnce
  | .rewriteOrDecomposeQuery | .retrievePassOne | .retrievePassTwoIfNeeded | .mergeCandidates
  | .rerankCandidates => true
  | _ => false

def NodeName.isCalm : NodeName → Bool
  | .evaluateAnswerLight | .evaluateAnswerDeep | .persistTurn => true
  | n => n.isLight

variable {n : NodeName}

theorem NodeName.ne_of_isCalm {k : NodeName} (hn : n.isCalm = true) (hk : k.isCalm = false) :
    n ≠ k := by
  intro heq
  rw [heq, hk] at hn
  exact nomatch hn

def Op.isPlain (n : NodeName) : Op → Bool
  | .rerankScores .. | .now | .newId | .loadContext .. | .publishDomainEvent .. | .saveThread ..
  | .saveSummary .. => true
  | .evaluateAnswer .. | .saveAnswerReview .. => !n.isLight
  | _ => false

/-- The operations that hand the question of a request to memory, retrieval or query rewriting. -/
def Op.query? : Op → Option ConversationRequest
  | .getRelevantMemories r _ | .embed r _ | .searchChunks r .. | .queryRewrite r _ => some r
  | _ => none

/-- What a calm node asks of the rules it is built by. -/
structure Lets (R : Rules sig Runtime) (n : NodeName) (state : ConversationState) : Prop where
  plain : ∀ {op : Op}, op.isPlain n = true → R.block (call op)
  query : n.usesMessage = true → ∀ {rt : Runtime} {op : Op}, R.inv rt →
    op.query? = some rt.request → R.block (call op)
  save : ∀ {rt : Runtime} {doc : CheckpointData}, R.inv rt →
    doc.key = ⟨rt.owner, rt.request.conversationId, rt.request.requestId⟩ →
    doc.state.userMessage = state.userMessage → doc.state.draftAnswer = state.draftAnswer →
    doc.stage.isMilestone = true → (doc.stage.skipsJudge = true → n.isLight = false) →
    (doc.stage = .afterPersistence → n = .persistTurn) → R.block (call (.saveCheckpoint doc))
  saveTurn : n = .persistTurn → ∀ {rt : Runtime} {doc : Turn}, R.inv rt →
    doc.key = ⟨rt.owner, rt.request.conversationId, rt.request.requestId⟩ →
    doc.finalAnswer = state.draftAnswer.text → R.block (call (.saveTurn doc))
  review : n.isLight = false → ∀ {review : Json}, R.block (emit (.answerReview review))

/-- What a calm node leaves alone. -/
structure Undisturbed (n : NodeName) (state : ConversationState) (next : ConversationState) :
    Prop where
  userMessage : next.userMessage = state.userMessage
  mode : next.mode = state.mode
  draftAnswer : next.draftAnswer = state.draftAnswer
  answerReview : n.isLight = true → next.answerReview = state.answerReview

variable {cfg : Config} {lib : Lib} {state : ConversationState} {α β : Type} {node status : String}
  {stage : Stage} {f : Unit → RunM β}

section

variable {R : Rules sig Runtime} {Q : β → Prop}

theorem request_bind_built {f : ConversationRequest → RunM β}
    (hf : ∀ rt, R.inv rt → Built R (f rt.request) Q) : Built R (getRequest >>= f) Q := by
  refine .bind (P := fun r => ∃ rt, R.inv rt ∧ rt.request = r) ?_ fun r hr => ?_
  · exact .read_bind fun rt hrt => .pure ⟨rt, hrt, rfl⟩
  · obtain ⟨rt, hrt, rfl⟩ := hr
    exact hf rt hrt

theorem searchChunks_built
    (hquery : ∀ {rt : Runtime} {op : Op}, R.inv rt → op.query? = some rt.request →
      R.block (call op)) (query : String) (plan : Json) (passName : String) (topK : Option Nat) :
    Built R (searchChunks cfg query plan passName topK) fun _ => True := by
  refine request_bind_built fun rt hrt => ?_
  refine .block_bind (hquery hrt rfl) fun embedding => ?_
  refine .ite (fun _ => ?_) fun _ => ?_
  · exact .raise _
  · exact .block (hquery hrt rfl) fun _ => trivial

theorem startTask_built {task : RunM α} (h : Built R task fun _ => True) :
    Built R (startTask task) fun _ => True := by
  refine .handle ?_ fun e => .pure trivial
  exact .bind h fun a _ => .pure trivial

theorem startTasks_built (tasks : List (RunM α)) (h : ∀ t ∈ tasks, Built R t fun _ => True) :
    Built R (startTasks tasks) fun _ => True := by
  induction tasks with
  | nil => exact .pure trivial
  | cons t rest ih =>
    refine .bind (startTask_built (h t List.mem_cons_self)) fun x _ => ?_
    refine .bind (ih fun u hu => h u (List.mem_cons_of_mem t hu)) fun xs _ => ?_
    exact .pure trivial

theorem awaitWindow_built {search : String → RunM Json}
    (h : ∀ query, Built R (search query) fun _ => True) (fuel : Nat)
    (pending : List (Except Err Json)) (queued : List String) :
    Built R (awaitWindow search fuel pending queued) fun _ => True := by
  induction fuel generalizing pending queued with
  | zero => cases pending <;> exact .pure trivial
  | succ fuel ih =>
    cases pending with
    | nil => exact .pure trivial
    | cons task pending =>
      cases task with
      | error e => exact .raise (S := sig) e
      | ok response =>
        cases queued with
        | nil => exact .bind (ih pending []) fun rest _ => .pure trivial
        | cons query queued =>
          refine .bind (startTask_built (h query)) fun task _ => ?_
          exact .bind (ih (pending ++ [task]) queued) fun rest _ => .pure trivial

variable (h : Lets R n state)

include h

theorem milestone_bind_built {next : ConversationState}
    (hmessage : next.userMessage = state.userMessage)
    (hdraft : next.draftAnswer = state.draftAnswer) (hstage : stage.isMilestone = true)
    (hskips : stage.skipsJudge = true → n.isLight = false)
    (hlast : stage = .afterPersistence → n = .persistTurn) (hf : Built R (f ()) Q) :
    Built R (saveCheckpoint next node stage status [] >>= f) Q := by
  refine .bind (P := fun _ => True) (.read_bind fun rt hrt => ?_) fun _ _ => hf
  exact .block (h.save hrt rfl hmessage hdraft hstage hskips hlast) fun _ => trivial

theorem loadShortTermContext_built :
    Built R (loadShortTermContext cfg state) fun x => Undisturbed n state x.1 := by
  refine .read_bind fun rt _ => ?_
  refine .block_bind (h.plain rfl) fun context => ?_
  exact milestone_bind_built h rfl rfl rfl nofun nofun (.pure ⟨rfl, rfl, rfl, fun _ => rfl⟩)

section

variable (hn : n.usesMessage = true)

include hn

theorem loadMemory_built (depth : Depth) (message : String) :
    Built R (loadMemory cfg lib depth message state) fun x => Undisturbed n state x.1 := by
  refine .bind (P := fun _ => True) ?_ fun response _ => .pure ⟨rfl, rfl, rfl, fun _ => rfl⟩
  exact request_bind_built fun rt hrt => .block (h.query hn hrt rfl) fun _ => trivial

theorem retrieveChunksOnce_built :
    Built R (retrieveChunksOnce cfg lib state) fun x => Undisturbed n state x.1 := by
  refine request_bind_built fun rt _ => ?_
  refine .bind (searchChunks_built (h.query hn) _ _ _ _) fun response _ => ?_
  refine .block_bind (h.plain rfl) fun now => ?_
  exact milestone_bind_built h rfl rfl rfl nofun nofun (.pure ⟨rfl, rfl, rfl, fun _ => rfl⟩)

theorem rewriteOrDecomposeQuery_built :
    Built R (rewriteOrDecomposeQuery cfg lib state) fun x => Undisturbed n state x.1 := by
  refine request_bind_built fun rt _ => ?_
  refine .bind (P := fun _ => True) ?_ fun response _ => .pure ⟨rfl, rfl, rfl, fun _ => rfl⟩
  exact request_bind_built fun rt hrt => .block (h.query hn hrt rfl) fun _ => trivial

theorem retrievePassOne_built :
    Built R (retrievePassOne cfg lib state) fun x => Undisturbed n state x.1 := by
  refine request_bind_built fun rt _ => ?_
  have hsearch (query : String) : Built R
      (searchChunks cfg query state.retrievalPlan "pass_one" (rerankerTopK cfg 0))
      fun _ => True := searchChunks_built (h.query hn) _ _ _ _
  refine .bind (startTasks_built _ fun t ht => ?_) fun pending _ => ?_
  · obtain ⟨query, -, rfl⟩ := List.mem_map.mp ht
    exact hsearch query
  refine .bind (awaitWindow_built hsearch _ _ _) fun responses _ => ?_
  refine .block_bind (h.plain rfl) fun now => ?_
  exact milestone_bind_built h rfl rfl rfl nofun nofun (.pure ⟨rfl, rfl, rfl, fun _ => rfl⟩)

theorem retrievePassTwoIfNeeded_built :
    Built R (retrievePassTwoIfNeeded cfg lib state) fun x => Undisturbed n state x.1 := by
  refine request_bind_built fun rt _ => ?_
  refine .ite (fun _ => ?_) fun _ => ?_
  · exact milestone_bind_built h rfl rfl rfl nofun nofun (.pure ⟨rfl, rfl, rfl, fun _ => rfl⟩)
  · refine .bind (searchChunks_built (h.query hn) _ _ _ _) fun response _ => ?_
    refine .block_bind (h.plain rfl) fun now => ?_
    exact milestone_bind_built h rfl rfl rfl nofun nofun (.pure ⟨rfl, rfl, rfl, fun _ => rfl⟩)

end

theorem rerankCandidates_built :
    Built R (rerankCandidates cfg lib state) fun x => Undisturbed n state x.1 := by
  refine request_bind_built fun rt _ => ?_
  refine .bind (P := fun _ => True) ?_ fun outcome _ => ?_
  · refine .ite (fun _ => .pure trivial) fun _ => ?_
    refine .ite (fun _ => .pure trivial) fun _ => ?_
    exact .block_bind (h.plain rfl) fun outcome => .pure trivial
  · exact milestone_bind_built h rfl rfl rfl nofun nofun (.pure ⟨rfl, rfl, rfl, fun _ => rfl⟩)

theorem evaluateCommon_built (hn : n.isLight = false) (judgeMode : Mode) :
    Built R (evaluateCommon cfg lib judgeMode state) fun x => Undisturbed n state x.1 := by
  refine request_bind_built fun rt _ => ?_
  refine .bind (P := fun _ => True) ?_ fun response _ => ?_
  · refine request_bind_built fun rt _ => .block (h.plain ?_) fun _ => trivial
    rw [Op.isPlain, hn]
    rfl
  refine .bind (.ofExcept fun _ _ => trivial) fun _ _ => ?_
  refine .block_bind (h.plain rfl) fun id => ?_
  refine .block_bind (h.plain rfl) fun now => ?_
  refine .block_bind (h.review hn) fun _ => ?_
  refine milestone_bind_built h rfl rfl rfl (fun _ => hn) nofun (.pure ⟨rfl, rfl, rfl, ?_⟩)
  rw [hn]
  exact nofun

theorem doPersistTurn_built (hn : n = .persistTurn) (summary : String) :
    Built R (doPersistTurn summary state) fun x => Undisturbed n state x.1 := by
  refine .read_bind fun rt hrt => ?_
  refine .block_bind (h.plain rfl) fun _ => ?_
  refine .block_bind (h.plain rfl) fun now => ?_
  refine .block_bind (h.saveTurn hn hrt rfl rfl) fun _ => ?_
  refine .block_bind (h.plain rfl) fun _ => ?_
  refine .bind (P := fun _ => True) ?_ fun _ _ => ?_
  · refine .read_bind fun rt _ => ?_
    cases state.answerReview with
    | none => exact .pure trivial
    | some review => exact .block (h.plain (hn ▸ rfl)) fun _ => trivial
  refine milestone_bind_built h rfl rfl rfl (fun _ => hn ▸ rfl) (fun _ => hn) ?_
  refine .block_bind (h.plain rfl) fun _ => ?_
  refine .block_bind (h.plain rfl) fun _ => ?_
  exact .pure ⟨rfl, rfl, rfl, fun _ => rfl⟩

theorem persistTurn_built (hn : n = .persistTurn) :
    Built R (persistTurn cfg state) fun x => Undisturbed n state x.1 := by
  refine request_bind_built fun rt _ => ?_
  exact .handle (doPersistTurn_built h hn _) fun e => .pure ⟨rfl, rfl, rfl, fun _ => rfl⟩

theorem calmNode_built (hn : n.isCalm = true) :
    Built R (nodeMap cfg lib n state) fun x => Undisturbed n state x.1 := by
  cases n
  case loadShortTermContext => exact loadShortTermContext_built h
  case loadMemoryLight | loadMemoryDeep => exact loadMemory_built h rfl _ _
  case retrieveChunksOnce => exact retrieveChunksOnce_built h rfl
  case rewriteOrDecomposeQuery => exact rewriteOrDecomposeQuery_built h rfl
  case retrievePassOne => exact retrievePassOne_built h rfl
  case retrievePassTwoIfNeeded => exact retrievePassTwoIfNeeded_built h rfl
  case mergeCandidates => exact .pure ⟨rfl, rfl, rfl, fun _ => rfl⟩
  case rerankCandidates => exact rerankCandidates_built h
  case evaluateAnswerLight | evaluateAnswerDeep => exact evaluateCommon_built h rfl _
  case persistTurn => exact persistTurn_built h rfl
  all_goals exact nomatch hn

end

variable {op : Op}

section

variable {request : ConversationRequest} {allowed : Op → Prop} {Q : β → Prop}

theorem built_call (h : allowed op) : Built (parts request allowed) (call op) fun _ => True :=
  .block (.call h) fun _ => trivial

theorem call_bind_built {f : op.Reply → RunM β} (h : allowed op)
    (hf : ∀ r, Built (parts request allowed) (f r) Q) :
    Built (parts request allowed) (call op >>= f) Q :=
  .block_bind (.call h) hf

theorem set_bind_built {g : Runtime → Runtime}
    (hg : ∀ rt, (g rt).request = rt.request ∧ (g rt).terminalSent = rt.terminalSent ∧
      (g rt).owner = rt.owner)
    (hf : Built (parts request allowed) (f ()) Q) :
    Built (parts request allowed) (Proc.modify g >>= f) Q :=
  .block_bind (.set hg) fun _ => hf

theorem getRequest_bind_built {f : ConversationRequest → RunM β}
    (hf : Built (parts request allowed) (f request) Q) :
    Built (parts request allowed) (getRequest >>= f) Q :=
  request_bind_built fun _ hrt => hrt ▸ hf

theorem saveCheckpoint_built (state : ConversationState) (node : String)
    (status : String) (extra : List (String × Json))
    (hstage : ∀ doc : CheckpointData, doc.stage = stage → allowed (.saveCheckpoint doc)) :
    Built (parts request allowed) (saveCheckpoint state node stage status extra) fun _ => True :=
  .read_bind fun _ _ => built_call (hstage _ rfl)

/-! ## Nodes that scan or generate -/

section

variable (hlight : ∀ op, op.isLight = true → allowed op)

include hlight

theorem saveCheckpoint_bind_built {extra : List (String × Json)} (hstage : stage.skipsJudge = false)
    (hf : Built (parts request allowed) (f ()) Q) :
    Built (parts request allowed) (saveCheckpoint state node stage status extra >>= f) Q := by
  refine .bind (saveCheckpoint_built _ _ _ _ fun doc hdoc => hlight _ ?_) fun _ _ => hf
  show (!doc.stage.skipsJudge) = true
  rw [hdoc, hstage]
  rfl

theorem riskScan_built (text : String) (stage : ScanStage) :
    Built (parts request allowed) (riskScan text stage) fun _ => True :=
  getRequest_bind_built (built_call (hlight _ rfl))

theorem inputGuardrails_built :
    Built (parts request allowed) (inputGuardrails cfg lib state)
      fun x => x.1.mode = request.mode := by
  refine getRequest_bind_built ?_
  refine .ite (fun _ => .raise _) fun _ => ?_
  refine .bind (riskScan_built hlight _ _) fun scan _ => ?_
  refine .ite (fun _ => .raise (S := sig) _) fun _ => ?_
  refine saveCheckpoint_bind_built hlight rfl ?_
  exact .pure rfl

theorem generateAnswerCall_built (prompt : Prompt) :
    Built (parts request allowed) (generateAnswerCall prompt) fun _ => True := by
  refine getRequest_bind_built ?_
  refine call_bind_built (hlight _ rfl) fun generation => ?_
  refine set_bind_built (fun rt => ⟨rfl, rfl, rfl⟩) ?_
  cases generation.response with
  | error e => exact .raise (S := sig) e
  | ok response =>
    refine .ite (fun _ => .pure trivial) fun _ => ?_
    cases response
    case obj fields => exact .ite (fun _ => .pure trivial) fun _ => .pure trivial
    all_goals exact .pure trivial

theorem generateCommon_built (source : String) (promptMode : Mode) (checkpointNode : String)
    (reviewIssues : Json) (isRevision : Bool) :
    Built (parts request allowed)
      (generateCommon cfg lib source promptMode checkpointNode reviewIssues isRevision state)
      fun x => x.1.mode = state.mode := by
  refine getRequest_bind_built ?_
  refine set_bind_built (fun rt => ⟨rfl, rfl, rfl⟩) ?_
  refine .bind (generateAnswerCall_built hlight _) fun response _ => ?_
  refine call_bind_built (hlight _ rfl) fun now => ?_
  refine saveCheckpoint_bind_built hlight rfl ?_
  exact .pure rfl

omit hlight in
theorem approveCandidate_built (finalAnswer : String) :
    Built (parts request allowed) (approveCandidate finalAnswer) fun _ => True := by
  refine .read_bind fun rt _ => ?_
  refine set_bind_built (fun rt => ⟨rfl, rfl, rfl⟩) ?_
  exact .forEach _ fun t _ => .block (.emit rfl) fun _ => trivial

end

/-! ## All nodes -/

theorem lets_parts
    (h : ∀ op, (n.isLight = true → op.isLight = true) → op.isPublish = false → allowed op) :
    Lets (parts request allowed) n state where
  plain {op} hop := by
    refine .call (h op (fun hn => ?_) ?_)
    · cases op <;> simp_all [Op.isPlain, Op.isLight]
    · cases op <;> first | rfl | exact nomatch hop
  query _ {rt op} _ hop := by
    refine .call (h op (fun _ => ?_) ?_) <;> cases op <;> first | rfl | exact nomatch hop
  save _ _ _ _ _ hskips _ := by
    refine .call (h _ (fun hn => ?_) rfl)
    rw [hn] at hskips
    simpa [Op.isLight] using hskips
  saveTurn hn _ _ _ _ _ := by
    refine .call (h _ (fun hlight => ?_) rfl)
    rw [hn] at hlight
    exact nomatch hlight
  review _ := .emit rfl

theorem enterNode_built (n : NodeName) :
    Built (parts request allowed) (enterNode cfg lib n state) fun next => Kept state next := by
  refine set_bind_built (fun rt => ⟨rfl, rfl, rfl⟩) ?_
  refine getRequest_bind_built ?_
  cases generationMode n with
  | none => exact .pure ⟨rfl, rfl, rfl⟩
  | some promptMode => exact set_bind_built (fun rt => ⟨rfl, rfl, rfl⟩) (.pure ⟨rfl, rfl, rfl⟩)

end

end RagForge.Rag
