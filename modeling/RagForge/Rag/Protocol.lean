import RagForge.Rag.Run

/-
The protocol of one run of the conversation graph.

`protocol` is an automaton over the operations of a run.  It says which operations a run performs
given what it has seen: the question and the candidate answers it sent to the risk scan, and the
checkpoint it resumed from.  The nodes are gone from it.  `handleQuestion_follows` proves that every
run of the graph follows it, whatever the other services reply; the properties of whole systems of
runs are proved from the protocol alone.
-/

namespace RagForge.Rag

open Effect Py

def requestOwner (r : ConversationRequest) : Owner := ⟨r.tenantId.getD "", r.userId.getD ""⟩

/-- Two requests that ask the same question in the same turn of the same client. -/
def SameTurn (a b : ConversationRequest) : Prop :=
  a.userMessage = b.userMessage ∧ a.conversationId = b.conversationId ∧
    a.requestId = b.requestId ∧ requestOwner a = requestOwner b

theorem SameTurn.refl (a : ConversationRequest) : SameTurn a a := ⟨rfl, rfl, rfl, rfl⟩

/-- What the runs of one turn have in common. -/
structure TurnKey where
  owner : Owner
  conversationId : String
  requestId : String

def ConversationRequest.key (r : ConversationRequest) : TurnKey :=
  ⟨requestOwner r, r.conversationId, r.requestId⟩

def CheckpointData.key (c : CheckpointData) : TurnKey := ⟨c.owner, c.conversationId, c.requestId⟩

def Turn.key (t : Turn) : TurnKey := ⟨t.owner, t.conversationId, t.requestId⟩

theorem SameTurn.key_eq {a b : ConversationRequest} (h : SameTurn a b) : a.key = b.key := by
  obtain ⟨-, hconversation, hrequest, howner⟩ := h
  simp only [ConversationRequest.key, hconversation, hrequest, howner]

/-! ## What a checkpoint lets a resumed run skip -/

/-- The nodes a run that resumes from the checkpoint executes. -/
def CheckpointData.nodes (c : CheckpointData) : List NodeName := resumeNodes c.state.mode c.stage

/-- Resuming from the checkpoint does not scan the question. -/
def CheckpointData.SkipsInputScan (c : CheckpointData) : Prop := NodeName.inputGuardrails ∉ c.nodes

/-- Resuming from the checkpoint does not scan the answer. -/
def CheckpointData.SkipsOutputScan (c : CheckpointData) : Prop :=
  NodeName.outputGuardrails ∉ c.nodes

/-- The nodes that hand the question of the request to another service. -/
def NodeName.usesMessage : NodeName → Bool
  | .loadMemoryLight | .loadMemoryDeep | .retrieveChunksOnce | .rewriteOrDecomposeQuery
  | .retrievePassOne | .retrievePassTwoIfNeeded | .generateAnswer | .generateDraftAnswer
  | .reviseOnceIfNeeded => true
  | _ => false

/-- Resuming from the checkpoint hands the question of the request to another service. -/
def CheckpointData.UsesMessage (c : CheckpointData) : Prop :=
  c.nodes.any NodeName.usesMessage = true

instance (c : CheckpointData) : Decidable c.SkipsInputScan := inferInstanceAs (Decidable (_ ∉ _))

instance (c : CheckpointData) : Decidable c.SkipsOutputScan := inferInstanceAs (Decidable (_ ∉ _))

instance (c : CheckpointData) : Decidable c.UsesMessage := inferInstanceAs (Decidable (_ = _))

/-! ## The automaton -/

structure RunView where
  owner : Owner
  request : ConversationRequest
  /-- The checkpoint it resumed from. -/
  loaded : Option Checkpoint := none
  /-- Its question was scanned and not blocked. -/
  cleared : Bool := false
  /-- The deltas of its last generation. -/
  buffered : List String := []
  /-- The tokens of the approved candidate still to be delivered. -/
  flush : List String := []
  /-- The outcome of its last output scan: the candidate, or what replaces it. -/
  approved : Option String := none
  /-- It stores no other checkpoints than milestones; only its exception handlers do. -/
  milestonesOnly : Bool := false

namespace RunView

def MayUse (m : RunView) : Prop :=
  m.cleared = true ∨ ∃ c, m.loaded = some c ∧ c.SkipsInputScan ∧ c.UsesMessage

def MaySave (m : RunView) (message : String) : Prop :=
  (m.cleared = true ∧ message = strip m.request.userMessage) ∨
    ∃ c, m.loaded = some c ∧ c.SkipsInputScan ∧ message = c.state.userMessage

def MayDeliver (m : RunView) (text : String) : Prop :=
  m.approved = some text ∨
    ∃ c, m.loaded = some c ∧ c.SkipsOutputScan ∧ text = c.state.draftAnswer.text

def MayPublish (m : RunView) : EventData → Prop
  | .token delta _ _ => ∃ rest, m.flush = delta :: rest
  | .done answer .. => m.MayDeliver answer
  | _ => True

end RunView

/-- The operations that send the question of a request to query rewriting, retrieval, memory or
answer generation. -/
def Op.messageUse : Op → Option ConversationRequest
  | .getRelevantMemories r _ => some r
  | .embed r _ => some r
  | .searchChunks r .. => some r
  | .queryRewrite r _ => some r
  | .generateAnswer r _ => some r
  | _ => none

def RunView.allow (m : RunView) : Op → Prop
  | .riskScan r text .input => SameTurn r m.request ∧ text = strip m.request.userMessage
  | .riskScan r _ .output => SameTurn r m.request
  | .getRelevantMemories r _ => SameTurn r m.request ∧ m.MayUse
  | .embed r _ => SameTurn r m.request ∧ m.MayUse
  | .searchChunks r .. => SameTurn r m.request ∧ m.MayUse
  | .queryRewrite r _ => SameTurn r m.request ∧ m.MayUse
  | .generateAnswer r _ => SameTurn r m.request ∧ m.MayUse
  | .publish r data => SameTurn r m.request ∧ m.MayPublish data
  | .saveCheckpoint doc =>
    (doc.owner = m.owner ∧ doc.conversationId = m.request.conversationId ∧
      doc.requestId = m.request.requestId) ∧
    (m.milestonesOnly = true → doc.stage.isMilestone = true) ∧
    (doc.SkipsInputScan → m.MaySave doc.state.userMessage) ∧
    (doc.SkipsOutputScan → m.MayDeliver doc.state.draftAnswer.text)
  | .saveTurn doc =>
    (doc.owner = m.owner ∧ doc.conversationId = m.request.conversationId ∧
      doc.requestId = m.request.requestId) ∧ m.MayDeliver doc.finalAnswer
  | .getLatestCheckpoint owner r => owner = m.owner ∧ r = m.request
  | _ => True

def RunView.next (m : RunView) : (op : Op) → Except Err op.Reply → RunView
  | .riskScan _ _ .input, .ok scan =>
    if (Json.get scan "blocked").truthy then m else { m with cleared := true }
  | .riskScan _ text .output, .ok scan =>
    if (Json.get scan "blocked").truthy then
      { m with approved := some (safeReplacement scan), flush := [] }
    else
      { m with
        approved := some text
        flush := (approvedTokens (m.buffered.map fun d => (d, 0)) text).map Prod.fst }
  | .riskScan _ _ .output, .error _ => { m with flush := [] }
  | .generateAnswer _ _, .ok generation =>
    { m with
      buffered := Generation.deltas generation |>.filter fun d => d != ""
      flush := [] }
  | .generateAnswer _ _, .error _ => { m with flush := [] }
  | .publish _ (.token _ _ _), .ok _ => { m with flush := m.flush.tail }
  -- A token that cannot be published ends the flush.
  | .publish _ (.token _ _ _), .error _ => { m with flush := [] }
  | .getLatestCheckpoint _ _, .ok found => { m with loaded := found }
  | _, _ => m

section

variable (m : RunView) (op : Op) (r : Except Err op.Reply)

/-- Only the lookup changes what a run resumed from, and nothing changes whom it acts for. -/
theorem RunView.next_frame (hop : ∀ owner request, op ≠ .getLatestCheckpoint owner request) :
    (m.next op r).owner = m.owner ∧ (m.next op r).request = m.request ∧
      (m.next op r).loaded = m.loaded ∧ (m.next op r).milestonesOnly = m.milestonesOnly := by
  unfold RunView.next
  split
  case h_8 => exact absurd rfl (hop _ _)
  all_goals (try split) <;> exact ⟨rfl, rfl, rfl, rfl⟩

def protocol : Monitor sig RunView where
  allow := RunView.allow
  next := RunView.next

/-! ## What the protocol's steps do -/

theorem RunView.allow_messageUse {m : RunView} {op : Op} {r : ConversationRequest}
    (hallow : m.allow op) (hr : op.messageUse = some r) : SameTurn r m.request ∧ m.MayUse := by
  cases op <;> simp only [Op.messageUse, Option.some.injEq, reduceCtorEq] at hr
  all_goals
    subst hr
    exact hallow

theorem RunView.next_cleared {m : RunView} {op : Op} {r : Except Err op.Reply}
    (h : (m.next op r).cleared = true) :
    m.cleared = true ∨ ∃ q text scan,
      (⟨op, r⟩ : Event sig) = ⟨.riskScan q text .input, .ok scan⟩ ∧
        (Json.get scan "blocked").truthy = false := by
  unfold RunView.next at h
  split at h
  case h_1 q text scan =>
    by_cases hblocked : (Json.get scan "blocked").truthy
    · rw [if_pos hblocked] at h
      exact .inl h
    · exact .inr ⟨q, text, scan, rfl, by simpa using hblocked⟩
  case h_2 q text scan =>
    split at h
    · exact .inl h
    · exact .inl h
  all_goals exact .inl h

theorem RunView.next_loaded : (m.next op r).loaded = m.loaded ∨ ∃ owner q found,
      (⟨op, r⟩ : Event sig) = ⟨.getLatestCheckpoint owner q, .ok found⟩ ∧
        (m.next op r).loaded = found := by
  by_cases hop : ∀ owner request, op ≠ .getLatestCheckpoint owner request
  · exact .inl (m.next_frame op r hop).2.2.1
  · simp only [not_forall, not_not] at hop
    obtain ⟨owner, q, rfl⟩ := hop
    cases r with
    | error e => exact .inl rfl
    | ok found => exact .inr ⟨owner, q, found, rfl, rfl⟩

theorem RunView.next_turn : (m.next op r).owner = m.owner ∧ (m.next op r).request = m.request := by
  by_cases hop : ∀ owner request, op ≠ .getLatestCheckpoint owner request
  · exact ⟨(m.next_frame op r hop).1, (m.next_frame op r hop).2.1⟩
  · simp only [not_forall, not_not] at hop
    obtain ⟨owner, q, rfl⟩ := hop
    cases r <;> exact ⟨rfl, rfl⟩

theorem RunView.next_milestonesOnly : (m.next op r).milestonesOnly = m.milestonesOnly := by
  by_cases hop : ∀ owner request, op ≠ .getLatestCheckpoint owner request
  · exact (m.next_frame op r hop).2.2.2
  · simp only [not_forall, not_not] at hop
    obtain ⟨owner, q, rfl⟩ := hop
    cases r <;> rfl

end

theorem handlerWith_getLatestCheckpoint {choose : Nat → List Checkpoint → Option Checkpoint}
    {env : Env} {op : Op} {w : World} {owner : Owner} {q : ConversationRequest}
    {found : Option Checkpoint}
    (h : (⟨op, (handlerWith choose env op w).1⟩ : Event sig) =
      ⟨.getLatestCheckpoint owner q, .ok found⟩) :
    op = .getLatestCheckpoint owner q ∧ found = choose w.tick (matching w owner q) := by
  obtain rfl : op = .getLatestCheckpoint owner q := congrArg Event.op h
  have hreply : (handlerWith choose env (.getLatestCheckpoint owner q) w).1 = .ok found :=
    eq_of_heq (Event.mk.inj h).2
  refine ⟨rfl, ?_⟩
  have hread : (World.read env w (choose w.tick (matching w owner q))).1 = .ok found := hreply
  unfold World.read at hread
  cases hfault : env.fault w.tick with
  | none =>
    rw [hfault] at hread
    exact (Except.ok.inj hread).symm
  | some f =>
    rw [hfault] at hread
    exact nomatch hread

end RagForge.Rag
