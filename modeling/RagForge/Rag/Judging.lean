import RagForge.Rag.OutputGate
import RagForge.Rag.Parts
import RagForge.Rag.Walk

/-
Which judgement goes with which answer, in one run.

A run judges its draft and keeps the review beside it.  `judging` is an automaton over the
operations of a run that remembers the judge's replies and asks, for each answer that leaves the
run with a review, that the review is one of them and was given on this text.  A run follows it as
long as no revision is stored and no output scan replaces the answer.
-/

namespace RagForge.Rag

open Effect Py

/-! ## Judgements -/

structure Judgement where
  request : ConversationRequest
  answer : String
  passages : List Passage
  response : Json

/-- The review was made from this reply; whether a revision followed is marked later. -/
def Judgement.Gives (lib : Lib) (j : Judgement) (review : Review) : Prop :=
  ∃ id created, review =
    { buildReview lib j.response j.request j.passages id created with
      revisionApplied := review.revisionApplied }

/-- What a run has seen of its judge. -/
structure JudgeView where
  key : TurnKey
  judged : List Judgement := []
  /-- The checkpoint it resumed from. -/
  loaded : Option Checkpoint := none
  /-- The turn it stored. -/
  turn : Option Turn := none

/-- The review was given on the text in this run, or both come from the checkpoint it resumed after
the judgement. -/
def JudgeView.Grounded (lib : Lib) (m : JudgeView) (text : String) (review : Option Review) :
    Prop :=
  (∃ j ∈ m.judged, ∃ rv, review = some rv ∧ j.answer = text ∧ j.Gives lib rv) ∨
    ∃ c, m.loaded = some c ∧ c.stage.skipsJudge = true ∧ c.state.draftAnswer.text = text ∧
      c.state.answerReview = review

def JudgeView.allow (lib : Lib) (m : JudgeView) : Op → Prop
  | .evaluateAnswer r .. => r.key = m.key
  | .publish r (.done answer _ review ..) =>
    r.key = m.key ∧ ∃ rv, m.Grounded lib answer rv ∧ review = publicReview rv
  | .saveTurn doc =>
    doc.key = m.key ∧ ∃ rv, m.Grounded lib doc.finalAnswer rv ∧
      doc.reviewId = rv.map Review.reviewId
  | .saveAnswerReview doc =>
    ∃ turn, m.turn = some turn ∧ turn.owner = doc.owner ∧ turn.turnId = doc.turnId ∧
      turn.reviewId = some doc.review.reviewId ∧
      m.Grounded lib turn.finalAnswer (some doc.review)
  | .saveCheckpoint doc =>
    doc.stage.skipsJudge = true → doc.key = m.key ∧
      m.Grounded lib doc.state.draftAnswer.text doc.state.answerReview
  | .getLatestCheckpoint owner r => owner = m.key.owner ∧ r.key = m.key
  | _ => True

def JudgeView.next (m : JudgeView) : (op : Op) → Except Err op.Reply → JudgeView
  | .evaluateAnswer r answer passages _, .ok response =>
    { m with judged := ⟨r, answer, passages, response⟩ :: m.judged }
  | .saveTurn doc, .ok _ => { m with turn := some doc }
  | .getLatestCheckpoint _ _, .ok found => { m with loaded := found }
  | _, _ => m

def judging (lib : Lib) : Monitor sig JudgeView where
  allow := JudgeView.allow lib
  next := JudgeView.next

/-- The event stores no revised candidate, and as an output scan it leaves the answer as it is. -/
def keepsAnswer : (op : Op) → Except Err op.Reply → Bool
  | .riskScan _ text .output, .ok scan => scanOutcome text scan == text
  | .saveCheckpoint doc, .ok _ =>
    !(doc.node == NodeName.reviseOnceIfNeeded.text && doc.stage == .afterGeneration)
  | _, _ => true

def Unrevised (op : Op) (r : Except Err op.Reply) : Prop := keepsAnswer op r = true

abbrev judgingLogic (lib : Lib) : Logic sig JudgeView := (judging lib).logicOn Unrevised

/-! ## Blocks that concern no judgement -/

def Attached (rt : Runtime) (m : JudgeView) : Prop :=
  rt.request.key = m.key ∧ rt.owner = m.key.owner

/-- Nothing is judged, loaded or stored as the turn. -/
def aside : Frame Runtime JudgeView where
  rel rt m rt' m' := m' = m ∧ rt'.request = rt.request ∧ rt'.owner = rt.owner
  refl _ _ := ⟨rfl, rfl, rfl⟩
  trans h₁ h₂ := ⟨h₂.1.trans h₁.1, h₂.2.1.trans h₁.2.1, h₂.2.2.trans h₁.2.2⟩

theorem Attached.of_aside {rt rt' : Runtime} {m m' : JudgeView} (h : Attached rt m)
    (hsame : aside.rel rt m rt' m') : Attached rt' m' := by
  obtain ⟨rfl, hrequest, howner⟩ := hsame
  exact ⟨hrequest ▸ h.1, howner.trans h.2⟩

variable {cfg : Config} {lib : Lib} {state : ConversationState} {rt : Runtime} {m : JudgeView}
  {E : Runtime → JudgeView → Prop} {mode : Mode}

section

variable {α β : Type} {op : Op} {p : RunM α} {Q : β → Runtime → JudgeView → Prop}
  {data : EventData} {P : α → Prop}

theorem allow_of_isLight (h : op.isLight = true) : m.allow lib op := by
  cases op
  case saveCheckpoint doc =>
    intro hskips
    simp only [Op.isLight, hskips] at h
    cases h
  case publish | evaluateAnswer | saveTurn | saveAnswerReview | getLatestCheckpoint => cases h
  all_goals trivial

theorem next_of_isLight (h : op.isLight = true) (r : Except Err op.Reply) : m.next op r = m := by
  cases op
  case publish | evaluateAnswer | saveTurn | saveAnswerReview | getLatestCheckpoint => cases h
  all_goals cases r <;> rfl

theorem allow_publish {r : ConversationRequest} (h : data.isTerminal = false) :
    m.allow lib (.publish r data) := by
  cases data
  case done => exact nomatch h
  all_goals trivial

theorem emit_aside (hdata : data.isTerminal = false) :
    Ensures (judgingLogic lib) aside (emit data) (fun _ _ _ => True) rt m := by
  refine .read_bind ?_
  rw [hdata, Bool.and_false, if_neg Bool.false_ne_true]
  cases hpub : data.publicFor rt.request.role with
  | none => exact .pure trivial
  | some publicData =>
    refine .modify_bind ⟨rfl, rfl, rfl⟩ (.perform ⟨?_, ?_⟩)
    · exact allow_publish ((isTerminal_of_publicFor hpub).trans hdata)
    · exact fun r _ => ⟨⟨rfl, rfl, rfl⟩, fun _ _ => trivial⟩

theorem part_aside (h : Part (fun op => op.isLight = true) p) :
    Ensures (judgingLogic lib) aside p (fun _ _ _ => True) rt m := by
  cases h with
  | emit hdata => exact emit_aside hdata
  | call hop =>
    refine .perform ⟨allow_of_isLight hop, fun r _ => ⟨⟨?_, rfl, rfl⟩, ?_⟩⟩
    · exact next_of_isLight hop r
    · exact fun _ _ => trivial
  | set hg => exact .modify ⟨rfl, (hg rt).1, (hg rt).2.2⟩ trivial

theorem aside_ends (h : Built (parts rt.request fun op => op.isLight = true) p P) :
    Ends (judgingLogic lib) p (fun a rt' m' => P a ∧ aside.rel rt m rt' m')
      (fun _ rt' m' => aside.rel rt m rt' m') rt m := by
  have hensures : Ensures (judgingLogic lib) aside p (fun a _ _ => P a) rt m := by
    refine h.ensures ?_ (fun hp _ _ _ => part_aside hp) rt m rfl
    intro rt₁ m₁ rt₂ m₂ hsame hrequest
    exact hsame.2.1.trans hrequest
  refine hensures.ends ?_ ?_
  · exact fun a rt' m' hsame ha => ⟨ha, hsame⟩
  · exact fun _ rt' m' hsame => hsame

theorem aside_bind {f : α → RunM β} (h : Built (parts rt.request fun op => op.isLight = true) p P)
    (hs : Attached rt m) (hE : ∀ rt', Attached rt' m → E rt' m)
    (hf : ∀ a rt', P a → rt'.request = rt.request → Attached rt' m →
      Ends (judgingLogic lib) (f a) Q (fun _ => E) rt' m) :
    Ends (judgingLogic lib) (p >>= f) Q (fun _ => E) rt m := by
  refine ((aside_ends h).mono (fun _ _ _ h => h) ?_).bind ?_
  · intro _ rt' m' hsame
    have hs' := hs.of_aside hsame
    obtain ⟨rfl, -⟩ := hsame
    exact hE rt' hs'
  · intro a rt' m' ha
    obtain ⟨ha, hsame⟩ := ha
    have hs' := hs.of_aside hsame
    obtain ⟨rfl, hrequest, -⟩ := hsame
    exact hf a rt' ha hrequest hs'

theorem getRequest_bind_ends {f : ConversationRequest → RunM β}
    {E : Err → Runtime → JudgeView → Prop} (h : Ends (judgingLogic lib) (f rt.request) Q E rt m) :
    Ends (judgingLogic lib) (getRequest >>= f) Q E rt m :=
  .bind (P := fun r rt' m' => r = rt.request ∧ rt' = rt ∧ m' = m)
    (.read_bind (.pure ⟨rfl, rfl, rfl⟩))
    (fun r rt' m' hr => by
      obtain ⟨rfl, rfl, rfl⟩ := hr
      exact h)

theorem call_ends {Q : op.Reply → Runtime → JudgeView → Prop} {E : Err → Runtime → JudgeView → Prop}
    (hallow : m.allow lib op) (hok : ∀ a, Unrevised op (.ok a) → Q a rt (m.next op (.ok a)))
    (herr : ∀ e, E e rt (m.next op (.error e))) : Ends (judgingLogic lib) (call op) Q E rt m := by
  refine ⟨⟨hallow, fun r hr => ?_⟩⟩
  cases r with
  | ok a => exact hok a hr
  | error e => exact herr e

end

/-! ## The nodes -/

def NodeName.judges : NodeName → Bool
  | .evaluateAnswerLight | .evaluateAnswerDeep => true
  | _ => false

def NodeName.restarts : NodeName → Bool
  | .inputGuardrails | .generateAnswer | .generateDraftAnswer => true
  | _ => false

/-- After a node that starts the answer over comes one that judges it, and before the nodes that
deliver it none is left. -/
def JudgedLater : List NodeName → Prop
  | [] => True
  | n :: rest => (n.restarts = true → rest.any NodeName.judges = true) ∧
      (n.delivers = true → rest.any NodeName.judges = false) ∧ JudgedLater rest

theorem judgedLater_executionPaths (mode : Mode) : JudgedLater (executionPaths mode) := by
  cases mode <;>
    simp [executionPaths, JudgedLater, NodeName.restarts, NodeName.delivers, NodeName.judges]

variable {nodes : List NodeName}

theorem JudgedLater.of_suffix {path : List NodeName} (h : JudgedLater path)
    (hpath : nodes <:+ path) : JudgedLater nodes := by
  induction path with
  | nil =>
    rw [List.suffix_nil.mp hpath]
    trivial
  | cons n rest ih =>
    rcases List.suffix_cons_iff.mp hpath with rfl | hrest
    · exact h
    · exact ih h.2.2 hrest

/-- Without another judgement to come, the review of the state was given on its answer. -/
def Settled (lib : Lib) (nodes : List NodeName) (state : ConversationState) (m : JudgeView) :
    Prop :=
  nodes.any NodeName.judges = false →
    m.Grounded lib state.draftAnswer.text state.answerReview

theorem Settled.congr {next : ConversationState}
    (h : Settled lib nodes state m) (htext : next.draftAnswer.text = state.draftAnswer.text)
    (hreview : next.answerReview = state.answerReview) : Settled lib nodes next m := by
  intro hnone
  rw [htext, hreview]
  exact h hnone

theorem Settled.tail {n : NodeName} {rest : List NodeName} (h : Settled lib (n :: rest) state m)
    (hn : n.judges = false) : Settled lib rest state m := by
  intro hnone
  refine h ?_
  rw [List.any_cons, hn, hnone]
  rfl

variable {n : NodeName} {rest : List NodeName} {p : RunM (ConversationState × Meta)}
  {stage : Stage}

/-- How a node ends that is followed by the rest. -/
def AfterNode (lib : Lib) (rest : List NodeName) (mode : Mode)
    (x : ConversationState × Meta) (rt : Runtime) (m : JudgeView) : Prop :=
  (Attached rt m ∧ Settled lib rest x.1 m) ∧ x.1.mode = mode

abbrev Passes (lib : Lib) (rest : List NodeName) (mode : Mode)
    (p : RunM (ConversationState × Meta)) (rt : Runtime) (m : JudgeView) : Prop :=
  Ends (judgingLogic lib) p (AfterNode lib rest mode) (fun _ => Attached) rt m

theorem light_after (hs : Attached rt m) (hsettled : Settled lib (n :: rest) state m)
    (hn : n.judges = false)
    (h : Built (parts rt.request fun op => op.isLight = true) p fun x => Kept state x.1) :
    Passes lib rest state.mode p rt m := by
  refine (aside_ends h).mono ?_ fun _ _ _ hsame => hs.of_aside hsame
  intro x rt' m' hx
  obtain ⟨hkept, hsame⟩ := hx
  have hs' := hs.of_aside hsame
  obtain ⟨rfl, -⟩ := hsame
  exact ⟨⟨hs', (hsettled.tail hn).congr (by rw [hkept.draftAnswer]) hkept.answerReview⟩,
    hkept.mode⟩

theorem restart_after (hs : Attached rt m) (hlater : rest.any NodeName.judges = true)
    (h : Built (parts rt.request fun op => op.isLight = true) p fun x => x.1.mode = mode) :
    Passes lib rest mode p rt m := by
  refine (aside_ends h).mono ?_ fun _ _ _ hsame => hs.of_aside hsame
  intro x rt' m' hx
  refine ⟨⟨hs.of_aside hx.2, fun hnone => ?_⟩, hx.1⟩
  rw [hlater] at hnone
  exact nomatch hnone

theorem Attached.key_eq (hs : Attached rt m) :
    (⟨rt.owner, rt.request.conversationId, rt.request.requestId⟩ : TurnKey) = m.key := by
  rw [hs.2, ← hs.1]
  rfl

/-- A checkpoint is stored for the turn, with the review of its answer if a resume relies on it. -/
theorem saveCheckpoint_ends {node status : String} {extra : List (String × Json)}
    {Q : Unit → Runtime → JudgeView → Prop} (hs : Attached rt m) (hE : E rt m)
    (hdoc : stage.skipsJudge = true → m.Grounded lib state.draftAnswer.text state.answerReview)
    (hok : ¬ (node = NodeName.reviseOnceIfNeeded.text ∧ stage = .afterGeneration) → Q () rt m) :
    Ends (judgingLogic lib) (saveCheckpoint state node stage status extra) Q (fun _ => E) rt m := by
  refine (call_ends ?_ (fun _ h => hok ?_) fun _ => hE).read_bind
  · exact fun hskips => ⟨hs.key_eq, hdoc hskips⟩
  · intro hrevised
    obtain ⟨rfl, rfl⟩ := hrevised
    exact nomatch h

/-- Whether it is marked as revised or not, the review is the one made from the reply. -/
theorem grounded_review (lib : Lib) {j : Judgement} (hj : j ∈ m.judged) (b : Bool)
    (id created : String) :
    m.Grounded lib j.answer (some
      (if b then
        { buildReview lib j.response j.request j.passages id created with revisionApplied := true }
      else buildReview lib j.response j.request j.passages id created)) := by
  refine .inl ⟨j, hj, _, rfl, rfl, id, created, ?_⟩
  cases b <;> rfl

theorem evaluateCommon_after (hs : Attached rt m) (mode : Mode) :
    Passes lib rest state.mode (evaluateCommon cfg lib mode state) rt m := by
  refine getRequest_bind_ends ?_
  refine .bind (P := fun response rt' m' => rt' = rt ∧ Attached rt m' ∧
    ⟨rt.request, state.draftAnswer.text, chunkPassages lib state.retrievedChunks, response⟩ ∈
      m'.judged) ?_ ?_
  · refine getRequest_bind_ends ?_
    exact call_ends hs.1 (fun _ _ => ⟨rfl, hs, List.mem_cons_self⟩) fun _ => hs
  intro response rt₁ m₁ hjudged
  obtain ⟨rfl, hs₁, hj⟩ := hjudged
  have hE : ∀ rt', Attached rt' m₁ → Attached rt' m₁ := fun _ h => h
  refine aside_bind (.ofExcept fun _ _ => trivial) hs₁ hE
    fun _ rt₁ _ _ hs₁ => ?_
  refine aside_bind (built_call rfl) hs₁ hE fun id rt₂ _ _ hs₂ => ?_
  refine aside_bind (built_call rfl) hs₂ hE fun now rt₃ _ _ hs₃ => ?_
  refine aside_bind (.block (.emit rfl) fun _ => trivial) hs₃ hE
    fun _ rt₄ _ _ hs₄ => ?_
  have hgrounded := grounded_review lib hj state.draftAnswer.revisionAttempted id
    (lib.isoformat now)
  refine .bind (P := fun _ rt' m' => rt' = rt₄ ∧ m' = m₁)
    (saveCheckpoint_ends hs₄ (hE _ hs₄) (fun _ => hgrounded) fun _ => ⟨rfl, rfl⟩) ?_
  intro _ rt₅ m₅ hsaved
  obtain ⟨rfl, rfl⟩ := hsaved
  exact .pure ⟨⟨hs₄, fun _ => hgrounded⟩, rfl⟩

/-- A revision ends at the checkpoint that stores it, if none is stored. -/
theorem generateCommon_never (hs : Attached rt m) {source : String} {issues : Json}
    {Q : ConversationState × Meta → Runtime → JudgeView → Prop} :
    Ends (judgingLogic lib) (generateCommon cfg lib source mode
      NodeName.reviseOnceIfNeeded.text issues true state) Q (fun _ => Attached) rt m := by
  have hE : ∀ rt', Attached rt' m → Attached rt' m := fun _ h => h
  refine getRequest_bind_ends ?_
  refine aside_bind (.block (.set fun _ => ⟨rfl, rfl, rfl⟩) fun _ => trivial)
    hs hE fun _ rt₁ _ _ hs₁ => ?_
  refine aside_bind (generateAnswerCall_built (fun _ h => h) _) hs₁ hE
    fun response rt₂ _ _ hs₂ => ?_
  refine aside_bind (built_call rfl) hs₂ hE fun now rt₃ _ _ hs₃ => ?_
  refine .bind (P := fun _ _ _ => False) (saveCheckpoint_ends hs₃ (hE _ hs₃) ?_ ?_) ?_
  · exact fun hskips => nomatch hskips
  · exact fun hnever => hnever ⟨rfl, rfl⟩
  · exact fun _ _ _ hfalse => hfalse.elim

theorem reviseOnceIfNeeded_after (hs : Attached rt m)
    (hsettled : Settled lib (n :: rest) state m) (hn : n.judges = false) :
    Passes lib rest state.mode (reviseOnceIfNeeded cfg lib state) rt m := by
  have hskipped : ∀ entry, Passes lib rest state.mode (pure (state, entry)) rt m :=
    fun entry => .pure ⟨⟨hs, hsettled.tail hn⟩, rfl⟩
  unfold reviseOnceIfNeeded
  cases state.answerReview with
  | none => exact hskipped _
  | some review =>
    dsimp only
    split
    · exact hskipped _
    · exact .bind (P := fun _ _ _ => False) (generateCommon_never hs)
        fun _ _ _ hfalse => hfalse.elim

theorem outputGuardrails_after (hs : Attached rt m)
    (hsettled : Settled lib (n :: rest) state m) (hn : n.judges = false) :
    Passes lib rest state.mode (outputGuardrails cfg lib state) rt m := by
  refine .bind (P := fun scan rt' m' => rt' = rt ∧ m' = m ∧
    scanOutcome state.draftAnswer.text scan = state.draftAnswer.text) ?_ ?_
  · exact getRequest_bind_ends (call_ends trivial (fun _ h => ⟨rfl, rfl, eq_of_beq h⟩)
      fun _ => hs)
  intro scan rt₁ m₁ hscan
  obtain ⟨rfl, rfl, houtcome⟩ := hscan
  refine aside_bind (P := fun draft => draft.text = state.draftAnswer.text) ?_ hs (fun _ h => h) ?_
  · refine .ite (fun hblocked => ?_) fun _ => ?_
    · refine set_bind_built (fun rt => ⟨rfl, rfl, rfl⟩) (.pure ?_)
      rw [scanOutcome, if_pos hblocked] at houtcome
      exact houtcome
    · refine .bind (P := fun _ => True) ?_ fun _ _ => .pure rfl
      exact approveCandidate_built _
  · intro draft rt₂ hdraft _ hs₂
    exact .pure ⟨⟨hs₂, (hsettled.tail hn).congr hdraft rfl⟩, rfl⟩

theorem saveReview_ends {turn : Turn} (hE : E rt m) (hturn : m.turn = some turn)
    (howner : turn.owner = rt.owner) (hid : turn.turnId = rt.request.turnId)
    (hreview : turn.reviewId = state.answerReview.map Review.reviewId)
    (hgrounded : m.Grounded lib turn.finalAnswer state.answerReview) :
    Ends (judgingLogic lib) (saveReview state) (fun _ rt' m' => rt' = rt ∧ m' = m)
      (fun _ => E) rt m := by
  refine .read_bind ?_
  cases hrv : state.answerReview with
  | none => exact .pure ⟨rfl, rfl⟩
  | some rv =>
    rw [hrv] at hreview hgrounded
    exact call_ends ⟨turn, hturn, howner, hid, hreview, hgrounded⟩ (fun _ _ => ⟨rfl, rfl⟩)
      fun _ => hE

/-- The run may go on with the answer and its review. -/
def Backed (lib : Lib) (state : ConversationState) (rt : Runtime) (m : JudgeView) : Prop :=
  Attached rt m ∧ m.Grounded lib state.draftAnswer.text state.answerReview

theorem doPersistTurn_after (h : Backed lib state rt m) (summary : String) :
    Ends (judgingLogic lib) (doPersistTurn summary state)
      (fun x rt' m' => Kept state x.1 ∧ Backed lib state rt' m') (fun _ => Backed lib state)
      rt m := by
  obtain ⟨hs, hrv⟩ := h
  have hE : ∀ rt', Attached rt' m → Backed lib state rt' m := fun rt' hs' => ⟨hs', hrv⟩
  refine .read_bind ?_
  refine aside_bind (built_call rfl) hs hE fun _ rt₁ _ hrequest₁ hs₁ => ?_
  refine aside_bind (built_call rfl) hs₁ hE fun now rt₂ _ hrequest₂ hs₂ => ?_
  refine .bind (P := fun _ rt' m' => rt' = rt₂ ∧ Backed lib state rt₂ m' ∧
    ∃ turn, m'.turn = some turn ∧ turn.owner = rt.owner ∧ turn.turnId = rt.request.turnId ∧
      turn.reviewId = state.answerReview.map Review.reviewId ∧
      turn.finalAnswer = state.draftAnswer.text) ?_ ?_
  · refine call_ends ⟨hs.key_eq, _, hrv, rfl⟩ (fun _ _ => ?_) fun _ => hE _ hs₂
    exact ⟨rfl, ⟨hs₂, hrv⟩, _, rfl, rfl, rfl, rfl, rfl⟩
  intro _ rt₃ m₃ hsaved
  obtain ⟨rfl, ⟨hs₃, hrv₃⟩, turn, hturn, howner, hid, hreview, hanswer⟩ := hsaved
  have hE₃ : ∀ rt', Attached rt' m₃ → Backed lib state rt' m₃ := fun rt' hs' => ⟨hs', hrv₃⟩
  refine aside_bind (built_call rfl) hs₃ hE₃ fun _ rt₄ _ hrequest₄ hs₄ => ?_
  have hsameOwner : turn.owner = rt₄.owner := by
    have hkey : m₃.key = m.key := hs₃.1.symm.trans hs₂.1
    rw [howner, hs.2, hs₄.2, hkey]
  have hsameId : turn.turnId = rt₄.request.turnId := by
    rw [hid, hrequest₄, hrequest₂, hrequest₁]
  refine (saveReview_ends (hE₃ _ hs₄) hturn hsameOwner hsameId hreview
    (hanswer ▸ hrv₃)).bind ?_
  intro _ rt₅ m₅ hstored
  obtain ⟨rfl, rfl⟩ := hstored
  refine .bind (P := fun _ rt' m' => rt' = rt₅ ∧ m' = m₅)
    (saveCheckpoint_ends hs₄ (hE₃ _ hs₄) (fun _ => hrv₃) fun _ => ⟨rfl, rfl⟩) ?_
  intro _ rt₆ m₆ hmilestone
  obtain ⟨rfl, rfl⟩ := hmilestone
  refine aside_bind (built_call rfl) hs₄ hE₃ fun _ rt₇ _ _ hs₇ => ?_
  refine aside_bind (built_call rfl) hs₇ hE₃ fun _ rt₈ _ _ hs₈ => ?_
  exact .pure ⟨⟨rfl, rfl, rfl⟩, hs₈, hrv₃⟩

theorem persistTurn_after (h : Backed lib state rt m) :
    Passes lib rest state.mode (persistTurn cfg state) rt m := by
  refine getRequest_bind_ends ?_
  refine ((doPersistTurn_after h (summarizeTurn cfg state)).handle ?_).mono ?_
    fun _ _ _ hs => hs
  · exact fun e rt' m' hbacked => .pure ⟨⟨rfl, rfl, rfl⟩, hbacked⟩
  intro x rt' m' hx
  obtain ⟨hkept, hs', hrv'⟩ := hx
  refine ⟨⟨hs', fun _ => ?_⟩, hkept.mode⟩
  rw [hkept.draftAnswer, hkept.answerReview]
  exact hrv'

theorem streamDone_after (h : Backed lib state rt m) :
    Passes lib rest state.mode (streamDone state) rt m := by
  obtain ⟨hs, hrv⟩ := h
  refine .bind (P := fun _ rt' m' => Attached rt' m' ∧ m' = m) ?_ ?_
  · refine .read_bind ?_
    split
    · exact .pure ⟨hs, rfl⟩
    -- Who the client is only decides whether the trace goes with the answer.
    obtain ⟨events, payloads, hpub⟩ : ∃ events payloads,
        (EventData.done state.draftAnswer.text state.retrievedChunks
          (publicReview state.answerReview) state.retrievalPlan (some state.traceEvents)
          (some state.debugPayloads)).publicFor rt.request.role =
        some (.done state.draftAnswer.text state.retrievedChunks
          (publicReview state.answerReview) state.retrievalPlan events payloads) := by
      by_cases hrole : rt.request.role = some "admin"
      · exact ⟨_, _, if_pos hrole⟩
      · exact ⟨_, _, if_neg hrole⟩
    rw [hpub]
    exact .modify_bind (call_ends ⟨hs.1, _, hrv, rfl⟩ (fun _ _ => ⟨hs, rfl⟩) fun _ => hs)
  · intro _ rt' m' hdone
    obtain ⟨hs', rfl⟩ := hdone
    exact .pure ⟨⟨hs', fun _ => hrv⟩, rfl⟩

theorem nodeMap_after (hpath : (n :: rest) <:+ executionPaths mode) (hs : Attached rt m)
    (hsettled : Settled lib (n :: rest) state m) :
    Passes lib rest (if n = .inputGuardrails then rt.request.mode else state.mode)
      (nodeMap cfg lib n state) rt m := by
  have hlight : ∀ op : Op, op.isLight = true → op.isLight = true := fun _ h => h
  obtain ⟨hrestart, hdeliver, -⟩ := (judgedLater_executionPaths mode).of_suffix hpath
  have hbacked (hd : n.delivers = true) (hj : n.judges = false) : Backed lib state rt m :=
    ⟨hs, hsettled.tail hj (hdeliver hd)⟩
  by_cases hn : n.isLight = true
  · have hlets : Lets (parts rt.request fun op => op.isLight = true) n state :=
      lets_parts fun op hop _ => hop hn
    have hcalm : n.isCalm = true := by cases n <;> first | rfl | exact nomatch hn
    rw [if_neg (NodeName.ne_of_isCalm hcalm rfl)]
    refine light_after hs hsettled ?_ ((calmNode_built hlets hcalm).mono fun x hx => ?_)
    · cases n <;> first | rfl | exact nomatch hn
    · exact ⟨hx.mode, hx.draftAnswer, hx.answerReview hn⟩
  cases n
  case inputGuardrails => exact restart_after hs (hrestart rfl) (inputGuardrails_built hlight)
  case generateAnswer | generateDraftAnswer =>
    exact restart_after hs (hrestart rfl) (generateCommon_built hlight _ _ _ _ _)
  case evaluateAnswerLight | evaluateAnswerDeep => exact evaluateCommon_after hs _
  case reviseOnceIfNeeded => exact reviseOnceIfNeeded_after hs hsettled rfl
  case outputGuardrails => exact outputGuardrails_after hs hsettled rfl
  case persistTurn => exact persistTurn_after (hbacked rfl rfl)
  case streamDone => exact streamDone_after (hbacked rfl rfl)
  all_goals exact absurd rfl hn

/-! ## Whole runs -/

/-- The run acts for its turn, and what it has of the answer is settled but for these nodes. -/
def Underway (lib : Lib) (nodes : List NodeName) (state : ConversationState) (rt : Runtime)
    (m : JudgeView) : Prop :=
  Attached rt m ∧ Settled lib nodes state m

theorem walk_judging : Walk cfg lib (judgingLogic lib) (Underway lib) Attached where
  step {mode n rest state rt m} hpath h := by
    obtain ⟨hs, hsettled⟩ := h
    have hE : ∀ {m'} rt', Attached rt' m' → Attached rt' m' := fun _ h => h
    refine aside_bind (enterNode_built n) hs hE fun entered rt₁ hkept hrequest₁ hs₁ => ?_
    refine getRequest_bind_ends ?_
    refine aside_bind (.block (.emit rfl) fun _ => trivial) hs₁ hE
      fun _ rt₂ _ hrequest₂ hs₂ => ?_
    have hentered : Settled lib (n :: rest) entered m :=
      hsettled.congr (by rw [hkept.draftAnswer]) hkept.answerReview
    refine (nodeMap_after hpath hs₂ hentered).bind ?_
    intro x rt₃ m₃ hx
    obtain ⟨⟨hs₃, hsettled₃⟩, hmode⟩ := hx
    rw [hrequest₂, hrequest₁, hkept.mode] at hmode
    refine .read_bind ?_
    split
    · exact .pure ⟨⟨hs₃, hsettled₃.congr rfl rfl⟩, hmode⟩
    · refine aside_bind (.block (.emit rfl) fun _ => trivial) hs₃ hE
        fun _ rt₄ _ _ hs₄ => ?_
      refine aside_bind (.block (.emit rfl) fun _ => trivial) hs₄ hE
        fun _ rt₅ _ _ hs₅ => ?_
      exact .pure ⟨⟨hs₅, hsettled₃.congr rfl rfl⟩, hmode⟩

def RunResult.Completed (result : RunResult) : Prop :=
  result.error = none ∧ result.endedByInputBlock = false

/-- A completed run returns the review and the citation figures of the answer it returns. -/
def JudgeView.Returns (lib : Lib) (m : JudgeView) (result : RunResult) : Prop :=
  result.Completed → ∃ rv passages, m.Grounded lib result.answer rv ∧
    result.review = publicReview rv ∧ result.citationMetrics =
      some (citationMetrics lib result.citations ((rv.map Review.claims).getD []) passages)

abbrev AnswersFrom (lib : Lib) (p : RunM RunResult) (rt : Runtime) (m : JudgeView) : Prop :=
  Ends (judgingLogic lib) p (fun result rt' m' => Attached rt' m' ∧ m'.Returns lib result)
    (fun _ => Attached) rt m

theorem runBody_judging {checkpoint : Option Checkpoint} (hs : Attached rt m)
    (hfresh : checkpoint = none → state.mode = rt.request.mode)
    (hsettled : Settled lib (Walk.nodesOf state checkpoint) state m) :
    AnswersFrom lib (runBody cfg lib state checkpoint) rt m := by
  refine walk_judging.runBody hfresh ⟨hs, hsettled⟩ ?_
  intro final rt' m' hfinal
  obtain ⟨hs', hsettled'⟩ := hfinal
  exact .modify_bind (.read_bind (.pure ⟨hs', fun _ =>
    ⟨_, (chunkPassages lib final.retrievedChunks).length, hsettled' rfl, rfl, rfl⟩⟩))

theorem runFailed_judging (hs : Attached rt m) (e : Err) :
    AnswersFrom lib (runFailed state e) rt m := by
  have hfailed (stage : Stage) (status : String) (extra : List (String × Json))
      (hstage : stage.skipsJudge = false) {f : Unit → RunM RunResult}
      (hf : AnswersFrom lib (f ()) rt m) :
      AnswersFrom lib (saveCheckpoint state rt.currentNode stage status extra >>= f) rt m := by
    refine .bind (P := fun _ rt' m' => rt' = rt ∧ m' = m)
      (saveCheckpoint_ends hs hs ?_ fun _ => ⟨rfl, rfl⟩) ?_
    · intro hskips
      rw [hstage] at hskips
      exact nomatch hskips
    · intro _ rt' m' hsaved
      obtain ⟨rfl, rfl⟩ := hsaved
      exact hf
  refine .read_bind ?_
  cases e
  case guardrailBlocked stage =>
    refine hfailed _ _ _ rfl (.pure ⟨hs, fun hcompleted => ?_⟩)
    exact nomatch hcompleted.2
  all_goals
    refine hfailed _ _ _ rfl ?_
    refine .bind ?_ fun _ _ _ hs' =>
      .pure ⟨hs', fun hcompleted => nomatch hcompleted.1⟩
    refine .read_bind ?_
    split
    · exact .pure hs
    · exact .modify_bind (call_ends trivial (fun _ _ => hs) fun _ => hs)

theorem skipsJudge_of_resumeNodes (h : (resumeNodes mode stage).any NodeName.judges = false) :
    stage.skipsJudge = true := by
  cases mode <;> cases stage <;> first | rfl | cases h

theorem findCheckpoint_judging (resume : Bool) (hs : Attached rt m) :
    Ends (judgingLogic lib) (findCheckpoint resume)
      (fun found rt' m' => rt' = rt ∧ Attached rt m' ∧ ∀ c, found = some c → m'.loaded = some c)
      (fun _ => Attached) rt m := by
  refine .read_bind ?_
  cases resume with
  | false => exact .pure ⟨rfl, hs, fun c hc => nomatch hc⟩
  | true =>
    refine call_ends ⟨hs.2, hs.1⟩ (fun found _ => ⟨rfl, hs, fun c hc => ?_⟩) fun _ => hs
    exact hc

theorem startRun_judging (resume : Bool) (hs : Attached rt m) :
    Ends (judgingLogic lib) (startRun resume)
      (fun start rt' m' => Attached rt' m' ∧
        (start.2 = none → start.1.mode = rt'.request.mode) ∧
        Settled lib (Walk.nodesOf start.1 start.2) start.1 m') (fun _ => Attached) rt m := by
  refine getRequest_bind_ends ?_
  refine (findCheckpoint_judging resume hs).bind ?_
  intro found rt₁ m₁ hfound
  obtain ⟨rfl, hs₁, hloaded⟩ := hfound
  cases found with
  | none =>
    refine aside_bind (built_call rfl) hs₁ (fun _ h => h)
      fun _ rt₂ _ hrequest₂ hs₂ => .pure ⟨hs₂, fun _ => ?_, fun hnone => ?_⟩
    · rw [hrequest₂]
      rfl
    · refine absurd hnone ?_
      show (executionPaths (buildInitialState rt₁.request).mode).any NodeName.judges ≠ false
      cases (buildInitialState rt₁.request).mode <;> decide
  | some c =>
    refine .modify_bind (.pure ⟨⟨?_, hs₁.2⟩, fun h => (nomatch h), fun hnone => ?_⟩)
    · exact (adoptCheckpoint_sameTurn c rt₁.request).key_eq.trans hs₁.1
    · exact .inr ⟨c, hloaded c rfl, skipsJudge_of_resumeNodes hnone, rfl, rfl⟩

theorem run_judging (resume : Bool) (hs : Attached rt m) :
    AnswersFrom lib (run cfg lib resume) rt m := by
  refine (startRun_judging resume hs).bind ?_
  intro start rt' m' hstart
  obtain ⟨hs', hfresh, hsettled⟩ := hstart
  exact (runBody_judging hs' hfresh hsettled).handle fun e _ _ hs'' =>
    runFailed_judging hs'' e

/-- What a chat request returned, and what the run behind it had seen. -/
def Replied (lib : Lib) (reply : Except Err RunResult × Runtime) (m : JudgeView) : Prop :=
  reply.2.request.key = m.key ∧ ∀ result, reply.1 = .ok result → m.Returns lib result

theorem handleQuestion_judging (identity : Identity) (fresh : FreshIds) (data : ChatData)
    (sessionId connectionId : Option String) :
    (handleQuestion cfg lib identity fresh data sessionId connectionId).wp (judgingLogic lib)
      (Replied lib)
      { key := (buildRequest identity fresh data sessionId connectionId).key } := by
  have howner : identity.owner =
      (buildRequest identity fresh data sessionId connectionId).key.owner :=
    (requestOwner_buildRequest ..).symm
  refine ((answerQuestion cfg lib data).wp_start
    fun r rt m => Replied lib (r, rt) m).mpr ?_
  unfold answerQuestion
  split
  · exact ⟨rfl, fun _ h => nomatch h⟩
  · refine Proc.wp_mono (run_judging data.resume ⟨rfl, howner⟩).wp ?_
    intro r rt m hr
    cases r with
    | error e => exact ⟨hr.1, fun _ h => nomatch h⟩
    | ok result => exact ⟨hr.1.1, fun _ h => Except.ok.inj h ▸ hr.2⟩

end RagForge.Rag
