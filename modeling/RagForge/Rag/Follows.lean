import RagForge.Rag.Parts
import RagForge.Rag.Walk

/-
Every run of the conversation graph follows the protocol.

Most nodes only read what the protocol lets them read and store: they are calm, which is a property
that composes along the code.  The scans and the generations move the protocol's state and are
treated one by one.
-/

namespace RagForge.Rag

open Effect Py

/-! ## Calm code -/

/-- The run acts for the owner and turn the protocol knows. -/
structure Synced (rt : Runtime) (m : RunView) : Prop where
  owner : rt.owner = m.owner
  turn : SameTurn rt.request m.request

/-- The protocol's state, the request and the approval buffer stay as they are. -/
def quiet : Frame Runtime RunView where
  rel rt m rt' m' := m' = m ∧ rt'.owner = rt.owner ∧ rt'.request = rt.request ∧
    rt'.buffer = rt.buffer
  refl _ _ := ⟨rfl, rfl, rfl, rfl⟩
  trans h₁ h₂ := ⟨h₂.1.trans h₁.1, h₂.2.1.trans h₁.2.1, h₂.2.2.1.trans h₁.2.2.1,
    h₂.2.2.2.trans h₁.2.2.2⟩

variable {rt rt' : Runtime} {m m' : RunView}

theorem Synced.of_quiet (h : Synced rt m) (hq : quiet.rel rt m rt' m') : Synced rt' m' := by
  obtain ⟨rfl, howner, hrequest, -⟩ := hq
  exact ⟨howner.trans h.owner, hrequest ▸ h.turn⟩

/-- Code that follows the protocol and leaves its state alone. -/
def Calm {α : Type} (m : RunView) (p : RunM α) (P : α → Prop) : Prop :=
  ∀ rt, Synced rt m → Ensures protocol.logic quiet p (fun a _ _ => P a) rt m

variable {α β : Type} {P : α → Prop} {p : RunM α} {f : α → RunM β}

namespace Calm

variable {Q : β → Prop}

theorem pure {a : α} (h : P a) : Calm m (pure a) P := fun _ _ => .pure h

theorem raise (e : Err) : Calm m (raise e) P := fun _ _ => .raise (S := sig) e

theorem bind (hp : Calm m p P) (hf : ∀ a, P a → Calm m (f a) Q) : Calm m (p >>= f) Q := by
  intro rt hs
  refine (hp rt hs).bind ?_
  intro a rt' m' hq ha
  obtain rfl : m' = m := hq.1
  exact hf a ha rt' (hs.of_quiet hq)

theorem handle {f : Err → RunM α} (hp : Calm m p P) (hf : ∀ e, Calm m (f e) P) :
    Calm m (Proc.handle p f) P := by
  intro rt hs
  refine (hp rt hs).handle ?_
  intro e rt' m' hq
  obtain rfl : m' = m := hq.1
  exact hf e rt' (hs.of_quiet hq)

theorem read_bind {f : Runtime → RunM β} (hf : ∀ rt, Synced rt m → Calm m (f rt) Q) :
    Calm m (Proc.read >>= f) Q :=
  fun rt hs => (hf rt hs rt hs).read_bind

theorem getRequest_bind {f : ConversationRequest → RunM β}
    (hf : ∀ r, SameTurn r m.request → Calm m (f r) Q) : Calm m (getRequest >>= f) Q := by
  refine bind ?_ hf
  exact read_bind fun rt hs => pure hs.turn

theorem modify {g : Runtime → Runtime}
    (hg : ∀ rt, (g rt).owner = rt.owner ∧ (g rt).request = rt.request ∧
      (g rt).buffer = rt.buffer) : Calm m (Proc.modify g) fun _ => True :=
  fun rt _ => .modify ⟨rfl, hg rt⟩ trivial

theorem call {op : Op} (hallow : m.allow op) (hnext : ∀ r, m.next op r = m) :
    Calm m (call op) fun _ => True :=
  fun _ _ => .perform
    ⟨hallow, fun r => ⟨⟨hnext r, rfl, rfl, rfl⟩, fun _ _ => trivial⟩⟩

end Calm

variable {checkpoint : Option Checkpoint} {nodes : List NodeName} {node status : String} {b : Brief}

theorem calm_utcNow : Calm m utcNow fun _ => True := .call trivial fun _ => rfl

theorem calm_emit {data : EventData} (hdata : m.MayPublish data)
    (htoken : ∀ d i s, data ≠ .token d i s) : Calm m (emit data) fun _ => True := by
  refine .read_bind fun rt hs => ?_
  split
  · exact .pure trivial
  · cases hpublic : data.publicFor rt.request.role with
    | none => exact .pure trivial
    | some publicData =>
      refine .bind (.modify fun _ => ⟨rfl, rfl, rfl⟩) fun _ _ => ?_
      have hkept : m.MayPublish publicData ∧ ∀ d i s, publicData ≠ .token d i s := by
        cases data <;> simp only [EventData.publicFor] at hpublic
        all_goals (try split at hpublic) <;> cases hpublic <;>
          first | exact ⟨hdata, htoken⟩ | exact ⟨hdata, by simp⟩
      refine .call ⟨hs.turn, hkept.1⟩ fun r => ?_
      cases publicData
      case token d i s => exact absurd rfl (hkept.2 d i s)
      all_goals rfl

theorem calm_status (name : NodeName) (phase message : String) (mode : Mode) :
    Calm m (emit (.status name phase message mode)) fun _ => True :=
  calm_emit trivial (by simp)

theorem calm_answerReview (review : Json) : Calm m (emit (.answerReview review)) fun _ => True :=
  calm_emit trivial (by simp)

variable {state : ConversationState} {stage : Stage}

theorem calm_saveCheckpoint
    {extra : List (String × Json)} (hstage : m.milestonesOnly = true → stage.isMilestone = true)
    (hin : NodeName.inputGuardrails ∉ resumeNodes state.mode stage → m.MaySave state.userMessage)
    (hout : NodeName.outputGuardrails ∉ resumeNodes state.mode stage →
      m.MayDeliver state.draftAnswer.text) :
    Calm m (saveCheckpoint state node stage status extra) fun _ => True := by
  refine .read_bind fun rt hs => ?_
  exact .call ⟨⟨hs.owner, hs.turn.2.1, hs.turn.2.2.1⟩, hstage, hin, hout⟩ fun _ => rfl

/-! ## Calm nodes -/

/-- The part of the graph state the protocol is about. -/
structure Brief where
  message : String
  mode : Mode
  answer : String

def ConversationState.brief (s : ConversationState) : Brief :=
  ⟨s.userMessage, s.mode, s.draftAnswer.text⟩

theorem outputGuardrails_mem_resumeNodes (mode : Mode)
    (h : stage ≠ .afterPersistence) : NodeName.outputGuardrails ∈ resumeNodes mode stage := by
  cases mode <;> cases stage <;> first | exact absurd rfl h | decide

theorem calm_milestone (hstage : stage.isMilestone = true ∧ stage ≠ .afterPersistence)
    (hsave : m.MaySave state.userMessage) :
    Calm m (saveCheckpoint state node stage status []) fun _ => True :=
  calm_saveCheckpoint (fun _ => hstage.1) (fun _ => hsave)
    fun h => absurd (outputGuardrails_mem_resumeNodes state.mode hstage.2) h

variable {cfg : Config} {lib : Lib}

/-- Calm code, as rules that code is built by. -/
def calmRules (m : RunView) : Rules sig Runtime :=
  ⟨fun rt => Synced rt m, fun p => Calm m p fun _ => True⟩

theorem Calm.of_built (h : Built (calmRules m) p P) : Calm m p P := by
  induction h with
  | pure ha => exact .pure ha
  | raise e => exact .raise e
  | read hP => exact fun rt hs => .read (hP rt hs)
  | block hp hP => exact fun rt hs => (hp rt hs).mono fun a _ _ _ _ => hP a
  | bind hp hf ihp ihf => exact ihp.bind ihf
  | handle hp hf ihp ihf => exact ihp.handle ihf

variable {n : NodeName}

theorem lets_calm (huse : n.usesMessage = true → m.MayUse) (hsave : m.MaySave state.userMessage)
    (hdeliver : n = .persistTurn → m.MayDeliver state.draftAnswer.text) :
    Lets (calmRules m) n state where
  plain {op} hop := by
    cases op <;> first | exact .call trivial fun _ => rfl | exact nomatch hop
  query hn {rt op} hs hop := by
    cases op
    case getRelevantMemories | embed | searchChunks | queryRewrite =>
      exact .call ⟨Option.some.inj hop ▸ hs.turn, huse hn⟩ fun _ => rfl
    all_goals exact nomatch hop
  save {rt doc} hs hkey hmessage hdraft hstage _ hlast := by
    obtain ⟨howner, hconversation, hrequest⟩ := TurnKey.mk.inj hkey
    refine .call ⟨⟨howner.trans hs.owner, hconversation.trans hs.turn.2.1,
      hrequest.trans hs.turn.2.2.1⟩, fun _ => hstage, fun _ => hmessage ▸ hsave, fun hskips => ?_⟩
      fun _ => rfl
    by_cases hpersisted : doc.stage = .afterPersistence
    · exact hdraft ▸ hdeliver (hlast hpersisted)
    · exact absurd (outputGuardrails_mem_resumeNodes _ hpersisted) hskips
  saveTurn hn {rt doc} hs hkey hanswer := by
    obtain ⟨howner, hconversation, hrequest⟩ := TurnKey.mk.inj hkey
    exact .call ⟨⟨howner.trans hs.owner, hconversation.trans hs.turn.2.1,
      hrequest.trans hs.turn.2.2.1⟩, hanswer ▸ hdeliver hn⟩ fun _ => rfl
  review _ := calm_answerReview _

theorem calm_streamDone (hdeliver : m.MayDeliver state.draftAnswer.text) :
    Calm m (streamDone state) fun x => x.1.brief = state.brief :=
  .bind (calm_emit hdeliver (by simp)) fun _ _ => .pure rfl

/-! ## Nodes that move the protocol -/

/-- What no code of a run changes once the checkpoint is looked up. -/
def turnFrame : Frame Runtime RunView where
  rel rt m rt' m' := (rt'.owner = rt.owner ∧ rt'.request = rt.request) ∧
    m'.owner = m.owner ∧ m'.request = m.request ∧ m'.loaded = m.loaded ∧
    m'.milestonesOnly = m.milestonesOnly
  refl _ _ := ⟨⟨rfl, rfl⟩, rfl, rfl, rfl, rfl⟩
  trans h₁ h₂ := ⟨⟨h₂.1.1.trans h₁.1.1, h₂.1.2.trans h₁.1.2⟩, h₂.2.1.trans h₁.2.1,
    h₂.2.2.1.trans h₁.2.2.1, h₂.2.2.2.1.trans h₁.2.2.2.1, h₂.2.2.2.2.trans h₁.2.2.2.2⟩

theorem Synced.of_turnFrame (h : Synced rt m) (hf : turnFrame.rel rt m rt' m') : Synced rt' m' := by
  obtain ⟨⟨howner, hrequest⟩, hmowner, hmrequest, -⟩ := hf
  refine ⟨?_, ?_⟩
  · rw [howner, hmowner, h.owner]
  · rw [hrequest, hmrequest]
    exact h.turn

abbrev Turns {α : Type} (p : RunM α) (Q : α → Runtime → RunView → Prop) (rt : Runtime)
    (m : RunView) : Prop :=
  Ensures protocol.logic turnFrame p Q rt m

abbrev Buffered (rt : Runtime) (m : RunView) : Prop :=
  rt.buffer.tokens.map Prod.fst = m.buffered

theorem Calm.ensures (h : Calm m p P)
    (hs : Synced rt m) : Turns p (fun a rt' m' => P a ∧ quiet.rel rt m rt' m') rt m := by
  refine ⟨Proc.wp_mono (h rt hs).wp ?_⟩
  intro r rt' m' hr
  refine ⟨?_, fun a ha => ⟨hr.2 a ha, hr.1⟩⟩
  obtain ⟨rfl, howner, hrequest, -⟩ := hr.1
  exact ⟨⟨howner, hrequest⟩, rfl, rfl, rfl, rfl⟩

variable {Q : β → Runtime → RunView → Prop}

theorem Calm.ensures_bind (h : Calm m p P) (hs : Synced rt m)
    (hf : ∀ a rt', P a → quiet.rel rt m rt' m →
      Turns (f a) Q rt' m) :
    Turns (p >>= f) Q rt m := by
  refine (h.ensures hs).bind ?_
  rintro a rt' m' - ⟨ha, hq⟩
  obtain rfl : m' = m := hq.1
  exact hf a rt' ha hq

theorem ensures_getRequest_bind {F : Frame Runtime RunView} {f : ConversationRequest → RunM β}
    (h : Ensures protocol.logic F (f rt.request) Q rt m) :
    Ensures protocol.logic F (getRequest >>= f) Q rt m := by
  refine .bind (P := fun r rt' m' => r = rt.request ∧ rt' = rt ∧ m' = m) ?_ ?_
  · exact .read_bind (.pure ⟨rfl, rfl, rfl⟩)
  · rintro r rt' m' - ⟨rfl, rfl, rfl⟩
    exact h

variable {rest : List NodeName}

theorem riskScan_ensures (hs : Synced rt m) (text : String) (stage : ScanStage)
    (htext : stage = .input → text = strip m.request.userMessage) :
    Turns (riskScan text stage)
      (fun scan rt' m' => rt' = rt ∧ m' = m.next (.riskScan rt.request text stage) (.ok scan))
      rt m := by
  refine ensures_getRequest_bind (.perform ⟨?_, fun r => ⟨?_, ?_⟩⟩)
  · cases stage with
    | input => exact ⟨hs.turn, htext rfl⟩
    | output => exact hs.turn
  · exact ⟨⟨rfl, rfl⟩, m.next_frame (.riskScan rt.request text stage) r (by simp)⟩
  · rintro scan rfl
    exact ⟨rfl, rfl⟩

theorem inputGuardrails_ensures (hs : Synced rt m) : Turns (inputGuardrails cfg lib state)
      (fun x rt' m' => rt'.buffer = rt.buffer ∧ m' = { m with cleared := true } ∧
        x.1.brief = ⟨strip m.request.userMessage, rt.request.mode, state.draftAnswer.text⟩)
      rt m := by
  have hmessage : strip rt.request.userMessage = strip m.request.userMessage := by
    rw [hs.turn.1]
  refine ensures_getRequest_bind ?_
  dsimp only
  split
  · exact .raise _
  refine (riskScan_ensures hs _ .input fun _ => hmessage).bind ?_
  rintro scan rt' m' hframe ⟨rfl, rfl⟩
  split
  · exact .raise (S := sig) _
  · next hblocked =>
    have hnext : m.next (.riskScan rt'.request (strip rt'.request.userMessage) .input)
        (.ok scan) = { m with cleared := true } := by
      simp only [RunView.next, hblocked, if_false, Bool.false_eq_true]
    rw [hnext] at hframe ⊢
    -- A resume from `graph_start` scans again, so this checkpoint needs no permission.
    have hcalm : Calm { m with cleared := true }
        (saveCheckpoint
          { state with
            userMessage := strip rt'.request.userMessage
            debugPayloads := appendDebug cfg lib state.debugPayloads
              [("input_safety_flags", scan)] }
          "input_guardrails" .graphStart "started" []) fun _ => True :=
      calm_milestone (by decide) (.inl ⟨rfl, hmessage⟩)
    refine hcalm.ensures_bind (hs.of_turnFrame hframe) fun _ rt'' _ hq => ?_
    refine .pure ⟨hq.2.2.2, rfl, ?_⟩
    simp only [ConversationState.brief, hmessage]

theorem generateAnswerCall_ensures (hs : Synced rt m) (huse : m.MayUse) (prompt : Prompt)
    (hempty : rt.buffer.tokens = []) :
    Turns (generateAnswerCall prompt)
      (fun _ rt' m' => m' = { m with buffered := rt'.buffer.tokens.map Prod.fst, flush := [] })
      rt m := by
  refine ensures_getRequest_bind ?_
  refine .bind (P := fun generation rt' m' => rt' = rt ∧
    m' = m.next (.generateAnswer rt.request prompt) (.ok generation)) ?_ ?_
  · refine .perform ⟨⟨hs.turn, huse⟩, fun r => ⟨?_, ?_⟩⟩
    · exact ⟨⟨rfl, rfl⟩, m.next_frame (.generateAnswer rt.request prompt) r (by simp)⟩
    · rintro generation rfl
      exact ⟨rfl, rfl⟩
  rintro generation rt' m' - ⟨rfl, rfl⟩
  refine .modify_bind ⟨⟨rfl, rfl⟩, rfl, rfl, rfl, rfl⟩ ?_
  have htokens : m.next (.generateAnswer rt'.request prompt) (.ok generation) =
      { m with
        buffered := (rt'.buffer.tokens ++
          (Generation.deltas generation |>.filter fun d => d != "").zipIdx).map Prod.fst
        flush := [] } := by
    simp [RunView.next, hempty]
  cases Generation.response generation with
  | error e => exact .raise (S := sig) e
  | ok response =>
    dsimp only
    split
    · exact .pure htokens
    · split
      · split <;> exact .pure htokens
      · exact .pure htokens

/-- What holds after a node that generates an answer: the buffer holds its tokens. -/
def Generated (state : ConversationState) (m : RunView) (x : ConversationState × Meta)
    (rt' : Runtime) (m' : RunView) : Prop :=
  Buffered rt' m' ∧ m'.cleared = m.cleared ∧
    x.1.userMessage = state.userMessage ∧ x.1.mode = state.mode

theorem generateCommon_ensures (hs : Synced rt m) (huse : m.MayUse)
    (hsave : m.MaySave state.userMessage) (source : String) (mode : Mode) (node : String)
    (issues : Json) (isRevision : Bool) :
    Turns (generateCommon cfg lib source mode node issues isRevision state)
      (Generated state m) rt m := by
  refine ensures_getRequest_bind ?_
  refine .modify_bind ⟨⟨rfl, rfl⟩, rfl, rfl, rfl, rfl⟩ ?_
  have hs₀ : Synced { rt with buffer := { source := source, tokens := [] } } m :=
    ⟨hs.owner, hs.turn⟩
  refine (generateAnswerCall_ensures hs₀ huse _ rfl).bind ?_
  intro response rt' m' hframe hm'
  have hs' := hs₀.of_turnFrame hframe
  subst hm'
  refine calm_utcNow.ensures_bind hs' fun now rt'' _ hq => ?_
  refine Calm.ensures_bind (calm_milestone (by decide) hsave) (hs'.of_quiet hq)
    fun _ rt₃ _ hq' => ?_
  refine Ensures.pure ⟨?_, rfl, rfl, rfl⟩
  rw [Buffered, hq'.2.2.2, hq.2.2.2]

theorem reviseOnceIfNeeded_ensures (hs : Synced rt m) (huse : m.MayUse)
    (hsave : m.MaySave state.userMessage)
    (hbuffer : Buffered rt m) :
    Turns (reviseOnceIfNeeded cfg lib state) (Generated state m) rt m := by
  unfold reviseOnceIfNeeded
  cases state.answerReview with
  | none => exact .pure ⟨hbuffer, rfl, rfl, rfl⟩
  | some review =>
    dsimp only
    split
    · exact .pure ⟨hbuffer, rfl, rfl, rfl⟩
    · refine (generateCommon_ensures hs huse hsave _ _ _ _ _).bind ?_
      intro x rt' m' hframe hgen
      obtain ⟨hbuffer', hcleared, hmessage, hmode⟩ := hgen
      refine (calm_answerReview _).ensures_bind (hs.of_turnFrame hframe) fun _ rt'' _ hq => ?_
      exact .pure ⟨by rwa [Buffered, hq.2.2.2], hcleared, hmessage, hmode⟩

theorem approvedTokens_map_fst (tokens : List (String × Nat)) (text : String) :
    (approvedTokens ((tokens.map Prod.fst).map fun d => (d, 0)) text).map Prod.fst =
      (approvedTokens tokens text).map Prod.fst := by
  have hfst : ((tokens.map Prod.fst).map fun d => (d, 0)).map Prod.fst = tokens.map Prod.fst := by
    rw [List.map_map]
    exact List.map_id _
  unfold approvedTokens
  rw [hfst]
  split
  · exact hfst
  · rfl

theorem emit_token_ensures (hs : Synced rt m) {delta : String} {rest : List String}
    (hflush : m.flush = delta :: rest) (index : Nat) (source : String) :
    Turns (emit (.token delta index source))
      (fun _ rt' m' => rt'.buffer = rt.buffer ∧ m' = { m with flush := rest }) rt m := by
  refine .read_bind ?_
  have hterminal : (rt.terminalSent && (EventData.token delta index source).isTerminal) = false :=
    Bool.and_false _
  rw [hterminal, if_neg Bool.false_ne_true]
  refine .modify_bind ⟨⟨rfl, rfl⟩, rfl, rfl, rfl, rfl⟩ ?_
  refine .perform ⟨⟨hs.turn, rest, hflush⟩, fun r => ⟨?_, fun _ hr => ⟨rfl, ?_⟩⟩⟩
  · cases r <;> exact ⟨⟨rfl, rfl⟩, rfl, rfl, rfl, rfl⟩
  · subst hr
    show { m with flush := m.flush.tail } = { m with flush := rest }
    rw [hflush, List.tail_cons]

/-- The flush of `approve` delivers the approved tokens in order. -/
theorem flush_ensures (source : String) (tokens : List (String × Nat)) (hs : Synced rt m)
    (hflush : m.flush = tokens.map Prod.fst) :
    Turns (Proc.forEach tokens fun t => emit (.token t.1 t.2 source))
      (fun _ rt' m' => rt'.buffer = rt.buffer ∧ m' = { m with flush := [] }) rt m := by
  induction tokens generalizing rt m with
  | nil =>
    refine .pure ⟨rfl, ?_⟩
    rw [← show m.flush = [] from hflush]
  | cons t rest ih =>
    refine (emit_token_ensures hs hflush
      t.2 source).bind ?_
    rintro _ rt' m' hframe ⟨hbuffer, rfl⟩
    refine (ih (hs.of_turnFrame hframe) rfl).mono ?_
    rintro _ rt'' m'' - ⟨hbuffer', rfl⟩
    exact ⟨hbuffer'.trans hbuffer, rfl⟩

theorem approveCandidate_ensures (hs : Synced rt m) {text : String}
    (hflush : m.flush = (approvedTokens rt.buffer.tokens text).map Prod.fst) :
    Turns (approveCandidate text) (fun _ _ m' => m' = { m with flush := [] }) rt m := by
  refine .read_bind (.modify_bind ⟨⟨rfl, rfl⟩, rfl, rfl, rfl, rfl⟩ ?_)
  have hs₀ : Synced { rt with buffer := { rt.buffer with tokens := [] } } m :=
    ⟨hs.owner, hs.turn⟩
  refine (flush_ensures rt.buffer.source _ hs₀ hflush).mono ?_
  rintro _ rt' m' - ⟨-, rfl⟩
  rfl

theorem outputGuardrails_ensures (hs : Synced rt m) (hbuffer : Buffered rt m) :
    Turns (outputGuardrails cfg lib state)
      (fun x _ m' => m'.approved = some x.1.draftAnswer.text ∧ m'.cleared = m.cleared ∧
        x.1.userMessage = state.userMessage ∧ x.1.mode = state.mode) rt m := by
  refine (riskScan_ensures hs _ .output (by simp)).bind ?_
  rintro scan rt' m' hframe ⟨rfl, rfl⟩
  refine .bind (P := fun draft _ m' => m'.approved = some (DraftAnswer.text draft) ∧
    m'.cleared = m.cleared) ?_ ?_
  · split
    · next hblocked =>
      refine .modify_bind ⟨⟨rfl, rfl⟩, rfl, rfl, rfl, rfl⟩ (.pure ?_)
      simp only [RunView.next, hblocked, if_true, and_self]
    · next hblocked =>
      have hnext : m.next (.riskScan rt'.request state.draftAnswer.text .output) (.ok scan) =
          { m with
            approved := some state.draftAnswer.text
            flush := (approvedTokens rt'.buffer.tokens state.draftAnswer.text).map
              Prod.fst } := by
        simp only [RunView.next, hblocked, if_false, Bool.false_eq_true, ← hbuffer,
          approvedTokens_map_fst]
      rw [hnext] at hframe ⊢
      refine (approveCandidate_ensures (hs.of_turnFrame hframe) rfl).bind ?_
      rintro _ rt'' m'' - rfl
      exact .pure ⟨rfl, rfl⟩
  · rintro draft rt'' m'' - ⟨happroved, hcleared⟩
    exact .pure ⟨happroved, hcleared, rfl, rfl⟩

/-! ## Runs of nodes -/

def NodeName.generates : NodeName → Bool
  | .generateAnswer | .generateDraftAnswer | .reviseOnceIfNeeded => true
  | _ => false

/-- The output scan and the nodes that deliver what it let through. -/
def NodeName.delivers : NodeName → Bool
  | .outputGuardrails | .persistTurn | .streamDone => true
  | _ => false

/-- The question is scanned first, every generation comes before the output scan and every delivery
after it. -/
def Ordered : List NodeName → Prop
  | [] => True
  | n :: rest => .inputGuardrails ∉ rest ∧ (n.generates = true → .outputGuardrails ∈ rest) ∧
      (n.delivers = true → .outputGuardrails ∉ rest) ∧ Ordered rest

theorem ordered_executionPaths (mode : Mode) : Ordered (executionPaths mode) := by
  cases mode <;> simp [Ordered, executionPaths, NodeName.generates, NodeName.delivers]

theorem Ordered.of_suffix {path : List NodeName} (h : Ordered path) (hsuffix : nodes <:+ path) :
    Ordered nodes := by
  induction path with
  | nil => exact List.suffix_nil.mp hsuffix ▸ h
  | cons n rest ih =>
    rcases List.suffix_cons_iff.mp hsuffix with heq | hrest
    · exact heq ▸ h
    · exact ih h.2.2.2 hrest

/-- What the run knows when these nodes are left to execute. -/
structure Ready (nodes : List NodeName) (b : Brief) (rt : Runtime) (m : RunView) : Prop where
  synced : Synced rt m
  buffer : .outputGuardrails ∈ nodes → Buffered rt m
  save : .inputGuardrails ∉ nodes → m.MaySave b.message
  use : .inputGuardrails ∉ nodes → nodes.any NodeName.usesMessage = true → m.MayUse
  deliver : .outputGuardrails ∉ nodes → m.MayDeliver b.answer

theorem Ready.of_quiet (h : Ready nodes b rt m) (hq : quiet.rel rt m rt' m) :
    Ready nodes b rt' m where
  synced := h.synced.of_quiet hq
  buffer hn := by
    rw [Buffered, hq.2.2.2]
    exact h.buffer hn
  save := h.save
  use := h.use
  deliver := h.deliver

theorem Ready.tail (h : Ready (n :: rest) b rt m) (hin : n ≠ .inputGuardrails)
    (hout : n ≠ .outputGuardrails) : Ready rest b rt m where
  synced := h.synced
  buffer hn := h.buffer (List.mem_cons_of_mem n hn)
  save hn := h.save (by simp [hn, hin.symm])
  use hn hany := h.use (by simp [hn, hin.symm]) (by simp [List.any_cons, hany])
  deliver hn := h.deliver (by simp [hn, hout.symm])

/-- The input scan takes the mode of the request and every other node keeps the mode. -/
def ModeAfter (n : NodeName) (state : ConversationState) (rt : Runtime) (b : Brief) : Prop :=
  b.mode = if n = .inputGuardrails then rt.request.mode else state.mode

variable {p : RunM (ConversationState × Meta)}

theorem Calm.ready
    (hcalm : Calm m p fun x => x.1.brief = state.brief) (h : Ready (n :: rest) state.brief rt m)
    (hin : n ≠ .inputGuardrails) (hout : n ≠ .outputGuardrails) :
    Turns p
      (fun x rt' m' => Ready rest x.1.brief rt' m' ∧ ModeAfter n state rt x.1.brief) rt m := by
  refine (hcalm.ensures h.synced).mono ?_
  intro x rt' m' _ hx
  obtain ⟨hbrief, hq⟩ := hx
  obtain rfl : m' = m := hq.1
  rw [hbrief]
  exact ⟨(h.tail hin hout).of_quiet hq, by simp [ModeAfter, hin, ConversationState.brief]⟩

theorem Ready.advance {b' : Brief} (h : Ready (n :: rest) b rt m) (hin : n ≠ .inputGuardrails)
    (hframe : turnFrame.rel rt m rt' m') (hcleared : m'.cleared = m.cleared)
    (hmessage : b'.message = b.message)
    (hbuffer : .outputGuardrails ∈ rest → Buffered rt' m')
    (hdeliver : .outputGuardrails ∉ rest → m'.MayDeliver b'.answer) : Ready rest b' rt' m' where
  synced := h.synced.of_turnFrame hframe
  buffer := hbuffer
  save hn := by
    have hsave : m.MaySave b.message := h.save (by simp [hn, hin.symm])
    unfold RunView.MaySave
    rw [hcleared, hframe.2.2.1, hframe.2.2.2.1, hmessage]
    exact hsave
  use hn hany := by
    have huse : m.MayUse := h.use (by simp [hn, hin.symm]) (by simp [List.any_cons, hany])
    unfold RunView.MayUse
    rw [hcleared, hframe.2.2.2.1]
    exact huse
  deliver := hdeliver

theorem Generated.ready (hgen : Turns p (Generated state m) rt m)
    (h : Ready (n :: rest) state.brief rt m) (hin : n ≠ .inputGuardrails)
    (hrest : .outputGuardrails ∈ rest) :
    Turns p
      (fun x rt' m' => Ready rest x.1.brief rt' m' ∧ ModeAfter n state rt x.1.brief) rt m := by
  refine hgen.mono ?_
  intro x rt' m' hframe hx
  obtain ⟨hbuffer, hcleared, hmessage, hmode⟩ := hx
  exact ⟨h.advance hin hframe hcleared hmessage (fun _ => hbuffer) fun hn => absurd hrest hn,
    by simpa [ModeAfter, hin, ConversationState.brief] using hmode⟩

theorem nodeMap_ready (hord : Ordered (n :: rest)) (h : Ready (n :: rest) state.brief rt m) :
    Turns (nodeMap cfg lib n state)
      (fun x rt' m' => Ready rest x.1.brief rt' m' ∧ ModeAfter n state rt x.1.brief) rt m := by
  obtain ⟨hinput, hgen, hdel, -⟩ := hord
  have hsave : n ≠ .inputGuardrails → m.MaySave state.userMessage :=
    fun hin => h.save (by simp [hinput, hin.symm])
  have huse : n ≠ .inputGuardrails → n.usesMessage = true → m.MayUse :=
    fun hin hn => h.use (by simp [hinput, hin.symm]) (by simp [List.any_cons, hn])
  have hdeliver : n ≠ .outputGuardrails → n.delivers = true →
      m.MayDeliver state.draftAnswer.text :=
    fun hout hn => h.deliver (by simp [hdel hn, hout.symm])
  by_cases hcalm : n.isCalm = true
  · have hin : n ≠ .inputGuardrails := NodeName.ne_of_isCalm hcalm rfl
    have hout : n ≠ .outputGuardrails := NodeName.ne_of_isCalm hcalm rfl
    have hlets : Lets (calmRules m) n state :=
      lets_calm (huse hin) (hsave hin) fun hn => hdeliver hout (hn ▸ rfl)
    refine (Calm.of_built ((calmNode_built hlets hcalm).mono fun x hx => ?_)).ready h hin hout
    simp only [ConversationState.brief, hx.userMessage, hx.mode, hx.draftAnswer]
  cases n
  case inputGuardrails =>
    refine (inputGuardrails_ensures h.synced).mono ?_
    intro x rt' m' hframe hx
    obtain ⟨hbuffer, rfl, hbrief⟩ := hx
    rw [hbrief]
    refine ⟨⟨h.synced.of_turnFrame hframe, fun hn => ?_, fun _ => .inl ⟨rfl, rfl⟩,
      fun _ _ => .inl rfl, fun hn => h.deliver (by simp [hn])⟩, by simp [ModeAfter]⟩
    rw [Buffered, hbuffer]
    exact h.buffer (List.mem_cons_of_mem _ hn)
  case outputGuardrails =>
    refine (outputGuardrails_ensures h.synced (h.buffer List.mem_cons_self)).mono ?_
    intro x rt' m' hframe hx
    obtain ⟨happroved, hcleared, hmessage, hmode⟩ := hx
    exact ⟨h.advance (by decide) hframe hcleared hmessage (fun hn => absurd hn (hdel rfl))
      fun _ => .inl happroved, by simpa [ModeAfter, ConversationState.brief] using hmode⟩
  case generateAnswer | generateDraftAnswer =>
    exact Generated.ready (generateCommon_ensures h.synced (huse (by decide) rfl)
      (hsave (by decide)) _ _ _ _ _) h (by decide) (hgen rfl)
  case reviseOnceIfNeeded =>
    exact Generated.ready (reviseOnceIfNeeded_ensures h.synced (huse (by decide) rfl)
      (hsave (by decide)) (h.buffer (List.mem_cons_of_mem _ (hgen rfl)))) h (by decide) (hgen rfl)
  case streamDone =>
    exact (calm_streamDone (hdeliver (by decide) rfl)).ready h (by decide) (by decide)
  all_goals exact absurd rfl hcalm

theorem calm_enterNode (n : NodeName) :
    Calm m (enterNode cfg lib n state) fun s => s.brief = state.brief := by
  refine .bind (.modify fun _ => ⟨rfl, rfl, rfl⟩) fun _ _ => ?_
  refine .getRequest_bind fun r _ => ?_
  cases generationMode n with
  | none => exact .pure rfl
  | some mode =>
    refine .bind (.modify fun _ => ⟨rfl, rfl, rfl⟩) fun _ _ => ?_
    exact .pure rfl

theorem wrapNode_ready (hord : Ordered (n :: rest)) (h : Ready (n :: rest) state.brief rt m) :
    Turns (wrapNode cfg lib n state)
      (fun s rt' m' => Ready rest s.brief rt' m' ∧ ModeAfter n state rt s.brief) rt m := by
  refine (calm_enterNode n).ensures_bind h.synced fun entered rt₁ hentered hq₁ => ?_
  refine ensures_getRequest_bind ?_
  have h₁ := h.of_quiet hq₁
  refine (calm_status _ _ _ _).ensures_bind h₁.synced fun _ rt₂ _ hq₂ => ?_
  have h₂ : Ready (n :: rest) entered.brief rt₂ m := hentered ▸ h₁.of_quiet hq₂
  refine (nodeMap_ready hord h₂).bind ?_
  intro update rt₃ m₃ hframe hupdate
  obtain ⟨hready, hmode⟩ := hupdate
  have hmode' : ModeAfter n state rt update.1.brief := by
    have hmodes : entered.mode = state.mode := congrArg Brief.mode hentered
    unfold ModeAfter at hmode ⊢
    rw [hmode, hmodes, hq₂.2.2.1, hq₁.2.2.1]
  refine .read_bind ?_
  split
  · exact .pure ⟨hready, hmode'⟩
  · refine (calm_status _ _ _ _).ensures_bind hready.synced fun _ rt₄ _ hq₄ => ?_
    have h₄ := hready.of_quiet hq₄
    refine Calm.ensures_bind (calm_emit trivial (by simp)) h₄.synced fun _ rt₅ _ hq₅ => ?_
    exact Ensures.pure ⟨h₄.of_quiet hq₅, hmode'⟩

/-- Along the nodes the run keeps to its turn and stays ready for the nodes that are left. -/
theorem walk_ready (rt₀ : Runtime) (m₀ : RunView) : Walk cfg lib protocol.logic
      (fun nodes state rt m => turnFrame.rel rt₀ m₀ rt m ∧ Ready nodes state.brief rt m)
      (fun rt m => turnFrame.rel rt₀ m₀ rt m) where
  step hpath h := by
    refine (wrapNode_ready ((ordered_executionPaths _).of_suffix hpath) h.2).ends ?_ ?_
    · intro next rt' m' hframe hnext
      exact ⟨⟨turnFrame.trans h.1 hframe, hnext.1⟩, hnext.2⟩
    · exact fun _ _ _ hframe => turnFrame.trans h.1 hframe

/-! ## The run -/

theorem calm_failureCheckpoint (hfree : m.milestonesOnly = false)
    (hstage : stage = .error ∨ stage = .guardrailBlocked) (node status : String)
    (extra : List (String × Json)) :
    Calm m (saveCheckpoint state node stage status extra) fun _ => True := by
  have hall : ∀ n ∈ executionPaths state.mode, n ∈ resumeNodes state.mode stage := by
    rcases hstage with rfl | rfl <;> exact fun n hn => hn
  refine calm_saveCheckpoint (fun h => by simp [hfree] at h) (fun hn => ?_) fun hn => ?_
  · exact absurd (hall _ (by cases state.mode <;> decide)) hn
  · exact absurd (hall _ (by cases state.mode <;> decide)) hn

theorem calm_runFailed (hfree : m.milestonesOnly = false) (e : Err) :
    Calm m (runFailed state e) fun _ => True := by
  refine .read_bind fun rt _ => ?_
  cases e
  case guardrailBlocked stage =>
    refine (calm_failureCheckpoint hfree (.inr rfl) _ _ _).bind fun _ _ => ?_
    exact .pure trivial
  all_goals
    refine (calm_failureCheckpoint hfree (.inl rfl) _ _ _).bind fun _ _ => ?_
    refine .bind (calm_emit trivial (by simp)) fun _ _ => ?_
    exact .pure trivial

/-- What the run knows when it enters its `try` block. -/
structure Started (start : ConversationState × Option Checkpoint) (rt : Runtime) (m : RunView) :
    Prop where
  synced : Synced rt m
  fresh : start.2 = none → Ready (executionPaths rt.request.mode) start.1.brief rt m ∧
    start.1.mode = rt.request.mode
  resumed : ∀ c, start.2 = some c → Ready (resumeNodes start.1.mode c.stage) start.1.brief rt m

theorem runBody_follows (h : Started (state, checkpoint) rt m) :
    Turns (runBody cfg lib state checkpoint) (fun _ _ _ => True) rt m := by
  refine ((walk_ready rt m).runBody (fun hnone => (h.fresh hnone).2)
    ⟨turnFrame.refl rt m, ?_⟩ ?_).ensures
  · cases checkpoint with
    | some c => exact h.resumed c rfl
    | none =>
      obtain ⟨hready, hmode⟩ := h.fresh rfl
      rw [← hmode] at hready
      exact hready
  · intro final rt' m' hfinal
    exact .modify_bind (.read_bind (.pure ⟨hfinal.1, trivial⟩))

theorem runTurn_follows (h : Started (state, checkpoint) rt m) (hfree : m.milestonesOnly = false) :
    Turns (Proc.handle (runBody cfg lib state checkpoint) (runFailed state)) (fun _ _ _ => True)
      rt m := by
  refine (runBody_follows h).handle ?_
  intro e rt' m' hframe
  have hfree' : m'.milestonesOnly = false := hframe.2.2.2.2.trans hfree
  exact ((calm_runFailed hfree' e).ensures (h.synced.of_turnFrame hframe)).mono
    fun _ _ _ _ _ => trivial

theorem adoptCheckpoint_sameTurn (c : Checkpoint) (r : ConversationRequest) :
    SameTurn (adoptCheckpoint c r) r := by
  unfold adoptCheckpoint
  dsimp only
  repeat' split
  all_goals exact ⟨rfl, rfl, rfl, rfl⟩

def anyFrame : Frame Runtime RunView where
  rel _ _ _ _ := True
  refl _ _ := trivial
  trans _ _ := trivial

theorem ready_fresh (hs : Synced rt m) (hbuffer : Buffered rt m)
    (mode : Mode) (b : Brief) : Ready (executionPaths mode) b rt m where
  synced := hs
  buffer _ := hbuffer
  save hn := absurd (by cases mode <;> decide) hn
  use hn := absurd (by cases mode <;> decide) hn
  deliver hn := absurd (by cases mode <;> decide) hn

theorem ready_resume (hs : Synced rt m) (hbuffer : Buffered rt m)
    {c : Checkpoint} (hloaded : m.loaded = some c) : Ready c.nodes c.state.brief rt m where
  synced := hs
  buffer _ := hbuffer
  save hn := .inr ⟨c, hloaded, hn, rfl⟩
  use hn hany := .inr ⟨c, hloaded, hn, hany⟩
  deliver hn := .inr ⟨c, hloaded, hn, rfl⟩

section

variable (resume : Bool) (howner : rt.owner = m.owner) (hrequest : rt.request = m.request)

include resume howner hrequest

theorem findCheckpoint_ensures : Ensures protocol.logic anyFrame (findCheckpoint resume)
      (fun found rt' m' => rt' = rt ∧ m' = { m with loaded := if resume then found else m.loaded } ∧
        (resume = false → found = none)) rt m := by
  refine .read_bind ?_
  cases resume with
  | false => exact .pure ⟨rfl, rfl, fun _ => rfl⟩
  | true =>
    refine .perform ⟨⟨howner, hrequest⟩, fun r => ⟨trivial, fun found hr => ?_⟩⟩
    subst hr
    exact ⟨rfl, rfl, fun h => nomatch h⟩

/-- The protocol's view of the turn stays the same until the run enters its `try` block. -/
theorem startRun_ensures (hbuffer : Buffered rt m) :
    Ensures protocol.logic anyFrame (startRun resume)
      (fun start rt' m' => Started start rt' m' ∧ m'.owner = m.owner ∧ m'.request = m.request ∧
        m'.milestonesOnly = m.milestonesOnly) rt m := by
  refine ensures_getRequest_bind ?_
  refine (findCheckpoint_ensures resume howner hrequest).bind ?_
  intro found rt' m' _ hfound
  obtain ⟨rfl, rfl, hnone⟩ := hfound
  have hs : Synced rt' { m with loaded := if resume then found else m.loaded } :=
    ⟨howner, hrequest ▸ SameTurn.refl _⟩
  cases found with
  | none =>
    refine .weaken (F := turnFrame) ?_ fun _ => trivial
    refine Calm.ensures_bind (Calm.call trivial fun _ => rfl) hs fun _ rt₁ _ hq => ?_
    have hbuffer₁ : Buffered rt₁ m := by
      rw [Buffered, hq.2.2.2]
      exact hbuffer
    have hs₁ := hs.of_quiet hq
    refine .pure ⟨⟨hs₁, fun _ => ⟨ready_fresh hs₁ hbuffer₁ _ _, ?_⟩,
      fun c hc => nomatch hc⟩, rfl, rfl, rfl⟩
    rw [hq.2.2.1]
    rfl
  | some c =>
    have hresume : resume = true := by
      cases resume with
      | true => rfl
      | false => exact nomatch hnone rfl
    subst hresume
    refine .modify_bind trivial ?_
    have hturn : SameTurn (adoptCheckpoint c rt'.request) m.request := by
      rw [hrequest]
      exact adoptCheckpoint_sameTurn c m.request
    have hs₁ : Synced { rt' with request := adoptCheckpoint c rt'.request }
        { m with loaded := some c } := ⟨howner, hturn⟩
    refine .pure ⟨⟨hs₁, fun h => (nomatch h), fun d hd => ?_⟩, rfl, rfl, rfl⟩
    cases hd
    exact ready_resume hs₁ hbuffer rfl

theorem run_follows (hbuffer : Buffered rt m) (hfree : m.milestonesOnly = false) :
    Ensures protocol.logic anyFrame (run cfg lib resume) (fun _ _ _ => True) rt m := by
  refine (startRun_ensures resume howner hrequest hbuffer).bind ?_
  intro start rt' m' _ hstart
  obtain ⟨hstarted, -, -, hfree'⟩ := hstart
  exact (runTurn_follows hstarted (hfree'.trans hfree)).weaken fun _ => trivial

end

/-- Every chat request makes the service follow the protocol, whatever the replies. -/
theorem handleQuestion_follows (identity : Identity) (fresh : FreshIds) (data : ChatData)
    (sessionId connectionId : Option String) :
    (handleQuestion cfg lib identity fresh data sessionId connectionId).wp protocol.logic
      (fun _ _ => True)
      { owner := identity.owner
        request := buildRequest identity fresh data sessionId connectionId } := by
  refine ((answerQuestion cfg lib data).wp_start fun _ _ _ => True).mpr ?_
  unfold answerQuestion
  split
  · trivial
  · exact Proc.wp_mono (run_follows data.resume rfl rfl rfl rfl).wp fun _ _ _ _ => trivial

end RagForge.Rag
