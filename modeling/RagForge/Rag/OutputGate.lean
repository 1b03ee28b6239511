import RagForge.Rag.Approval
import RagForge.Rag.InputGate

/-
No text reaches the client or the stored turn that an output scan of the same turn did not let
through or put in place of a blocked candidate.

A turn is what its runs share: the owner, the conversation and the request id.  Its runs may crash
and resume from any of its stored checkpoints.
-/

namespace RagForge.Rag

open Effect Py

variable {trace : Trace} {key : TurnKey} {text : String} {i : Nat} {x : Nat × Event sig}
  {m : RunView} {op : Op}

def scanOutcome (candidate : String) (scan : Json) : String :=
  if (scan.get "blocked").truthy then safeReplacement scan else candidate

/-- An output scan of the turn let the text through, or put it in place of a candidate. -/
def Passed (trace : Trace) (key : TurnKey) (text : String) : Prop :=
  ∃ i r candidate scan, (i, (⟨.riskScan r candidate .output, .ok scan⟩ : Event sig)) ∈ trace ∧
    r.key = key ∧ text = scanOutcome candidate scan

def tokens (i : Nat) (trace : Trace) : List String :=
  trace.filterMap fun x =>
    match x.2.op with
    | .publish _ (.token delta _ _) => if x.1 = i then some delta else none
    | _ => none

/-- The operations after which an earlier candidate is no longer the one to deliver. -/
def Op.supersedes : Op → Bool
  | .riskScan _ _ .output | .generateAnswer .. => true
  | _ => false

/-- The run is delivering a candidate its last output scan let through: nothing superseded it since,
and the tokens published since, with those still to come, spell it up to trailing white space. -/
def Streams (trace : Trace) (i : Nat) (key : TurnKey) (rest : List String) : Prop :=
  ∃ earlier r candidate scan since,
    trace = earlier ++ (i, (⟨.riskScan r candidate .output, .ok scan⟩ : Event sig)) :: since ∧
      r.key = key ∧ (Json.get scan "blocked").truthy = false ∧
      (∀ x ∈ since, x.1 = i → Op.supersedes x.2.op = false) ∧
      rstrip (String.join (tokens i since ++ rest)) = rstrip candidate

def Approved (before : Trace) (x : Nat × Event sig) : Prop :=
  match x.2.op with
  | .publish r (.token delta _ _) => ∃ rest, Streams before x.1 r.key (delta :: rest)
  | .publish r (.done answer ..) => Passed before r.key answer
  | .saveTurn doc => Passed before doc.key doc.finalAnswer
  | _ => True

/-! ## Traces -/

theorem Passed.append (h : Passed trace key text) (more : Trace) :
    Passed (trace ++ more) key text := by
  obtain ⟨i, r, candidate, scan, hmem, hrest⟩ := h
  exact ⟨i, r, candidate, scan, List.mem_append_left more hmem, hrest⟩

theorem Streams.append {rest : List String} (h : Streams trace i key (tokens i [x] ++ rest))
    (hx : x.1 = i → Op.supersedes x.2.op = false) : Streams (trace ++ [x]) i key rest := by
  obtain ⟨earlier, r, candidate, scan, since, rfl, hkey, hblocked, hsince, htokens⟩ := h
  refine ⟨earlier, r, candidate, scan, since ++ [x], by simp, hkey, hblocked, ?_, ?_⟩
  · intro y hy
    rcases List.mem_append.mp hy with hold | hnew
    · exact hsince y hold
    · obtain rfl := List.mem_singleton.mp hnew
      exact hx
  · have hsplit : tokens i (since ++ [x]) = tokens i since ++ tokens i [x] :=
      List.filterMap_append
    rw [hsplit, List.append_assoc]
    exact htokens

theorem tokens_other (hx : x.1 ≠ i) : tokens i [x] = [] := by
  unfold tokens
  rw [List.filterMap_cons]
  split
  · rfl
  · next d hd =>
    split at hd
    · rw [if_neg hx] at hd
      exact nomatch hd
    · exact nomatch hd

/-! ## What the protocol's steps do -/

variable {r : Except Err op.Reply}

theorem RunView.next_approved (h : (m.next op r).approved = some text) :
    m.approved = some text ∨ ∃ q candidate scan,
      (⟨op, r⟩ : Event sig) = ⟨.riskScan q candidate .output, .ok scan⟩ ∧
        text = scanOutcome candidate scan := by
  unfold RunView.next at h
  split at h
  case h_1 q candidate scan =>
    split at h
    · exact .inl h
    · exact .inl h
  case h_2 q candidate scan =>
    refine .inr ⟨q, candidate, scan, rfl, ?_⟩
    unfold scanOutcome
    split at h
    · next hblocked =>
      rw [if_pos hblocked]
      exact (Option.some.inj h).symm
    · next hblocked =>
      rw [if_neg hblocked]
      exact (Option.some.inj h).symm
  all_goals exact .inl h

theorem RunView.next_flush (hallow : m.allow op) (h : (m.next op r).flush ≠ []) :
    (∃ q candidate scan, (⟨op, r⟩ : Event sig) = ⟨.riskScan q candidate .output, .ok scan⟩ ∧
        (Json.get scan "blocked").truthy = false ∧
        rstrip (String.join (m.next op r).flush) = rstrip candidate) ∨
      op.supersedes = false ∧ ∀ i, m.flush = tokens i [(i, ⟨op, r⟩)] ++ (m.next op r).flush := by
  cases op
  case riskScan q candidate stage =>
    cases stage with
    | input =>
      refine .inr ⟨rfl, fun i => ?_⟩
      cases r with
      | error e => rfl
      | ok scan =>
        simp only [RunView.next]
        split <;> rfl
    | output =>
      cases r with
      | error e => exact absurd rfl h
      | ok scan =>
        simp only [RunView.next] at h ⊢
        split at h
        · exact absurd rfl h
        · next hblocked =>
          rw [if_neg hblocked]
          exact .inl ⟨q, candidate, scan, rfl, by simpa using hblocked,
            approvedTokens_join _ _⟩
  case generateAnswer q prompt => cases r <;> exact absurd rfl h
  case publish q data =>
    cases data
    case token delta index source =>
      cases r with
      | error e => exact absurd rfl h
      | ok u =>
        obtain ⟨-, rest, hflush⟩ := hallow
        refine .inr ⟨rfl, fun i => ?_⟩
        simp [tokens, RunView.next, hflush]
    all_goals exact .inr ⟨rfl, fun i => rfl⟩
  case getLatestCheckpoint owner q => cases r <;> exact .inr ⟨rfl, fun i => rfl⟩
  all_goals exact .inr ⟨rfl, fun i => rfl⟩

/-! ## The invariant -/

/-- What a run of the system knows is true of the trace. -/
structure KnowsOutput (trace : Trace) (i : Nat) (m : RunView) : Prop where
  owner : m.owner = requestOwner m.request
  approved : ∀ text, m.approved = some text → Passed trace m.request.key text
  loaded : ∀ c, m.loaded = some c → c.SkipsOutputScan →
    Passed trace m.request.key c.state.draftAnswer.text
  flush : m.flush ≠ [] → Streams trace i m.request.key m.flush

structure OutputInv (w : World) (trace : Trace) (views : List RunView) : Prop where
  approved : Justified Approved trace
  turns : ∀ t ∈ w.turns, Passed trace t.key t.finalAnswer
  stored : ∀ c ∈ w.checkpoints, c.SkipsOutputScan → Passed trace c.key c.state.draftAnswer.text
  views : ∀ i m, views[i]? = some m → KnowsOutput trace i m

theorem KnowsOutput.append (h : KnowsOutput trace i m) (hx : x.1 ≠ i) :
    KnowsOutput (trace ++ [x]) i m where
  owner := h.owner
  approved text htext := (h.approved text htext).append _
  loaded c hc hskip := (h.loaded c hc hskip).append _
  flush hflush := Streams.append (by
    rw [tokens_other hx]
    exact h.flush hflush) fun heq => absurd heq hx

theorem KnowsOutput.mayDeliver (h : KnowsOutput trace i m) (hm : m.MayDeliver text) :
    Passed trace m.request.key text := by
  rcases hm with happroved | ⟨c, hloaded, hskip, rfl⟩
  · exact h.approved text happroved
  · exact h.loaded c hloaded hskip

/-- Every delivery the protocol allows is justified. -/
theorem KnowsOutput.approves (h : KnowsOutput trace i m) (hallow : m.allow op)
    (r : Except Err op.Reply) : Approved trace (i, ⟨op, r⟩) := by
  cases op
  case publish q data =>
    obtain ⟨hturn, hdata⟩ := hallow
    cases data
    case token delta index source =>
      obtain ⟨rest, hflush⟩ := hdata
      have hstreams := h.flush (by simp [hflush])
      rw [hflush, ← hturn.key_eq] at hstreams
      exact ⟨rest, hstreams⟩
    case done answer sources review plan events payloads =>
      show Passed trace q.key answer
      rw [hturn.key_eq]
      exact h.mayDeliver hdata
    all_goals trivial
  case saveTurn doc =>
    obtain ⟨⟨howner, hconversation, hrequest⟩, hdeliver⟩ := hallow
    have hkey : doc.key = m.request.key := by
      simp only [Turn.key, ConversationRequest.key, howner, hconversation, hrequest, h.owner]
    show Passed trace doc.key doc.finalAnswer
    rw [hkey]
    exact h.mayDeliver hdeliver
  all_goals trivial

variable {w : World} {views : List RunView}

section Step

variable {choose : Nat → List Checkpoint → Option Checkpoint} {env : Env}

theorem KnowsOutput.next (hchoose : ∀ n cs c, choose n cs = some c → c ∈ cs)
    (hstored : ∀ c ∈ w.checkpoints, c.SkipsOutputScan →
      Passed trace c.key c.state.draftAnswer.text)
    (h : KnowsOutput trace i m) (hallow : m.allow op) :
    KnowsOutput (trace ++ [(i, ⟨op, (handlerWith choose env op w).1⟩)]) i
      (m.next op (handlerWith choose env op w).1) := by
  have hturn := m.next_turn op (handlerWith choose env op w).1
  have hlast : (i, (⟨op, (handlerWith choose env op w).1⟩ : Event sig)) ∈
      trace ++ [(i, ⟨op, (handlerWith choose env op w).1⟩)] :=
    List.mem_append_right _ (List.mem_singleton_self _)
  refine ⟨?_, fun text htext => ?_, fun c hc hskip => ?_, fun hflush => ?_⟩
  · rw [hturn.1, hturn.2]
    exact h.owner
  · rw [hturn.2]
    rcases m.next_approved htext with hold | ⟨q, candidate, scan, hevent, rfl⟩
    · exact (h.approved text hold).append _
    · obtain rfl : op = .riskScan q candidate .output := congrArg Event.op hevent
      refine ⟨i, q, candidate, scan, ?_, hallow.key_eq, rfl⟩
      rw [← hevent]
      exact hlast
  · rw [hturn.2]
    rcases m.next_loaded op (handlerWith choose env op w).1 with hold |
      ⟨owner, q, found, hevent, hfound⟩
    · exact (h.loaded c (hold ▸ hc) hskip).append _
    · obtain ⟨rfl, rfl⟩ := handlerWith_getLatestCheckpoint hevent
      obtain ⟨rfl, rfl⟩ := hallow
      have hmatch := mem_matching (hchoose _ _ _ (hfound ▸ hc))
      have hkey : c.key = m.request.key := by
        simp only [CheckpointData.key, ConversationRequest.key, hmatch.2.1, hmatch.2.2.1,
          hmatch.2.2.2, h.owner]
      rw [← hkey]
      exact (hstored c hmatch.1 hskip).append _
  · rw [hturn.2]
    rcases m.next_flush hallow hflush with ⟨q, candidate, scan, hevent, hblocked, hjoin⟩ |
      ⟨hkeeps, htokens⟩
    · obtain rfl : op = .riskScan q candidate .output := congrArg Event.op hevent
      refine ⟨trace, q, candidate, scan, [], by rw [hevent], hallow.key_eq, hblocked,
        by simp, ?_⟩
      exact hjoin
    · refine Streams.append ?_ fun _ => hkeeps
      rw [← htokens i]
      refine h.flush fun hnil => hflush ?_
      exact (List.append_eq_nil_iff.mp ((htokens i).symm.trans hnil)).2

theorem OutputInv.step (hchoose : ∀ n cs c, choose n cs = some c → c ∈ cs)
    (hinv : OutputInv w trace views) (hm : views[i]? = some m) (hallow : m.allow op) :
    OutputInv (handlerWith choose env op w).2
      (trace ++ [(i, ⟨op, (handlerWith choose env op w).1⟩)])
      (views.set i (m.next op (handlerWith choose env op w).1)) := by
  have hknows : KnowsOutput trace i m := hinv.views i m hm
  have hjust : Approved trace (i, ⟨op, (handlerWith choose env op w).1⟩) :=
    hknows.approves hallow _
  refine ⟨hinv.approved.append hjust, fun t ht => ?_, fun c hc hskip => ?_, fun j m' hm' => ?_⟩
  · rcases handlerWith_turns ht with hold | rfl
    · exact (hinv.turns t hold).append _
    · exact hjust.append _
  · rcases handlerWith_checkpoints choose env op w with hsame | ⟨doc, rfl, hdoc⟩
    · exact (hinv.stored c (hsame ▸ hc) hskip).append _
    · rcases List.mem_append.mp (hdoc ▸ hc) with hold | hnew
      · exact (hinv.stored c hold hskip).append _
      · obtain rfl := List.mem_singleton.mp hnew
        obtain ⟨⟨howner, hconversation, hrequest⟩, -, -, hdeliver⟩ := hallow
        have hkey : doc.key = m.request.key := by
          simp only [CheckpointData.key, ConversationRequest.key, howner, hconversation, hrequest,
            hknows.owner]
        rw [hkey]
        exact (hknows.mayDeliver (hdeliver hskip)).append _
  · rcases Sequence.getElem?_set_cases hm' with ⟨rfl, rfl⟩ | ⟨hij, hold⟩
    · exact hknows.next hchoose hinv.stored hallow
    · exact (hinv.views j m' hold).append (Ne.symm hij)

end Step

theorem OutputInv.initial : OutputInv World.empty [] [] where
  approved := Justified.nil
  turns _ ht := absurd ht List.not_mem_nil
  stored _ hc := absurd hc List.not_mem_nil
  views _ _ hm := nomatch hm

theorem OutputInv.spawn (hinv : OutputInv w trace views)
    (hm : m.Starts) : OutputInv w trace (views ++ [m]) := by
  obtain ⟨identity, fresh, data, sessionId, connectionId, rfl⟩ := hm
  refine ⟨hinv.approved, hinv.turns, hinv.stored, fun i m' hm' => ?_⟩
  rcases Sequence.getElem?_append_cases hm' with hold | ⟨-, rfl⟩
  · exact hinv.views i m' hold
  · exact ⟨(requestOwner_buildRequest ..).symm, fun _ h => (nomatch h), fun _ h => (nomatch h),
      fun h => absurd rfl h⟩

/-- In every system of runs that resume from any stored checkpoint of their turn, each token belongs
to the candidate the last output scan of its run let through, and each final answer and each stored
turn is what an output scan of the turn made of a candidate. -/
theorem delivered_approved (cfg : Config) (lib : Lib) (env : Env)
    (choose : Nat → List Checkpoint → Option Checkpoint)
    (hchoose : ∀ n cs c, choose n cs = some c → c ∈ cs) {P : System}
    (hP : P.Reachable (handlerWith choose env) (IsChat cfg lib) (fun _ _ => True) World.empty) :
    Justified Approved P.trace ∧ ∀ t ∈ P.state.turns, Passed P.trace t.key t.finalAnswer := by
  obtain ⟨views, hinv⟩ := Pool.Reachable.monitored protocol isChat_follows OutputInv.initial
    (fun _ _ _ _ hinv hm => hinv.spawn hm)
    (fun _ _ _ _ _ _ hinv hm hallow _ => hinv.step hchoose hm hallow) hP
  exact ⟨hinv.approved, hinv.turns⟩

/-- One answer up to the 50th operation and another from then on.  The event that reports the output
scan cannot be published. -/
def restartedEnv : Env :=
  let answers := sampleEnv fun n =>
    if n < 50 then sampleAnswer ["Hello"] "Hello" else sampleAnswer ["Goodbye"] "Goodbye"
  { answers with reply := fun op n => if n = 36 then .error .timeout else answers.reply op n }

/-- A turn that fails after it delivered its answer, and its resume. -/
def restarted : System :=
  Pool.exec (handler restartedEnv) (stopAndResume "Hi" "Hi" 60 60) (.initial World.empty)

theorem delivered_approved_restarted :
    tokens 0 restarted.trace = ["Hello"] ∧ Justified Approved restarted.trace ∧
      ∀ t ∈ restarted.state.turns, Passed restarted.trace t.key t.finalAnswer :=
  ⟨by decide +kernel,
    delivered_approved sampleConfig sampleLib restartedEnv _ (fun _ _ _ => newest_mem)
      (Pool.reachable_exec _ (fun _ hp => isChat_of_mem_stopAndResume hp)
        (Pool.guarded_true _ _) .initial)⟩

/-- A turn whose model streams a line break after the answer it returns. -/
def trailingBreakEnv : Env := sampleEnv fun _ => sampleAnswer ["Hello", "\n"] "Hello"

def trailingBreak : System :=
  Pool.exec (handler trailingBreakEnv) (stopAndResume "Hi" "Hi" 60 0) (.initial World.empty)

def passedTexts (trace : Trace) : List String :=
  trace.filterMap fun x =>
    match x.2 with
    | ⟨.riskScan _ candidate .output, .ok scan⟩ => some (scanOutcome candidate scan)
    | _ => none

theorem Passed.mem_passedTexts (h : Passed trace key text) : text ∈ passedTexts trace := by
  obtain ⟨i, r, candidate, scan, hmem, -, rfl⟩ := h
  exact List.mem_filterMap.mpr ⟨_, hmem, rfl⟩

/-- The client may get white space that was not scanned, and after a restart an answer that is not
the one it got before. -/
theorem delivered_unscanned_and_superseded :
    (trailingBreak.Reachable (handler trailingBreakEnv) (IsChat sampleConfig sampleLib)
        (fun _ _ => True) World.empty ∧
      tokens 0 trailingBreak.trace = ["Hello", "\n"] ∧
      ∀ key, ¬ Passed trailingBreak.trace key "Hello\n") ∧
    (restarted.Reachable (handler restartedEnv) (IsChat sampleConfig sampleLib)
        (fun _ _ => True) World.empty ∧
      tokens 0 restarted.trace = ["Hello"] ∧ tokens 1 restarted.trace = ["Goodbye"] ∧
      restarted.state.turns.map Turn.finalAnswer = ["Goodbye"]) := by
  refine ⟨⟨?_, by decide +kernel, fun key h => ?_⟩, ?_, by decide +kernel⟩
  · exact Pool.reachable_exec _ (fun _ hp => isChat_of_mem_stopAndResume hp)
      (Pool.guarded_true _ _) .initial
  · exact absurd h.mem_passedTexts (by decide +kernel)
  · exact Pool.reachable_exec _ (fun _ hp => isChat_of_mem_stopAndResume hp)
      (Pool.guarded_true _ _) .initial

end RagForge.Rag
