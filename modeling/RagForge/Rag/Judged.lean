import RagForge.Rag.Judging

/-
Every answer that leaves a system of runs with a review was judged as it is.

A turn may crash after its answer was judged and resume from any of its checkpoints, so the
judgement may belong to another run of the turn.  A revision or an output scan that replaces the
answer leaves the review of the text it replaced.
-/

namespace RagForge.Rag

open Effect Py

/-- A judge call of the turn on exactly this text gave the review. -/
def JudgedOn (lib : Lib) (trace : Trace) (key : TurnKey) (text : String) (rv : Review) : Prop :=
  ∃ i mode j, (i, (⟨.evaluateAnswer j.request j.answer j.passages mode, .ok j.response⟩ :
      Event sig)) ∈ trace ∧
    j.request.key = key ∧ j.answer = text ∧ Judgement.Gives lib j rv

/-- What justifies an answer that is shown or stored with a review. -/
def Accounted (lib : Lib) (before : Trace) (x : Nat × Event sig) : Prop :=
  match x.2.op with
  | .publish r (.done answer _ review ..) =>
    ∃ rv, JudgedOn lib before r.key answer rv ∧ review = publicReview (some rv)
  | .saveTurn doc =>
    ∃ rv, JudgedOn lib before doc.key doc.finalAnswer rv ∧ doc.reviewId = some rv.reviewId
  | .saveAnswerReview doc =>
    ∃ turn, (x.1, (⟨.saveTurn turn, .ok ()⟩ : Event sig)) ∈ before ∧ turn.owner = doc.owner ∧
      turn.turnId = doc.turnId ∧ turn.reviewId = some doc.review.reviewId ∧
      JudgedOn lib before turn.key turn.finalAnswer doc.review
  | _ => True

/-- A completed turn returns the review and the citation figures of the answer it returns. -/
def ReturnsJudged (lib : Lib) (trace : Trace) (key : TurnKey) (result : RunResult) : Prop :=
  result.Completed → ∃ rv passages, JudgedOn lib trace key result.answer rv ∧
    result.review = publicReview (some rv) ∧
    result.citationMetrics = some (citationMetrics lib result.citations rv.claims passages)

/-- Whatever a system shows, stores or returns with a review was judged as it is. -/
def AnswersJudged (lib : Lib) (P : System) : Prop :=
  Justified (Accounted lib) P.trace ∧
    ∀ (i : Nat) result rt, P.threads[i]? = some (.ret (.ok result, rt)) →
      ReturnsJudged lib P.trace rt.request.key result

variable {lib : Lib} {trace : Trace} {text : String}

theorem JudgedOn.append {key : TurnKey} {rv : Review}
    (h : JudgedOn lib trace key text rv) (more : Trace) :
    JudgedOn lib (trace ++ more) key text rv := by
  obtain ⟨i, mode, j, hmem, hrest⟩ := h
  exact ⟨i, mode, j, List.mem_append_left more hmem, hrest⟩

/-! ## The invariant -/

/-- What a run of the system has seen is in the trace. -/
structure KnowsJudge (lib : Lib) (trace : Trace) (i : Nat) (m : JudgeView) : Prop where
  judged : ∀ j ∈ m.judged, j.request.key = m.key ∧ ∃ mode,
    (i, (⟨.evaluateAnswer j.request j.answer j.passages mode, .ok j.response⟩ : Event sig)) ∈ trace
  loaded : ∀ c, m.loaded = some c → c.stage.skipsJudge = true → ∃ rv,
    c.state.answerReview = some rv ∧ JudgedOn lib trace m.key c.state.draftAnswer.text rv
  turn : ∀ t, m.turn = some t → t.key = m.key ∧ (i, (⟨.saveTurn t, .ok ()⟩ : Event sig)) ∈ trace

structure JudgeInv (lib : Lib) (w : World) (trace : Trace) (views : List JudgeView) : Prop where
  accounted : Justified (Accounted lib) trace
  stored : ∀ c ∈ w.checkpoints, c.stage.skipsJudge = true → ∃ rv,
    c.state.answerReview = some rv ∧ JudgedOn lib trace c.key c.state.draftAnswer.text rv
  views : ∀ i m, views[i]? = some m → KnowsJudge lib trace i m

variable {op : Op} {views : List JudgeView}

section

variable {i : Nat} {m : JudgeView}

theorem KnowsJudge.append (h : KnowsJudge lib trace i m) (more : Trace) :
    KnowsJudge lib (trace ++ more) i m where
  judged j hj := by
    obtain ⟨hkey, mode, hmem⟩ := h.judged j hj
    exact ⟨hkey, mode, List.mem_append_left more hmem⟩
  loaded c hc hskips := by
    obtain ⟨rv, hreview, hjudged⟩ := h.loaded c hc hskips
    exact ⟨rv, hreview, hjudged.append more⟩
  turn t ht := ⟨(h.turn t ht).1, List.mem_append_left more (h.turn t ht).2⟩

theorem KnowsJudge.grounded (h : KnowsJudge lib trace i m)
    {review : Option Review} (hg : m.Grounded lib text review) :
    ∃ rv, review = some rv ∧ JudgedOn lib trace m.key text rv := by
  rcases hg with ⟨j, hj, rv, rfl, hanswer, hgives⟩ | ⟨c, hc, hskips, rfl, rfl⟩
  · obtain ⟨hkey, mode, hmem⟩ := h.judged j hj
    exact ⟨rv, rfl, i, mode, j, hmem, hkey, hanswer, hgives⟩
  · exact h.loaded c hc hskips

/-- Whatever the automaton allows is accounted for. -/
theorem KnowsJudge.accounts (h : KnowsJudge lib trace i m) (hallow : m.allow lib op)
    (r : Except Err op.Reply) : Accounted lib trace (i, ⟨op, r⟩) := by
  cases op
  case publish q data =>
    cases data
    case done answer sources review plan events payloads =>
      obtain ⟨hkey, rv, hrv, rfl⟩ := hallow
      obtain ⟨rv, rfl, hjudged⟩ := h.grounded hrv
      exact ⟨rv, hkey ▸ hjudged, rfl⟩
    all_goals trivial
  case saveTurn doc =>
    obtain ⟨hkey, rv, hrv, hid⟩ := hallow
    obtain ⟨rv, rfl, hjudged⟩ := h.grounded hrv
    exact ⟨rv, hkey ▸ hjudged, hid⟩
  case saveAnswerReview doc =>
    obtain ⟨turn, hturn, howner, hturnId, hreviewId, hrv⟩ := hallow
    obtain ⟨rv, hreview, hjudged⟩ := h.grounded hrv
    obtain ⟨hkey, hmem⟩ := h.turn turn hturn
    cases hreview
    exact ⟨turn, hmem, howner, hturnId, hreviewId, hkey ▸ hjudged⟩
  all_goals trivial

variable {choose : Nat → List Checkpoint → Option Checkpoint} {env : Env} {w : World}

theorem KnowsJudge.next (hchoose : ∀ n cs c, choose n cs = some c → c ∈ cs)
    (hstored : ∀ c ∈ w.checkpoints, c.stage.skipsJudge = true → ∃ rv,
      c.state.answerReview = some rv ∧ JudgedOn lib trace c.key c.state.draftAnswer.text rv)
    (h : KnowsJudge lib trace i m) (hallow : m.allow lib op) :
    KnowsJudge lib (trace ++ [(i, ⟨op, (handlerWith choose env op w).1⟩)]) i
      (m.next op (handlerWith choose env op w).1) := by
  have hlast : (i, (⟨op, (handlerWith choose env op w).1⟩ : Event sig)) ∈
      trace ++ [(i, ⟨op, (handlerWith choose env op w).1⟩)] :=
    List.mem_append_right _ (List.mem_singleton_self _)
  have hold := h.append [(i, (⟨op, (handlerWith choose env op w).1⟩ : Event sig))]
  generalize hreply : (handlerWith choose env op w).1 = reply at hlast hold ⊢
  cases op
  case evaluateAnswer r answer passages mode =>
    cases reply with
    | error e => exact hold
    | ok response =>
      refine ⟨fun j hj => ?_, hold.loaded, hold.turn⟩
      rcases List.mem_cons.mp hj with rfl | hj
      · exact ⟨hallow, mode, hlast⟩
      · exact hold.judged j hj
  case saveTurn doc =>
    cases reply with
    | error e => exact hold
    | ok u =>
      refine ⟨hold.judged, hold.loaded, fun t ht => ?_⟩
      cases ht
      exact ⟨hallow.1, hlast⟩
  case getLatestCheckpoint owner q =>
    cases reply with
    | error e => exact hold
    | ok found =>
      refine ⟨hold.judged, fun c hc hskips => ?_, hold.turn⟩
      have hevent : (⟨.getLatestCheckpoint owner q,
          (handlerWith choose env (.getLatestCheckpoint owner q) w).1⟩ : Event sig) =
          ⟨.getLatestCheckpoint owner q, .ok found⟩ := by rw [hreply]
      have hfound := (handlerWith_getLatestCheckpoint hevent).2
      have hmatch := mem_matching (hchoose _ _ _ (hfound ▸ hc))
      have hkey : c.key = m.key := by
        simp only [CheckpointData.key, hmatch.2.1, hmatch.2.2.1, hmatch.2.2.2, hallow.1,
          ← hallow.2]
        rfl
      obtain ⟨rv, hreview, hjudged⟩ := hstored c hmatch.1 hskips
      exact ⟨rv, hreview, hkey ▸ hjudged.append _⟩
  all_goals cases reply <;> exact hold

theorem JudgeInv.step
    (hchoose : ∀ n cs c, choose n cs = some c → c ∈ cs) (hinv : JudgeInv lib w trace views)
    (hm : views[i]? = some m) (hallow : m.allow lib op) :
    JudgeInv lib (handlerWith choose env op w).2
      (trace ++ [(i, ⟨op, (handlerWith choose env op w).1⟩)])
      (views.set i (m.next op (handlerWith choose env op w).1)) := by
  have hknows : KnowsJudge lib trace i m := hinv.views i m hm
  have hjust : Accounted lib trace (i, ⟨op, (handlerWith choose env op w).1⟩) :=
    hknows.accounts hallow _
  have hkept : ∀ c ∈ w.checkpoints, c.stage.skipsJudge = true → ∃ rv,
      c.state.answerReview = some rv ∧
        JudgedOn lib (trace ++ [(i, ⟨op, (handlerWith choose env op w).1⟩)]) c.key
          c.state.draftAnswer.text rv := by
    intro c hc hskips
    obtain ⟨rv, hreview, hjudged⟩ := hinv.stored c hc hskips
    exact ⟨rv, hreview, hjudged.append _⟩
  refine ⟨hinv.accounted.append hjust, fun c hc hskips => ?_, fun j m' hm' => ?_⟩
  · rcases handlerWith_checkpoints choose env op w with hsame | ⟨doc, rfl, hdoc⟩
    · exact hkept c (hsame ▸ hc) hskips
    · rcases List.mem_append.mp (hdoc ▸ hc) with hold | hnew
      · exact hkept c hold hskips
      · obtain rfl := List.mem_singleton.mp hnew
        obtain ⟨hkey, hgrounded⟩ := hallow hskips
        obtain ⟨rv, hreview, hjudged⟩ := hknows.grounded hgrounded
        refine ⟨rv, hreview, ?_⟩
        rw [hkey]
        exact hjudged.append _
  · rcases Sequence.getElem?_set_cases hm' with ⟨rfl, rfl⟩ | ⟨-, hold⟩
    · exact hknows.next hchoose hinv.stored hallow
    · exact (hinv.views j m' hold).append _

theorem JudgeInv.initial : JudgeInv lib World.empty [] [] where
  accounted := Justified.nil
  stored _ hc := absurd hc List.not_mem_nil
  views _ _ hm := nomatch hm

def JudgeView.Starts (m : JudgeView) : Prop := ∃ key, m = { key := key }

theorem JudgeInv.spawn (hinv : JudgeInv lib w trace views)
    (hm : m.Starts) : JudgeInv lib w trace (views ++ [m]) := by
  obtain ⟨key, rfl⟩ := hm
  refine ⟨hinv.accounted, hinv.stored, fun i m' hm' => ?_⟩
  rcases Sequence.getElem?_append_cases hm' with hold | ⟨-, rfl⟩
  · exact hinv.views i m' hold
  · exact ⟨fun _ hj => absurd hj List.not_mem_nil, fun _ hc => (nomatch hc),
      fun _ ht => (nomatch ht)⟩

end

theorem isChat_judging {cfg : Config} (p : Chat) (hp : IsChat cfg lib p) :
    ∃ m, m.Starts ∧ p.wp (judgingLogic lib) (Replied lib) m := by
  obtain ⟨identity, fresh, data, sessionId, connectionId, rfl⟩ := hp
  exact ⟨_, ⟨_, rfl⟩, handleQuestion_judging identity fresh data sessionId connectionId⟩

/-- In every system of runs that stores no revised candidate and whose output scans leave the
answers as they are, each answer that is shown, stored or returned with a review was judged as it
is. -/
theorem answersJudged_of_unrevised (cfg : Config) (lib : Lib) (env : Env)
    (choose : Nat → List Checkpoint → Option Checkpoint)
    (hchoose : ∀ n cs c, choose n cs = some c → c ∈ cs) {P : System}
    (hP : P.Reachable (handlerWith choose env) (IsChat cfg lib) (fun _ _ => True) World.empty)
    (hplain : ∀ x ∈ P.trace, Unrevised x.2.op x.2.reply) : AnswersJudged lib P := by
  obtain ⟨views, hinv, hfollowed⟩ := Pool.Reachable.followed (judging lib) isChat_judging
    JudgeInv.initial (fun _ _ _ _ hinv hm => hinv.spawn hm)
    (fun _ _ _ _ _ _ hinv hm hallow _ _ => hinv.step hchoose hm hallow) hP hplain
  refine ⟨hinv.accounted, fun i result rt hi hcompleted => ?_⟩
  obtain ⟨m, hm, hkey, hreturns⟩ := hfollowed.monitor hi
  obtain ⟨rv, passages, hrv, hreview, hmetrics⟩ := hreturns result rfl hcompleted
  obtain ⟨rv, rfl, hjudged⟩ := (hinv.views i m hm).grounded hrv
  exact ⟨rv, passages, hkey ▸ hjudged, hreview, hmetrics⟩

/-! ## A turn that is judged, stopped and resumed -/

def judgedTexts (trace : Trace) : List String :=
  trace.filterMap fun x =>
    match x.2 with
    | ⟨.evaluateAnswer _ answer _ _, .ok _⟩ => some answer
    | _ => none

def returnedAnswers (P : System) : List String :=
  P.threads.filterMap fun p =>
    match p with
    | .ret (.ok result, _) =>
      if result.error.isNone ∧ result.endedByInputBlock = false then some result.answer else none
    | _ => none

theorem AnswersJudged.mem_judgedTexts {P : System} (h : AnswersJudged lib P)
    (answer : String) (ha : answer ∈ returnedAnswers P) : answer ∈ judgedTexts P.trace := by
  obtain ⟨p, hp, hanswer⟩ := List.mem_filterMap.mp ha
  obtain ⟨i, hi⟩ := List.mem_iff_getElem?.mp hp
  split at hanswer
  · next result rt =>
    split at hanswer
    · next hcompleted =>
      cases hanswer
      obtain ⟨rv, passages, hjudged, -⟩ :=
        h.2 i result rt hi ⟨Option.isNone_iff_eq_none.mp hcompleted.1, hcompleted.2⟩
      obtain ⟨k, mode, j, hmem, -, hj, -⟩ := hjudged
      exact List.mem_filterMap.mpr ⟨_, hmem, congrArg some hj⟩
    · exact nomatch hanswer
  · exact nomatch hanswer

def stoppedAfterJudge : System :=
  Pool.exec (handler (sampleEnv fun _ => sampleAnswer ["Hello"] "Hello"))
    (stopAndResume "Hi" "Hi" 34 60) (.initial World.empty)

theorem answersJudged_stoppedAfterJudge :
    returnedAnswers stoppedAfterJudge = ["Hello"] ∧
      judgedTexts stoppedAfterJudge.trace = ["Hello"] ∧ AnswersJudged sampleLib stoppedAfterJudge :=
  ⟨by decide +kernel, by decide +kernel,
    answersJudged_of_unrevised sampleConfig sampleLib _ _ (fun _ _ _ => newest_mem)
      (Pool.reachable_exec _ (fun _ hp => isChat_of_mem_stopAndResume hp)
        (Pool.guarded_true _ _) .initial)
      (List.all_eq_true.mp (show stoppedAfterJudge.trace.all
        (fun x => keepsAnswer x.2.op x.2.reply) = true by decide +kernel))⟩

def extendedTurn (env : Env) : System :=
  Pool.exec (handler env)
    (.spawn (handleQuestion sampleConfig sampleLib sampleIdentity ⟨"", "", "", "", ""⟩
      { sampleData "Hi" false with mode := some "extended" } none none) ::
      List.replicate 120 (.act 0)) (.initial World.empty)

theorem reachable_extendedTurn (env : Env) :
    (extendedTurn env).Reachable (handler env) (IsChat sampleConfig sampleLib) (fun _ _ => True)
      World.empty := by
  refine Pool.reachable_exec _ (fun p hp => ?_) (Pool.guarded_true _ _) .initial
  have hspawn : p = handleQuestion sampleConfig sampleLib sampleIdentity ⟨"", "", "", "", ""⟩
      { sampleData "Hi" false with mode := some "extended" } none none := by simpa using hp
  exact ⟨_, _, _, _, _, hspawn⟩

def revisingEnv : Env where
  reply op n :=
    match op with
    | .evaluateAnswer .. => .ok (Json.obj [("should_revise", .bool true)])
    | op => sampleReply (if n < 40 then sampleAnswer ["Draft"] "Draft"
        else sampleAnswer ["Final"] "Final") op
  clock n := n
  fault _ := none

def replacingEnv : Env where
  reply op _ :=
    match op with
    | .riskScan _ _ .output =>
      .ok (Json.obj [("blocked", .bool true), ("safe_output", .str "Withheld")])
    | op => sampleReply (sampleAnswer ["Hello"] "Hello") op
  clock n := n
  fault _ := none

/-- A revised answer goes out with the review of its draft, and the text that replaces a blocked
answer with the review of the answer it replaces. -/
theorem revised_and_replaced_not_judged :
    ((extendedTurn revisingEnv).Reachable (handler revisingEnv) (IsChat sampleConfig sampleLib)
        (fun _ _ => True) World.empty ∧
      returnedAnswers (extendedTurn revisingEnv) = ["Final"] ∧
      judgedTexts (extendedTurn revisingEnv).trace = ["Draft"] ∧
      ¬ AnswersJudged sampleLib (extendedTurn revisingEnv)) ∧
    ((extendedTurn replacingEnv).Reachable (handler replacingEnv) (IsChat sampleConfig sampleLib)
        (fun _ _ => True) World.empty ∧
      returnedAnswers (extendedTurn replacingEnv) = ["Withheld"] ∧
      judgedTexts (extendedTurn replacingEnv).trace = ["Hello"] ∧
      ¬ AnswersJudged sampleLib (extendedTurn replacingEnv)) := by
  have hrevised : returnedAnswers (extendedTurn revisingEnv) = ["Final"] ∧
      judgedTexts (extendedTurn revisingEnv).trace = ["Draft"] := by decide +kernel
  have hreplaced : returnedAnswers (extendedTurn replacingEnv) = ["Withheld"] ∧
      judgedTexts (extendedTurn replacingEnv).trace = ["Hello"] := by decide +kernel
  refine ⟨⟨reachable_extendedTurn _, hrevised.1, hrevised.2, fun h => ?_⟩,
    reachable_extendedTurn _, hreplaced.1, hreplaced.2, fun h => ?_⟩
  · have hmem := h.mem_judgedTexts "Final" (by rw [hrevised.1]; exact .head _)
    rw [hrevised.2] at hmem
    exact absurd hmem (by decide)
  · have hmem := h.mem_judgedTexts "Withheld" (by rw [hreplaced.1]; exact .head _)
    rw [hreplaced.2] at hmem
    exact absurd hmem (by decide)

end RagForge.Rag
