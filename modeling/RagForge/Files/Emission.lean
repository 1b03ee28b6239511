import RagForge.Files.DecisionOnce
import RagForge.Files.Requests

/-
When an embedding job is sent.

A history is a sequence of requests that all returned: uploads, extraction results and review
decisions, in any order and any number of times.  `Phase` says how far a task has come in such a
history.  A job is sent only by the step that ends a task, so it is sent once, and the phase before
that step says what justifies it.
-/

namespace RagForge.Files

open Effect Store Py

/-! ## Histories -/

inductive Request
  | start (u : Upload)
  | complete (fileId : String) (taskId : Option String) (e : Extraction)
  | decide (fileId reviewCaseId : String) (p : DecisionPayload)

def Request.code (cfg : Config) : Request → FilesM Unit
  | .start u => do
      let _ ← handleStartFileIngestion cfg u
      return ()
  | .complete fileId taskId e => do
      let _ ← handleCompleteExtraction cfg fileId taskId e
      return ()
  | .decide fileId reviewCaseId p => do
      let _ ← handleSubmitReviewDecision cfg fileId reviewCaseId p
      return ()

/-- A request that returned, with the worlds before and after it. -/
structure Entry where
  who : Identity
  request : Request
  before : World
  after : World

/-- The requests of the history ran one after the other from `w₀`, and none of them raised. -/
inductive History (cfg : Config) (env : Env) (w₀ : World) : List Entry → World → Prop
  | nil : History cfg env w₀ [] w₀
  | snoc {hist : List Entry} {w w' : World} {who who' : Identity} {request : Request}
      (h : History cfg env w₀ hist w)
      (hrun : (request.code cfg).run (handler env) who w = (.ok (), who', w')) :
      History cfg env w₀ (hist ++ [⟨who, request, w, w'⟩]) w'

def Entry.sent (x : Entry) : List (String × Message) := x.after.sent.drop x.before.sent.length

def Entry.jobs (x : Entry) : List EmbeddingJob :=
  x.sent.filterMap fun m =>
    match m.2 with
    | .processEmbeddingJob job => some job
    | _ => none

def Entry.announces (x : Entry) (t : DocKey) : Bool :=
  x.sent.any fun m =>
    match m.2 with
    | .chunkingCompleted _ _ taskId _ _ _ => m.1 == t.tenantId && taskId == t.id
    | _ => false

def Entry.emits (x : Entry) (t : DocKey) : Bool := !x.jobs.isEmpty && x.announces t

def Entry.Completes (x : Entry) (t : DocKey) (e : Extraction) : Prop :=
  ∃ fileId given, x.request = .complete fileId given e ∧
    t = x.who.key (completedTask x.who x.before fileId given)

/-! ## What one request does -/

inductive Outcome (cfg : Config) (env : Env) (who : Identity) (w : World) :
    Request → World → Prop
  | idle {request : Request} {w' : World} (h : SameCore w w') : Outcome cfg env who w request w'
  | started {u : Upload} {w' : World} (h : StartDone who w w') :
      Outcome cfg env who w (.start u) w'
  | completed {fileId : String} {given : Option String} {e : Extraction} {w' : World}
      (h : CompletionDone cfg env who (completedTask who w fileId given) e w w') :
      Outcome cfg env who w (.complete fileId given e) w'
  | decided {fileId reviewCaseId : String} {p : DecisionPayload} {w' : World}
      (h : SubmissionDone cfg who reviewCaseId p w w') :
      Outcome cfg env who w (.decide fileId reviewCaseId p) w'

theorem Request.returns (cfg : Config) (env : Env) (who : Identity) (w : World)
    (request : Request) :
    Returns env (request.code cfg) (fun _ w' => Outcome cfg env who w request w') who w := by
  cases request with
  | start u =>
    refine (handleStartFileIngestion_returns cfg u).bind ?_
    intro _ w' h
    exact .pure (.started h)
  | complete fileId given e =>
    refine (handleCompleteExtraction_returns cfg fileId given e).bind ?_
    intro _ w' h
    exact .pure (.completed h)
  | decide fileId reviewCaseId p =>
    refine (handleSubmitReviewDecision_returns cfg fileId reviewCaseId p).bind ?_
    intro _ w' h
    rcases h with hsame | hdone
    · exact .pure (.idle hsame)
    · exact .pure (.decided hdone)

variable {cfg : Config} {env : Env} {hist : List Entry} {w w' : World} {who who' : Identity}
  {x : Entry} {row : Row ReviewCase} {request : Request} {chunks : List Chunk} {plan : ChunkPlan}
  {target : Target} {jobId : String} {messages : List Message}

theorem outcome_of_run
    (hrun : (request.code cfg).run (handler env) who w = (.ok (), who', w')) :
    Outcome cfg env who w request w' := by
  have h := (Proc.wp_logic_iff _ _ _ _ _).mp (Request.returns cfg env who w request).wp
  rw [hrun] at h
  exact (h.2 () rfl).2

/-! ## Messages of a request -/

theorem Entry.sent_eq {tagged : List (String × Message)}
    (h : x.after.sent = x.before.sent ++ tagged) : x.sent = tagged := by
  unfold Entry.sent
  rw [h, List.drop_left]

theorem Entry.jobs_eq_nil (h : x.after.sent = x.before.sent ++
    messages.map fun m => (who.tenantId, m)) (hjob : messages.filter Message.isJob = []) :
    x.jobs = [] := by
  unfold Entry.jobs
  rw [Entry.sent_eq h, List.filterMap_map, List.filterMap_eq_nil_iff]
  intro m hm
  have hnot := List.filter_eq_nil_iff.mp hjob m hm
  cases m with
  | processEmbeddingJob job => exact absurd rfl hnot
  | _ => rfl

theorem Entry.emits_eq_false (h : x.jobs = []) (t : DocKey) : x.emits t = false := by
  unfold Entry.emits
  rw [h]
  rfl

theorem Entry.emits_chunking (h : x.after.sent = x.before.sent ++
      (chunkingMessages target plan jobId chunks).map fun m => (who.tenantId, m)) (t : DocKey) :
    x.jobs = [⟨jobId, target.fileId, target.document, chunks⟩] ∧
      (x.emits t = true ↔ t = who.key target.taskId) := by
  have hsent := Entry.sent_eq h
  have hjobs : x.jobs = [⟨jobId, target.fileId, target.document, chunks⟩] := by
    unfold Entry.jobs
    rw [hsent]
    rfl
  refine ⟨hjobs, ?_⟩
  unfold Entry.emits Entry.announces
  rw [hjobs, hsent]
  obtain ⟨tenant, id⟩ := t
  simp only [chunkingMessages, List.map_cons, List.map_nil, List.any_cons, List.any_nil,
    Identity.key, List.isEmpty_cons, Bool.not_false, Bool.true_and, Bool.or_false,
    Bool.and_eq_true, beq_iff_eq, DocKey.mk.injEq]
  exact ⟨fun h => ⟨h.1.symm, h.2.symm⟩, fun h => ⟨h.1.symm, h.2.symm⟩⟩

/-! ## How far a task has come -/

def CaseOf (t k : DocKey) (r : Row ReviewCase) : Prop :=
  k.tenantId = t.tenantId ∧ r.doc.taskId = t.id

def DecisionOf (t k : DocKey) (d : Row Decision) : Prop :=
  k.tenantId = t.tenantId ∧ d.doc.taskId = t.id

/-- No decision was recorded and no job sent for the task. -/
structure Undecided (hist : List Entry) (w : World) (t : DocKey) : Prop where
  decisions : ∀ k d, w.decisions.lookup k = some d → ¬ DecisionOf t k d
  emits : ∀ x ∈ hist, x.emits t = false

inductive Phase (cfg : Config) (hist : List Entry) (w : World) (t : DocKey) (task : TaskDoc) :
    Prop
  /-- The extraction result has not come. -/
  | waiting (hnode : task.currentNode = .loadExtractionResult)
      (hcase : ∀ k r, w.cases.lookup k = some r → ¬ CaseOf t k r)
      (hundecided : Undecided hist w t)
  /-- The task waits for the decision about its one case. -/
  | paused (e : Extraction) (c : DocKey) (row : Row ReviewCase) (hash : String)
      (hnode : task.currentNode = .awaitHumanReview)
      (hcompleted : ∃ x ∈ hist, x.Completes t e) (hreview : needsReview cfg e = true)
      (htext : task.graphState.extractedText = some e.text)
      (hlookup : w.cases.lookup c = some row) (hcase : CaseOf t c row)
      (htoken : row.doc.interrupt.resumeTokenHash = some hash)
      (htask : task.resumeTokenHash = some hash)
      (honly : ∀ k r, w.cases.lookup k = some r → CaseOf t k r → k = c)
      (hundecided : Undecided hist w t)
  /-- The task has ended. -/
  | finished (hnode : task.currentNode = .finalize)
      (hclosed : ∀ k r, w.cases.lookup k = some r → CaseOf t k r → r.doc.status ≠ .isOpen)

structure Agree (t : DocKey) (w w' : World) : Prop where
  cases : ∀ k r, CaseOf t k r → (w'.cases.lookup k = some r ↔ w.cases.lookup k = some r)
  decisions : ∀ k d, DecisionOf t k d →
    (w'.decisions.lookup k = some d ↔ w.decisions.lookup k = some d)

theorem Agree.of_eq (hcases : w'.cases = w.cases)
    (hdecisions : w'.decisions = w.decisions) (t : DocKey) : Agree t w w' :=
  ⟨fun k r _ => by rw [hcases], fun k d _ => by rw [hdecisions]⟩

section Transfer

variable {t : DocKey} {task : TaskDoc}

theorem Undecided.transfer (h : Undecided hist w t) (hagree : Agree t w w')
    (hx : x.emits t = false) : Undecided (hist ++ [x]) w' t where
  decisions k d hd hof := h.decisions k d ((hagree.decisions k d hof).mp hd) hof
  emits y hy := by
    rcases List.mem_append.mp hy with hold | hnew
    · exact h.emits y hold
    · rw [List.mem_singleton.mp hnew]
      exact hx

theorem Phase.transfer (h : Phase cfg hist w t task) (hagree : Agree t w w')
    (hx : x.emits t = false) : Phase cfg (hist ++ [x]) w' t task := by
  cases h with
  | waiting hnode hcase hundecided =>
    refine .waiting hnode ?_ (hundecided.transfer hagree hx)
    intro k r hr hof
    exact hcase k r ((hagree.cases k r hof).mp hr) hof
  | paused e c row hash hnode hcompleted hreview htext hlookup hcase htoken htask honly
      hundecided =>
      obtain ⟨y, hy, hcompletes⟩ := hcompleted
      refine .paused e c row hash hnode ⟨y, List.mem_append_left _ hy, hcompletes⟩ hreview htext
        ((hagree.cases c row hcase).mpr hlookup) hcase htoken htask ?_
        (hundecided.transfer hagree hx)
      intro k r hr hof
      exact honly k r ((hagree.cases k r hof).mp hr) hof
  | finished hnode hclosed =>
    refine .finished hnode ?_
    intro k r hr hof
    exact hclosed k r ((hagree.cases k r hof).mp hr) hof

theorem Phase.of_load (h : Phase cfg hist w t task)
    (hnode : task.currentNode = .loadExtractionResult) :
    (∀ k r, w.cases.lookup k = some r → ¬ CaseOf t k r) ∧ Undecided hist w t := by
  cases h with
  | waiting _ hcase hundecided => exact ⟨hcase, hundecided⟩
  | paused e c row hash hother | finished hother =>
    rw [hnode] at hother
    cases hother

end Transfer

/-! ## The invariant of a history -/

/-- No two draws give resume tokens with one hash. -/
abbrev TokensDiffer (cfg : Config) (env : Env) : Prop :=
  Function.Injective fun n => cfg.hashText (env.newToken n)

/-- What is known of the cases in the store. -/
structure CaseTokens (cfg : Config) (env : Env) (w : World) : Prop where
  /-- No two cases have the same resume token. -/
  tokens : ∀ k k' r r' hash, w.cases.lookup k = some r → w.cases.lookup k' = some r' →
    r.doc.interrupt.resumeTokenHash = some hash →
    r'.doc.interrupt.resumeTokenHash = some hash → k = k'
  /-- The resume tokens were drawn. -/
  drawn : ∀ k r hash, w.cases.lookup k = some r →
    r.doc.interrupt.resumeTokenHash = some hash →
    ∃ n, n < w.drawn ∧ hash = cfg.hashText (env.newToken n)
  allowed : ∀ k r, w.cases.lookup k = some r → r.doc.allowedActions = allowedActions

structure IngestInv (cfg : Config) (env : Env) (hist : List Entry) (w : World) : Prop
    extends CaseTokens cfg env w where
  /-- Nothing is known of a task that does not exist. -/
  absent : ∀ t, w.tasks.lookup t = none →
    (∀ k r, w.cases.lookup k = some r → ¬ CaseOf t k r) ∧ Undecided hist w t
  phases : ∀ t r, w.tasks.lookup t = some r → Phase cfg hist w t r.doc

namespace CaseTokens

variable {c : DocKey}

theorem of_eq (h : CaseTokens cfg env w) (hcases : w'.cases = w.cases)
    (hle : w.drawn ≤ w'.drawn) : CaseTokens cfg env w' := by
  refine ⟨hcases ▸ h.tokens, ?_, hcases ▸ h.allowed⟩
  intro k r hash hr htoken
  rw [hcases] at hr
  obtain ⟨n, hn, hhash⟩ := h.drawn k r hash hr htoken
  exact ⟨n, Nat.lt_of_lt_of_le hn hle, hhash⟩

theorem opened (htoken : TokensDiffer cfg env) (h : CaseTokens cfg env w) {hash : String}
    (hcases : w'.cases = w.cases.insert c row)
    (hhash : row.doc.interrupt.resumeTokenHash = some hash) (hdrawn : Drawn cfg env w w' hash)
    (hallowed : row.doc.allowedActions = allowedActions) : CaseTokens cfg env w' := by
  obtain ⟨n, hle, hlt, rfl⟩ := hdrawn
  have hcase : ∀ {k r}, w'.cases.lookup k = some r →
      (k = c ∧ r = row) ∨ (k ≠ c ∧ w.cases.lookup k = some r) := by
    rw [hcases]
    exact Table.lookup_cases (AList.lookup_insert _) fun _ => AList.lookup_insert_ne
  -- An old case with the new token would have drawn it before.
  have hnew : ∀ k r, w.cases.lookup k = some r →
      r.doc.interrupt.resumeTokenHash ≠ some (cfg.hashText (env.newToken n)) := by
    intro k r hr heq
    obtain ⟨m, hm, hsame⟩ := h.drawn k r _ hr heq
    have hnm : n = m := htoken hsame
    omega
  refine ⟨?_, ?_, ?_⟩
  · intro k k' r r' hash hr hr' hk hk'
    rcases hcase hr with ⟨hkc, rfl⟩ | ⟨-, hr⟩
    · rcases hcase hr' with ⟨hkc', -⟩ | ⟨-, hr'⟩
      · rw [hkc, hkc']
      · exact absurd (hk'.trans (hk.symm.trans hhash)) (hnew k' r' hr')
    · rcases hcase hr' with ⟨-, rfl⟩ | ⟨-, hr'⟩
      · exact absurd (hk.trans (hk'.symm.trans hhash)) (hnew k r hr)
      · exact h.tokens k k' r r' hash hr hr' hk hk'
  · intro k r hash hr hk
    rcases hcase hr with ⟨-, rfl⟩ | ⟨-, hr⟩
    · exact ⟨n, hlt, Option.some.inj (hk.symm.trans hhash)⟩
    · obtain ⟨m, hm, hsame⟩ := h.drawn k r hash hr hk
      exact ⟨m, by omega, hsame⟩
  · intro k r hr
    rcases hcase hr with ⟨-, rfl⟩ | ⟨-, hr⟩
    · exact hallowed
    · exact h.allowed k r hr

theorem resolved (h : CaseTokens cfg env w) {row' : Row ReviewCase}
    (hother : ∀ k, k ≠ c → w'.cases.lookup k = w.cases.lookup k)
    (hlookup : w.cases.lookup c = some row) (hself : w'.cases.lookup c = some row')
    (hnone : row'.doc.interrupt.resumeTokenHash = none)
    (hallowed : row'.doc.allowedActions = row.doc.allowedActions) (hle : w.drawn ≤ w'.drawn) :
    CaseTokens cfg env w' := by
  have hold : ∀ k r hash, w'.cases.lookup k = some r →
      r.doc.interrupt.resumeTokenHash = some hash → w.cases.lookup k = some r := by
    intro k r hash hr hk
    rcases Table.lookup_cases hself hother hr with ⟨-, rfl⟩ | ⟨-, hr⟩
    · rw [hnone] at hk
      cases hk
    · exact hr
  refine ⟨?_, ?_, ?_⟩
  · intro k k' r r' hash hr hr' hk hk'
    exact h.tokens k k' r r' hash (hold k r hash hr hk) (hold k' r' hash hr' hk') hk hk'
  · intro k r hash hr hk
    obtain ⟨n, hn, hhash⟩ := h.drawn k r hash (hold k r hash hr hk) hk
    exact ⟨n, by omega, hhash⟩
  · intro k r hr
    rcases Table.lookup_cases hself hother hr with ⟨-, rfl⟩ | ⟨-, hr⟩
    · rw [hallowed]
      exact h.allowed c row hlookup
    · exact h.allowed k r hr

end CaseTokens

namespace IngestInv

theorem others (h : IngestInv cfg env hist w) {p : DocKey → Prop}
    (hcases : CaseTokens cfg env w')
    (htasks : ∀ t, ¬ p t → w'.tasks.lookup t = w.tasks.lookup t)
    (hagree : ∀ t, ¬ p t → Agree t w w') (hx : ∀ t, ¬ p t → x.emits t = false)
    (hown : ∀ t, p t → ∃ r, w'.tasks.lookup t = some r ∧ Phase cfg (hist ++ [x]) w' t r.doc) :
    IngestInv cfg env (hist ++ [x]) w' := by
  refine ⟨hcases, ?_, ?_⟩
  · intro t hnone
    have hp : ¬ p t := by
      intro hp
      obtain ⟨r, hr, -⟩ := hown t hp
      rw [hr] at hnone
      cases hnone
    rw [htasks t hp] at hnone
    obtain ⟨hcase, hundecided⟩ := h.absent t hnone
    refine ⟨?_, hundecided.transfer (hagree t hp) (hx t hp)⟩
    intro k r hr hof
    exact hcase k r (((hagree t hp).cases k r hof).mp hr) hof
  · intro t r hr
    by_cases hp : p t
    · obtain ⟨r', hr', hphase⟩ := hown t hp
      obtain rfl := Option.some.inj (hr.symm.trans hr')
      exact hphase
    · rw [htasks t hp] at hr
      exact (h.phases t r hr).transfer (hagree t hp) (hx t hp)

theorem initial : IngestInv cfg env [] World.empty where
  tokens k k' r r' hash hr := absurd hr (by simp [World.empty])
  drawn k r hash hr := absurd hr (by simp [World.empty])
  allowed k r hr := absurd hr (by simp [World.empty])
  absent t _ := ⟨fun k r hr => absurd hr (by simp [World.empty]),
    ⟨fun k d hd => absurd hd (by simp [World.empty]), fun x hx => absurd hx (by simp)⟩⟩
  phases t r hr := absurd hr (by simp [World.empty])

theorem idle (h : IngestInv cfg env hist w) (hsame : SameCore w w')
    (hx : ∀ t, x.emits t = false) : IngestInv cfg env (hist ++ [x]) w' := by
  have hagree := Agree.of_eq hsame.cases hsame.decisions
  exact h.others (p := fun _ => False) (h.toCaseTokens.of_eq hsame.cases hsame.drawn)
    (fun t _ => by rw [hsame.tasks]) (fun t _ => hagree t) (fun t _ => hx t) nofun

theorem started (h : IngestInv cfg env hist w) (hdone : StartDone who w w')
    (hx : ∀ t, x.emits t = false) : IngestInv cfg env (hist ++ [x]) w' := by
  obtain ⟨taskId, row, messages, hfresh, htasks, hnode, hcases, hdecisions, hle, -, -⟩ :=
    hdone.done
  have hagree := Agree.of_eq hcases hdecisions
  obtain ⟨hcase, hundecided⟩ := h.absent (who.key taskId) (AList.lookup_eq_none.mpr hfresh)
  have hlookup : w'.tasks.lookup (who.key taskId) = some row := by
    rw [htasks]
    exact AList.lookup_insert _
  refine h.others (p := (· = who.key taskId)) (h.toCaseTokens.of_eq hcases hle)
    (fun k hk => by rw [htasks]; exact AList.lookup_insert_ne hk) (fun t _ => hagree t)
    (fun t _ => hx t) ?_
  intro t ht
  rw [ht]
  refine ⟨row, hlookup, .waiting hnode ?_ (hundecided.transfer (hagree _) (hx _))⟩
  rw [hcases]
  exact hcase

end IngestInv

/-! ## Requests and the jobs they send -/

inductive Source (cfg : Config) (earlier : List Entry) (x : Entry) (t : DocKey)
    (chunks : List Chunk) : Prop
  /-- The detector found nothing at or above its threshold. -/
  | clean (e : Extraction) (hcompletes : x.Completes t e) (hreview : needsReview cfg e = false)
      (hcut : CutFrom cfg e.text chunks)
  /-- An acceptance or a redaction was recorded for the case of the task. -/
  | reviewed (e : Extraction) (k : DocKey) (r : Row ReviewCase) (d : Row Decision)
      (hcompletes : ∃ y ∈ earlier, y.Completes t e) (hreview : needsReview cfg e = true)
      (hcase : x.after.cases.lookup k = some r) (hcaseOf : CaseOf t k r)
      (hdecision : x.after.decisions.lookup k = some d) (hdecisionOf : DecisionOf t k d)
      (hcut : d.doc.decision = .acceptAsIs ∧ CutFrom cfg e.text chunks ∨
        d.doc.decision = .removeProblematicText ∧ ∃ sanitized,
          redact e.text d.doc.submittedPatchMap = .ok sanitized ∧ CutFrom cfg sanitized chunks)

/-- What justifies a job of request `x` for the task `t`. -/
structure Justification (cfg : Config) (earlier : List Entry) (x : Entry) (t : DocKey) :
    Prop where
  single : x.jobs.length = 1
  once : ∀ y ∈ earlier, y.emits t = false
  undeleted : ∀ k d, x.after.decisions.lookup k = some d → DecisionOf t k d →
    d.doc.decision ≠ .deleteFile
  settled : ∀ k r, x.after.cases.lookup k = some r → CaseOf t k r → r.doc.status ≠ .isOpen
  source : ∀ job ∈ x.jobs, Source cfg earlier x t job.chunks

/-- Every job of request `x` is for a task, and is justified for it. -/
structure JobsJustified (cfg : Config) (earlier : List Entry) (x : Entry) : Prop where
  owned : x.jobs ≠ [] → ∃ t, x.emits t = true
  justified : ∀ t, x.emits t = true → Justification cfg earlier x t

structure JobsFor (cfg : Config) (earlier : List Entry) (x : Entry) (t : DocKey) : Prop where
  owned : x.jobs ≠ [] → x.emits t = true
  justified : ∀ t', x.emits t' = true → t' = t ∧ Justification cfg earlier x t

structure Keeps (cfg : Config) (env : Env) (hist : List Entry) (x : Entry) : Prop where
  inv : IngestInv cfg env (hist ++ [x]) x.after
  jobs : JobsJustified cfg hist x

abbrev Closed (w : World) (t : DocKey) : Prop :=
  ∀ k r, w.cases.lookup k = some r → CaseOf t k r → r.doc.status ≠ .isOpen

abbrev Undeleted (w : World) (t : DocKey) : Prop :=
  ∀ k d, w.decisions.lookup k = some d → DecisionOf t k d → d.doc.decision ≠ .deleteFile

section Steps

variable {e : Extraction} {given : Option String}
  {fileId taskId reviewCaseId : String} {p : DecisionPayload} {w₁ : World}

theorem JobsJustified.of_nil (hx : x.jobs = []) : JobsJustified cfg hist x :=
  ⟨fun hne => absurd hx hne, fun t ht => absurd ht (by rw [Entry.emits_eq_false hx]; simp)⟩

theorem JobsFor.of_nil (hx : x.jobs = []) (t : DocKey) : JobsFor cfg hist x t :=
  ⟨fun hne => absurd hx hne, fun t' ht => absurd ht (by rw [Entry.emits_eq_false hx]; simp)⟩

theorem Keeps.of_finished {t : DocKey} {r : Row TaskDoc} (h : IngestInv cfg env hist x.before)
    (hcases : CaseTokens cfg env x.after)
    (htasks : ∀ k, k ≠ t → x.after.tasks.lookup k = x.before.tasks.lookup k)
    (hr : x.after.tasks.lookup t = some r) (hfinal : r.doc.currentNode = .finalize)
    (hagree : ∀ t', t' ≠ t → Agree t' x.before x.after)
    (hclosed : Closed x.after t)
    (hjobs : JobsFor cfg hist x t) : Keeps cfg env hist x := by
  have hinv := h.others (p := (· = t)) hcases htasks hagree
    (fun t' hne => by
      rw [← Bool.not_eq_true]
      exact fun hx => hne (hjobs.justified t' hx).1)
    (fun t' ht => by rw [ht]; exact ⟨r, hr, .finished hfinal hclosed⟩)
  refine ⟨hinv, fun hne => ⟨t, hjobs.owned hne⟩, ?_⟩
  intro t' ht'
  obtain ⟨rfl, hjust⟩ := hjobs.justified t' ht'
  exact hjust

theorem JobsFor.of_chunking {t : DocKey} (hsent : x.after.sent = x.before.sent ++
      (chunkingMessages target plan jobId chunks).map fun m => (who.tenantId, m))
    (htarget : who.key target.taskId = t) (honce : ∀ y ∈ hist, y.emits t = false)
    (hundeleted : Undeleted x.after t) (hsettled : Closed x.after t)
    (hsource : Source cfg hist x t chunks) : JobsFor cfg hist x t := by
  refine ⟨fun _ => (Entry.emits_chunking hsent t).2.mpr htarget.symm, ?_⟩
  intro t' ht'
  obtain ⟨hjobs, hemits⟩ := Entry.emits_chunking hsent t'
  refine ⟨(hemits.mp ht').trans htarget, by rw [hjobs]; rfl, honce, hundeleted, hsettled, ?_⟩
  intro job hmem
  rw [hjobs, List.mem_singleton] at hmem
  rw [hmem]
  exact hsource

theorem Finished.lookup {token : Option String} (h : Finished who taskId token w) :
    ∃ r, w.tasks.lookup (who.key taskId) = some r ∧ r.doc.currentNode = .finalize := by
  obtain ⟨task, ⟨r, n, hfind, hdoc⟩, hnode, -⟩ := h
  refine ⟨r, (Table.find_eq_some_iff.mp hfind).1, ?_⟩
  rw [hdoc]
  exact hnode

theorem CaseOf.unique {t t' k : DocKey} {r r' : Row ReviewCase} (h : CaseOf t k r)
    (h' : CaseOf t' k r') (htask : r'.doc.taskId = r.doc.taskId) : t' = t := by
  obtain ⟨tenant, id⟩ := t
  obtain ⟨tenant', id'⟩ := t'
  obtain ⟨rfl, rfl⟩ := h
  obtain ⟨rfl, rfl⟩ := h'
  rw [htask]

section Completed

variable (htask : taskId = completedTask who w fileId given) (h : IngestInv cfg env hist w)
  (htouch : Touches (who.key taskId) (· ∉ w.cases) w w₁)
  (hnocase : ∀ k r, w.cases.lookup k = some r → ¬ CaseOf (who.key taskId) k r)
  (hundecided : Undecided hist w (who.key taskId)) (hpub : Published who messages w₁ w')

include htask h htouch hnocase hundecided hpub

theorem keeps_clean (hreview : needsReview cfg e = false)
    (hfinished : ∃ token, Finished who taskId token w₁) (hcases : w₁.cases = w.cases)
    (hdecisions : w₁.decisions = w.decisions) (hjob : ∃ x plan jobId chunks, x.taskId = taskId ∧
      CutFrom cfg e.text chunks ∧ messages = chunkingMessages x plan jobId chunks) :
    Keeps cfg env hist ⟨who, .complete fileId given e, w, w'⟩ := by
  obtain ⟨token, hfinished⟩ := hfinished
  obtain ⟨target, plan, jobId, chunks, htarget, hcut, rfl⟩ := hjob
  have hcases' : w'.cases = w.cases := hpub.cases.trans hcases
  have hdecisions' : w'.decisions = w.decisions := hpub.decisions.trans hdecisions
  obtain ⟨r, hr, hfinal⟩ := hfinished.lookup
  rw [← hpub.tasks] at hr
  have hclosed : Closed w' (who.key taskId) := by
    intro k r hr hof
    rw [hcases'] at hr
    exact absurd hof (hnocase k r hr)
  have hundeleted : Undeleted w' (who.key taskId) := by
    intro k d hd hof
    rw [hdecisions'] at hd
    exact absurd hof (hundecided.decisions k d hd)
  refine .of_finished h
    (h.toCaseTokens.of_eq hcases' (Nat.le_trans htouch.drawn hpub.drawn))
    (fun k hk => by rw [hpub.tasks]; exact htouch.tasks k hk) hr hfinal
    (fun t' _ => .of_eq hcases' hdecisions' t') hclosed ?_
  exact .of_chunking (by rw [hpub.sent, htouch.sent]) (by rw [htarget]) hundecided.emits
    hundeleted hclosed (.clean e ⟨fileId, given, rfl, by rw [htask]⟩ hreview hcut)

theorem keeps_paused (htoken : TokensDiffer cfg env) (hreview : needsReview cfg e = true)
    (hpaused : Paused cfg env who taskId (some e.text) w w₁)
    (hjob : messages.filter Message.isJob = []) :
    Keeps cfg env hist ⟨who, .complete fileId given e, w, w'⟩ := by
  obtain ⟨⟨caseId, row, hash, hfresh, hinsert, htaskId, -, hallowed, hhash, hdrawn, task, hold,
    hnode, htext, htokens⟩, hdecisions⟩ := hpaused
  obtain ⟨stored, n, hfind, hdoc⟩ := hold
  have hlookup := (Table.find_eq_some_iff.mp hfind).1
  rw [← hpub.tasks] at hlookup
  have hcases' : w'.cases = w.cases.insert (who.key caseId) row := hpub.cases.trans hinsert
  have hdecisions' : w'.decisions = w.decisions := hpub.decisions.trans hdecisions
  have hself : w'.cases.lookup (who.key caseId) = some row := by
    rw [hcases', AList.lookup_insert]
  have hother : ∀ k, k ≠ who.key caseId → w'.cases.lookup k = w.cases.lookup k := by
    intro k hk
    rw [hcases', AList.lookup_insert_ne hk]
  have hof : CaseOf (who.key taskId) (who.key caseId) row := ⟨rfl, htaskId⟩
  have hnil := Entry.jobs_eq_nil (x := ⟨who, .complete fileId given e, w, w'⟩)
    (by rw [hpub.sent, htouch.sent]) hjob
  have hsilent := Entry.emits_eq_false hnil
  have hdrawn' : Drawn cfg env w w' hash := by
    obtain ⟨m, hle, hlt, heq⟩ := hdrawn
    exact ⟨m, hle, Nat.lt_of_lt_of_le hlt hpub.drawn, heq⟩
  have hagree : ∀ t', t' ≠ who.key taskId → Agree t' w w' := by
    intro t' hne
    refine ⟨fun k r hr => Table.lookup_iff_of_ne hother fun hk => ⟨?_, ?_⟩,
      fun k d _ => by rw [hdecisions']⟩
    · rw [AList.lookup_eq_none.mpr hfresh]
      simp
    · rw [hself]
      intro heq
      cases heq
      rw [hk] at hr
      exact hne (hof.unique hr rfl)
  have hphase : Phase cfg (hist ++ [⟨who, .complete fileId given e, w, w'⟩]) w'
      (who.key taskId) stored.doc := by
    rw [hdoc]
    refine .paused e (who.key caseId) row hash hnode ⟨_, List.mem_append_right _
      (List.mem_singleton_self _), fileId, given, rfl, by rw [htask]⟩ hreview htext hself hof hhash
      htokens ?_ ?_
    · intro k r hr hof'
      by_contra hk
      rw [hother k hk] at hr
      exact hnocase k r hr hof'
    · refine ⟨?_, (hundecided.transfer (.of_eq rfl rfl _) (hsilent _)).emits⟩
      intro k d hd
      rw [hdecisions'] at hd
      exact hundecided.decisions k d hd
  refine ⟨?_, .of_nil hnil⟩
  exact h.others (p := (· = who.key taskId))
    (h.toCaseTokens.opened htoken hcases' hhash hdrawn' hallowed)
    (fun k hk => by rw [hpub.tasks]; exact htouch.tasks k hk) hagree (fun t' _ => hsilent t')
    (fun t ht => by rw [ht]; exact ⟨stored, hlookup, hphase⟩)

end Completed

theorem keeps_completed (htoken : TokensDiffer cfg env) (h : IngestInv cfg env hist w)
    (hdone : CompletionDone cfg env who (completedTask who w fileId given) e w w') :
    Keeps cfg env hist ⟨who, .complete fileId given e, w, w'⟩ := by
  obtain ⟨messages, w₁, htouch, ⟨row, hfind, hnode⟩, hcompleted, hpub⟩ := hdone.done
  have hlookup := (Table.find_eq_some_iff.mp hfind).1
  obtain ⟨hnocase, hundecided⟩ := (h.phases _ row hlookup).of_load hnode
  cases hcompleted with
  | clean hreview hfinished hcases hdecisions hjob =>
    exact keeps_clean rfl h htouch hnocase hundecided hpub hreview hfinished hcases hdecisions hjob
  | paused hreview hpaused hjob =>
    exact keeps_paused rfl h htouch hnocase hundecided hpub htoken hreview hpaused hjob

/-- The decision about the one case of a paused task. -/
theorem keeps_resolved {decision : ReviewAction} (h : IngestInv cfg env hist w)
    (htouch : Touches (who.key taskId) (· = who.key reviewCaseId) w w₁)
    (hpub : Published who messages w₁ w') (hfinished : Finished who taskId none w₁)
    (hcompleted : ∃ x ∈ hist, x.Completes (who.key taskId) e) (hreview : needsReview cfg e = true)
    (hlookup : w.cases.lookup (who.key reviewCaseId) = some row)
    (hcase : CaseOf (who.key taskId) (who.key reviewCaseId) row)
    (honly : ∀ k r, w.cases.lookup k = some r → CaseOf (who.key taskId) k r →
      k = who.key reviewCaseId) (hundecided : Undecided hist w (who.key taskId))
    (hallowed : decision ∈ allowedActions)
    (hdecided : Decided who reviewCaseId taskId decision p.patchMap row w w₁)
    (hresolved : Resolved cfg taskId e.text decision p.patchMap messages) :
    Keeps cfg env hist ⟨who, .decide fileId reviewCaseId p, w, w'⟩ := by
  obtain ⟨⟨row', hself, hstatus, htaskId, hactions, hnone⟩, hfresh,
    ⟨d, hrecorded, hdtask, hddecision, hdpatch⟩⟩ := hdecided
  obtain ⟨stored, hstored, hfinal⟩ := hfinished.lookup
  rw [← hpub.tasks] at hstored
  rw [← hpub.cases] at hself
  rw [← hpub.decisions] at hrecorded
  have hother : ∀ k, k ≠ who.key reviewCaseId → w'.cases.lookup k = w.cases.lookup k := by
    intro k hk
    rw [hpub.cases]
    exact htouch.cases k hk
  have hother' : ∀ k, k ≠ who.key reviewCaseId →
      w'.decisions.lookup k = w.decisions.lookup k := by
    intro k hk
    rw [hpub.decisions]
    exact htouch.decisions k hk
  have hcase' : CaseOf (who.key taskId) (who.key reviewCaseId) row' :=
    ⟨hcase.1, htaskId.trans hcase.2⟩
  have hclosed : Closed w' (who.key taskId) := by
    intro k r hr hof
    rcases Table.lookup_cases hself hother hr with ⟨-, rfl⟩ | ⟨hk, hr⟩
    · rw [hstatus]
      simp
    · exact absurd (honly k r hr hof) hk
  have hagree : ∀ t', t' ≠ who.key taskId → Agree t' w w' := by
    intro t' hne
    refine ⟨fun k r hof => Table.lookup_iff_of_ne hother fun hk => ⟨?_, ?_⟩,
      fun k x hof => Table.lookup_iff_of_ne hother' fun hk => ⟨?_, ?_⟩⟩
    · rw [hlookup]
      intro heq
      cases heq
      rw [hk] at hof
      exact hne (hcase.unique hof rfl)
    · rw [hself]
      intro heq
      cases heq
      rw [hk] at hof
      exact hne (hcase'.unique hof rfl)
    · rw [hfresh]
      simp
    · rw [hrecorded]
      intro heq
      cases heq
      obtain ⟨tenant, id⟩ := t'
      obtain ⟨htenant, hid⟩ := hof
      rw [hk] at htenant
      exact hne (by rw [Identity.key, DocKey.mk.injEq]; exact ⟨htenant.symm, hid.symm.trans hdtask⟩)
  refine .of_finished h
    (h.toCaseTokens.resolved hother hlookup hself hnone hactions
      (Nat.le_trans htouch.drawn hpub.drawn))
    (fun k hk => by rw [hpub.tasks]; exact htouch.tasks k hk) hstored hfinal hagree hclosed ?_
  have hsent : w'.sent = w.sent ++ messages.map fun m => (who.tenantId, m) := by
    rw [hpub.sent, htouch.sent]
  have hundeleted : decision ≠ .deleteFile → Undeleted w' (who.key taskId) := by
    intro hkind k x hx hof
    rcases Table.lookup_cases hrecorded hother' hx with ⟨-, rfl⟩ | ⟨-, hx⟩
    · rw [hddecision]
      exact hkind
    · exact absurd hof (hundecided.decisions k x hx)
  cases hresolved with
  | rejected _ hjob =>
    exact .of_nil (Entry.jobs_eq_nil hsent hjob) _
  | sanitized hkind hjob =>
    obtain ⟨target, plan, jobId, chunks, sanitized, htarget, hredact, hcut, rfl⟩ := hjob
    refine .of_chunking hsent (by rw [htarget]) hundecided.emits
      (hundeleted (by rw [hkind]; simp)) hclosed ?_
    refine .reviewed e _ row' d hcompleted hreview hself hcase' hrecorded ⟨rfl, hdtask⟩
      (.inr ⟨hddecision.trans hkind, sanitized, ?_, hcut⟩)
    rw [hdpatch]
    exact hredact
  | accepted hdelete hremove hjob =>
    obtain ⟨target, plan, jobId, chunks, htarget, hcut, rfl⟩ := hjob
    have hkind : decision = .acceptAsIs := by
      simpa [allowedActions, hdelete, hremove] using hallowed
    refine .of_chunking hsent (by rw [htarget]) hundecided.emits
      (hundeleted hdelete) hclosed ?_
    exact .reviewed e _ row' d hcompleted hreview hself hcase' hrecorded ⟨rfl, hdtask⟩
      (.inl ⟨hddecision.trans hkind, hcut⟩)

theorem keeps_decided (h : IngestInv cfg env hist w)
    (hdone : SubmissionDone cfg who reviewCaseId p w w') :
    Keeps cfg env hist ⟨who, .decide fileId reviewCaseId p, w, w'⟩ := by
  obtain ⟨taskId, messages, w₁, htouch, ⟨⟨task, row, decision, hfind, hnode, hclaimed, htoken,
    hallowed, hdecided, hresolved⟩, hfinished⟩, hpub⟩ := hdone.done
  have hrow := (Table.find_eq_some_iff.mp hclaimed.found).1
  rw [h.allowed _ row hrow] at hallowed
  cases h.phases _ task (Table.find_eq_some_iff.mp hfind).1 with
  | waiting hother | finished hother =>
    rw [hnode] at hother
    cases hother
  | paused e c own hash _ hcompleted hreview htext hlookup hcase hown htask honly hundecided =>
    have hclaim := hclaimed.token
    rw [htask, Option.getD_some] at hclaim
    rw [htext, Option.getD_some] at hresolved
    -- The token of the task is the token of one case only.
    obtain rfl := h.tokens c _ own row hash hlookup hrow hown hclaim
    obtain rfl := Option.some.inj (hlookup.symm.trans hrow)
    exact keeps_resolved h htouch hpub hfinished hcompleted hreview hrow hcase honly hundecided
      hallowed hdecided hresolved

theorem keeps_of_run (htoken : TokensDiffer cfg env) (h : IngestInv cfg env hist w)
    (hrun : (request.code cfg).run (handler env) who w = (.ok (), who', w')) :
    Keeps cfg env hist ⟨who, request, w, w'⟩ := by
  cases outcome_of_run hrun with
  | idle hsame =>
    have hsent : w'.sent = w.sent ++ ([] : List Message).map fun m => (who.tenantId, m) := by
      rw [hsame.sent]
      simp
    have hnil : Entry.jobs ⟨who, request, w, w'⟩ = [] := Entry.jobs_eq_nil hsent rfl
    exact ⟨h.idle hsame (Entry.emits_eq_false hnil), .of_nil hnil⟩
  | @started u _ hdone =>
    obtain ⟨_, _, messages, _, _, _, _, _, _, hsent, hjob⟩ := hdone.done
    have hnil : Entry.jobs ⟨who, .start u, w, w'⟩ = [] := Entry.jobs_eq_nil hsent hjob
    exact ⟨h.started hdone (Entry.emits_eq_false hnil), .of_nil hnil⟩
  | completed hdone => exact keeps_completed htoken h hdone
  | decided hdone => exact keeps_decided h hdone

end Steps

theorem History.ingestInv (htoken : TokensDiffer cfg env)
    (hrun : History cfg env World.empty hist w) :
    IngestInv cfg env hist w ∧ Justified (JobsJustified cfg) hist := by
  induction hrun with
  | nil => exact ⟨.initial, .nil⟩
  | snoc _ hstep ih =>
    have hkeeps := keeps_of_run htoken ih.1 hstep
    exact ⟨hkeeps.inv, ih.2.append hkeeps.jobs⟩

/-- Every job of a history is for one task, the only one for it, and cut from the text that was
found clean, accepted or redacted. -/
theorem embedding_jobs_justified {cfg : Config} {env : Env} {hist : List Entry} {w : World}
    (htoken : Function.Injective fun n => cfg.hashText (env.newToken n))
    (hrun : History cfg env World.empty hist w) : Justified (JobsJustified cfg) hist :=
  (hrun.ingestInv htoken).2

/-! ## A file that is accepted after review -/

def unaryEnv : Env :=
  { sampleEnv [] with newToken := fun n => String.ofList (List.replicate n 'a') }

theorem unaryEnv_injective :
    Function.Injective fun n => sampleConfig.hashText (unaryEnv.newToken n) := by
  intro m n h
  have hlength := congrArg String.length h
  simpa [sampleConfig, unaryEnv] using hlength

theorem History.run {w₀ : World} (h : History cfg env w₀ hist w)
    (hok : ((request.code cfg).run (handler env) who w).1.toBool = true) :
    History cfg env w₀
      (hist ++ [⟨who, request, w, ((request.code cfg).run (handler env) who w).2.2⟩])
      ((request.code cfg).run (handler env) who w).2.2 := by
  cases hout : ((request.code cfg).run (handler env) who w).1 with
  | error e =>
    rw [hout] at hok
    exact absurd hok (by simp [Except.toBool])
  | ok _ => exact .snoc h (Prod.ext hout rfl)

def replay (requests : List Request) : List Entry × World :=
  requests.foldl (fun h request =>
    let w := ((request.code sampleConfig).run (handler unaryEnv) sampleAdmin h.2).2.2
    (h.1 ++ [⟨sampleAdmin, request, h.2, w⟩], w)) ([], World.empty)

def acceptedRequests : List Request :=
  [.start ⟨some "a.txt", some "file", none, some "task", some (.bytes 3), noContext⟩,
    .complete "file" (some "task") ⟨"secret text", .null, noContext⟩,
    .decide "file" "id-2" (decisionOf .acceptAsIs [])]

theorem embedding_jobs_justified_accepted :
    (replay acceptedRequests).1.map (·.emits (sampleAdmin.key "task")) = [false, false, true] ∧
      Justified (JobsJustified sampleConfig) (replay acceptedRequests).1 := by
  refine ⟨by decide +kernel, ?_⟩
  refine embedding_jobs_justified (w := (replay acceptedRequests).2) unaryEnv_injective ?_
  exact .run (.run (.run .nil (by decide +kernel)) (by decide +kernel)) (by decide +kernel)

/-! ## Tasks between requests -/

/-- The task has ended with no case open, or nothing was sent for it, and it waits for its text
without a case or for the decision about its only case, the one its token names. -/
def AtRest (hist : List Entry) (w : World) (t : DocKey) (task : TaskDoc) : Prop :=
  (task.currentNode = .finalize ∧ Closed w t) ∨ (∀ x ∈ hist, x.emits t = false) ∧
    ((task.currentNode = .loadExtractionResult ∧
      ∀ k r, w.cases.lookup k = some r → ¬ CaseOf t k r) ∨
    (task.currentNode = .awaitHumanReview ∧ ∃ c, c ∈ w.cases ∧
      ∀ k r, w.cases.lookup k = some r → (CaseOf t k r ↔ k = c) ∧
        (r.doc.interrupt.resumeTokenHash = task.resumeTokenHash ↔ k = c)))

theorem task_at_rest {cfg : Config} {env : Env} {hist : List Entry} {w : World} {t : DocKey}
    {r : Row TaskDoc} (htoken : Function.Injective fun n => cfg.hashText (env.newToken n))
    (hrun : History cfg env World.empty hist w) (ht : w.tasks.lookup t = some r) :
    AtRest hist w t r.doc := by
  have hinv := (hrun.ingestInv htoken).1
  cases hinv.phases t r ht with
  | finished hnode hclosed => exact .inl ⟨hnode, hclosed⟩
  | waiting hnode hcase hundecided => exact .inr ⟨hundecided.emits, .inl ⟨hnode, hcase⟩⟩
  | paused e c row hash hnode _ _ _ hlookup hcase hrow htask honly hundecided =>
    have hmem : c ∈ w.cases := AList.lookup_isSome.mp (Option.isSome_of_eq_some hlookup)
    refine .inr ⟨hundecided.emits, .inr ⟨hnode, c, hmem, fun k r' hr' => ?_⟩⟩
    have hsame : k = c → r' = row := by
      intro hk
      rw [hk, hlookup] at hr'
      exact (Option.some.inj hr').symm
    refine ⟨⟨honly k r' hr', fun hk => ?_⟩, fun heq => ?_, fun hk => ?_⟩
    · rw [hk, hsame hk]
      exact hcase
    · exact hinv.tokens k c r' row hash hr' hlookup (heq.trans htask) hrow
    · rw [hsame hk, hrow, htask]

theorem task_at_rest_paused :
    ∃ r, (replay (acceptedRequests.take 2)).2.tasks.lookup (sampleAdmin.key "task") = some r ∧
      AtRest (replay (acceptedRequests.take 2)).1 (replay (acceptedRequests.take 2)).2
        (sampleAdmin.key "task") r.doc := by
  have hsome : ((replay (acceptedRequests.take 2)).2.tasks.lookup
    (sampleAdmin.key "task")).isSome = true := by decide +kernel
  obtain ⟨r, hr⟩ := Option.isSome_iff_exists.mp hsome
  refine ⟨r, hr, task_at_rest unaryEnv_injective ?_ hr⟩
  exact .run (.run .nil (by decide +kernel)) (by decide +kernel)

end RagForge.Files
