import RagForge.Files.Service

/-
At most one decision is carried out for a review case.

Requests run concurrently and interleave at the single calls of the store.  A decision reads and
checks the case before it claims it, so many requests may pass the checks; only the one whose claim
changes the case goes on.  `protocol` says what a request may do in which order, every request
follows it for all replies, and the invariant of the shared state is proved about the protocol.
-/

namespace RagForge.Files

open Effect Store Sequence

/-! ## The protocol of a decision -/

/-- What carrying out a decision consists of. -/
inductive Part
  | claim
  | record
  | chunks
  | job
  deriving DecidableEq

/-- The part of a decision an event is.  A claim counts when it changed the case. -/
def part : Event sig → Option Part
  | ⟨⟨_, .claimReviewCase ..⟩, .ok true⟩ => some .claim
  | ⟨⟨_, .createReviewDecision ..⟩, _⟩ => some .record
  | ⟨⟨_, .createChunks ..⟩, _⟩ => some .chunks
  | ⟨⟨_, .send (.processEmbeddingJob _)⟩, _⟩ => some .job
  | _ => none

/-- The case a request works on and what it has done for it. -/
structure DecisionView where
  key : Option DocKey
  done : List Part

namespace DecisionView

/-- A part after the claim may be done once. -/
def May (v : DecisionView) (x : Part) : Prop := .claim ∈ v.done ∧ x ∉ v.done

def allow (v : DecisionView) : Call → Prop
  | ⟨who, .getReviewCase id⟩ => v.key = none ∨ v.key = some (who.key id)
  | ⟨who, .claimReviewCase id ..⟩ => v.key = some (who.key id) ∧ .claim ∉ v.done
  | ⟨who, .createReviewDecision id ..⟩ => v.key = some (who.key id) ∧ v.May .record
  | ⟨_, .createChunks ..⟩ => v.May .chunks
  | ⟨_, .send (.processEmbeddingJob _)⟩ => v.May .job
  | ⟨_, .updateReviewCase _ set⟩ => ∀ c, (set c).status ≠ .isOpen
  | ⟨_, .createReviewCase ..⟩ => False
  | _ => True

/-- The case that an operation shows the request to work on. -/
def readKey : Call → Option DocKey
  | ⟨who, .getReviewCase id⟩ => some (who.key id)
  | _ => none

def next (v : DecisionView) (op : Call) (r : sig.Result op) : DecisionView where
  key := readKey op <|> v.key
  done := (part ⟨op, r⟩).toList ++ v.done

end DecisionView

def decisionProtocol : Monitor sig DecisionView := ⟨DecisionView.allow, DecisionView.next⟩

/-! ## Requests follow the protocol -/

variable {v : DecisionView} {who : Identity}

section Follows

variable {α : Type} {op : StoreOp}

abbrev Calm (v : DecisionView) (p : FilesM α) : Prop :=
  Still decisionProtocol.logic v p fun _ => True

abbrev Follows (p : FilesM α) (P : α → DecisionView → Prop) (who : Identity)
    (v : DecisionView) : Prop :=
  Ensures decisionProtocol.logic Frame.locals p (fun a _ v' => P a v') who v

theorem calm_call (hallow : ∀ who, v.allow ⟨who, op⟩)
    (hnext : ∀ who (r : sig.Result ⟨who, op⟩), v.next ⟨who, op⟩ r = v) : Calm v (call op) :=
  fun who => ⟨⟨hallow who, fun r => ⟨⟨rfl, hnext who r⟩, fun _ _ => trivial⟩⟩⟩

theorem follows_call {P : op.Reply → DecisionView → Prop} (hallow : v.allow ⟨who, op⟩)
    (hP : ∀ a, P a (v.next ⟨who, op⟩ (Except.ok a))) : Follows (call op) P who v := by
  refine ⟨⟨hallow, fun r => ⟨rfl, ?_⟩⟩⟩
  intro a hr
  subst hr
  exact hP a

theorem calm_check (x : Except Err α) : Calm v (check x) := .ofExcept fun _ _ => trivial

theorem calm_plain (h : op.plain = true) : Calm v (call op) := by
  cases op with
  | send m =>
    cases m with
    | processEmbeddingJob job => cases h
    | _ => exact calm_call (fun _ => trivial) fun _ _ => rfl
  | _ => first | exact calm_call (fun _ => trivial) fun _ _ => rfl | cases h

theorem calm_updateFile (fileId : String) (set : FileDoc → FileDoc) :
    Calm v (call (.updateFile fileId set)) :=
  calm_call (fun _ => trivial) fun _ _ => rfl

/-- The messages a request that won the case has still to send. -/
structure Outbound (messages : List Message) (v : DecisionView) : Prop where
  won : .claim ∈ v.done
  unsent : .job ∉ v.done
  single : (messages.filter Message.isJob).length ≤ 1

theorem Outbound.tail {m : Message} {rest : List Message} (h : Outbound (m :: rest) v) :
    (rest.filter Message.isJob).length ≤ 1 := by
  have hlen := h.single
  rw [List.filter_cons] at hlen
  split at hlen
  · simp only [List.length_cons] at hlen
    omega
  · exact hlen

theorem calm_sends (messages : List Message) (h : messages.filter Message.isJob = []) :
    Calm v (Proc.forEach messages fun m => call (.send m)) := by
  induction messages with
  | nil => exact .pure trivial
  | cons m rest ih =>
    have hm : m.isJob = false := by
      have := List.filter_eq_nil_iff.mp h m List.mem_cons_self
      simpa using this
    rw [List.filter_cons, hm] at h
    exact (calm_plain (by simp [StoreOp.plain, hm])).bind fun _ _ => ih h

theorem follows_send (messages : List Message) (h : Outbound messages v) :
    Follows (Proc.forEach messages fun m => call (.send m)) (fun _ _ => True) who v := by
  induction messages with
  | nil => exact .pure trivial
  | cons m rest ih =>
    cases hjob : m.isJob with
    | false =>
      -- The view does not react to other messages, so the rest is as before.
      refine (calm_plain (by simp [StoreOp.plain, hjob])).before fun _ _ => ?_
      exact ih ⟨h.won, h.unsent, h.tail⟩
    | true =>
      have hrest : rest.filter Message.isJob = [] := by
        have hlen := h.single
        rw [List.filter_cons, if_pos hjob, List.length_cons] at hlen
        exact List.eq_nil_of_length_eq_zero (by omega)
      obtain ⟨job, rfl⟩ : ∃ job, m = .processEmbeddingJob job := by
        cases m with
        | processEmbeddingJob job => exact ⟨job, rfl⟩
        | _ => exact absurd hjob (by simp [Message.isJob])
      refine .bind (follows_call (P := fun _ _ => True) ⟨h.won, h.unsent⟩
        fun _ => trivial) ?_
      intro _ who' v' _ _
      exact (calm_sends rest hrest who').weaken fun hsame => hsame.1

theorem follows_publishMessages {messages : List Message} (h : Outbound messages v) :
    Follows (publishMessages messages) (fun _ _ => True) who v := by
  refine (follows_send messages h).bind ?_
  intro _ who' v' _ _
  by_cases hnil : messages = []
  · rw [if_pos hnil]
    exact .pure trivial
  · rw [if_neg hnil]
    exact follows_call trivial fun _ => trivial

/-- The case is won and neither chunks nor a job have been made for it. -/
structure Won (v : DecisionView) : Prop where
  won : .claim ∈ v.done
  unchunked : .chunks ∉ v.done
  unsent : .job ∉ v.done

theorem follows_createChunks (h : Won v) (owner : Ownership) (docs : List Chunk) :
    Follows (createChunks owner docs) (fun _ v' => .claim ∈ v'.done ∧ .job ∉ v'.done) who v := by
  unfold createChunks
  by_cases hnil : docs = []
  · rw [if_pos hnil]
    exact .pure ⟨h.won, h.unsent⟩
  · rw [if_neg hnil]
    refine Still.read.before fun _ _ => ?_
    refine (calm_check _).before fun _ _ => ?_
    refine follows_call ⟨h.won, h.unchunked⟩ fun _ => ⟨?_, ?_⟩
    · exact List.mem_cons_of_mem _ h.won
    · intro hmem
      exact h.unsent ((List.mem_cons.mp hmem).resolve_left (by decide))

section

variable (h : Won v) (cfg : Config) (x : Target) (task : TaskDoc)

include h cfg x task

theorem follows_completeChunkingFlow (state : GraphState) (plan : ChunkPlan) :
    Follows (completeChunkingFlow cfg x task state plan) Outbound who v := by
  refine (calm_plain rfl).before fun version _ => ?_
  refine (calm_check _).before fun chunks _ => ?_
  refine (follows_createChunks h x.file.owner chunks).bind ?_
  intro created who' v' _ hv'
  refine (calm_plain rfl).before fun jobId _ => ?_
  refine (calm_updateFile _ _).before fun _ _ => ?_
  refine (plain_transition calm_plain).before fun task _ => ?_
  refine (plain_finalizeAs calm_plain).before fun _ _ => ?_
  refine (plain_audit calm_plain).before fun _ _ => ?_
  refine (plain_audit calm_plain).before fun _ _ => ?_
  refine (plain_audit calm_plain).before fun _ _ => ?_
  exact .pure ⟨hv'.1, hv'.2, Nat.le_refl 1⟩

theorem follows_applyDeleteDecision (r : Review) (state : GraphState) :
    Follows (applyDeleteDecision cfg x task r state) Outbound who v := by
  refine (calm_plain rfl).before fun deleted _ => ?_
  refine Still.read.before fun _ _ => ?_
  refine (calm_check _).before fun path _ => ?_
  refine (plain_removeStored calm_plain).before fun _ _ => ?_
  refine (calm_updateFile _ _).before fun _ _ => ?_
  refine (plain_finalizeAs calm_plain).before fun _ _ => ?_
  refine (plain_audit calm_plain).before fun _ _ => ?_
  split
  · refine (plain_audit calm_plain).before fun _ _ => ?_
    refine (plain_audit calm_plain).before fun _ _ => ?_
    exact .pure ⟨h.won, h.unsent, by simp [Message.isJob]⟩
  · refine (plain_audit calm_plain).before fun _ _ => ?_
    exact .pure ⟨h.won, h.unsent, by simp⟩

theorem follows_applyDecision (r : Review)
    (state : GraphState) (decision : ReviewAction) (patchMap : List Patch) :
    Follows (applyDecision cfg x task r state decision patchMap) Outbound who v := by
  have haccept : Follows (applyAcceptDecision cfg x task r state) Outbound who v := by
    refine (calm_updateFile _ _).before fun _ _ => ?_
    refine (plain_audit calm_plain).before fun _ _ => ?_
    refine (plain_transition calm_plain).before fun task _ => ?_
    exact follows_completeChunkingFlow h cfg x task state _
  cases decision with
  | deleteFile => exact follows_applyDeleteDecision h cfg x task r state
  | removeProblematicText =>
    refine (calm_check _).before fun sanitized _ => ?_
    refine (calm_updateFile _ _).before fun _ _ => ?_
    refine (plain_audit calm_plain).before fun _ _ => ?_
    refine (plain_transition calm_plain).before fun task _ => ?_
    exact follows_completeChunkingFlow h cfg x task _ _
  | acceptAsIs | other => exact haccept

end

theorem follows_resolveClaimed (cfg : Config) (x : Target) (task : TaskDoc) (r : Review)
    (decision : ReviewAction) (textHash : String) (p : DecisionPayload)
    (hkey : v.key = some (who.key r.reviewCaseId)) (hdone : v.done = [.claim]) :
    Follows (resolveClaimed cfg x task r decision textHash p) Outbound who v := by
  refine Still.before (calm_plain rfl) fun createdAt _ => ?_
  refine Ensures.bind (follows_call (P := fun _ v' => v'.done = [.record, .claim]) ?_ ?_) ?_
  · exact ⟨hkey, by simp [hdone], by simp [hdone]⟩
  · intro _
    show [Part.record] ++ v.done = [.record, .claim]
    rw [hdone]
    rfl
  · intro _ who' v' _ hv'
    have hwon : Won v' := ⟨by simp [hv'], by simp [hv'], by simp [hv']⟩
    refine Still.before (calm_plain rfl) fun now _ => ?_
    refine Still.before (calm_call (fun _ _ => ?_) fun _ _ => rfl) fun _ _ => ?_
    · simp [ReviewCase.resolve]
    refine Still.before (plain_transition calm_plain) fun task _ => ?_
    refine Still.before (plain_audit calm_plain) fun _ _ => ?_
    refine Still.before (plain_audit calm_plain) fun _ _ => ?_
    exact follows_applyDecision hwon cfg x task r _ decision p.patchMap

/-- A request that has read its case and done nothing yet. -/
structure Reading (who : Identity) (reviewCaseId : String) (v : DecisionView) : Prop where
  key : v.key = some (who.key reviewCaseId)
  done : v.done = []

theorem follows_getReviewCase {reviewCaseId : String}
    (hkey : v.key = none ∨ v.key = some (who.key reviewCaseId)) (hdone : v.done = []) :
    Follows (call (.getReviewCase reviewCaseId))
      (fun _ v' => Reading who reviewCaseId v') who v :=
  follows_call hkey fun _ => ⟨rfl, hdone⟩

theorem follows_handleReviewDecision (cfg : Config) (fileId taskId reviewCaseId : String)
    (p : DecisionPayload) (actor : Actor) (h : Reading who reviewCaseId v) :
    Follows (handleReviewDecision cfg fileId taskId reviewCaseId p actor) Outbound who v := by
  refine Still.before (calm_call (fun _ => trivial) fun _ _ => rfl) fun file _ => ?_
  refine (calm_plain rfl).before fun task _ => ?_
  refine (follows_getReviewCase (.inr h.key) h.done).bind ?_
  intro case who' v' hwho hv'
  obtain rfl : who' = who := hwho
  split
  · next file task case =>
    refine (calm_plain rfl).before fun now _ => ?_
    refine (calm_check _).before fun checked _ => ?_
    refine (calm_plain rfl).before fun id _ => ?_
    refine (calm_plain rfl).before fun at' _ => ?_
    -- Only the request whose claim changed the case goes on.
    refine (follows_call (P := fun claimed w => claimed = true →
      w.key = some (who'.key reviewCaseId) ∧ w.done = [.claim]) ?_ ?_).bind ?_
    · exact ⟨hv'.key, by simp [hv'.done]⟩
    · intro claimed hclaimed
      subst hclaimed
      refine ⟨hv'.key, ?_⟩
      show [Part.claim] ++ v'.done = [.claim]
      rw [hv'.done]
      rfl
    · intro claimed who'' w hwho hw
      obtain rfl : who'' = who' := hwho
      cases claimed with
      | true => exact follows_resolveClaimed _ _ _ _ _ _ _ (hw rfl).1 (hw rfl).2
      | false => exact .raise _
  · exact .raise _

theorem follows_finishReviewDecision (fileId taskId reviewCaseId : String) (file : Row FileDoc)
    {outbound : List Message} (h : Outbound outbound v) :
    Follows (finishReviewDecision fileId taskId reviewCaseId file outbound) (fun _ _ => True)
      who v := by
  refine (follows_publishMessages h).bind ?_
  intro _ who' v' _ _
  refine Still.before (calm_call (fun _ => trivial) fun _ _ => rfl) fun _ _ => ?_
  refine (calm_plain rfl).before fun _ _ => ?_
  refine (calm_plain rfl).before fun _ _ => ?_
  exact .pure trivial

theorem follows_handleSubmitReviewDecision (who : Identity) (cfg : Config)
    (fileId reviewCaseId : String) (p : DecisionPayload) :
    Follows (handleSubmitReviewDecision cfg fileId reviewCaseId p) (fun _ _ => True) who
      ⟨none, []⟩ := by
  refine Still.read.before fun caller _ => ?_
  split
  · exact Ensures.pure trivial
  refine Still.before (calm_call (fun _ => trivial) fun _ _ => rfl) fun file _ => ?_
  refine (follows_getReviewCase (.inl rfl) rfl).bind ?_
  intro case who' v' hwho hv'
  obtain rfl : who' = who := hwho
  split
  · next file case =>
    dsimp only
    split
    · exact .pure trivial
    refine (calm_plain rfl).before fun task _ => ?_
    split
    · exact .pure trivial
    refine .bind (P := fun messages _ w => Outbound messages w) ?_ ?_
    · refine (follows_handleReviewDecision cfg _ _ _ p _ hv').handle ?_
      intro e who'' w _
      refine (plain_failureEvent calm_plain).before fun _ _ => ?_
      exact .raise e
    · intro outbound who'' w _ hw
      exact follows_finishReviewDecision _ _ _ _ hw
  · exact .pure trivial

end Follows

/-! ## What the protocol's steps do -/

variable {k : DocKey} {cfg : Config} {c : Call} {op : Call}

namespace DecisionView

theorem next_key (hallow : v.allow op) (r : sig.Result op) (hk : v.key = some k) :
    (v.next op r).key = some k := by
  obtain ⟨who, op⟩ := op
  cases op with
  | getReviewCase id =>
    have hkey : v.key = some (who.key id) := by
      rcases hallow with hnone | hsome
      · rw [hk] at hnone
        cases hnone
      · exact hsome
    show some (who.key id) = some k
    rw [← hkey, hk]
  | _ => exact hk

theorem part_allowed (hallow : v.allow op) {r : sig.Result op} {x : Part}
    (hpart : part ⟨op, r⟩ = some x) :
    x ∉ v.done ∧ (.claim ∈ v.done ∨ x = .claim ∧ ∃ k, v.key = some k) := by
  obtain ⟨who, op⟩ := op
  cases op with
  | claimReviewCase id textHash tokenHash claimId claimedAt =>
    match r, hpart with
    | .ok true, hpart =>
      obtain rfl : Part.claim = x := Option.some.inj hpart
      exact ⟨hallow.2, .inr ⟨rfl, _, hallow.1⟩⟩
  | createReviewDecision id owner doc =>
    obtain rfl : Part.record = x := Option.some.inj hpart
    exact ⟨hallow.2.2, .inl hallow.2.1⟩
  | createChunks owner docs =>
    obtain rfl : Part.chunks = x := Option.some.inj hpart
    exact ⟨hallow.2, .inl hallow.1⟩
  | send m =>
    cases m with
    | processEmbeddingJob job =>
      obtain rfl : Part.job = x := Option.some.inj hpart
      exact ⟨hallow.2, .inl hallow.1⟩
    | _ => exact absurd hpart (by simp [part])
  | _ => exact absurd hpart (by simp [part])

end DecisionView

def IsOpen (w : World) (k : DocKey) : Prop :=
  ∃ r, w.cases.lookup k = some r ∧ r.doc.status = .isOpen

variable {env : Env} {w : World}

theorem isOpen_of_effect (hallow : v.allow c)
    (h : IsOpen (c.op.effect env c.who w).2 k) : IsOpen w k := by
  obtain ⟨who, op⟩ := c
  have hput : ∀ {δ : Type} (r : Except String (Collection δ)) (set : Collection δ → World),
      (∀ t, (set t).cases = w.cases) → (w.put r set).2.cases = w.cases := by
    intro δ r set hset
    cases r with
    | error e => rfl
    | ok t => exact hset t
  have hsame : (op.effect env who w).2.cases = w.cases → IsOpen w k := by
    intro heq
    obtain ⟨r, hr, hopen⟩ := h
    exact ⟨r, heq ▸ hr, hopen⟩
  cases op with
  | createReviewCase id owner doc => exact hallow.elim
  | updateReviewCase id set =>
    obtain ⟨r, hr, hopen⟩ := h
    rcases Table.lookup_update_cases _ hr with hold | ⟨rfl, r₀, hr₀, rfl⟩
    · exact ⟨r, hold, hopen⟩
    · exact absurd hopen (hallow r₀.doc)
  | claimReviewCase id textHash tokenHash claimId claimedAt =>
    obtain ⟨r, hr, hopen⟩ := h
    rcases Table.lookup_update_cases _ hr with hold | ⟨rfl, r₀, hr₀, rfl⟩
    · exact ⟨r, hold, hopen⟩
    · exact absurd hopen (by simp [ReviewCase.claim])
  | createFile | createTask | createReviewDecision => exact hsame (hput _ _ fun _ => rfl)
  | insertAuditEvent | deleteFile =>
    refine hsame ?_
    simp only [StoreOp.effect]
    split <;> rfl
  | _ => exact hsame rfl

theorem isOpen_of_handler (hallow : v.allow c) (h : IsOpen (handler env c w).2 k) : IsOpen w k := by
  obtain ⟨t, hkept | htook⟩ := handler_state env c w
  · rw [hkept] at h
    exact h
  · rw [htook] at h
    exact isOpen_of_effect hallow h

theorem not_isOpen_claimed {visible : Row ReviewCase → Bool} {w' : World} {r : Row ReviewCase}
    (hr : w.cases.find visible k = some r) (claimId : String) (claimedAt : Nat)
    (hcases : w'.cases = w.cases.update visible k fun r =>
      { r with doc := r.doc.claim claimId claimedAt }) : ¬ IsOpen w' k := by
  intro hafter
  obtain ⟨r', hr', hopen⟩ := hafter
  rw [hcases, Table.lookup_update_self hr] at hr'
  cases hr'
  exact absurd hopen (by simp [ReviewCase.claim])

theorem claim_isOpen {id textHash tokenHash claimId : String} {claimedAt : Nat}
    (h : (handler env ⟨who, .claimReviewCase id textHash tokenHash claimId claimedAt⟩ w).1 =
      .ok true) :
    IsOpen w (who.key id) ∧
      ¬ IsOpen (handler env ⟨who, .claimReviewCase id textHash tokenHash claimId claimedAt⟩ w).2
        (who.key id) := by
  obtain ⟨hreply, t, hstate⟩ := handler_ok h
  obtain ⟨r, hr⟩ := Option.isSome_iff_exists.mp (Except.ok.inj hreply)
  obtain ⟨hlookup, hvisible⟩ := Table.find_eq_some_iff.mp hr
  have hopen : r.doc.status = .isOpen := by
    simp only [ReviewCase.claimable, Bool.and_eq_true, beq_iff_eq] at hvisible
    exact hvisible.2.1.1.1
  refine ⟨⟨r, hlookup, hopen⟩, ?_⟩
  rw [hstate]
  exact not_isOpen_claimed hr claimId claimedAt rfl

/-! ## The invariant -/

/-- Request `i` has read the case with key `k`, so it decides about it. -/
def decides (trace : List (Nat × Event sig)) (k : DocKey) (i : Nat) : Bool :=
  trace.any fun e => e.1 == i && DecisionView.readKey e.2.op == some k

structure DecisionInv (w : World) (trace : List (Nat × Event sig)) (vs : List DecisionView) :
    Prop where
  /-- The views know the cases of the requests. -/
  keys : ∀ (i : Nat) (k : DocKey), decides trace k i = true ↔
    ∃ v, vs[i]? = some v ∧ v.key = some k
  /-- The views know what the requests have done. -/
  seen : ∀ e ∈ trace, ∀ x, part e.2 = some x → ∃ v, vs[e.1]? = some v ∧ x ∈ v.done
  /-- Whatever a request has done, it has won its case. -/
  first : ∀ (i : Nat) (v : DecisionView) (x : Part), vs[i]? = some v → x ∈ v.done →
    .claim ∈ v.done ∧ ∃ k, v.key = some k
  /-- A case has one winner. -/
  unique : ∀ (i j : Nat) (v v' : DecisionView) (k : DocKey), vs[i]? = some v →
    vs[j]? = some v' → .claim ∈ v.done → .claim ∈ v'.done → v.key = some k → v'.key = some k → i = j
  /-- A case that was won is not open. -/
  closed : ∀ (i : Nat) (v : DecisionView) (k : DocKey), vs[i]? = some v → .claim ∈ v.done →
    v.key = some k → ¬ IsOpen w k
  /-- A request does each part once. -/
  apart : trace.Pairwise fun e e' => ∀ x, part e.2 = some x → part e'.2 = some x → e.1 ≠ e'.1

namespace DecisionInv

variable {trace : List (Nat × Event sig)} {vs : List DecisionView}

theorem initial (w : World) : DecisionInv w [] [] where
  keys i k := by simp [decides]
  seen e he := by simp at he
  first i v x hv := by simp at hv
  unique i j v v' k hv := by simp at hv
  closed i v k hv := by simp at hv
  apart := List.Pairwise.nil

theorem spawn (h : DecisionInv w trace vs) : DecisionInv w trace (vs ++ [⟨none, []⟩]) where
  keys i k := by
    rw [h.keys i k]
    constructor
    · intro hold
      obtain ⟨v, hv, hk⟩ := hold
      exact ⟨v, getElem?_append_of hv, hk⟩
    · intro hnew
      obtain ⟨v, hv, hk⟩ := hnew
      rcases getElem?_append_cases hv with hold | ⟨-, rfl⟩
      · exact ⟨v, hold, hk⟩
      · cases hk
  seen e he x hx := by
    obtain ⟨v, hv, hdone⟩ := h.seen e he x hx
    exact ⟨v, getElem?_append_of hv, hdone⟩
  first i v x hv hx := by
    rcases getElem?_append_cases hv with hold | ⟨-, rfl⟩
    · exact h.first i v x hold hx
    · cases hx
  unique i j v v' k hv hv' hx hx' := by
    rcases getElem?_append_cases hv with hold | ⟨-, rfl⟩
    · rcases getElem?_append_cases hv' with hold' | ⟨-, rfl⟩
      · exact h.unique i j v v' k hold hold' hx hx'
      · exact absurd hx' (by simp)
    · cases hx
  closed i v k hv hx := by
    rcases getElem?_append_cases hv with hold | ⟨-, rfl⟩
    · exact h.closed i v k hold hx
    · cases hx
  apart := h.apart

section Act

variable {i : Nat} {u : DecisionView} {j : Nat}

theorem decides_append (j : Nat) (k : DocKey) (r : sig.Result op) :
    decides (trace ++ [(i, ⟨op, r⟩)]) k j = true ↔
      decides trace k j = true ∨ i = j ∧ DecisionView.readKey op = some k := by
  simp [decides]

section

variable (h : DecisionInv w trace vs) (hv : vs[i]? = some v) (hallow : v.allow op)

include h hv hallow

/-- A request that has won after its step had won before, or its step is the claim. -/
theorem won_cases (hwon : .claim ∈ (v.next op (handler env op w).1).done)
    (hkey : (v.next op (handler env op w).1).key = some k) :
    (.claim ∈ v.done ∧ v.key = some k) ∨ (IsOpen w k ∧ ¬ IsOpen (handler env op w).2 k) := by
  rcases List.mem_append.mp hwon with hnow | hbefore
  · right
    have hpart : part ⟨op, (handler env op w).1⟩ = some .claim := Option.mem_toList.mp hnow
    obtain ⟨who, op⟩ := op
    cases op with
    | claimReviewCase id textHash tokenHash claimId claimedAt =>
      have hreply : (handler env ⟨who, .claimReviewCase id textHash tokenHash claimId
          claimedAt⟩ w).1 = .ok true := by
        match hr : (handler env ⟨who, .claimReviewCase id textHash tokenHash claimId
          claimedAt⟩ w).1 with
        | .ok true => rfl
        | .ok false => exact absurd (hr ▸ hpart) (by simp [part])
        | .error e => exact absurd (hr ▸ hpart) (by simp [part])
      obtain rfl : who.key id = k :=
        Option.some.inj ((v.next_key hallow _ hallow.1).symm.trans hkey)
      exact claim_isOpen hreply
    | send m => cases m <;> exact absurd hpart (by simp [part])
    | _ => exact absurd hpart (by simp [part])
  · left
    obtain ⟨-, k₀, hk₀⟩ := h.first i v _ hv hbefore
    obtain rfl : k₀ = k := Option.some.inj ((v.next_key hallow _ hk₀).symm.trans hkey)
    exact ⟨hbefore, hk₀⟩

theorem act_keys (r : sig.Result op) (j : Nat) (k : DocKey) :
    decides (trace ++ [(i, ⟨op, r⟩)]) k j = true ↔
      ∃ u, (vs.set i (v.next op r))[j]? = some u ∧ u.key = some k := by
  have hkey : (v.next op r).key = (DecisionView.readKey op <|> v.key) := rfl
  rw [decides_append, h.keys j k]
  constructor
  · intro hleft
    rcases hleft with hold | ⟨hij, hread⟩
    · obtain ⟨u, hu, huk⟩ := hold
      rcases getElem?_of_set hv hu (v.next op r) with ⟨-, rfl, hset⟩ | ⟨-, hset⟩
      · exact ⟨_, hset, u.next_key hallow r huk⟩
      · exact ⟨u, hset, huk⟩
    · subst hij
      exact ⟨_, getElem?_set_of hv, by rw [hkey, hread]; rfl⟩
  · intro hright
    obtain ⟨u, hu, huk⟩ := hright
    rcases getElem?_set_cases hu with ⟨rfl, rfl⟩ | ⟨-, hold⟩
    · rw [hkey] at huk
      cases hread : DecisionView.readKey op with
      | none =>
        rw [hread] at huk
        exact .inl ⟨v, hv, huk⟩
      | some k₀ =>
        rw [hread] at huk
        exact .inr ⟨rfl, huk⟩
    · exact .inl ⟨u, hold, huk⟩

theorem act :
    DecisionInv (handler env op w).2 (trace ++ [(i, ⟨op, (handler env op w).1⟩)])
      (vs.set i (v.next op (handler env op w).1)) where
  keys := h.act_keys hv hallow _
  seen e he x hx := by
    rcases List.mem_append.mp he with hold | hnew
    · obtain ⟨u, hu, hdone⟩ := h.seen e hold x hx
      rcases getElem?_of_set hv hu (v.next op (handler env op w).1) with ⟨-, rfl, hset⟩ | ⟨-, hset⟩
      · exact ⟨_, hset, List.mem_append_right _ hdone⟩
      · exact ⟨u, hset, hdone⟩
    · obtain rfl := List.mem_singleton.mp hnew
      refine ⟨_, getElem?_set_of hv, List.mem_append_left _ ?_⟩
      exact Option.mem_toList.mpr hx
  first j u x hu hx := by
    rcases getElem?_set_cases hu with ⟨rfl, rfl⟩ | ⟨-, hold⟩
    · rcases List.mem_append.mp hx with hnow | hbefore
      · rcases (v.part_allowed hallow (Option.mem_toList.mp hnow)).2 with hwon | ⟨rfl, k, hk⟩
        · obtain ⟨-, k, hk⟩ := h.first j v _ hv hwon
          exact ⟨List.mem_append_right _ hwon, k, v.next_key hallow _ hk⟩
        · exact ⟨hx, k, v.next_key hallow _ hk⟩
      · obtain ⟨hwon, k, hk⟩ := h.first j v x hv hbefore
        exact ⟨List.mem_append_right _ hwon, k, v.next_key hallow _ hk⟩
    · exact h.first j u x hold hx
  unique j j' u u' k hu hu' hx hx' hk hk' := by
    rcases getElem?_set_cases hu with ⟨rfl, rfl⟩ | ⟨-, hold⟩ <;>
      rcases getElem?_set_cases hu' with ⟨rfl, rfl⟩ | ⟨-, hold'⟩
    · rfl
    · rcases h.won_cases hv hallow hx hk with ⟨hwon, hkey⟩ | ⟨hopen, -⟩
      · exact h.unique _ _ _ _ k hv hold' hwon hx' hkey hk'
      · exact absurd hopen (h.closed _ _ k hold' hx' hk')
    · rcases h.won_cases hv hallow hx' hk' with ⟨hwon, hkey⟩ | ⟨hopen, -⟩
      · exact h.unique _ _ _ _ k hold hv hx hwon hk hkey
      · exact absurd hopen (h.closed _ _ k hold hx hk)
    · exact h.unique j j' u u' k hold hold' hx hx' hk hk'
  closed j u k hu hx hk := by
    rcases getElem?_set_cases hu with ⟨rfl, rfl⟩ | ⟨-, hold⟩
    · rcases h.won_cases hv hallow hx hk with ⟨hwon, hkey⟩ | ⟨-, hclosed⟩
      · exact fun hopen => h.closed _ _ k hv hwon hkey (isOpen_of_handler hallow hopen)
      · exact hclosed
    · exact fun hopen => h.closed j u k hold hx hk (isOpen_of_handler hallow hopen)
  apart := by
    refine List.pairwise_append.mpr ⟨h.apart, List.pairwise_singleton .., ?_⟩
    intro e he e' he' x hx hx' heq
    obtain rfl := List.mem_singleton.mp he'
    obtain ⟨u, hu, hdone⟩ := h.seen e he x hx
    rw [heq, hv] at hu
    cases hu
    exact (v.part_allowed hallow hx').1 hdone

end

end Act

end DecisionInv

/-! ## Any interleaving -/

def Submits (cfg : Config) (p : Prog sig (Except Err DecisionReply × Identity)) : Prop :=
  ∃ who fileId reviewCaseId payload,
    p = (handleSubmitReviewDecision cfg fileId reviewCaseId payload).start who

def partsOf (trace : List (Nat × Event sig)) (k : DocKey) (x : Part) : List (Nat × Event sig) :=
  trace.filter fun e => part e.2 == some x && decides trace k e.1

theorem submits_follows (p : Prog sig (Except Err DecisionReply × Identity)) (hp : Submits cfg p) :
    ∃ v, v = (⟨none, []⟩ : DecisionView) ∧
      p.wp decisionProtocol.logic (fun _ _ => True) v := by
  obtain ⟨who, fileId, reviewCaseId, payload, rfl⟩ := hp
  have hfollows := follows_handleSubmitReviewDecision who cfg fileId reviewCaseId payload
  exact ⟨_, rfl, Prog.wp_mono (fun _ _ _ => trivial) _ _ hfollows.wp⟩

theorem exists_decisionInv {P : Pool sig (Except Err DecisionReply × Identity) World}
    (hP : Pool.Reachable (handler env) (Submits cfg) (fun _ _ => True) w P) :
    ∃ vs, DecisionInv P.state P.trace vs := by
  refine Pool.Reachable.monitored decisionProtocol submits_follows
    (DecisionInv.initial w) ?_ ?_ hP
  · intro s tr vs v h hv
    subst hv
    exact h.spawn
  · intro s tr vs i v op h hv hallow _
    exact h.act hv hallow

/-- Whatever the interleaving, the faults and the crashes, a case is claimed at most once, at most
one decision is recorded for it, chunks are made for at most one decision about it and at most one
embedding job is sent for it.  Whoever does any of this has read a case. -/
theorem decision_applied_once (cfg : Config) (env : Env) (w : World)
    {P : Pool sig (Except Err DecisionReply × Identity) World}
    (hP : Pool.Reachable (handler env) (Submits cfg) (fun _ _ => True) w P) :
    (∀ k x, (partsOf P.trace k x).length ≤ 1) ∧
      ∀ e ∈ P.trace, part e.2 ≠ none → ∃ k, decides P.trace k e.1 = true := by
  obtain ⟨vs, h⟩ := exists_decisionInv hP
  constructor
  · intro k x
    have hpair : (partsOf P.trace k x).Pairwise fun _ _ => False := by
      refine List.Pairwise.imp_of_mem ?_ (h.apart.filter _)
      intro e e' he he' hne
      simp only [partsOf, List.mem_filter, Bool.and_eq_true, beq_iff_eq] at he he'
      -- Both requests have won the case, so they are one request.
      have hwon : ∀ d, d ∈ P.trace ∧ part d.2 = some x ∧
          decides P.trace k d.1 = true → ∃ v, vs[d.1]? = some v ∧ .claim ∈ v.done ∧
            v.key = some k := by
        intro d hd
        obtain ⟨v, hv, hdone⟩ := h.seen d hd.1 x hd.2.1
        obtain ⟨u, hu, huk⟩ := (h.keys d.1 k).mp hd.2.2
        obtain rfl : v = u := Option.some.inj (hv.symm.trans hu)
        exact ⟨v, hv, (h.first d.1 v x hv hdone).1, huk⟩
      obtain ⟨v, hv, hx, hk⟩ := hwon e he
      obtain ⟨v', hv', hx', hk'⟩ := hwon e' he'
      exact hne x he.2.1 he'.2.1 (h.unique _ _ v v' k hv hv' hx hx' hk hk')
    match hparts : partsOf P.trace k x with
    | [] => simp
    | [_] => simp
    | e :: e' :: rest =>
      rw [hparts] at hpair
      exact ((List.pairwise_cons.mp hpair).1 e' List.mem_cons_self).elim
  · intro e he hpart
    obtain ⟨x, hx⟩ := Option.ne_none_iff_exists'.mp hpart
    obtain ⟨v, hv, hdone⟩ := h.seen e he x hx
    obtain ⟨-, k, hk⟩ := h.first e.1 v x hv hdone
    exact ⟨k, (h.keys e.1 k).mpr ⟨v, hv, hk⟩⟩

/-! ## Two decisions about one case -/

def sampleConfig : Config where
  chunkSize := 4
  chunkOverlap := 0
  chunkPreviewMaxChars := 10
  reviewSnippetMaxChars := 10
  reviewResumeTokenTtlSeconds := 100
  uploadDir := "/data"
  maxUploadBytes := 100
  hashText := fun s => "sha-" ++ s
  isAlnum := Char.isAlphanum
  resolvePath := fun s => ((s.toList.splitOn '/').filter (· ≠ [])).map String.ofList
  detect := fun text _ =>
    if text = "secret text" then
      [⟨"pii", 1, 1 / 2, "The text holds a secret.", "Secrets must not be indexed.", 0, 6, ""⟩]
    else []

def sampleEnv (faults : List (Nat × Fault)) : Env where
  clock n := n
  newId n := "id-" ++ toString n
  newToken n := "token-" ++ toString n
  fault n := Py.Dict.get? faults n

def sampleAdmin : Identity := ⟨"acme", "ann", .admin, none, none⟩

def noContext : RequestContext := ⟨none, none, none, none, none, none⟩

def after {α : Type} (p : FilesM α) (w : World) : World :=
  (p.run (handler (sampleEnv [])) sampleAdmin w).2.2

def startedWorld : World :=
  after (handleStartFileIngestion sampleConfig
    ⟨some "a.txt", some "file", none, some "task", some (.bytes 3), noContext⟩) World.empty

def completion (text : String) : FilesM (Option ExtractionReply) :=
  handleCompleteExtraction sampleConfig "file" (some "task") ⟨text, .null, noContext⟩

def pausedWorld : World := after (completion "secret text") startedWorld

def decisionOf (action : ReviewAction) (patchMap : List Patch) : DecisionPayload :=
  ⟨some action, some "sha-secret text", patchMap, "", noContext⟩

def acceptRequest : Prog sig (Except Err DecisionReply × Identity) :=
  (handleSubmitReviewDecision sampleConfig "file" "id-2" (decisionOf .acceptAsIs [])).start
    sampleAdmin

/-- Two requests that take turns, so that both pass the checks before one of them claims. -/
def takingTurns : List (Pool.Choice sig (Except Err DecisionReply × Identity)) :=
  .spawn acceptRequest :: .spawn acceptRequest ::
    (List.range 40).flatMap fun _ => [.act 0, .act 1]

theorem decision_applied_once_takingTurns :
    (∀ x ∈ [Part.claim, .record, .chunks, .job], (partsOf
      (Pool.exec (handler (sampleEnv [])) takingTurns (.initial pausedWorld)).trace
      (sampleAdmin.key "id-2") x).length = 1) ∧
    ∀ k x, (partsOf (Pool.exec (handler (sampleEnv [])) takingTurns
      (.initial pausedWorld)).trace k x).length ≤ 1 := by
  refine ⟨by decide +kernel, ?_⟩
  refine (decision_applied_once sampleConfig (sampleEnv []) pausedWorld
    (Pool.reachable_exec takingTurns ?_ (Pool.guarded_true _ _) .initial)).1
  intro p hp
  obtain rfl : p = acceptRequest := by simpa [takingTurns] using hp
  exact ⟨_, _, _, _, rfl⟩

end RagForge.Files
