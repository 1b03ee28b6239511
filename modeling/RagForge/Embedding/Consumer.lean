import RagForge.Embedding.Job

/-
The consumer loop of the embedding jobs (`embedding/app/consumers.py`, `embedding_job_worker.py`,
`messaging/embedding_kafka.py`).

A poll returns one record and moves the position of the consumer past it.  The loop swallows every
exception and polls again, and a commit stores the position.  A message that was neither processed
nor written to the dead-letter queue is therefore lost as soon as the same or a later message is
committed.
-/

namespace RagForge.Embedding

open Py Effect

/-- What the loop reads of a message before it verifies the ticket.  It calls `get` on the message
and on its payload, which raises on anything that is no dictionary. -/
def readable (raw : Json) : Except Exc Unit :=
  match raw with
  | .obj fields =>
    match (Dict.get? fields "payload").getD (.obj []) with
    | .obj _ => .ok ()
    | _ => .error (.other "the payload has no attribute 'get'")
  | _ => .error (.other "the message has no attribute 'get'")

/-- The loop body up to `handle_message`. -/
def admitMessage (raw : Json) : JobM Unit := do
  (Proc.ofExcept (readable raw) : JobM Unit)
  call (.log "consumers:embedding_jobs")
  call (.verifyTicket raw)

/-- The loop body up to the commit of `handle_message`. -/
def settleMessage (cfg : JobConfig) (raw : Json) : JobM Settlement := do
  admitMessage raw
  processMessage cfg raw

/-- The consumer's partition: how far it has polled and which positions it has committed, oldest
first. -/
structure Partition where
  position : Nat
  commits : List Nat

section

variable {σ : Type} (cfg : JobConfig) (h : Handler sig σ)

/-- The loop body on one message, with the exceptions it swallows.  The result says whether the
message was committed. -/
def handleMessage (raw : Json) (s : σ) : Bool × σ :=
  match (settleMessage cfg raw).run h () s with
  | (.error _, _, s) => (false, s)
  | (.ok _, _, s) =>
    match (call .commit).run h () s with
    | (.error _, _, s) => (false, s)
    | (.ok _, _, s) =>
      -- the log entries after the commit can raise, which the loop swallows too
      (true, ((call (.log "embedding_job:commit")).run h () s).2.2)

/-- What a poll and the handling of the record it returned do to the partition. -/
def Partition.polled (p : Partition) (committed : Bool) : Partition where
  position := p.position + 1
  commits := if committed then p.commits ++ [p.position + 1] else p.commits

/-- The loop over the messages of a partition. -/
def processEmbeddingJobRequests : List Json → Partition → σ → Partition
  | [], p, _ => p
  | raw :: rest, p, s =>
    let x := handleMessage cfg h raw s
    processEmbeddingJobRequests rest (p.polled x.1) x.2

/-! ## What becomes of a message -/

/-- How far a message came before the commit. -/
inductive Fate
  /-- It could not be read or logged, or the verification of its ticket raised. -/
  | refused
  /-- An exception left the processing, or the log entry before the dead letter. -/
  | raised
  | processed
  /-- `DeadLetterQueue.send` published the dead letter or swallowed its failure, and the publisher's
  own flush after it returned or raised. -/
  | deadLettered (written flushed : Bool)
  deriving DecidableEq

/-- The message was processed to the end or written to the dead-letter queue. -/
def Fate.kept : Fate → Bool
  | .processed => true
  | .deadLettered written _ => written
  | _ => false

/-- No exception escapes before the commit. -/
def Fate.settles : Fate → Bool
  | .processed => true
  | .deadLettered _ flushed => flushed
  | _ => false

/-- One phase: what the message becomes if it raises, and how it goes on otherwise. -/
def phase {α : Type} (p : JobM α) (onError : Fate) (next : α → σ → Fate × σ) (s : σ) : Fate × σ :=
  match p.run h () s with
  | (.error _, _, s) => (onError, s)
  | (.ok a, _, s) => next a s

def deadLetterFate (d : DeadLetter) : σ → Fate × σ :=
  phase h (call (.log "embedding_job:dlq")) .raised fun _ =>
    phase h (sendDeadLetter d) .raised fun written =>
      phase h (call .flush) (.deadLettered written false) fun _ s => (.deadLettered written true, s)

def fate (raw : Json) : σ → Fate × σ :=
  phase h (admitMessage raw) .refused fun _ =>
    phase h (execute (processJobOnce cfg raw) (max 1 cfg.kafkaMaxRetries) 0 none) .raised
      fun ended s =>
        match ended with
        | .done => (.processed, s)
        | .rejected attempt e => deadLetterFate h ⟨raw, e, max 1 (attempt + 1)⟩ s
        | .exhausted attempts last => deadLetterFate h
            ⟨raw, last.getD (.retryable "Embedding job retries exhausted"), max 1 attempts⟩ s

/-- The fate of a message, and whether a commit returns then. -/
structure Passage where
  fate : Fate
  commitReturns : Bool
  deriving DecidableEq

def Passage.commits (x : Passage) : Bool := x.fate.settles && x.commitReturns

def passage (raw : Json) (s : σ) : Passage where
  fate := (fate cfg h raw s).1
  commitReturns := ((call .commit).run h () (fate cfg h raw s).2).1.toBool

/-- The passages of the messages of a partition, in the states the loop comes to them. -/
def passages : List Json → σ → List Passage
  | [], _ => []
  | raw :: rest, s => passage cfg h raw s :: passages rest (handleMessage cfg h raw s).2

/-- No commit covers a message that was neither processed nor dead-lettered. -/
def NothingLost (messages : List Json) (s : σ) : Prop :=
  ∀ (i : Nat) (x : Passage), (passages cfg h messages s)[i]? = some x →
    (∃ c ∈ (processEmbeddingJobRequests cfg h messages ⟨0, []⟩ s).commits, i < c) →
      x.fate.kept = true

/-- No message is lost at or before one that is settled without an exception and whose commit
returns: none is refused, no exception leaves its processing, and a dead letter is written. -/
def NoCommitAfterLoss (messages : List Json) (s : σ) : Prop :=
  ∀ (i j : Nat) (x y : Passage), (passages cfg h messages s)[i]? = some x →
    (passages cfg h messages s)[j]? = some y → i ≤ j → y.fate.settles = true →
      y.commitReturns = true → x.fate.kept = true

/-! ## The loop body and the phases -/

section

variable {α β : Type} {q : α → JobM β} {next : α → σ → Fate × σ} {onError : Fate}

/-- A program ends in the state of a fate, and raises exactly if the fate says so. -/
def Agrees (p : JobM β) (x : σ → Fate × σ) : Prop :=
  ∀ s, (p.run h () s).2.2 = (x s).2 ∧ (p.run h () s).1.toBool = (x s).1.settles

theorem agrees_phase (p : JobM α) (honError : onError.settles = false)
    (hnext : ∀ a, Agrees h (q a) (next a)) : Agrees h (p >>= q) (phase h p onError next) := by
  intro s
  unfold phase
  rcases hp : p.run h () s with ⟨result, _, s'⟩
  cases result with
  | error e =>
    rw [Proc.run_bind_error hp]
    exact ⟨rfl, honError.symm⟩
  | ok a =>
    rw [Proc.run_bind_ok hp]
    exact hnext a s'

theorem agrees_sendToDlq (raw : Json) (e : Exc) (retryCount : Nat) :
    Agrees h (sendToDlq raw e retryCount) (deadLetterFate h ⟨raw, e, retryCount⟩) :=
  agrees_phase h _ rfl fun _ => agrees_phase h _ rfl fun _ => agrees_phase h _ rfl fun _ _ =>
    ⟨rfl, rfl⟩

theorem agrees_settleMessage (raw : Json) : Agrees h (settleMessage cfg raw) (fate cfg h raw) := by
  refine agrees_phase h _ rfl fun _ => agrees_phase h _ rfl fun ended => ?_
  cases ended with
  | done => exact fun s => ⟨rfl, rfl⟩
  | rejected attempt e => exact agrees_sendToDlq h raw e _
  | exhausted attempts last => exact agrees_sendToDlq h raw _ _

end

/-- The loop body commits a message exactly if it is settled and the commit returns. -/
theorem handleMessage_eq (raw : Json) (s : σ) :
    (handleMessage cfg h raw s).1 = (passage cfg h raw s).commits := by
  obtain ⟨hstate, hsettles⟩ := agrees_settleMessage cfg h raw s
  rw [Passage.commits, passage, ← hstate, ← hsettles]
  unfold handleMessage
  rcases (settleMessage cfg raw).run h () s with ⟨result, _, s'⟩
  cases result with
  | error e => rfl
  | ok settlement =>
    dsimp only
    rcases (call .commit).run h () s' with ⟨commit, _, s''⟩
    cases commit <;> rfl

/-! ## Commits of a run -/

/-- A run commits the position after each message that is settled and whose commit returns, and
nothing else. -/
theorem mem_commits_iff (messages : List Json) :
    ∀ (p : Partition) (s : σ) (c : Nat),
      c ∈ (processEmbeddingJobRequests cfg h messages p s).commits ↔
        c ∈ p.commits ∨ ∃ (j : Nat) (y : Passage), (passages cfg h messages s)[j]? = some y ∧
          y.commits = true ∧ c = p.position + j + 1 := by
  induction messages with
  | nil => intro p s c; simp [processEmbeddingJobRequests, passages]
  | cons raw rest ih =>
    intro p s c
    simp only [processEmbeddingJobRequests, passages]
    rw [ih, handleMessage_eq]
    generalize passage cfg h raw s = x
    have hfirst : c ∈ (p.polled x.commits).commits ↔
        c ∈ p.commits ∨ x.commits = true ∧ c = p.position + 1 := by
      unfold Partition.polled
      cases x.commits with
      | true | false => simp
    rw [hfirst, or_assoc]
    refine or_congr_right ⟨?_, ?_⟩
    · intro hc
      rcases hc with hc | ⟨j, y, hj, hy, hc⟩
      · exact ⟨0, x, rfl, hc⟩
      · refine ⟨j + 1, y, hj, hy, ?_⟩
        simp only [Partition.polled] at hc
        omega
    · intro hc
      obtain ⟨j, y, hj, hy, hc⟩ := hc
      cases j with
      | zero =>
        obtain rfl : x = y := by simpa using hj
        exact .inl ⟨hy, by omega⟩
      | succ j =>
        refine .inr ⟨j, y, hj, hy, ?_⟩
        simp only [Partition.polled]
        omega

/-- The offsets a run covers are those of the messages at or before one that was committed. -/
theorem covered_iff (messages : List Json) (s : σ) (i : Nat) :
    (∃ c ∈ (processEmbeddingJobRequests cfg h messages ⟨0, []⟩ s).commits, i < c) ↔
      ∃ (j : Nat) (y : Passage), (passages cfg h messages s)[j]? = some y ∧
        y.commits = true ∧ i ≤ j := by
  constructor
  · intro hcov
    obtain ⟨c, hc, hi⟩ := hcov
    rw [mem_commits_iff] at hc
    rcases hc with hc | ⟨j, y, hj, hy, hcj⟩
    · simp at hc
    · dsimp only at hcj
      exact ⟨j, y, hj, hy, by omega⟩
  · intro hcov
    obtain ⟨j, y, hj, hy, hij⟩ := hcov
    refine ⟨j + 1, (mem_commits_iff cfg h messages ⟨0, []⟩ s (j + 1)).mpr ?_, by omega⟩
    exact .inr ⟨j, y, hj, hy, by rw [Nat.zero_add]⟩

/-- For every sequence of messages and every pattern of operations that raise, no commit covers a
lost message exactly if no message that is settled and whose commit returns comes with or after one
whose ticket is refused, whose processing is left by an exception or whose dead letter is not
written. -/
theorem nothingLost_iff (messages : List Json) (s : σ) :
    NothingLost cfg h messages s ↔ NoCommitAfterLoss cfg h messages s := by
  unfold NothingLost NoCommitAfterLoss
  constructor
  · intro hlost i j x y hi hj hij hsettles hreturns
    refine hlost i x hi ((covered_iff cfg h messages s i).mpr ⟨j, y, hj, ?_, hij⟩)
    rw [Passage.commits, hsettles, hreturns]
    rfl
  · intro hno i x hi hcov
    obtain ⟨j, y, hj, hy, hij⟩ := (covered_iff cfg h messages s i).mp hcov
    obtain ⟨hsettles, hreturns⟩ := Bool.and_eq_true_iff.mp hy
    exact hno i j x y hi hj hij hsettles hreturns

end

/-! ## A lost message -/

def ticketMessage (ticket : String) : Json := .obj [("ticket", .str ticket)]

def emptyJobConfig : JobConfig where
  embeddingMaxBatchSize := 32
  passagePrefix := ""
  collectionName := "rag_chunks_v1"
  modelName := "model"
  kafkaMaxRetries := 3
  parseModel _ := .ok ⟨"message", "request", "trace", "correlation", "job", "file", "file", []⟩

def badTicketHandler : Handler sig Unit
  | .isAvailable, s => (.ok true, s)
  | .encode texts, s => (.ok (texts.map fun _ => [1]), s)
  | .verifyTicket raw, s =>
    if (raw.get "ticket").text = "bad" then (.error (.other "invalid ticket"), s) else (.ok (), s)
  | .publishUpsertRequested _, s => (.ok (), s)
  | .publishJobCompleted _, s => (.ok (), s)
  | .sendStageUpdate _, s => (.ok (), s)
  | .sendDeadLetter _, s => (.ok (), s)
  | .flush, s => (.ok (), s)
  | .span _, s => (.ok (), s)
  | .log _, s => (.ok (), s)
  | .commit, s => (.ok (), s)

/-- The commit of the second job covers the first, whose ticket was refused. -/
theorem not_nothingLost_badTicket :
    ¬ NothingLost emptyJobConfig badTicketHandler [ticketMessage "bad", ticketMessage "good"]
      () := by
  intro hlost
  have hfirst := hlost 0 ⟨.refused, true⟩ (by decide +kernel) ⟨2, by decide +kernel, by decide⟩
  cases hfirst

end RagForge.Embedding
