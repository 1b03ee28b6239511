import RagForge.Effect.Twin
import RagForge.Memories.Retrieve

/-
The operations that each part of the memory service performs.

All of them stay inside the boundary of the caller, with one exception: the unique index of the
write log knows no boundary.
-/

namespace RagForge.Memories

open Effect Py

/-! ## Kinds of operations -/

section

variable (b)

def Op.Reads : Op → Prop
  | .now | .newId | .utcNow | .embedMemory _ | .embedQuery _ => True
  | .findMemories b' _ | .findMemory b' _ _ | .findPreference b' _ _ _ | .findTombstone b' _
  | .findLog b' _ => b' = b
  | _ => False

def Op.Searches : Op → Prop
  | .search b' _ _ _ _ => b' = b
  | _ => False

def Op.Logs (request : Option String) : Op → Prop
  | .updateLog b' _ _ => b' = b
  | .insertLog entry => entry.boundary = b ∧ entry.requestId = request
  | _ => False

def Op.Syncs : Op → Prop
  | .updateMemory b' _ _ (.retrieval _ _) => b' = b
  | .upsertPoint p => p.boundary = b
  | _ => False

def Op.Touches : Op → Prop
  | .updateMemory b' _ _ (.lastAccessed _) => b' = b
  | _ => False

def Op.Retires : Op → Prop
  | .updateMemory b' _ _ (.supersede ..) | .updateMemory b' _ _ (.embeddingStatus _)
  | .deletePoints b' _ => b' = b
  | _ => False

def Op.Stores : Op → Prop
  | .insertMemory m => m.boundary = b
  | .updateMemory b' _ _ (.replace _) => b' = b
  | _ => False

abbrev Does {α : Type} (ok : Op → Prop) (p : MemM α) : Prop := Performs (S := sig) ok p

def Op.ReadsOr (more : Op → Prop) (op : Op) : Prop := op.Reads b ∨ more op

end

section

variable {lib : Lib} {cfg : Settings} {b : Boundary} {α : Type} {ok : Op → Prop}

theorem Does.andMore {p : MemM α} (h : Does (Op.Reads b) p) (more : Op → Prop) :
    Does (Op.ReadsOr b more) p :=
  h.mono fun _ hop => .inl hop

theorem Does.op {op : Op} (h : ok op) : Does ok (perform op) := .perform h

theorem Does.read {op : Op} {more : Op → Prop} (h : op.Reads b) :
    Does (Op.ReadsOr b more) (perform op) := Does.op (.inl h)

theorem Does.more {op : Op} {more : Op → Prop} (h : more op) :
    Does (Op.ReadsOr b more) (perform op) := Does.op (.inr h)

theorem Does.read_bind {op : Op} {more : Op → Prop} {f : Reply op → MemM α} (h : op.Reads b)
    (hf : ∀ a, Does (Op.ReadsOr b more) (f a)) : Does (Op.ReadsOr b more) (perform op >>= f) :=
  (Does.read h).bind hf

theorem Does.more_bind {op : Op} {more : Op → Prop} {f : Reply op → MemM α} (h : more op)
    (hf : ∀ a, Does (Op.ReadsOr b more) (f a)) : Does (Op.ReadsOr b more) (perform op >>= f) :=
  (Does.more h).bind hf

theorem attempt_performs {p : MemM α} (h : Does ok p) (catches : Err → Bool) :
    Does ok (attempt p catches) :=
  (h.bind fun a => .pure (Except.ok a)).handle fun e =>
    .ite (.pure _) (.raise e)

/-! ## Reading -/

theorem allMemoryDocuments_reads (includeTombstones : Bool) :
    Does (Op.Reads b) (allMemoryDocuments b includeTombstones) := by
  refine .bind (Does.op rfl) fun _ => ?_
  refine .bind (Does.op rfl) fun _ => ?_
  exact .ite (.pure _) (.pure _)

theorem activeMemoryDocuments_reads (f : DocumentFilter) :
    Does (Op.Reads b) (activeMemoryDocuments lib b f) :=
  (allMemoryDocuments_reads false).bind fun _ => .ofExcept _

theorem findMemoryDocument_reads (id : String) (includeTombstones : Bool) :
    Does (Op.Reads b) (findMemoryDocument b id includeTombstones) := by
  refine .bind (Does.op rfl) fun episodic => ?_
  split
  · exact .pure _
  · exact .bind (Does.op rfl) fun _ => .pure _

theorem firstTombstone_reads (queries : List (TombstoneQuery × TombstoneMatch)) :
    Does (Op.Reads b) (firstTombstone b queries) := by
  induction queries with
  | nil => exact .pure none
  | cons q rest ih =>
    refine .bind (Does.op rfl) fun found => ?_
    cases found with
    | none => exact ih
    | some t => exact .pure _

theorem semanticHits_performs (m : Memory) (limit : Nat) :
    Does (Op.ReadsOr b (Op.Searches b)) (semanticHits cfg b m limit) := by
  refine .ite ?_ (.pure none)
  refine .handle ?_ fun e => .ite (.pure none) (.raise e)
  refine Does.read_bind trivial fun _ => ?_
  exact Does.more_bind rfl fun _ => .pure _

theorem comparableMemories_performs (m : Memory) :
    Does (Op.ReadsOr b (Op.Searches b)) (comparableMemories lib cfg b m) := by
  refine ((activeMemoryDocuments_reads _).andMore _).bind fun active => ?_
  refine (semanticHits_performs m _).bind fun semantic => ?_
  cases semantic with
  | none | some => exact (Performs.ofExcept _).bind fun _ => .pure _

theorem resultFromLog_reads (entry : LogEntry) : Does (Op.Reads b) (resultFromLog b entry) := by
  refine .bind ?_ fun _ => .pure _
  unfold loggedMemory
  split
  · exact findMemoryDocument_reads _ false
  · exact .pure none

theorem findLogged_reads (ctx : RequestContext) : Does (Op.Reads b) (findLogged b ctx) := by
  unfold findLogged
  split
  · exact Does.op rfl
  · exact .pure none

/-! ## Retrieval -/

theorem semanticCandidates_performs (text ownerId ownerType : String) (limit : Nat) :
    Does (Op.ReadsOr b (Op.Searches b)) (semanticCandidates cfg b text ownerId ownerType
      limit) := by
  refine (Performs.pure _).ite ((Performs.pure _).ite ?_)
  have hembed : Does (Op.ReadsOr b (Op.Searches b)) (perform
    (.embedQuery text)) := Does.read trivial
  refine (attempt_performs hembed _).bind fun embedded => ?_
  cases embedded with
  | error e => exact .pure _
  | ok vector =>
    have hsearch : Does (Op.ReadsOr b (Op.Searches b))
        (perform (.search b vector ownerId ownerType (max (limit * 2) limit))) := Does.more rfl
    refine (attempt_performs hsearch _).bind fun found => ?_
    cases found with
    | error | ok => exact .pure _

theorem classSignal_reads (m : Memory) : Does (Op.Reads b) (classSignal lib m) := by
  unfold classSignal
  split
  · unfold episodicRecencyScore
    split
    · exact .pure _
    · exact (Does.op trivial).bind fun _ =>
        .ite (.pure _) (.raise _)
  · exact .pure _

theorem rankDocuments_reads (tokens : List String) (hits : List Hit) (ms : List Memory) :
    Does (Op.Reads b) (rankDocuments lib tokens hits ms) := by
  induction ms with
  | nil => exact .pure []
  | cons m rest ih =>
    refine ((classSignal_reads m).bind fun _ => .pure _).bind fun _ => ?_
    exact ih.bind fun _ => .ite (.pure _) (.pure _)

theorem updateLastAccessed_performs (time : String) (ids : List String) :
    Does (Op.ReadsOr b (Op.Touches b)) (updateLastAccessed b time ids) := by
  refine .forEach ids fun id _ => ?_
  refine (Does.andMore (findMemoryDocument_reads id false) _).bind fun found => ?_
  cases found with
  | none => exact .pure ()
  | some m => exact Does.more rfl

theorem getRelevantMemories_performs (query : Dict String Json) :
    Does (Op.ReadsOr b fun op => op.Searches b ∨ op.Touches b)
      (getRelevantMemories lib cfg b query) := by
  unfold getRelevantMemories
  refine .ite (.raise _) (Performs.ite (.raise _) ?_)
  refine (Performs.ofExcept _).bind fun q => ?_
  refine (Does.andMore (activeMemoryDocuments_reads _) _).bind fun candidates => ?_
  refine ((semanticCandidates_performs _ _ _ _).mono fun _ => Or.imp_right .inl).bind fun leg => ?_
  refine (Does.andMore (rankDocuments_reads _ _ _) _).bind fun ranked => ?_
  refine (Performs.ofExcept _).bind fun sorted => ?_
  refine Does.read_bind trivial fun now => ?_
  exact ((updateLastAccessed_performs _ _).mono fun _ => Or.imp_right .inr).bind
    fun _ => .pure _

/-! ## Writing -/

theorem syncVectorIndex_performs (m : Memory) (vector : Option (List Rat)) :
    Does (Op.ReadsOr b (Op.Syncs b)) (syncVectorIndex lib cfg b m vector) := by
  have failure : ∀ status, Does (Op.ReadsOr b (Op.Syncs b))
      (recordVectorFailure b m status) := fun status =>
    Does.read_bind trivial fun _ => Does.more_bind rfl fun _ => .pure _
  have store : ∀ v, Does (Op.ReadsOr b (Op.Syncs b)) (storeVector lib b m v) := by
    intro v
    have hput : Does (Op.ReadsOr b (Op.Syncs b)) (perform (.upsertPoint (pointOf lib b m v))) :=
      Does.more rfl
    refine (attempt_performs hput _).bind fun stored => ?_
    cases stored with
    | error e => exact failure .pending
    | ok _ =>
      exact Does.read_bind trivial fun _ => Does.more_bind rfl fun _ => .pure _
  refine .ite ?_ (Does.more_bind rfl fun _ => .pure _)
  cases vector with
  | some v => exact store v
  | none =>
    have hembed : Does (Op.ReadsOr b (Op.Syncs b)) (perform (.embedMemory m.text)) :=
      Does.read trivial
    refine (attempt_performs hembed _).bind fun embedded => ?_
    cases embedded with
    | error e => exact failure .failed
    | ok v => exact store v

theorem applyDecision_performs {m : Memory} (hm : m.boundary = b) (comparable : List Scored)
    (d : Decision) :
    Does (Op.ReadsOr b (Op.Stores b)) (applyDecision lib cfg b m comparable d) := by
  have insert : ∀ (n : Memory) (reason : String), n.boundary = b →
      Does (Op.ReadsOr b (Op.Stores b)) (insertCandidate n reason) := fun n reason hn =>
    Does.more_bind hn fun _ => .pure _
  unfold applyDecision
  split
  · refine Does.read_bind rfl fun existing => ?_
    cases existing with
    | none => exact Does.more_bind hm fun _ => .pure _
    | some old =>
      refine Does.read_bind trivial fun now => ?_
      refine (Performs.ofExcept _).bind fun merged => ?_
      exact Does.more_bind rfl fun _ => .pure _
  · split
    · refine Does.read_bind trivial fun now => ?_
      refine (Performs.ofExcept _).bind fun merged => ?_
      exact Does.more_bind rfl fun _ => .pure _
    · exact Does.read_bind trivial fun now => insert _ _ hm
    · exact insert m _ hm

theorem applySupersession_performs (m : Memory) (target : String) :
    Does (Op.ReadsOr b (Op.Retires b)) (applySupersession lib cfg b m target) := by
  unfold applySupersession
  refine (Performs.pure none).ite ?_
  refine ((findMemoryDocument_reads _ false).andMore _).bind fun found => ?_
  cases found with
  | none => exact .pure none
  | some doc =>
    refine Does.read_bind trivial fun now => ?_
    refine Does.more_bind rfl fun _ => ?_
    refine .ite ?_ (.pure _)
    have hremove : Does (Op.ReadsOr b (Op.Retires b))
        (perform (.deletePoints b (normalizeText lib (.str target)))) := Does.more rfl
    refine (attempt_performs hremove _).bind fun removed => ?_
    cases removed with
    | ok _ => exact .pure _
    | error e => exact Does.more_bind rfl fun _ => .pure _

theorem logOutcome_performs (ctx : RequestContext) (outcome : LoggedOutcome) :
    Does (Op.ReadsOr b (Op.Logs b ctx.request)) (logOutcome b ctx outcome) := by
  have insert : Does (Op.ReadsOr b (Op.Logs b ctx.request)) (do
      let id ← perform .newId
      perform (.insertLog ⟨b, id, ctx.request, outcome⟩) : MemM Unit) :=
    Does.read_bind trivial fun _ => Does.more ⟨rfl, rfl⟩
  unfold logOutcome
  split
  · exact insert
  · refine Does.read_bind rfl fun existing => ?_
    cases existing with
    | none => exact insert
    | some entry => exact Does.more rfl

end

end RagForge.Memories
