import RagForge.Effect.Pool
import RagForge.Files.Text

/-
The repository of the files service (`app/db`), one operation for each call of the store, and the
other things a handler asks for: identifiers, tokens, the clock and the message producer.

Without transactions every call takes effect on its own.
-/

namespace RagForge.Files

open Py Store Effect

inductive StoreOp
  | getFile (fileId : String)
  | getTask (taskId : String)
  | getReviewCase (reviewCaseId : String)
  | getLatestReviewDecision (reviewCaseId : String)
  | getNextChunkVersion (documentId : String)
  | createFile (fileId : String) (owner : Ownership) (doc : FileDoc)
  | createTask (taskId : String) (owner : Ownership) (doc : TaskDoc)
  | createReviewCase (reviewCaseId : String) (owner : Ownership) (doc : ReviewCase)
  | createReviewDecision (reviewCaseId : String) (owner : Ownership) (doc : Decision)
  | createChunks (owner : Ownership) (docs : List Chunk)
  | insertAuditEvent (owner : Ownership) (doc : AuditEvent)
  | updateFile (fileId : String) (set : FileDoc → FileDoc)
  | updateStage (fileId stageName status : String)
  | updateTask (taskId : String) (set : TaskDoc → TaskDoc)
  | updateReviewCase (reviewCaseId : String) (set : ReviewCase → ReviewCase)
  | claimReviewCase (reviewCaseId extractedTextHash resumeTokenHash claimId : String)
      (claimedAt : Nat)
  | deleteFile (fileId : String)
  | deleteChunksForFile (fileId : String)
  | send (message : Message)
  | flush
  | removeStoredFile (path : List String)
  | newId
  | newToken
  | now

@[reducible] def StoreOp.Reply : StoreOp → Type
  | .getFile _ => Option (Row FileDoc)
  | .getTask _ => Option (Row TaskDoc)
  | .getReviewCase _ => Option (Row ReviewCase)
  | .getLatestReviewDecision _ => Option (Row Decision)
  | .getNextChunkVersion _ | .createChunks .. | .deleteChunksForFile _ | .now => Nat
  | .createFile .. | .createTask .. | .createReviewCase .. | .createReviewDecision ..
  | .insertAuditEvent .. | .send _ | .flush | .removeStoredFile _ => Unit
  | .updateFile .. | .updateStage .. | .updateTask .. | .updateReviewCase .. | .claimReviewCase ..
  | .deleteFile _ => Bool
  | .newId | .newToken => String

structure Call where
  who : Identity
  op : StoreOp

def sig : Sig := ⟨Call, fun c => c.op.Reply, Err⟩

/-- What the repository writes before the text of the error it wraps. -/
def StoreOp.failure : StoreOp → String
  | .getFile _ => "Failed to get file: "
  | .getTask _ => "Failed to get file task: "
  | .getReviewCase _ => "Failed to get review case: "
  | .getLatestReviewDecision _ => "Failed to get review decision: "
  | .getNextChunkVersion _ => "Failed to get next chunk version: "
  | .createFile .. => "Failed to create file: "
  | .createTask .. => "Failed to create file task: "
  | .createReviewCase .. => "Failed to create review case: "
  | .createReviewDecision .. => "Failed to create review decision: "
  | .createChunks .. => "Failed to create chunks: "
  | .insertAuditEvent .. => "Failed to insert audit event: "
  | .updateFile .. => "Failed to update file: "
  | .updateStage .. => "Failed to update stage: "
  | .updateTask .. => "Failed to update task: "
  | .updateReviewCase .. => "Failed to update review case: "
  | .claimReviewCase .. => "Failed to claim review case: "
  | .deleteFile _ => "Failed to delete file: "
  | .deleteChunksForFile _ => "Failed to delete chunks: "
  | .send _ | .flush | .removeStoredFile _ | .newId | .newToken | .now => ""

/-- The calls that can fail: those of the database and of the producer. -/
def StoreOp.isStore : StoreOp → Bool
  | .removeStoredFile _ | .newId | .newToken | .now => false
  | _ => true

structure World where
  files : Collection FileDoc
  tasks : Collection TaskDoc
  cases : Collection ReviewCase
  /-- One decision for each case: the unique index on tenant and case. -/
  decisions : Collection Decision
  chunks : Collection Chunk
  audits : List (Row AuditEvent)
  /-- The messages handed to the producer, with the tenant they are for. -/
  sent : List (String × Message)
  /-- The paths of the uploaded files that were removed from the disk. -/
  removed : List (List String)
  /-- The number of store calls so far. -/
  tick : Nat
  /-- The number of identifiers, tokens and times drawn so far. -/
  drawn : Nat

def World.empty : World := ⟨∅, ∅, ∅, ∅, ∅, [], [], [], 0, 0⟩

structure Fault where
  message : String
  applied : Bool

structure Env where
  clock : Nat → Nat
  newId : Nat → String
  newToken : Nat → String
  fault : Nat → Option Fault

/-! ## Effects -/

def insertRow {δ : Type} (t : Collection δ) (k : DocKey) (r : Row δ) :
    Except String (Collection δ) :=
  if k ∈ t then .error "duplicate key" else .ok (t.insert k r)

/-- `insert_one` of a document with its ownership. -/
def insertOne {δ : Type} (who : Identity) (t : Collection δ) (id : String) (owner : Ownership)
    (doc : δ) : Except String (Collection δ) :=
  match scopeDocument who owner with
  | .error e => .error e.text
  | .ok o => insertRow t (who.key id) ⟨o, doc⟩

/-- `update_one` with `$set`, and whether a document matched. -/
def updateOne {δ : Type} (who : Identity) (t : Collection δ) (id : String) (set : δ → δ) :
    Bool × Collection δ :=
  ((t.find who.sees (who.key id)).isSome,
    t.update who.sees (who.key id) fun r => { r with doc := set r.doc })

/-- `insert_many(ordered=True)`: the chunks before the first that is refused are stored.  Their
ownership is settled before the call. -/
def insertChunks (who : Identity) (owner : Ownership) :
    List Chunk → Collection Chunk → Except String Unit × Collection Chunk
  | [], t => (.ok (), t)
  | c :: rest, t =>
    match insertRow t (who.key c.chunkId) ⟨owner, c⟩ with
    | .error e => (.error e, t)
    | .ok t' => insertChunks who owner rest t'

/-- The filter of `claim_review_case` besides the identifier. -/
def ReviewCase.claimable (extractedTextHash resumeTokenHash : String) (c : ReviewCase) : Bool :=
  c.status == .isOpen && c.decisionStatus == .pending &&
    c.extractedTextHash == extractedTextHash &&
    c.interrupt.resumeTokenHash == some resumeTokenHash

def ReviewCase.claim (claimId : String) (claimedAt : Nat) (c : ReviewCase) : ReviewCase :=
  { c with
    status := .resolving
    decisionStatus := .resolving
    resolutionClaimId := some claimId
    resolutionClaimedAt := some claimedAt }

/-- The partial unique index on the open cases of a file. -/
def openCaseExists (who : Identity) (t : Collection ReviewCase) (fileId : String) : Bool :=
  t.entries.any fun e =>
    e.1.tenantId == who.tenantId && e.2.doc.fileId == fileId && e.2.doc.status == .isOpen

def chunksOfFile (who : Identity) (fileId : String) (r : Row Chunk) : Bool :=
  who.sees r && r.doc.fileId == fileId

def nextChunkVersion (who : Identity) (t : Collection Chunk) (documentId : String) : Nat :=
  let versions := (t.select fun k r => k.tenantId == who.tenantId && who.sees r &&
    r.doc.documentId == documentId).map fun r => r.doc.chunkVersion
  versions.foldl max 0 + 1

def World.put (w : World) {δ : Type} (r : Except String (Collection δ))
    (set : Collection δ → World) : Except String Unit × World :=
  match r with
  | .error e => (.error e, w)
  | .ok t => (.ok (), set t)

theorem World.put_insertOne (w : World) {δ : Type} (who : Identity) (t : Collection δ)
    (id : String) (owner : Ownership) (doc : δ) (set : Collection δ → World) :
    (∃ e, w.put (insertOne who t id owner doc) set = (.error e, w)) ∨
      ∃ o, who.key id ∉ t ∧
        w.put (insertOne who t id owner doc) set =
          (.ok (), set (t.insert (who.key id) ⟨o, doc⟩)) := by
  unfold insertOne
  cases scopeDocument who owner with
  | error e => exact .inl ⟨_, rfl⟩
  | ok o =>
    dsimp only [insertRow]
    by_cases hmem : who.key id ∈ t
    · rw [if_pos hmem]
      exact .inl ⟨_, rfl⟩
    · rw [if_neg hmem]
      exact .inr ⟨o, hmem, rfl⟩

/-- What an operation replies and does when the call itself does not fail. -/
def StoreOp.effect (env : Env) (who : Identity) (w : World) :
    (op : StoreOp) → Except String op.Reply × World
  | .getFile id => (.ok (w.files.find who.sees (who.key id)), w)
  | .getTask id => (.ok (w.tasks.find who.sees (who.key id)), w)
  | .getReviewCase id => (.ok (w.cases.find who.sees (who.key id)), w)
  | .getLatestReviewDecision id => (.ok (w.decisions.find who.sees (who.key id)), w)
  | .getNextChunkVersion documentId => (.ok (nextChunkVersion who w.chunks documentId), w)
  | .createFile id owner doc =>
    w.put (insertOne who w.files id owner doc) fun t => { w with files := t }
  | .createTask id owner doc =>
    w.put (insertOne who w.tasks id owner doc) fun t => { w with tasks := t }
  | .createReviewCase id owner doc =>
    if doc.status = .isOpen ∧ openCaseExists who w.cases doc.fileId = true then
      (.error "duplicate key", w)
    else w.put (insertOne who w.cases id owner doc) fun t => { w with cases := t }
  | .createReviewDecision id owner doc =>
    w.put (insertOne who w.decisions id owner doc) fun t => { w with decisions := t }
  | .createChunks owner docs =>
    let out := insertChunks who owner docs w.chunks
    (out.1.map fun _ => docs.length, { w with chunks := out.2 })
  | .insertAuditEvent owner doc =>
    match scopeDocument who owner with
    | .error e => (.error e.text, w)
    | .ok o => (.ok (), { w with audits := w.audits ++ [⟨o, doc⟩] })
  | .updateFile id set =>
    let out := updateOne who w.files id fun f => { set f with updatedAt := env.clock w.drawn }
    (.ok out.1, { w with files := out.2 })
  | .updateStage id stageName status =>
    let out := updateOne who w.files id fun f =>
      { f.setStage stageName status with updatedAt := env.clock w.drawn }
    (.ok out.1, { w with files := out.2 })
  | .updateTask id set =>
    let out := updateOne who w.tasks id fun t => { set t with updatedAt := env.clock w.drawn }
    (.ok out.1, { w with tasks := out.2 })
  | .updateReviewCase id set =>
    let out := updateOne who w.cases id set
    (.ok out.1, { w with cases := out.2 })
  | .claimReviewCase id textHash tokenHash claimId claimedAt =>
    let visible : Row ReviewCase → Bool := fun r =>
      who.sees r && r.doc.claimable textHash tokenHash
    (.ok (w.cases.find visible (who.key id)).isSome,
      { w with cases := w.cases.update visible (who.key id) fun r =>
          { r with doc := r.doc.claim claimId claimedAt } })
  | .deleteFile id =>
    match w.files.find who.sees (who.key id) with
    | none => (.ok false, w)
    | some _ => (.ok true, { w with files := w.files.erase (who.key id) })
  | .deleteChunksForFile fileId =>
    let ours : DocKey → Row Chunk → Bool := fun k r =>
      k.tenantId == who.tenantId && chunksOfFile who fileId r
    (.ok (w.chunks.select ours).length,
      { w with chunks := w.chunks.filter fun k r => !ours k r })
  | .send message => (.ok (), { w with sent := w.sent ++ [(who.tenantId, message)] })
  | .flush => (.ok (), w)
  | .removeStoredFile path => (.ok (), { w with removed := w.removed ++ [path] })
  | .newId => (.ok (env.newId w.drawn), { w with drawn := w.drawn + 1 })
  | .newToken => (.ok (env.newToken w.drawn), { w with drawn := w.drawn + 1 })
  | .now => (.ok (env.clock w.drawn), { w with drawn := w.drawn + 1 })

def World.tock (w : World) : World := { w with tick := w.tick + 1 }

/-- The store under the faults of the environment. -/
def handler (env : Env) : Handler sig World := fun c w =>
  let out := c.op.effect env c.who w
  let wrap : String → Err := fun text => .database (c.op.failure ++ text)
  if c.op.isStore then
    match env.fault w.tick with
    | none => (out.1.mapError wrap, out.2.tock)
    | some f => (.error (wrap f.message), (if f.applied then out.2 else w).tock)
  else (out.1.mapError wrap, out.2)

variable {row : Row FileDoc} {w : World} {k : DocKey} {env : Env} {c : Call}

theorem handler_ok {a : c.op.Reply} (h : (handler env c w).1 = .ok a) :
    (c.op.effect env c.who w).1 = .ok a ∧
      ∃ t, (handler env c w).2 = { (c.op.effect env c.who w).2 with tick := t } := by
  have hmap : ∀ {x : Except String c.op.Reply} {f : String → Err},
      x.mapError f = .ok a → x = .ok a := by
    intro x f hx
    cases x with
    | error e => exact absurd hx (by simp [Except.mapError])
    | ok b => simpa [Except.mapError] using hx
  unfold handler at h ⊢
  by_cases hstore : c.op.isStore = true
  · rw [if_pos hstore] at h ⊢
    cases hfault : env.fault w.tick with
    | none =>
      rw [hfault] at h
      exact ⟨hmap h, _, rfl⟩
    | some f =>
      rw [hfault] at h
      cases h
  · rw [if_neg hstore] at h ⊢
    exact ⟨hmap h, _, rfl⟩

theorem handler_state (env : Env) (c : Call) (w : World) :
    ∃ t, (handler env c w).2 = { w with tick := t } ∨
      (handler env c w).2 = { (c.op.effect env c.who w).2 with tick := t } := by
  unfold handler
  by_cases hstore : c.op.isStore = true
  · rw [if_pos hstore]
    cases hfault : env.fault w.tick with
    | none => exact ⟨_, .inr rfl⟩
    | some f =>
      by_cases happlied : f.applied = true
      · dsimp only
        rw [if_pos happlied]
        exact ⟨_, .inr rfl⟩
      · dsimp only
        rw [if_neg happlied]
        exact ⟨_, .inl rfl⟩
  · rw [if_neg hstore]
    exact ⟨_, .inr rfl⟩

theorem World.put_kept {β δ : Type} (w : World) (g : World → β) (r : Except String (Collection δ))
    (set : Collection δ → World) (hset : ∀ t, g (set t) = g w) : g (w.put r set).2 = g w := by
  cases r with
  | error e => rfl
  | ok t => exact hset t

theorem StoreOp.effect_tick (env : Env) (who : Identity) (w : World) (op : StoreOp) :
    (op.effect env who w).2.tick = w.tick := by
  cases op with
  | createFile | createTask | createReviewDecision => exact w.put_kept World.tick _ _ fun _ => rfl
  | createReviewCase id owner doc =>
    simp only [StoreOp.effect]
    split
    · rfl
    · exact w.put_kept World.tick _ _ fun _ => rfl
  | insertAuditEvent | deleteFile =>
    simp only [StoreOp.effect]
    split <;> rfl
  | _ => rfl

theorem handler_tick (env : Env) (c : Call) (w : World) :
    (handler env c w).2.tick = if c.op.isStore = true then w.tick + 1 else w.tick := by
  unfold handler
  by_cases hstore : c.op.isStore = true
  · rw [if_pos hstore, if_pos hstore]
    cases hfault : env.fault w.tick with
    | none => exact congrArg (· + 1) (c.op.effect_tick env c.who w)
    | some f =>
      by_cases happlied : f.applied = true
      · dsimp only
        rw [if_pos happlied]
        exact congrArg (· + 1) (c.op.effect_tick env c.who w)
      · dsimp only
        rw [if_neg happlied]
        rfl
  · rw [if_neg hstore, if_neg hstore]
    exact c.op.effect_tick env c.who w

theorem handler_toBool (env : Env) (c : Call) (w : World) :
    (handler env c w).1.toBool = true ↔ (c.op.isStore = true → env.fault w.tick = none) ∧
      (c.op.effect env c.who w).1.toBool = true := by
  have hmap : ∀ (x : Except String c.op.Reply) (f : String → Err),
      (x.mapError f).toBool = x.toBool := by
    intro x f
    cases x <;> rfl
  unfold handler
  by_cases hstore : c.op.isStore = true
  · rw [if_pos hstore]
    cases hfault : env.fault w.tick with
    | none => exact ⟨fun h => ⟨fun _ => rfl, (hmap _ _).symm.trans h⟩, fun h =>
      (hmap _ _).trans h.2⟩
    | some f => exact ⟨fun h => absurd h (by simp [Except.toBool]), fun h => nomatch h.1 hstore⟩
  · rw [if_neg hstore]
    exact ⟨fun h => ⟨fun hs => absurd hs hstore, (hmap _ _).symm.trans h⟩,
      fun h => (hmap _ _).trans h.2⟩

/-! ## Writes of a file -/

/-- The document of a file that a call writes. -/
inductive FileWritten (c : Call) (t : Collection FileDoc) : DocKey → FileDoc → Prop
  | created {id : String} {owner : Ownership} {doc : FileDoc}
      (hc : c.op = .createFile id owner doc) :
      FileWritten c t (c.who.key id) doc
  | updated {id : String} {set : FileDoc → FileDoc} {row : Row FileDoc} (time : Nat)
      (hc : c.op = .updateFile id set) (hrow : t.lookup (c.who.key id) = some row) :
      FileWritten c t (c.who.key id) { set row.doc with updatedAt := time }
  | staged {id stageName status : String} {row : Row FileDoc} (time : Nat)
      (hc : c.op = .updateStage id stageName status)
      (hrow : t.lookup (c.who.key id) = some row) :
      FileWritten c t (c.who.key id) { row.doc.setStage stageName status with updatedAt := time }

theorem StoreOp.effect_file {who : Identity} {op : StoreOp}
    (h : (op.effect env who w).2.files.lookup k = some row) :
    w.files.lookup k = some row ∨ FileWritten ⟨who, op⟩ w.files k row.doc := by
  cases op with
  | createFile id owner doc =>
    rcases w.put_insertOne who w.files id owner doc (fun t => { w with files := t }) with
      ⟨e, heq⟩ | ⟨o, -, heq⟩
    · simp only [StoreOp.effect] at h
      rw [heq] at h
      exact .inl h
    · simp only [StoreOp.effect] at h
      rw [heq] at h
      by_cases hk : k = who.key id
      · subst hk
        rw [AList.lookup_insert] at h
        cases h
        have hcall : (⟨who, .createFile id owner doc⟩ : Call).op = .createFile id owner doc := rfl
        exact .inr (.created hcall)
      · rw [AList.lookup_insert_ne hk] at h
        exact .inl h
  | updateFile id set =>
    rcases Table.lookup_update_cases _ h with h | ⟨rfl, row₀, hrow, rfl⟩
    · exact .inl h
    · exact .inr (.updated _ rfl hrow)
  | updateStage id stageName status =>
    rcases Table.lookup_update_cases _ h with h | ⟨rfl, row₀, hrow, rfl⟩
    · exact .inl h
    · exact .inr (.staged _ rfl hrow)
  | deleteFile id =>
    simp only [StoreOp.effect] at h
    split at h
    · exact .inl h
    · by_cases hk : k = who.key id
      · subst hk
        rw [AList.lookup_erase] at h
        cases h
      · rw [AList.lookup_erase_ne hk] at h
        exact .inl h
  | createTask | createReviewDecision =>
    rw [← h]
    refine .inl (congrArg (AList.lookup k) (w.put_kept World.files _ _ fun _ => ?_)).symm
    rfl
  | createReviewCase =>
    simp only [StoreOp.effect] at h
    split at h
    · exact .inl h
    · rw [← h]
      refine .inl (congrArg (AList.lookup k) (w.put_kept World.files _ _ fun _ => ?_)).symm
      rfl
  | insertAuditEvent owner doc =>
    simp only [StoreOp.effect] at h
    split at h <;> exact .inl h
  | _ => exact .inl h

theorem handler_file (h : (handler env c w).2.files.lookup k = some row) :
    w.files.lookup k = some row ∨ FileWritten c w.files k row.doc := by
  obtain ⟨t, hstate | hstate⟩ := handler_state env c w
  · rw [hstate] at h
    exact .inl h
  · rw [hstate] at h
    exact StoreOp.effect_file h

/-! ## Programs -/

abbrev FilesM (α : Type) : Type := Proc sig Identity α

def call (op : StoreOp) : FilesM op.Reply := fun who =>
  Proc.perform (S := sig) (⟨who, op⟩ : Call) who

def raise {α : Type} (e : Err) : FilesM α := Proc.raise (S := sig) e

def check {α : Type} (x : Except Err α) : FilesM α := Proc.ofExcept (S := sig) x

/-- `create_chunks`: no call for no chunks, and the ownership is settled outside the call. -/
def createChunks (owner : Ownership) (docs : List Chunk) : FilesM Nat :=
  if docs = [] then pure 0
  else do
    let who ← Proc.read (S := sig)
    let owner ← check (scopeDocument who owner)
    call (.createChunks owner docs)

end RagForge.Files
