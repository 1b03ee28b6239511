import RagForge.Effect.Logic
import RagForge.Memories.Types
import RagForge.Store.Documents

/-
MongoDB, the vector index and the embedding service, as the memory service uses them.

An operation is one call of a driver.  Every call on MongoDB and on the index may fail, with or
without its effect; when it does is a matter of the environment, as are the times, the new ids and
the vectors.  The order of the documents in a collection is the order of their insertion, and the
two collections of memories are one list here, told apart by the class of a memory.
-/

namespace RagForge.Memories

open Effect Py Store

/-! ## Queries and changes -/

/-- A query on the deletion identities: every field that is given has to match. -/
structure TombstoneQuery where
  memoryId : Option String := none
  owner : Option (String × String × MemoryClass) := none
  scopeKey : Option String := none
  contentHash : Option String := none
  factKey : Option String := none
  preferenceKey : Option String := none

def TombstoneQuery.accepts (q : TombstoneQuery) (t : Tombstone) : Bool :=
  q.memoryId.all (· = t.memoryId) &&
  q.owner.all (· = (t.ownerId, t.ownerType, t.memoryClass)) &&
  q.scopeKey.all (· = t.scopeKey) &&
  q.contentHash.all (· = t.contentHash) &&
  q.factKey.all (fun k => t.factKey = some k) &&
  q.preferenceKey.all (fun k => t.preferenceKey = some k)

/-- The `$set` documents of the service. -/
inductive Change
  | replace (m : Memory)
  | retrieval (r : Retrieval) (updatedAt : Json)
  | supersede (superseder : String) (validTo updatedAt : Json)
  | embeddingStatus (status : EmbeddingStatus)
  | lastAccessed (time : Json)

/-- A document is written back under the boundary it was read under, so a change leaves the
boundary as it is. -/
def Change.apply (c : Change) (m : Memory) : Memory :=
  match c with
  | .replace new => { new with boundary := m.boundary }
  | .retrieval r updatedAt => { m with retrieval := r, updatedAt := updatedAt }
  | .supersede superseder validTo updatedAt =>
    { m with
      status := some .superseded
      supersededBy := some superseder
      validTo := validTo
      updatedAt := updatedAt }
  | .embeddingStatus status =>
    { m with retrieval := { m.retrieval with embeddingStatus := status } }
  | .lastAccessed time => { m with lastAccessedAt := time }

/-! ## Operations -/

structure Hit where
  memoryId : String
  score : Rat

inductive Op
  | now
  | newId
  | utcNow
  | findMemories (b : Boundary) (c : MemoryClass)
  | findMemory (b : Boundary) (c : MemoryClass) (id : String)
  | findPreference (b : Boundary) (ownerId ownerType key : String)
  | insertMemory (m : Memory)
  | updateMemory (b : Boundary) (c : MemoryClass) (id : String) (change : Change)
  | findTombstone (b : Boundary) (q : TombstoneQuery)
  | findLog (b : Boundary) (requestId : String)
  | updateLog (b : Boundary) (id : String) (outcome : LoggedOutcome)
  | insertLog (entry : LogEntry)
  | embedMemory (text : String)
  | embedQuery (text : String)
  | search (b : Boundary) (vector : List Rat) (ownerId ownerType : String) (limit : Nat)
  | upsertPoint (p : Point)
  | deletePoints (b : Boundary) (memoryId : String)

@[reducible] def Reply : Op → Type
  | .now | .newId => String
  | .utcNow => Int
  | .findMemories .. => List Memory
  | .findMemory .. | .findPreference .. => Option Memory
  | .findTombstone .. => Option Tombstone
  | .findLog .. => Option LogEntry
  | .embedMemory _ | .embedQuery _ => List Rat
  | .search .. => List Hit
  | .insertMemory _ | .updateMemory .. | .updateLog .. | .insertLog _ | .upsertPoint _
  | .deletePoints .. => Unit

def sig : Sig := ⟨Op, Reply, Err⟩

abbrev MemM (α : Type) : Type := Proc sig Unit α

def raise {α : Type} (e : Err) : MemM α := Proc.raise e

def perform (op : Op) : MemM (Reply op) := Proc.perform (S := sig) op

/-! ## The stores -/

structure World where
  memories : List Memory
  tombstones : List Tombstone
  log : List LogEntry
  points : List Point
  tick : Nat

def World.empty : World := ⟨[], [], [], [], 0⟩

def Memory.isIn (b : Boundary) (c : MemoryClass) (m : Memory) : Bool :=
  decide (m.boundary = b) && decide (m.memoryClass = c)

/-- The unique index of the preferences: one document for an owner's key. -/
def Memory.sameSlot (m n : Memory) : Bool :=
  decide (m.memoryClass = .semanticPreference) && decide (n.memoryClass = .semanticPreference) &&
  decide (m.boundary = n.boundary) && decide (m.ownerId = n.ownerId) &&
  decide (m.ownerType = n.ownerType) && decide (m.preferenceKey = n.preferenceKey)

/-- `{"archived_at": None}`. -/
def isNull : Json → Bool
  | .null => true
  | _ => false

/-- When calls fail and what the outside answers.  The ticks count the operations. -/
structure Env where
  now : Nat → String
  newId : Nat → String
  /-- Microseconds since the epoch. -/
  utcNow : Nat → Int
  /-- A MongoDB call that fails, and whether it had its effect. -/
  mongoFault : Nat → Option (String × Bool)
  /-- The same for a call on the index. -/
  indexFault : Nat → Option (String × Bool)
  embed : Nat → String → Except String (List Rat)
  /-- The nearest points among those that pass the filter. -/
  nearest : List Rat → List Point → Nat → List (Point × Rat)

inductive Service
  | mongo
  | index

def Op.service : Op → Option Service
  | .now | .newId | .utcNow | .embedMemory _ | .embedQuery _ => none
  | .search .. | .upsertPoint _ | .deletePoints .. => some .index
  | _ => some .mongo

def Point.searchable (b : Boundary) (ownerId ownerType : String) (p : Point) : Bool :=
  decide (p.boundary = b) && decide (p.ownerId = ownerId) && decide (p.ownerType = ownerType) &&
  !p.archived && decide (p.status = .active)

def putPoint (p : Point) (points : List Point) : List Point :=
  if points.any fun q => q.pointId = p.pointId then
    points.map fun q => if q.pointId = p.pointId then p else q
  else points ++ [p]

def embedding (reply : Except String (List Rat)) : Except Err (List Rat) :=
  match reply with
  | .ok vector => .ok vector
  | .error message => .error (.embedding message)

def exec (env : Env) (op : Op) (w : World) : sig.Result op × World :=
  match op with
  | .now => (.ok (env.now w.tick), w)
  | .newId => (.ok (env.newId w.tick), w)
  | .utcNow => (.ok (env.utcNow w.tick), w)
  | .findMemories b c => (.ok (w.memories.filter fun m => m.isIn b c), w)
  | .findMemory b c id => (.ok (w.memories.find? fun m => m.isIn b c && decide (m.id = id)), w)
  | .findPreference b ownerId ownerType key =>
    (.ok (w.memories.find? fun m => m.isIn b .semanticPreference && decide (m.ownerId = ownerId) &&
      decide (m.ownerType = ownerType) && decide (m.preferenceKey = some key) &&
      isNull m.archivedAt), w)
  | .insertMemory m =>
    if w.memories.any m.sameSlot then (.error .duplicateKey, w)
    else (.ok (), { w with memories := w.memories ++ [m] })
  | .updateMemory b c id change =>
    (.ok (), { w with
      memories := updateFirst (fun m => m.isIn b c && decide (m.id = id)) change.apply w.memories })
  | .findTombstone b q =>
    (.ok (w.tombstones.find? fun t => decide (t.boundary = b) && q.accepts t), w)
  | .findLog b requestId =>
    (.ok (w.log.find? fun e => decide (e.boundary = b) && decide (e.requestId = some requestId)), w)
  | .updateLog b id outcome =>
    (.ok (), { w with
      log := updateFirst (fun e => decide (e.boundary = b) && decide (e.id = id))
        (fun e => { e with outcome := outcome }) w.log })
  | .insertLog entry =>
    -- The unique index on the request id knows no tenant; entries without one are not in it.
    if w.log.any fun e => e.requestId.isSome && decide (e.requestId = entry.requestId) then
      (.error .duplicateKey, w)
    else (.ok (), { w with log := w.log ++ [entry] })
  | .embedMemory text | .embedQuery text => (embedding (env.embed w.tick text), w)
  | .search b vector ownerId ownerType limit =>
    (.ok ((env.nearest vector (w.points.filter (Point.searchable b ownerId ownerType)) limit).map
      fun hit => ⟨strOr hit.1.memoryId hit.1.pointId, hit.2⟩), w)
  | .upsertPoint p => (.ok (), { w with points := putPoint p w.points })
  | .deletePoints b memoryId =>
    (.ok (), { w with
      points := w.points.filter fun p => !(decide (p.boundary = b) && decide
        (p.memoryId = memoryId)) })

variable {w : World} {entry : LogEntry} {m : Memory}

theorem exec_insertMemory_taken (h : w.memories.any m.sameSlot = true) (env : Env) :
    exec env (.insertMemory m) w = (.error .duplicateKey, w) := if_pos h

theorem exec_insertMemory_free (h : ¬ w.memories.any m.sameSlot = true) (env : Env) :
    exec env (.insertMemory m) w = (.ok (), { w with memories := w.memories ++ [m] }) := if_neg h

def World.requestTaken (w : World) (request : Option String) : Bool :=
  w.log.any fun e => e.requestId.isSome && decide (e.requestId = request)

theorem exec_insertLog_taken (h : w.requestTaken entry.requestId = true) (env : Env) :
    exec env (.insertLog entry) w = (.error .duplicateKey, w) := if_pos h

theorem exec_insertLog_free (h : ¬ w.requestTaken entry.requestId = true) (env : Env) :
    exec env (.insertLog entry) w = (.ok (), { w with log := w.log ++ [entry] }) := if_neg h

def Env.fault (env : Env) (op : Op) (tick : Nat) : Option (Err × Bool) :=
  match op.service with
  | none => none
  | some .mongo => (env.mongoFault tick).map fun f => (.mongo f.1, f.2)
  | some .index => (env.indexFault tick).map fun f => (.vectorIndex f.1, f.2)

def World.next (w : World) : World := { w with tick := w.tick + 1 }

def handler (env : Env) : Handler sig World := fun op w =>
  match env.fault op w.tick with
  | none => ((exec env op w).1, (exec env op w).2.next)
  | some (e, applied) => (.error e, if applied then (exec env op w).2.next else w.next)

def Env.MongoUp (env : Env) : Prop := ∀ tick, env.mongoFault tick = none

theorem handler_of_mongoUp {env : Env} (hup : env.MongoUp) (op : Op)
    (hop : op.service ≠ some .index) (w : World) :
    handler env op w = ((exec env op w).1, (exec env op w).2.next) := by
  have hfault : env.fault op w.tick = none := by
    unfold Env.fault
    cases hservice : op.service with
    | none => rfl
    | some service =>
      cases service with
      | mongo => exact congrArg (Option.map _) (hup w.tick)
      | index => exact absurd hservice hop
  unfold handler
  rw [hfault]

/-! ## Concrete surroundings -/

def plainSettings : Settings :=
  { retrievalDefaultLimit := 6
    dedupeCandidateLimit := 10
    duplicateSimilarityThreshold := 92 / 100
    conflictSimilarityThreshold := 75 / 100
    qdrantEnabled := true }

def calmEnv : Env :=
  { now := fun _ => "2024-05-01T00:00:00Z"
    newId := fun tick => String.ofList (List.replicate (tick + 1) 'n')
    utcNow := fun _ => 1714521600000000
    mongoFault := fun _ => none
    indexFault := fun _ => none
    embed := fun _ _ => .ok [1]
    nearest := fun _ points limit => (points.take limit).map fun p => (p, 0) }

end RagForge.Memories
