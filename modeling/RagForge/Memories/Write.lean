import RagForge.Memories.Consolidation
import RagForge.Memories.Store

/-
Writing a memory (`LongTermMemoryService.write_memory`).

A write that was logged under the same request id is answered from the log.  Any other one is
normalised, checked against the policy and against the deletion identities, compared with the
owner's memories, stored as the consolidation policy decides, indexed and logged.
-/

namespace RagForge.Memories

open Effect Py

/-! ## Reading -/

def Err.isEmbedding : Err → Bool
  | .embedding _ => true
  | _ => false

def Err.isVectorIndex : Err → Bool
  | .vectorIndex _ => true
  | _ => false

/-- Run code whose exceptions of one kind are handled by its caller. -/
def attempt {α : Type} (p : MemM α) (catches : Err → Bool) : MemM (Except Err α) :=
  Proc.handle (do let a ← p; pure (.ok a)) fun e => if catches e then pure (.error e) else raise e

def filterExcept {α : Type} (p : α → Except Err Bool) : List α → Except Err (List α)
  | [] => .ok []
  | x :: rest => do
      let keep ← p x
      let kept ← filterExcept p rest
      pure (if keep then x :: kept else kept)

section

variable (lib : Lib)

def isValidAt (m : Memory) (asOf : Option DateTime) : Except Err Bool :=
  match asOf with
  | none => .ok !m.validTo.truthy
  | some moment => do
      let early ← match parseDatetime lib m.validFrom with
        | some validFrom => validFrom.after moment
        | none => pure false
      if early then pure false
      else
        match parseDatetime lib m.validTo with
        | some validTo => validTo.after moment
        | none => pure true

/-- The arguments of `_active_memory_documents`. -/
structure DocumentFilter where
  ownerId : String
  ownerType : String
  memoryClasses : List MemoryClass
  includeArchived : Bool := false
  includeHistory : Bool := false
  asOf : Option DateTime := none
  scope : Option String := none

def DocumentFilter.keeps (f : DocumentFilter) (m : Memory) : Except Err Bool :=
  if m.memoryClass ∉ f.memoryClasses then .ok false
  else if f.ownerId ≠ "" ∧ m.ownerId ≠ f.ownerId then .ok false
  else if f.ownerType ≠ "" ∧ m.ownerType ≠ f.ownerType then .ok false
  else if f.scope.any fun s => m.scopeKey ≠ s then .ok false
  else if !f.includeArchived && m.archivedAt.truthy then .ok false
  else if !f.includeArchived && !(f.includeHistory || f.asOf.isSome) &&
      m.memoryStatus != .active then .ok false
  else if m.memoryStatus = .deleted then .ok false
  else if f.includeHistory then .ok true
  else isValidAt lib m f.asOf

variable (cfg : Settings) (b : Boundary)

def allMemoryDocuments (includeTombstones : Bool) : MemM (List Memory) := do
  let episodic ← perform (.findMemories b .episodic)
  let semantic ← perform (.findMemories b .semanticPreference)
  let documents := episodic ++ semantic
  if includeTombstones then pure documents
  else pure (documents.filter fun m => m.status ≠ some .deleted)

def activeMemoryDocuments (f : DocumentFilter) : MemM (List Memory) := do
  let documents ← allMemoryDocuments b false
  Proc.ofExcept (filterExcept (f.keeps lib) documents)

/-- `_find_memory_document`.  The collection is the one of the memory's class. -/
def findMemoryDocument (id : String) (includeTombstones : Bool) : MemM (Option Memory) := do
  let visible (m : Memory) : Bool := includeTombstones || m.status != some .deleted
  let episodic ← perform (.findMemory b .episodic id)
  match episodic.filter visible with
  | some m => pure (some m)
  | none => do
      let semantic ← perform (.findMemory b .semanticPreference id)
      pure (semantic.filter visible)

section

variable (ctx : RequestContext) (m : Memory) (comparable : List Scored) (d : Decision)

/-- The queries of `_matching_deletion_tombstone`, in their order. -/
def tombstoneQueries : List (TombstoneQuery × TombstoneMatch) :=
  let base : TombstoneQuery := { owner := some (m.ownerId, m.ownerType, m.memoryClass) }
  let when (value : Option String) (query : String → TombstoneQuery × TombstoneMatch) :
      List (TombstoneQuery × TombstoneMatch) :=
    ((value.filter (· ≠ "")).map query).toList
  when (some m.id) (fun id => ({ base with memoryId := some id }, .canonicalMemoryId)) ++
  when m.supersedes (fun id => ({ base with memoryId := some id }, .supersedesDeletedMemory)) ++
  when m.preferenceKey
    (fun key => ({ base with preferenceKey := some key }, .preferenceKeySameOwner)) ++
  [({ base with scopeKey := some m.scopeKey, contentHash := some m.contentHash },
    .exactContentSameScope)] ++
  when m.factKey
    (fun key => ({ base with scopeKey := some m.scopeKey, factKey := some key },
      .factKeySameScope))

/-- The rule of the first query that finds a deletion identity. -/
def firstTombstone : List (TombstoneQuery × TombstoneMatch) → MemM (Option TombstoneMatch)
  | [] => pure none
  | (query, rule) :: rest => do
      let found ← perform (.findTombstone b query)
      match found with
      | some _ => pure (some rule)
      | none => firstTombstone rest

def matchingDeletionTombstone : MemM (Option TombstoneMatch) :=
  firstTombstone b (tombstoneQueries m)

/-! ## Comparison -/

structure Comparable where
  memories : List Scored
  comparison : Comparison
  vector : Option (List Rat)

/-- The filter of the memories that a candidate is compared with. -/
def comparableFilter : DocumentFilter :=
  { ownerId := m.ownerId, ownerType := m.ownerType, memoryClasses := [m.memoryClass] }

/-- The semantic comparison: the candidate's vector and the hits of the index, unless the index is
off or one of the two could not be had. -/
def semanticHits (limit : Nat) : MemM (Option (List Rat × List Hit)) :=
  if cfg.qdrantEnabled && m.text != "" then
    Proc.handle
      (do
        let vector ← perform (.embedMemory m.text)
        let hits ← perform (.search b vector m.ownerId m.ownerType limit)
        pure (some (vector, hits)))
      fun e => if e.isEmbedding || e.isVectorIndex then pure none else raise e
  else pure none

def scoredHits (active : List Memory) (hits : List Hit) : List Scored :=
  hits.filterMap fun hit =>
    (active.reverse.find? fun m => m.id = hit.memoryId).map fun m => (m, hit.score)

def comparableMemories : MemM Comparable := do
  let active ← activeMemoryDocuments lib b (comparableFilter m)
  let limit := max 1 cfg.dedupeCandidateLimit
  let semantic ← semanticHits cfg b m limit
  match semantic with
  | some (vector, hits) => do
      let bounded ← Proc.ofExcept (boundedMatches limit m active (scoredHits active hits))
      pure ⟨bounded, .semantic, some vector⟩
  | none => do
      let bounded ← Proc.ofExcept (boundedMatches limit m active (lexicalScores lib limit m active))
      pure ⟨bounded, .lexical, none⟩

/-! ## Indexing -/

def pointIdOf (id : String) : String :=
  lib.uuid5 ("memory:" ++ b.tenantId ++ ":" ++ b.userId ++ ":" ++ id)

def pointOf (vector : List Rat) : Point :=
  { pointId := pointIdOf lib b m.id
    boundary := b
    memoryId := m.id
    ownerId := m.ownerId
    ownerType := m.ownerType
    status := m.status.getD .active
    archived := m.archivedAt.truthy
    revision := m.revision
    vector := vector }

def persistRetrievalState : MemM Unit :=
  perform (.updateMemory b m.memoryClass m.id (.retrieval m.retrieval m.updatedAt))

def Memory.synced (status : EmbeddingStatus) (indexedRevision : Option Nat)
    (now : String) : Memory :=
  { m with
    retrieval := { m.retrieval with
      embeddingStatus := status
      indexedRevision := indexedRevision }
    updatedAt := .str now }

def recordVectorFailure (status : EmbeddingStatus) : MemM (Memory × Option Bool) := do
  let now ← perform .now
  let failed := m.synced status none now
  persistRetrievalState b failed
  pure (failed, some false)

/-- The second half of `_sync_vector_index`, with the vector at hand. -/
def storeVector (vector : List Rat) : MemM (Memory × Option Bool) := do
  let stored ← attempt (perform (.upsertPoint (pointOf lib b m vector))) Err.isVectorIndex
  match stored with
  | .error _ => recordVectorFailure b m .pending
  | .ok _ => do
      let now ← perform .now
      let indexed := m.synced .indexed (some m.revision) now
      persistRetrievalState b indexed
      pure (indexed, some true)

/-- `_sync_vector_index`: the document as it is then, and whether it is indexed. -/
def syncVectorIndex (vector : Option (List Rat)) : MemM (Memory × Option Bool) :=
  if cfg.qdrantEnabled then
    match vector with
    | some v => storeVector lib b m v
    | none => do
        let embedded ← attempt (perform (.embedMemory m.text)) Err.isEmbedding
        match embedded with
        | .error _ => recordVectorFailure b m .failed
        | .ok v => storeVector lib b m v
  else do
    let off := { m with retrieval := { m.retrieval with embeddingStatus := .disabled } }
    persistRetrievalState b off
    pure (off, none)

/-! ## Storing -/

def applySupersession (target : String) : MemM (Option String) := do
  let id := normalizeText lib (.str target)
  if id = "" then pure none
  else
    let found ← findMemoryDocument b id false
    match found with
    | none => pure none
    | some doc => do
        let now ← perform .now
        perform (.updateMemory b doc.memoryClass id
          (.supersede m.id (m.validFrom.orElse (.str now)) (.str now)))
        if cfg.qdrantEnabled then do
          let removed ← attempt (perform (.deletePoints b id)) Err.isVectorIndex
          match removed with
          | .ok _ => pure (some id)
          | .error _ => do
              perform (.updateMemory b doc.memoryClass id (.embeddingStatus .deletePending))
              pure (some id)
        else pure (some id)

/-- What storing a candidate came to: the stored document, the status and the reason. -/
structure Applied where
  stored : Memory
  status : WriteStatus
  reason : String

def upsertSemanticPreference : MemM Applied := do
  let existing ← perform
    (.findPreference b m.ownerId m.ownerType (m.preferenceKey.getD ""))
  match existing with
  | some old => do
      let now ← perform .now
      let merged ← Proc.ofExcept (mergedPreference lib cfg old m now)
      perform (.updateMemory b .semanticPreference merged.id (.replace merged))
      pure ⟨merged, .merged, "upserted semantic preference"⟩
  | none => do
      perform (.insertMemory m)
      pure ⟨m, .accepted, "stored semantic preference"⟩

def reinforceExistingMemory (existing m : Memory) : MemM Applied := do
  let now ← perform .now
  let merged ← Proc.ofExcept (reinforced lib cfg existing m now)
  perform (.updateMemory b existing.memoryClass merged.id (.replace merged))
  pure ⟨merged, .merged, "reinforced an existing near-duplicate memory"⟩

def decisionTarget : Option Memory :=
  (comparable.find? fun p => some p.1.id = d.targetId).map Prod.fst

def insertCandidate (reason : String) : MemM Applied := do
  perform (.insertMemory m)
  pure ⟨m, .accepted, reason⟩

def applyDecision : MemM Applied :=
  match m.memoryClass with
  | .semanticPreference => upsertSemanticPreference lib cfg b m
  | .episodic =>
    match d.outcome, decisionTarget comparable d with
    | .duplicateSemantic, some existing => reinforceExistingMemory lib cfg b existing m
    | .needsReview, _ => do
        let now ← perform .now
        insertCandidate { m with
          conflict := some ⟨d.targetId, d.similarity.map lib.round6, .str now⟩ } d.reason
    | _, _ => insertCandidate m d.reason

/-! ## The write log -/

def logOutcome (outcome : LoggedOutcome) : MemM Unit := do
  let insert : MemM Unit := do
    let id ← perform .newId
    perform (.insertLog ⟨b, id, ctx.request, outcome⟩)
  match ctx.request with
  | none => insert
  | some requestId => do
      let existing ← perform (.findLog b requestId)
      match existing with
      | some entry => perform (.updateLog b entry.id outcome)
      | none => insert

def loggedMemory (entry : LogEntry) : MemM (Option Memory) :=
  match entry.outcome.memoryId.filter (· ≠ "") with
  | some id => findMemoryDocument b id false
  | none => pure none

def resultFromLog (entry : LogEntry) : MemM WriteResult := do
  let found ← loggedMemory b entry
  let status := found.map fun m => m.retrieval.embeddingStatus
  pure
    { status := entry.outcome.status
      memoryId := entry.outcome.memoryId
      memoryClass := entry.outcome.memoryClass
      reason := entry.outcome.reason
      qdrantIndexed := entry.outcome.qdrantIndexed
      embeddingStatus := status
      reconciliationRequired := status.any EmbeddingStatus.owesRepair }

/-! ## The write -/

def TombstoneMatch.text : TombstoneMatch → String
  | .canonicalMemoryId => "canonical_memory_id"
  | .supersedesDeletedMemory => "supersedes_deleted_memory"
  | .preferenceKeySameOwner => "preference_key_same_owner"
  | .exactContentSameScope => "exact_content_same_scope"
  | .factKeySameScope => "fact_key_same_scope"

def rejectCandidate (reason : String) (rule : Option TombstoneMatch) : MemM WriteResult := do
  logOutcome b ctx ⟨.rejected, none, some m.memoryClass, reason, none⟩
  pure
    { status := .rejected
      memoryId := none
      memoryClass := some m.memoryClass
      reason := reason
      qdrantIndexed := none
      embeddingStatus := none
      reconciliationRequired := false
      tombstoneMatch := rule }

/-- Log an exact duplicate and answer it: the stored record stays as it is. -/
def reportDuplicate : MemM WriteResult := do
  logOutcome b ctx ⟨.duplicate, d.targetId, some m.memoryClass, d.reason, none⟩
  pure
    { status := .duplicate
      memoryId := d.targetId
      memoryClass := some m.memoryClass
      reason := d.reason
      qdrantIndexed := none
      embeddingStatus := (decisionTarget comparable d).map fun e => e.retrieval.embeddingStatus
      reconciliationRequired := false
      consolidation := some (d.asProvenance lib) }

def withDecision : Memory :=
  { m with consolidation := some (d.asProvenance lib) }

def retireReplaced (applied : Applied) : MemM (Option String) :=
  if d.outcome = .supersede ∧ applied.stored.id = m.id then
    applySupersession lib cfg b m (d.targetId.getD "")
  else pure none

/-- Store a candidate as decided, retire what it replaces, index it and log it. -/
def storeCandidate (comparable : Comparable) (d : Decision) : MemM WriteResult := do
  let applied ← applyDecision lib cfg b (withDecision lib m d) comparable.memories d
  let superseded ← retireReplaced lib cfg b m d applied
  let (synced, indexed) ← syncVectorIndex lib cfg b applied.stored
    (if applied.stored.id = m.id then comparable.vector else none)
  logOutcome b ctx ⟨applied.status, some synced.id, some synced.memoryClass, applied.reason,
    indexed⟩
  pure
    { status := applied.status
      memoryId := some synced.id
      memoryClass := some synced.memoryClass
      reason := applied.reason
      qdrantIndexed := indexed
      embeddingStatus := some synced.retrieval.embeddingStatus
      reconciliationRequired := synced.retrieval.embeddingStatus.owesRepair
      supersededMemoryId := superseded
      consolidation := some (d.asProvenance lib)
      isCurrent := some (isNull synced.validTo) }

def writeNormalized : MemM WriteResult :=
  match firstFailedReason (policyChecks lib m) with
  | some reason => rejectCandidate b ctx m reason none
  | none => do
      let rule ← matchingDeletionTombstone b m
      match rule with
      | some r =>
        rejectCandidate b ctx m
          ("resurrection suppressed by deletion tombstone (" ++ r.text ++ ")") (some r)
      | none => do
          let comparable ← comparableMemories lib cfg b m
          let d := decideOutcome lib cfg m comparable.memories comparable.comparison
          if d.outcome = .duplicateExact then reportDuplicate lib b ctx m comparable.memories d
          else storeCandidate lib cfg b ctx m comparable d

def freshIdFor (candidate : Dict String Json) : MemM String :=
  if candidateId lib candidate = "" then perform .newId else pure ""

/-- The body of the `try` of `write_memory`. -/
def writeCandidate (candidate : Dict String Json) (ctx : RequestContext) : MemM WriteResult := do
  let now ← perform .now
  let freshId ← freshIdFor lib candidate
  let m ← Proc.ofExcept (normalizeCandidate lib cfg b candidate ctx now freshId)
  writeNormalized lib cfg b ctx m

def findLogged : MemM (Option LogEntry) :=
  match ctx.request with
  | some requestId => perform (.findLog b requestId)
  | none => pure none

end

def writeMemory (candidate : Dict String Json) (ctx : RequestContext) : MemM WriteResult := do
  let logged ← findLogged b ctx
  match logged with
  | some entry => resultFromLog b entry
  | none =>
    Proc.handle (writeCandidate lib cfg b candidate ctx) fun e => do
      logOutcome b ctx ⟨.failed, none, none, e.text, none⟩
      raise (.database ("Failed to write memory: " ++ e.text))

end

end RagForge.Memories
