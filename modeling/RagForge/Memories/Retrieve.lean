import RagForge.Memories.Write

/-
Retrieving the memories for a query (`get_relevant_memories`).

MongoDB gives the candidates and the index, where it answers, their semantic scores.  The candidates
are ranked, mixed by class and touched, and returned with their ranking.
-/

namespace RagForge.Memories

open Effect Py

structure Ranking where
  score : Rat
  semanticRelevance : Rat
  keywordOverlap : Rat
  importance : Rat
  classSignal : Rat

abbrev Ranked : Type := Memory × Ranking

inductive RetrievalMode
  | semantic
  | lexical

structure OutputMemory where
  memory : Memory
  status : Status
  isCurrent : Bool
  provenance : Dict String Json
  ranking : Ranking
  rank : Nat

structure DebugInfo where
  mongoCandidateCount : Nat
  qdrantCandidateCount : Nat
  qdrantMemoryIds : List String

structure RetrievalResult where
  memories : List OutputMemory
  mode : RetrievalMode
  degradedReason : Option String
  memoryClasses : List MemoryClass
  scope : Option String
  includeHistory : Bool
  asOf : Option DateTime
  debug : Option DebugInfo

/-! ## Ranking -/

section

variable (lib : Lib)

def keywordOverlap (query memory : List String) : Rat :=
  if query.isEmpty || memory.isEmpty then 0
  else (((firsts query).filter (· ∈ memory)).length : Rat) / ((firsts query).length : Rat)

def dayMicros : Int := 86400000000

/-- `_episodic_recency_score`: the time of the event is taken from an aware time. -/
def episodicRecencyScore (eventAt : Json) : MemM Rat :=
  match parseDatetime lib eventAt with
  | none => pure (1 / 2)
  | some event => do
      let now ← perform .utcNow
      if event.aware then
        let daysOld : Int := max ((now - event.micros) / dayMicros) 0
        pure (1 / (1 + (daysOld : Rat) / 30))
      else raise .typeError

def classSignal (m : Memory) : MemM Rat :=
  match m.details with
  | .episodic eventAt .. => episodicRecencyScore lib eventAt
  | .semanticPreference _ _ _ strength _ => pure (max 0 (min 1 strength))

def hitScore (hits : List Hit) (id : String) : Option Rat :=
  (hits.reverse.find? fun hit => hit.memoryId = id).map Hit.score

def statedPreference (m : Memory) : Bool :=
  decide (m.memoryClass = .semanticPreference) &&
    (field m.provenance "explicit_user_signal").truthy

def scoreDocument (queryTokens : List String) (hits : List Hit) (m : Memory) : MemM Ranking := do
  let tokens := memoryTokens lib m
  let overlap := keywordOverlap queryTokens tokens
  let semantic := (hitScore hits m.id).getD (textSimilarity queryTokens tokens)
  let importance := max 0 (min 1 m.importance)
  let signal ← classSignal lib m
  let base := 40 / 100 * semantic + 25 / 100 * overlap + 15 / 100 * importance + 20 / 100 * signal
  let score := if statedPreference m then base + 5 / 100 else base
  pure ⟨lib.round6 score, lib.round6 semantic, lib.round6 overlap, lib.round6 importance,
    lib.round6 signal⟩

/-- The loop that scores the candidates.  Without query tokens no candidate is dropped, so the
second loop of the source, for a query without tokens that ranked nothing, has none to add. -/
def rankDocuments (queryTokens : List String) (hits : List Hit) : List Memory → MemM (List Ranked)
  | [] => pure []
  | m :: rest => do
      let ranking ← scoreDocument lib queryTokens hits m
      let ranked ← rankDocuments queryTokens hits rest
      if ranking.score ≤ 0 ∧ queryTokens ≠ [] then pure ranked else pure ((m, ranking) :: ranked)

/-- The sort key of a ranked memory. -/
structure SortKey where
  valid : Bool
  score : Rat
  updatedAt : Json
  id : String

def SortKey.order? (a b : SortKey) : Option Ordering :=
  match compareOfLessAndEq a.valid.toNat b.valid.toNat with
  | .eq =>
    match compareOfLessAndEq a.score b.score with
    | .eq =>
      match a.updatedAt.order? b.updatedAt with
      | some .eq => some (compareOfLessAndEq a.id b.id)
      | other => other
    | other => some other
  | other => some other

def sortKey (asOf : Option DateTime) (r : Ranked) : Except Err (SortKey × Ranked) := do
  let valid ← isValidAt lib r.1 asOf
  pure (⟨valid, r.2.score, r.1.updatedAt.orElse (.str ""), r.1.id⟩, r)

/-- `ranked.sort(..., reverse=True)`.  A sort compares every two neighbours of its result, so it
raises when two keys have no order. -/
def sortRanked (asOf : Option DateTime) (ranked : List Ranked) : Except Err (List Ranked) := do
  let keyed ← ranked.mapM (sortKey lib asOf)
  if keyed.all fun a => keyed.all fun b => (a.1.order? b.1).isSome then
    pure ((keyed.insertionSort fun a b => a.1.order? b.1 ≠ some .lt).map Prod.snd)
  else .error .typeError

/-- The loop of `_diversify_ranked_documents`.  Every round adds a result, so `limit` rounds are
enough. -/
def diversifyRounds (limit maxSemantic : Nat) (hadEpisodic : Bool) :
    Nat → List Ranked → List Ranked → List Ranked → Nat → List Ranked × List Ranked × List Ranked
  | 0, results, episodic, semantic, _ => (results, episodic, semantic)
  | rounds + 1, results, episodic, semantic, semanticCount =>
    if limit ≤ results.length then (results, episodic, semantic)
    else
      let results' := results ++ episodic.take 1
      let mayAdd := semanticCount < maxSemantic ∨ hadEpisodic = false
      if limit ≤ results'.length then (results', episodic.drop 1, semantic)
      else if mayAdd ∧ semantic ≠ [] then
        diversifyRounds limit maxSemantic hadEpisodic rounds (results' ++ semantic.take 1)
          (episodic.drop 1) (semantic.drop 1) (semanticCount + 1)
      else if episodic ≠ [] then
        diversifyRounds limit maxSemantic hadEpisodic rounds results' (episodic.drop 1) semantic
          semanticCount
      else (results', episodic, semantic)

def diversifyRankedDocuments (ranked : List Ranked) (limit : Nat) : List Ranked :=
  let episodic := ranked.filter fun r => r.1.memoryClass = .episodic
  let semantic := ranked.filter fun r => r.1.memoryClass = .semanticPreference
  let hadEpisodic := !episodic.isEmpty
  let maxSemantic := max 1 ((limit + 1) / 2)
  let (results, episodicLeft, semanticLeft) :=
    diversifyRounds limit maxSemantic hadEpisodic limit [] episodic semantic 0
  let leftovers := if hadEpisodic then episodicLeft else semanticLeft
  (results ++ leftovers).take limit

/-! ## The query -/

def allMemoryClasses : List MemoryClass := [.episodic, .semanticPreference]

def iterate : Json → Except Err (List Json)
  | .arr xs => .ok xs
  | .str s => .ok (s.toList.map fun c => .str (String.singleton c))
  | .obj fields => .ok (fields.map fun entry => .str entry.1)
  | _ => .error .typeError

/-- A class of the query, when it is one; a value that cannot be hashed raises. -/
def allowedClass (value : Json) : Except Err (Option MemoryClass) :=
  match value.key? with
  | none => .error .typeError
  | some (.str "episodic") => .ok (some .episodic)
  | some (.str "semantic_preference") => .ok (some .semanticPreference)
  | some _ => .ok none

def queryClasses (value : Json) : Except Err (List MemoryClass) :=
  if value.truthy then do
    let items ← iterate value
    let found ← items.mapM allowedClass
    let classes := found.filterMap id
    pure (if classes.isEmpty then allMemoryClasses else classes)
  else .ok allMemoryClasses

variable (cfg : Settings) (b : Boundary)

/-- What the semantic leg of retrieval gives. -/
structure SemanticLeg where
  hits : List Hit
  mode : RetrievalMode
  degradedReason : Option String

def semanticCandidates (queryText ownerId ownerType : String) (limit : Nat) : MemM SemanticLeg :=
  if queryText = "" then pure ⟨[], .lexical, some "no query text supplied"⟩
  else if !cfg.qdrantEnabled then pure ⟨[], .lexical, some "vector index disabled"⟩
  else do
    let embedded ← attempt (perform (.embedQuery queryText)) Err.isEmbedding
    match embedded with
    | .error e => pure ⟨[], .lexical, some ("embedding unavailable: " ++ e.text)⟩
    | .ok vector => do
        let found ← attempt (perform (.search b vector ownerId ownerType (max (limit * 2) limit)))
          Err.isVectorIndex
        match found with
        | .error e => pure ⟨[], .lexical, some ("vector search unavailable: " ++ e.text)⟩
        | .ok hits => pure ⟨hits, .semantic, none⟩

def updateLastAccessed (time : String) (ids : List String) : MemM Unit :=
  Proc.forEach ids fun id => do
    let found ← findMemoryDocument b id false
    match found with
    | none => pure ()
    | some m => perform (.updateMemory b m.memoryClass id (.lastAccessed (.str time)))

def safeProvenance (provenance : Dict String Json) : Dict String Json :=
  provenance.filter fun entry => entry.1 ∈ ["chat_id", "conversation_id", "message_id",
    "message_ids", "source_type", "explicit_user_signal"]

def normalizeOutputMemory (rank : Nat) (r : Ranked) : OutputMemory :=
  { memory := r.1
    status := r.1.status.getD .active
    isCurrent := isNull r.1.validTo
    provenance := safeProvenance r.1.provenance
    ranking := r.2
    rank := rank }

structure Query where
  text : String
  tokens : List String
  limit : Nat
  filter : DocumentFilter
  includeDebug : Bool

/-- The parameters that `get_relevant_memories` reads from its query. -/
def readQuery (ownerId ownerType : String) (query : Dict String Json) : Except Err Query := do
  let get (key : String) : Json := (Dict.get? query key).getD .null
  let classes ← queryClasses (get "memory_classes")
  let text := normalizeText lib (((get "text").orElse (get "query")).orElse (get "query_text"))
  let given := asStringList lib (get "keywords")
  pure
    { text := text
      tokens := if given.isEmpty then tokenize lib text else given
      limit := max 1 (coerceInt lib (get "limit") cfg.retrievalDefaultLimit)
      filter :=
        { ownerId := ownerId
          ownerType := ownerType
          memoryClasses := classes
          includeHistory := (get "include_history").truthy
          asOf := parseDatetime lib (get "as_of")
          scope := match get "scope" with
            | .obj fields => some (scopeKey lib fields)
            | _ => none }
      includeDebug := (get "include_debug").truthy }

def retrieve (q : Query) : MemM RetrievalResult := do
  let candidates ← activeMemoryDocuments lib b q.filter
  let leg ← semanticCandidates cfg b q.text q.filter.ownerId q.filter.ownerType q.limit
  let ranked ← rankDocuments lib q.tokens leg.hits candidates
  let sorted ← Proc.ofExcept (sortRanked lib q.filter.asOf ranked)
  let chosen := diversifyRankedDocuments sorted q.limit
  let now ← perform .now
  updateLastAccessed b now (chosen.map fun r => r.1.id)
  pure
    { memories := chosen.mapIdx fun i r => normalizeOutputMemory (i + 1) r
      mode := leg.mode
      degradedReason := leg.degradedReason
      memoryClasses := q.filter.memoryClasses
      scope := q.filter.scope
      includeHistory := q.filter.includeHistory
      asOf := q.filter.asOf
      debug :=
        if q.includeDebug then
          some ⟨candidates.length, leg.hits.length, leg.hits.map Hit.memoryId⟩
        else none }

def getRelevantMemories (query : Dict String Json) : MemM RetrievalResult := do
  let ownerId := normalizeText lib (.str b.userId)
  let ownerType := lib.lower (normalizeText lib (.str "user"))
  if ownerId = "" then raise (.database "owner_id is required for memory retrieval")
  else if ownerType ∉ ["user", "session", "conversation"] then
    raise (.database "owner_type is invalid for memory retrieval")
  else do
    let q ← Proc.ofExcept (readQuery lib cfg ownerId ownerType query)
    retrieve lib cfg b q

end

end RagForge.Memories
