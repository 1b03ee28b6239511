import RagForge.Memories.Types

/-
From a candidate to a memory: the normalisation of a write and the policy it has to pass.

A candidate is a dictionary with any values.  Normalisation reads the clock once and takes a new
id where the candidate brings none; everything else is computed here from those two.
-/

namespace RagForge.Memories

open Py

/-- What a request says about itself beside its candidate. -/
structure RequestContext where
  requestId : Option String := none
  source : Json := .null
  traceId : Json := .null

/-- `request_id`, which an empty text leaves out. -/
def RequestContext.request (ctx : RequestContext) : Option String := ctx.requestId.filter (· ≠ "")

def field (candidate : Dict String Json) (key : String) : Json :=
  (Dict.get? candidate key).getD .null

section

variable (lib : Lib)

/-! ## Provenance -/

def storedProvenanceKeys : List String :=
  ["chat_id", "conversation_id", "message_id", "message_ids", "event_at", "explicit_user_signal",
    "stable_feedback_count", "source_type", "hidden_reasoning", "raw_retrieval_dump",
    "raw_transcript"]

def normalizeProvenance (provenance : Json) (ctx : RequestContext) (candidate : Dict String Json) :
    Dict String Json :=
  let kept := storedProvenanceKeys.filterMap fun key => (provenance.get? key).map fun v => (key, v)
  let named := ["chat_id", "conversation_id", "message_id"].foldl (fun (d : Dict String Json) key =>
    match Dict.get? candidate key, d.get? key with
    | some v, none => d.set key v
    | _, _ => d) kept
  let traced :=
    if ctx.traceId.truthy && (Dict.get? named "trace_id").isNone then
      Dict.set named "trace_id" ctx.traceId
    else named
  match Dict.get? traced "message_ids" with
  | none | some .null | some (.arr _) => traced
  | some other => Dict.set traced "message_ids" (.arr [other])

/-- `list(dict.fromkeys(xs))`, which refuses a value that cannot be hashed. -/
def fromKeys (xs : List Json) : Except Err (List Json) := do
  let step (seen : List (Json.Key × Json)) (x : Json) : Except Err (List (Json.Key × Json)) :=
    match x.key? with
    | none => .error .typeError
    | some k => .ok (if k ∈ seen.map Prod.fst then seen else seen ++ [(k, x)])
  let seen ← xs.foldlM step []
  pure (seen.map Prod.snd)

/-- A value that a merge may fill: `v in (None, "", [])`. -/
def isBlank : Json → Bool
  | .null | .str "" | .arr [] => true
  | _ => false

/-- One key of `_merge_provenance`. -/
def mergeProvenanceKey (merged : Dict String Json) (entry : String × Json) :
    Except Err (Dict String Json) :=
  let (key, value) := entry
  if key = "message_ids" then do
    let old ← match Json.orElse (field merged key) (.arr []) with
      | .arr xs => pure xs
      | _ => .error .typeError
    let new := match value with
      | .arr xs => xs
      | other => [other]
    let ids ← fromKeys (old ++ new)
    pure (Dict.set merged key (.arr ids))
  else
    match Dict.get? merged key with
    | none => .ok (Dict.set merged key value)
    | some old =>
      if isBlank old then .ok (Dict.set merged key value)
      else if key ∈ ["explicit_user_signal", "raw_transcript", "raw_retrieval_dump",
          "hidden_reasoning"] then
        .ok (Dict.set merged key (.bool (old.truthy || value.truthy)))
      else .ok merged

def mergeProvenance (left right : Dict String Json) : Except Err (Dict String Json) :=
  right.foldlM mergeProvenanceKey left

/-! ## Classification -/

def containsAny (markers : List String) (text : String) : Bool :=
  markers.any fun marker => contains marker text

def classifyCandidate (candidate : Dict String Json) (text : String) : MemoryClass :=
  let named := lib.lower (normalizeText lib (field candidate "memory_class"))
  if named = "episodic" then .episodic
  else if named = "semantic_preference" then .semanticPreference
  else if (field candidate "preference_key").truthy || !(field candidate "value").same .null then
    .semanticPreference
  else if contains "preference" (lib.lower (normalizeText lib (field candidate "category"))) then
    .semanticPreference
  else if containsAny ["prefer concise", "prefer detailed", "prefers concise", "prefers detailed",
      "prefer citations", "prefers citations", "use bullet", "use markdown", "format answers"]
      (lib.lower text) then
    .semanticPreference
  else .episodic

def inferPreferenceKey (text : String) (tags : List String) : String :=
  let lower := lib.lower text
  if containsAny ["citation", "cite"] lower then "citations"
  else if containsAny ["bullet", "markdown", "format"] lower then "formatting_style"
  else if containsAny ["concise", "brief", "extended", "detailed"] lower then "response_style"
  else if contains "tone" lower then "tone"
  else tags.head?.getD "communication_preference"

def inferPreferenceValue (preferenceKey text : String) : String :=
  let lower := lib.lower text
  if preferenceKey = "citations" then
    if containsAny ["citation", "cite"] lower then "required" else "preferred"
  else if preferenceKey = "response_style" && containsAny ["concise", "brief"] lower then "concise"
  else if preferenceKey = "response_style" && containsAny ["extended", "detailed"] lower then
    "extended"
  else if preferenceKey = "formatting_style" && contains "bullet" lower then "bullets"
  else if preferenceKey = "formatting_style" && contains "markdown" lower then "markdown"
  else buildSummary text

def inferValueType : Json → String
  | .bool _ => "boolean"
  | .num _ => "number"
  | _ => "string"

/-! ## Normalisation -/

variable (candidate : Dict String Json) (ctx : RequestContext)

/-- The text and the summary of a candidate, before they are normalised. -/
def rawContent : Json × Json :=
  let text := field candidate "text"
  let summary := field candidate "summary"
  let orEmpty (value : Json) : Json := value.orElse (.str "")
  match (Dict.get? candidate "content").getD (.obj []) with
  | .obj content =>
    (orEmpty ((field content "text").orElse text), orEmpty ((field content "summary").orElse
      summary))
  | .str content => (.str content, orEmpty summary)
  | _ => (orEmpty text, orEmpty summary)

def candidateText : String :=
  normalizeText lib (rawContent candidate).1

def candidateId : String :=
  normalizeText lib (field candidate "id")

section

variable (key : String) (value : Json) (m : Memory)

def dictField : Dict String Json :=
  match Dict.get? candidate key with
  | some (.obj fields) => fields
  | _ => []

def embeddingStatusOf (default : EmbeddingStatus) : EmbeddingStatus :=
  if value.truthy then
    match value with
    | .str "disabled" => .disabled
    | .str "indexed" => .indexed
    | .str "pending" => .pending
    | .str "failed" => .failed
    | .str "delete_pending" => .deletePending
    | _ => .other
  else default

def nonempty (s : String) : Option String := if s = "" then none else some s

def defaultKeywords (tags : List String) (text : String) : List String :=
  stringList lib (tags ++ (tokenize lib text).take 12)

def ownerIdOf (b : Boundary) : String := normalizeText lib (.str b.userId)

def ownerTypeOf : String := lib.lower (normalizeText lib (.str "user"))

def candidateProvenance : Dict String Json :=
  normalizeProvenance (field candidate "provenance") ctx candidate

def candidateKeywords : List String :=
  let retrieval := dictField candidate "retrieval"
  let given := asStringList lib ((field retrieval "keywords").orElse (field candidate "keywords"))
  if given.isEmpty then
    defaultKeywords lib (asStringList lib (field candidate "tags"))
      (candidateText lib candidate ++ " " ++ lib.str (rawContent candidate).2)
  else given

def normalizedMemory (cfg : Settings) (b : Boundary) (candidate : Dict String Json)
    (ctx : RequestContext) (now freshId : String) (confidence importance : Rat)
    (details : Details) : Memory :=
  let get := field candidate
  let text := candidateText lib candidate
  let memoryClass := classifyCandidate lib candidate text
  let provenance := candidateProvenance candidate ctx
  { boundary := b
    id := strOr (candidateId lib candidate) freshId
    ownerId := ownerIdOf lib b
    ownerType := ownerTypeOf lib
    text := text
    summary := strOr (normalizeText lib (rawContent candidate).2) (buildSummary text)
    source := ((get "source").orElse ctx.source).orElse
      ((field provenance "source_type").orElse (.str "unknown"))
    confidence := confidence
    importance := importance
    tags := asStringList lib (get "tags")
    createdAt := (get "created_at").orElse (.str now)
    updatedAt := (get "updated_at").orElse (.str now)
    lastAccessedAt := get "last_accessed_at"
    archivedAt := get "archived_at"
    status := some .active
    revision := max 1 (coerceInt lib (get "revision") 1)
    supersedes := nonempty (normalizeText lib (get "supersedes"))
    supersededBy := none
    contentHash := contentHash lib (ownerIdOf lib b) (ownerTypeOf lib) memoryClass text
    validFrom := (get "valid_from").orElse ((get "event_at").orElse (.str now))
    validTo := get "valid_to"
    scope := dictField candidate "scope"
    scopeKey := scopeKey lib (dictField candidate "scope")
    factKey := nonempty (lib.lower (normalizeText lib (get "fact_key")))
    consolidation := none
    conflict := none
    provenance := provenance
    retrieval :=
      { keywords := candidateKeywords lib candidate
        embeddingStatus := embeddingStatusOf (field (dictField candidate "retrieval")
          "embedding_status")
          (if cfg.qdrantEnabled then .pending else .disabled)
        indexedRevision := none }
    details := details }

def candidateEventAt (now : String) : Json :=
  (field candidate "event_at").orElse
    ((field (candidateProvenance candidate ctx) "event_at").orElse (.str now))

def candidatePreferenceKey : String :=
  lib.lower (normalizeText lib ((field candidate "preference_key").orElse
    (.str (inferPreferenceKey lib (candidateText lib candidate)
      (asStringList lib (field candidate "tags"))))))

def candidateValue : Json :=
  if (field candidate "value").same .null then
    .str (inferPreferenceValue lib (candidatePreferenceKey lib candidate)
      (candidateText lib candidate))
  else field candidate "value"

def candidateEvidence : Nat :=
  let provenance := candidateProvenance candidate ctx
  let stable := coerceInt lib (field provenance "stable_feedback_count") 0
  max (coerceInt lib (field candidate "evidence_count") stable)
    (if (field provenance "explicit_user_signal").truthy then 1 else stable)

/-- A preference without a text is described by its key and value. -/
def describedPreference : Memory :=
  if m.text = "" ∧ key ≠ "" then
    let text := "Preference " ++ key ++ ": " ++ lib.str value
    { m with text := text, summary := buildSummary text }
  else m

theorem describedPreference_boundary :
    (describedPreference lib key value m).boundary = m.boundary := by
  unfold describedPreference
  split <;> rfl

/-- `_normalize_candidate`, given the time and the id for a candidate without one. -/
def normalizeCandidate (cfg : Settings) (b : Boundary) (candidate : Dict String Json)
    (ctx : RequestContext) (now freshId : String) : Except Err Memory := do
  let explicitSignal := (field (candidateProvenance candidate ctx) "explicit_user_signal").truthy
  let memoryClass := classifyCandidate lib candidate (candidateText lib candidate)
  let confidence ← coerceFloat lib (field candidate "confidence")
    (if explicitSignal then 8 / 10 else 6 / 10)
  let importance ← coerceFloat lib (field candidate "importance")
    (if memoryClass = .semanticPreference then 8 / 10 else 65 / 100)
  let base := normalizedMemory lib cfg b candidate ctx now freshId confidence importance
  match memoryClass with
  | .semanticPreference => do
      let key := candidatePreferenceKey lib candidate
      let value := candidateValue lib candidate
      let strength ← coerceFloat lib (field candidate "strength") (max confidence (65 / 100))
      pure (describedPreference lib key value (base (.semanticPreference key value
        ((field candidate "value_type").orElse (.str (inferValueType value))) strength
        (candidateEvidence lib candidate ctx))))
  | .episodic => do
      let stability ← coerceFloat lib (field candidate "stability") (max confidence (55 / 100))
      pure (base (.episodic (candidateEventAt candidate ctx now) (field candidate "expires_at")
        stability))

theorem normalizeCandidate_ok {lib : Lib} {cfg : Settings} {b : Boundary}
    {candidate : Dict String Json} {ctx : RequestContext} {now freshId : String} {m : Memory}
    (h : normalizeCandidate lib cfg b candidate ctx now freshId = .ok m) :
    ∃ confidence importance,
      (classifyCandidate lib candidate (candidateText lib candidate) = .episodic ∧
        ∃ stability, m = normalizedMemory lib cfg b candidate ctx now freshId confidence importance
          (.episodic (candidateEventAt candidate ctx now) (field candidate "expires_at")
            stability)) ∨
      (classifyCandidate lib candidate (candidateText lib candidate) = .semanticPreference ∧
        ∃ valueType strength, m = describedPreference lib (candidatePreferenceKey lib candidate)
          (candidateValue lib candidate) (normalizedMemory lib cfg b candidate ctx now freshId
            confidence importance (.semanticPreference (candidatePreferenceKey lib candidate)
              (candidateValue lib candidate) valueType strength
              (candidateEvidence lib candidate ctx)))) := by
  obtain ⟨confidence, -, h⟩ := ok_of_bind h
  obtain ⟨importance, -, h⟩ := ok_of_bind h
  refine ⟨confidence, importance, ?_⟩
  split at h
  · obtain ⟨strength, -, h⟩ := ok_of_bind h
    exact .inr ⟨‹_›, _, strength, (Except.ok.inj h).symm⟩
  · obtain ⟨stability, -, h⟩ := ok_of_bind h
    exact .inl ⟨‹_›, stability, (Except.ok.inj h).symm⟩

/-! ## The write policy -/

structure PolicyCheck where
  name : String
  passed : Bool
  reason : String

def looksLikeTranscript (text : String) : Bool :=
  contains "user:" (lib.lower text) && contains "assistant:" (lib.lower text)

def looksLikeRetrievalDump : Bool :=
  (field m.provenance "raw_retrieval_dump").truthy ||
    containsAny ["page_content", "document:", "chunk", "retrieval result", "embedding score"]
      (lib.lower m.text)

def looksLikeHiddenReasoning : Bool :=
  (field m.provenance "hidden_reasoning").truthy ||
    containsAny ["chain of thought", "hidden reasoning", "reasoning trace", "internal scratchpad"]
      (lib.lower m.text)

def looksLikeTemporaryState (text : String) : Bool :=
  containsAny ["for this session", "for now", "currently working on", "temporary", "todo",
    "next turn", "draft", "in progress"] (lib.lower text)

def classChecks : List PolicyCheck :=
  match m.details with
  | .episodic eventAt .. => [⟨"event_at", eventAt.truthy, "event_at is required"⟩]
  | .semanticPreference key value _ _ evidenceCount =>
    let signal := (field m.provenance "explicit_user_signal").truthy ||
      decide (2 ≤ coerceInt lib (field m.provenance "stable_feedback_count") 0) ||
      decide (2 ≤ evidenceCount)
    [⟨"preference_key", key != "", "preference_key is required"⟩,
      ⟨"preference_value", !(value.same .null || value.same (.str "")),
        "preference value is required"⟩,
      ⟨"preference_signal", signal,
        "semantic preferences require explicit signal or repeated stable feedback"⟩]

/-- The ordered checks of `_evaluate_write_policy`. -/
def policyChecks : List PolicyCheck :=
  [⟨"owner_id", m.ownerId != "", "owner_id is required"⟩,
    ⟨"owner_type", ["user", "session", "conversation"].contains m.ownerType,
      "owner_type is invalid"⟩,
    ⟨"text", m.text != "", "memory text is required"⟩,
    ⟨"not_transcript", !looksLikeTranscript lib m.text, "raw transcript dumps are not stored"⟩,
    ⟨"not_retrieval_dump", !looksLikeRetrievalDump lib m, "raw retrieval dumps are not stored"⟩,
    ⟨"not_hidden_reasoning", !looksLikeHiddenReasoning lib m, "hidden reasoning is not stored"⟩,
    ⟨"not_temporary_state", !looksLikeTemporaryState lib m.text,
      "temporary task state is not stored"⟩,
    ⟨"confidence", decide (35 / 100 ≤ m.confidence), "candidate confidence is too low"⟩,
    ⟨"importance", decide (35 / 100 ≤ m.importance), "candidate importance is too low"⟩] ++
  classChecks lib m

end

/-- `_first_failed_reason`, where a check fails. -/
def firstFailedReason (checks : List PolicyCheck) : Option String :=
  (checks.find? fun check => !check.passed).map PolicyCheck.reason

end

end RagForge.Memories
