import Mathlib.Data.List.Sort
import RagForge.Rag.Stages

/-
The pure parts of `ConversationGraphRunner`: debug payloads, chunk normalisation, prompts and
reviews.
-/

namespace RagForge.Rag

open Py

/-! ## Debug payloads -/

mutual

/-- Redact obvious secrets from debug-visible payloads. -/
def sanitizeDebugValue (lib : Lib) : Json → Json
  | .obj fields => .obj (sanitizeFields lib fields)
  | .arr xs => .arr (sanitizeItems lib xs)
  | .str s => .str (lib.redact s)
  | .null => .null
  | .bool b => .bool b
  | .num q => .num q

def sanitizeItems (lib : Lib) : List Json → List Json
  | [] => []
  | x :: rest => sanitizeDebugValue lib x :: sanitizeItems lib rest

def sanitizeFields (lib : Lib) : List (String × Json) → List (String × Json)
  | [] => []
  | (key, item) :: rest =>
    (key, if lib.secretKey key then .str "[redacted]" else sanitizeDebugValue lib item) ::
      sanitizeFields lib rest

end

mutual

def depth : Json → Nat
  | .obj fields => depthFields fields + 1
  | .arr xs => depthItems xs + 1
  | _ => 0

def depthItems : List Json → Nat
  | [] => 0
  | x :: rest => max (depth x) (depthItems rest)

def depthFields : List (String × Json) → Nat
  | [] => 0
  | (_, item) :: rest => max (depth item) (depthFields rest)

end

/-- `_truncate`, recursing into dictionaries at most `fuel` levels deep. -/
def truncateTo (cfg : Config) (lib : Lib) : Nat → Json → Json
  | 0, j => sanitizeDebugValue lib j
  | fuel + 1, j =>
    match sanitizeDebugValue lib j with
    | .str s => .str (clip cfg.debugPayloadMaxChars s)
    -- The items of a list are sanitised but not cut.
    | .arr xs => .arr (xs.take cfg.debugPayloadMaxItems)
    | .obj fields =>
      .obj ((fields.take cfg.debugPayloadMaxItems).map fun x =>
        (x.1, truncateTo cfg lib fuel x.2))
    | other => other

def truncate (cfg : Config) (lib : Lib) (j : Json) : Json := truncateTo cfg lib (depth j + 1) j

/-- `_append_debug`: with debug payloads switched off the collected ones are dropped as well. -/
def appendDebug (cfg : Config) (lib : Lib) (debugPayloads : Dict String Json)
    (payloads : List (String × Json)) : Dict String Json :=
  if cfg.allowDebugPayloads then
    payloads.foldl (fun d x => d.set x.1 (truncate cfg lib x.2)) debugPayloads
  else []

def structuredOutputDebugPayloads (response : Json) (label : String) : List (String × Json) :=
  match response.get "_structured_output_debug" with
  | .obj fields =>
    let metadata := Json.obj fields
    [(label ++ "_structured_output_candidates", (metadata.get? "candidates").getD (.arr [])),
      (label ++ "_structured_output_selected_index", metadata.get "selected_payload_index"),
      (label ++ "_structured_output_selection_policy", metadata.get "selection_policy"),
      (label ++ "_structured_output_extraction_mode", metadata.get "extraction_mode"),
      (label ++ "_raw_output", response.get "raw_output")]
  | _ => []

/-! ## Retrieved chunks -/

/-- The first true value of `a or b or ...`; the last one if none is true. -/
def firstTrue (xs : List Json) (last : Json) : Json := xs.foldr Json.orElse last

/-- One entry of `_normalize_chunks`; `position` is the number of chunks kept so far.  Chunks
without text, chunks that retrieval may not use and removed chunks are dropped. -/
def normalizeChunk (cfg : Config) (lib : Lib) (now : String) (position : Nat) (item : Json) :
    Option Json :=
  let payload := (item.get "payload").orElse (.obj [])
  let metadata := firstTrue [item.get "metadata", payload.get "metadata"] (.obj [])
  let text := firstTrue [item.get "text", item.get "chunk", item.get "content",
    payload.get "text"] ((metadata.get? "text").getD (.str ""))
  let reviewStatus := firstTrue [item.get "review_status", payload.get "review_status",
    metadata.get "review_status"] (.str "clean")
  let retrievalAllowed := ((item.get? "retrieval_allowed").getD
    ((payload.get? "retrieval_allowed").getD
      ((metadata.get? "retrieval_allowed").getD (.bool true)))).truthy
  if ¬ text.truthy ∨ ¬ retrievalAllowed ∨ reviewStatus.text = "removed" then none
  else
    let either (key : String) (last : Json) : Json :=
      firstTrue [item.get key, payload.get key, metadata.get key] last
    let chunkIndex := either "chunk_index" (.num position)
    let chunkVersion := either "chunk_version" (.num 1)
    let sourceName := firstTrue [item.get "source_name", item.get "source",
      payload.get "source_name", metadata.get "filename", metadata.get "source_name"] (.str "")
    let documentId := firstTrue [item.get "document_id", item.get "file_id",
      payload.get "document_id", payload.get "file_id", metadata.get "document_id",
      metadata.get "file_id", sourceName, item.get "chunk_id", payload.get "chunk_id",
      item.get "id"] (.str ("document-" ++ lib.str chunkIndex))
    let chunkId := firstTrue [item.get "chunk_id", payload.get "chunk_id", item.get "id"]
      (.str (lib.str (documentId.orElse (.str "document")) ++ "__v" ++ lib.str chunkVersion ++
        "__c" ++ lib.str chunkIndex))
    some (.obj
      [("file_id", either "file_id" documentId),
        ("document_id", documentId),
        ("chunk_id", chunkId),
        ("chunk_index", chunkIndex),
        ("chunk_version", chunkVersion),
        ("text", text),
        ("text_preview", firstTrue [item.get "text_preview", payload.get "text_preview"]
          (.str (clip 240 text.text))),
        ("source_name", sourceName),
        ("page", either "page" .null),
        ("section", either "section" .null),
        ("retrieval_allowed", .bool retrievalAllowed),
        ("review_status", reviewStatus),
        ("issue_flags", truncate cfg lib (either "issue_flags" (.arr []))),
        ("created_at", either "created_at" (.str now)),
        ("score", (item.get? "score").getD ((item.get? "similarity").getD (.num 0))),
        ("retrieval_diagnostics",
          truncate cfg lib ((item.get "retrieval_diagnostics").orElse (.obj []))),
        ("source", sourceName),
        ("metadata", truncate cfg lib metadata)])

def normalizeChunks (cfg : Config) (lib : Lib) (now : String) (payload : Json) : List Json :=
  let chunks := (firstTrue [payload.get "chunks", payload.get "results"] (.arr [])).items
  chunks.foldl (fun kept item =>
    match normalizeChunk cfg lib now kept.length item with
    | some chunk => kept ++ [chunk]
    | none => kept) []

def chunkScore (chunk : Json) : Rat := (chunk.get "score").number

/-- `_merge_candidates`: the best score of each chunk identifier, in order of first appearance. -/
def mergedChunks (incoming : List Json) : Dict String Json :=
  incoming.foldl (fun merged chunk =>
    let chunkId := (chunk.get "chunk_id").text
    match Dict.get? merged chunkId with
    | none => Dict.set merged chunkId chunk
    | some current =>
      if chunkScore chunk > chunkScore current then Dict.set merged chunkId chunk
      else merged) []

/-- `sorted(.., key=score, reverse=True)`: equal scores keep their order. -/
def byScore (chunks : List Json) : List Json :=
  chunks.insertionSort fun a b => chunkScore b ≤ chunkScore a

structure Passage where
  sourceId : String
  text : String
  locator : Option String

section

variable (lib : Lib) (claims : List Json) (passageIds : List String)

/-- `chunk_passages`: the citable passages, in citation order. -/
def chunkPassages (retrievedChunks : List Json) : List Passage :=
  retrievedChunks.zipIdx.filterMap fun x =>
    let chunk := x.1
    let text := firstTrue [chunk.get "text", chunk.get "chunk", chunk.get "content"] (.str "")
    if text.truthy then
      let page := chunk.get "page"
      let section' := chunk.get "section"
      let locator : Option String :=
        match page with
        | .null => if section'.truthy then some (lib.str section') else none
        | _ => some ("p." ++ lib.str page)
      some ⟨lib.str (firstTrue [chunk.get "chunk_id", chunk.get "id"]
        (.str ("passage_" ++ toString (x.2 + 1)))), lib.str text, locator⟩
    else none

/-! ## Prompts and reviews -/

def joinWith (sep : String) (parts : List String) : String := String.intercalate sep parts

structure Prompt where
  instructions : String
  retrievedContext : List Passage
  recentMessages : List Json
  revisionAttempted : Bool

def buildPrompt (state : ConversationState) (mode : Mode) (reviewIssues : Json) : Prompt :=
  let passages := chunkPassages lib state.retrievedChunks
  let memoryContext := joinWith "\n"
    (state.memoryHits.map fun item => lib.str ((item.get? "content").getD (.str "")))
  let modeText := match mode with
    | .regular => "regular"
    | .extended => "extended"
  let historyLines := state.recentMessages.map fun msg =>
    let role := if (msg.get "role").text = "user" then "User" else "Assistant"
    role ++ ": " ++ lib.str ((msg.get? "content").getD (.str ""))
  let part (present : Bool) (text : String) : List String := if present then [text] else []
  let parts :=
    ["Mode: " ++ modeText, "Conversation summary:\n" ++ state.shortTermSummary] ++
      part (!state.recentMessages.isEmpty) ("Recent messages:\n" ++ joinWith "\n" historyLines) ++
      part (memoryContext != "") ("Relevant memory:\n" ++ memoryContext) ++
      part state.retrievalPlan.truthy ("Retrieval plan:\n" ++ lib.str state.retrievalPlan) ++
      part (!passages.isEmpty)
        ("Retrieved context:\n" ++ lib.str (.arr (passages.map fun p => .str p.text))) ++
      part reviewIssues.truthy ("Fix these issues:\n" ++ lib.str reviewIssues) ++
      ["Answer grounded in the retrieved context when relevant. Be helpful, clear, " ++
        "and explicit about uncertainty. Return the answer only."]
  ⟨joinWith "\n\n" parts, passages, state.recentMessages, reviewIssues.truthy⟩

/-- `_public_review`: the subset of a review that leaves the service; claim texts stay inside. -/
def publicReview (review : Option Review) : Json :=
  match review with
  | none => .obj []
  | some r => .obj
      [("review_id", .str r.reviewId), ("verdict", r.verdict),
        ("groundedness_score", .num r.groundednessScore),
        ("completeness_score", .num r.completenessScore),
        ("safety_score", .num r.safetyScore), ("issues", r.issues),
        ("hallucination_verdict", r.hallucinationVerdict),
        ("unsupported_claim_count", r.unsupportedClaimCount),
        ("revision_applied", .bool r.revisionApplied), ("model_name", .str r.modelName),
        ("created_at", .str r.createdAt)]

/-- The items a `for` loop over the value visits. -/
def iterate : Json → Except Err (List Json)
  | .arr xs => .ok xs
  | .str s => .ok (s.toList.map fun c => .str (String.ofList [c]))
  | .obj fields => .ok (fields.map fun f => .str f.1)
  | .null => .error (.typeError "'NoneType' object is not iterable")
  | .bool _ => .error (.typeError "'bool' object is not iterable")
  | .num q =>
    .error (.typeError (if q.isInt then "'int' object is not iterable"
      else "'float' object is not iterable"))

/-- `str(raw).strip().strip("[]")`. -/
def referenceText (raw : Json) : String :=
  let bracket (c : Char) : Bool := c == '[' || c == ']'
  String.ofList (((strip (lib.str raw)).toList.dropWhile bracket).rdropWhile bracket)

/-- A reference of `resolve_claim_passage_ids` is a known chunk identifier or a passage number;
anything else is dropped. -/
def resolveReference (ids : List String) (raw : Json) : Except Err (List String) :=
  let reference := referenceText lib raw
  let add (id : String) : List String := if id ∈ ids then ids else ids ++ [id]
  if reference ∈ passageIds then .ok (add reference)
  else if lib.isDigit reference then
    match lib.int reference with
    | .error message => .error (.valueError message)
    | .ok 0 => .ok ids
    | .ok (index + 1) =>
      match passageIds[index]? with
      | some chunkId => .ok (add chunkId)
      | none => .ok ids
  else .ok ids

def resolveClaim (fields : List (String × Json)) : Except Err Json := do
  let refs ← iterate ((Json.get (.obj fields) "supporting_passage_ids").orElse (.arr []))
  let ids ← refs.foldlM (resolveReference lib passageIds) []
  return .obj (Dict.set fields "supporting_passage_ids" (.arr (ids.map .str)))

def resolveClaimPassageIds : Except Err (List Json) :=
  let add (resolved : List Json) (claim : Json) : Except Err (List Json) :=
    match claim with
    | .obj fields => (resolveClaim lib passageIds fields).map fun entry => resolved ++ [entry]
    | _ => .ok resolved
  claims.foldlM add []

/-- The claims of a judge's reply. -/
def reviewClaims (payload : Json) (passages : List Passage) : Except Err (List Json) := do
  let claims ← iterate ((payload.get "claims").orElse (.arr []))
  resolveClaimPassageIds lib claims (passages.map Passage.sourceId)

/-- `_build_review`, of a reply whose claims could be read. -/
def buildReview (payload : Json) (request : ConversationRequest)
    (passages : List Passage) (newId now : String) : Review :=
  let claims := (reviewClaims lib payload passages).toOption.getD []
  { reviewId := strOr (payload.get "review_id").text newId
    verdict := (payload.get? "verdict").getD (.str "pass")
    groundednessScore := (payload.get "groundedness_score").number
    completenessScore := (payload.get "completeness_score").number
    safetyScore := (payload.get "safety_score").number
    issues := (payload.get? "issues").getD (.arr [])
    claims := claims
    unsupportedClaimCount :=
      if claims.isEmpty then payload.get "unsupported_claim_count"
      else .num (claims.filter fun claim => !(claim.get "supported").truthy).length
    hallucinationVerdict := payload.get "hallucination_verdict"
    revisionApplied := ((payload.get? "revision_applied").getD (.bool false)).truthy
    modelName := strOr (payload.get "model_name").text (optOr request.model "default")
    createdAt := strOr (payload.get "created_at").text now
    shouldRevise := ((payload.get? "should_revise").getD (.bool false)).truthy }

end

def summarizeTurn (cfg : Config) (state : ConversationState) : String :=
  let snippet := "User: " ++ state.userMessage ++ " Assistant: " ++ state.draftAnswer.text
  clip cfg.debugPayloadMaxChars (strip (strip state.shortTermSummary ++ " " ++ snippet))

end RagForge.Rag
