import Mathlib.Algebra.Field.Rat
import Mathlib.Data.Finset.Card
import Mathlib.Data.List.Sort
import RagForge.Embedding.Types
import RagForge.Vector.Sparse

/-
The vector store (`vector_db/app/db/implementations/qdrant.py`).

A collection is a finite set of points.  The engine behind it is a parameter: it is handed the
points a filter leaves and ranks or enumerates those, which is what the store is trusted to do.
The translation of filters, which decides what those points are, is modelled in full.
-/

namespace RagForge.Vector

open Py Files RagForge.Embedding

def ChunkReview.text : ChunkReview → String
  | .clean => "clean"
  | .sanitized => "sanitized"
  | .acceptedWithRisk => "accepted_with_risk"
  | .removed => "removed"

/-- The fields of `PAYLOAD_FIELDS`. -/
structure Payload where
  tenantId : String
  ownerUserId : String
  ownerAdminId : String
  fileId : String
  documentId : String
  chunkId : String
  chunkIndex : Int
  chunkVersion : Int
  text : String
  textPreview : String
  sourceName : String
  page : Option Int
  sectionName : Option String
  retrievalAllowed : Bool
  reviewStatus : ChunkReview
  issueFlags : List String
  createdAt : String
  deriving DecidableEq

abbrev SparseVector : Type := Sparse.SparseVector Rat

structure Point where
  id : String
  dense : Vec
  sparse : SparseVector
  payload : Payload
  deriving DecidableEq

abbrev Collection : Type := Finset Point

/-! ## Conditions on a payload -/

/-- A value a payload field is compared with. -/
inductive Scalar
  | str (s : String)
  | int (n : Int)
  | bool (b : Bool)
  deriving DecidableEq

/-- The indexed value of a field; a field that is null or unknown matches nothing. -/
def Payload.field (p : Payload) (key : String) : Option Scalar :=
  match key with
  | "tenant_id" => some (.str p.tenantId)
  | "owner_user_id" => some (.str p.ownerUserId)
  | "owner_admin_id" => some (.str p.ownerAdminId)
  | "file_id" => some (.str p.fileId)
  | "document_id" => some (.str p.documentId)
  | "chunk_id" => some (.str p.chunkId)
  | "chunk_version" => some (.int p.chunkVersion)
  | "page" => p.page.map .int
  | "section" => p.sectionName.map .str
  | "retrieval_allowed" => some (.bool p.retrievalAllowed)
  | "review_status" => some (.str (ChunkReview.text p.reviewStatus))
  | _ => none

inductive Match
  | value (v : Scalar)
  | any (vs : List Scalar)

structure FieldCondition where
  key : String
  «match» : Match

def FieldCondition.holds (c : FieldCondition) (p : Payload) : Bool :=
  match p.field c.key, c.match with
  | none, _ => false
  | some v, .value w => v = w
  | some v, .any ws => v ∈ ws

structure Filter where
  must : List FieldCondition
  mustNot : List FieldCondition

def Filter.admits (f : Filter) (p : Payload) : Bool :=
  f.must.all (·.holds p) && f.mustNot.all fun c => !c.holds p

def Filter.select (f : Filter) (s : Collection) : Collection := s.filter fun x => f.admits x.payload

/-! ## Translation of caller filters -/

/-- What a caller may put into its filters: nothing, a value, or a list with gaps. -/
inductive FilterValue
  | null
  | one (v : Scalar)
  | many (vs : List (Option Scalar))

abbrev Filters : Type := Dict String FilterValue

def allowedCallerFilters : List String :=
  ["tenant_id", "owner_user_id", "owner_admin_id", "file_id", "document_id", "chunk_version",
    "review_status", "page", "section"]

def safeReviewStatuses : List Scalar :=
  [.str "clean", .str "accepted_with_risk", .str "sanitized"]

def normalizeMatchValue (key : String) (value : FilterValue) : Option Match :=
  match value with
  | .null => none
  | .one v =>
    if key = "review_status" then
      if v ∈ safeReviewStatuses then some (.value v) else none
    else some (.value v)
  | .many vs =>
    let present := vs.reduceOption
    let kept := if key = "review_status" then present.filter (· ∈ safeReviewStatuses) else present
    if kept = [] then none else some (.any kept)

/-- The condition one caller filter adds to a search. -/
def callerCondition (entry : String × FilterValue) : Option FieldCondition :=
  if entry.1 ∈ allowedCallerFilters then
    (normalizeMatchValue entry.1 entry.2).map (⟨entry.1, ·⟩)
  else none

def buildSearchFilter (filters : Filters) : Filter where
  must := ⟨"retrieval_allowed", .value (.bool true)⟩ :: filters.filterMap callerCondition
  mustNot := [⟨"review_status", .value (.str "removed")⟩]

/-- The scope conditions of `lookup_ids`, which are equality matches. -/
def scopeCondition (entry : String × FilterValue) : Option FieldCondition :=
  match entry.2 with
  | .one v => if entry.1 ∈ allowedCallerFilters then some ⟨entry.1, .value v⟩ else none
  | _ => none

/-- The text a delete filter holds under a key, when it is a nonempty one. -/
def deleteValue (filters : Filters) (key : String) : Option FieldCondition :=
  match Dict.get? filters key with
  | some (.one (.str s)) => if s = "" then none else some ⟨key, .value (.str s)⟩
  | _ => none

inductive StoreErr
  | value (message : String)
  | engine (message : String)

def StoreErr.text : StoreErr → String
  | .value m | .engine m => m

def buildDeleteFilter (filters : Filters) : Except StoreErr Filter :=
  let target := ["file_id", "document_id"].filterMap (deleteValue filters)
  let scope := ["tenant_id", "owner_user_id", "owner_admin_id"].filterMap (deleteValue filters)
  if target = [] then .error (.value "delete_chunks requires file_id, document_id, or both")
  else .ok ⟨target ++ scope, []⟩

/-! ## Operations -/

/-- What the database engine does with the points a filter leaves. -/
structure Engine where
  queryDense : Vec → Int → Collection → Except String (List (Point × Rat))
  querySparse : SparseVector → Int → Collection → Except String (List (Point × Rat))
  scroll : Collection → Except String (List Point)
  pointId : String → String
  sparseLib : Sparse.SparseLib Rat

structure StoreConfig where
  collectionName : String
  vectorSize : Nat

/-- How an arm ranked a candidate; the diagnostics `reciprocal_rank_fusion` attaches. -/
structure Diagnostics where
  denseRank : Option Nat
  denseScore : Option Rat
  sparseRank : Option Nat
  sparseScore : Option Rat
  fusedScore : Rat
  fusedRank : Nat

structure Candidate where
  id : String
  score : Rat
  payload : Option Payload
  vector : Option Vec
  diagnostics : Option Diagnostics

def formatHit (includePayload includeVector : Bool) (hit : Point × Rat) : Candidate where
  id := hit.1.id
  score := hit.2
  payload := if includePayload then some hit.1.payload else none
  vector := if includeVector then some hit.1.dense else none
  diagnostics := none

section

variable (E : Engine) (cfg : StoreConfig) (s : Collection)

def searchDense (query : Vec) (topK : Int) (filters : Filters)
    (includePayload includeVector : Bool) : Except StoreErr (List Candidate) :=
  if query.length ≠ cfg.vectorSize then
    .error (.value ("Query vector size mismatch: expected " ++ toString cfg.vectorSize ++ ", got "
      ++ toString query.length))
  else
    match E.queryDense query topK ((buildSearchFilter filters).select s) with
    | .error m => .error (.engine m)
    | .ok hits => .ok (hits.map (formatHit includePayload includeVector))

def searchSparse (query : SparseVector) (topK : Int) (filters : Filters) (includePayload : Bool) :
    Except StoreErr (List Candidate) :=
  if query.indices = [] then .ok []
  else if query.indices.length ≠ query.values.length then
    .error (.value "Sparse query indices and values must have equal length")
  else
    match E.querySparse query topK ((buildSearchFilter filters).select s) with
    | .error m => .error (.engine m)
    | .ok hits => .ok (hits.map (formatHit includePayload false))

def verifiableIdFields : List String := ["chunk_id", "file_id"]

def maxVerifyIds : Nat := 1000

def verifyTargets (field : String) (values : List String) : Except StoreErr (List String) :=
  if field ∉ verifiableIdFields then
    .error (.value ("'" ++ field ++ "' is not a verifiable id field"))
  else
    let wanted := (values.filter fun v => strip v ≠ "").dedup
    if maxVerifyIds < wanted.length then
      .error (.value ("lookup_ids was given " ++ toString wanted.length ++ " ids; the limit is "
        ++ toString maxVerifyIds))
    else .ok wanted

structure Found where
  present : List String
  retrievable : List String

/-- The id a scrolled record reports, when it is one of those asked for. -/
def reportedId (field : String) (wanted : List String) (x : Point) : Option String :=
  match x.payload.field field with
  | some (.str v) => if v ∈ wanted then some v else none
  | _ => none

def Point.retrievable (x : Point) : Bool :=
  x.payload.retrievalAllowed && x.payload.reviewStatus != .removed

def sortedIds (ids : List String) : List String := ids.dedup.insertionSort (· ≤ ·)

def lookupIds (field : String) (values : List String) (scope : Filters) : Except StoreErr Found :=
  match verifyTargets field values with
  | .error e => .error e
  | .ok [] => .ok ⟨[], []⟩
  | .ok wanted =>
    let f : Filter :=
      ⟨⟨field, .any (wanted.map .str)⟩ :: scope.filterMap scopeCondition, []⟩
    match E.scroll (f.select s) with
    | .error m => .error (.engine m)
    | .ok records =>
      .ok ⟨sortedIds (records.filterMap (reportedId field wanted)),
        sortedIds ((records.filter Point.retrievable).filterMap (reportedId field wanted))⟩

def requireString (key : String) (value : Option String) : Except StoreErr String :=
  match value with
  | some "" | none => .error (.value (key ++ " is required"))
  | some v => .ok v

def buildPayload (c : JobChunk) : Except StoreErr Payload := do
  let fileId ← requireString "file_id" c.fileId
  let tenantId ← requireString "tenant_id" c.tenantId
  let ownerUserId ← requireString "owner_user_id" c.ownerUserId
  let ownerAdminId ← requireString "owner_admin_id" c.ownerAdminId
  let documentId ← requireString "document_id" c.documentId
  let chunkId ← requireString "chunk_id" c.chunkId
  let sourceName ← requireString "source_name" c.sourceName
  let createdAt ← requireString "created_at" c.createdAt
  return { tenantId, ownerUserId, ownerAdminId, fileId, documentId, chunkId, sourceName, createdAt
           chunkIndex := c.chunkIndex
           chunkVersion := c.chunkVersion
           text := c.text
           textPreview := if c.textPreview = "" then (c.text.take 250).toString else c.textPreview
           page := c.page
           sectionName := c.sectionName
           retrievalAllowed := c.retrievalAllowed
           reviewStatus := c.reviewStatus
           issueFlags := c.issueFlags }

def normalizeEmbedding (embedding : Vec) : Except StoreErr Vec :=
  if embedding.length ≠ cfg.vectorSize then
    .error (.value ("Vector size mismatch: expected " ++ toString cfg.vectorSize ++ ", got "
      ++ toString embedding.length))
  else .ok embedding

/-- The point of a chunk, whose id is determined by its tenant and its chunk id. -/
def buildPoint (c : EmbeddedChunk) : Except StoreErr Point := do
  let payload ← buildPayload c.toJobChunk
  let dense ← normalizeEmbedding cfg c.embedding
  let sparse ← (Sparse.sparseLexicalVector E.sparseLib payload.text Sparse.maxSparseTerms).mapError
    .value
  return { id := E.pointId (payload.tenantId ++ ":" ++ payload.chunkId)
           dense
           sparse
           payload }

theorem requireString_eq {name v : String} {value : Option String}
    (h : requireString name value = .ok v) : value = some v := by
  unfold requireString at h
  split at h
  · cases h
  · cases h
  · rw [Except.ok.inj h]

theorem buildPoint_fields {E : Engine} {cfg : StoreConfig} {c : EmbeddedChunk} {x : Point}
    (h : buildPoint E cfg c = .ok x) :
    c.tenantId = some x.payload.tenantId ∧ c.fileId = x.payload.fileId ∧
      c.chunkId = x.payload.chunkId ∧
      x.id = E.pointId (x.payload.tenantId ++ ":" ++ x.payload.chunkId) := by
  obtain ⟨payload, hpayload, h⟩ := ok_of_bind h
  obtain ⟨dense, -, h⟩ := ok_of_bind h
  obtain ⟨sparse, -, h⟩ := ok_of_bind h
  cases h
  obtain ⟨fileId, hfile, h⟩ := ok_of_bind hpayload
  obtain ⟨tenantId, htenant, h⟩ := ok_of_bind h
  obtain ⟨ownerUserId, -, h⟩ := ok_of_bind h
  obtain ⟨ownerAdminId, -, h⟩ := ok_of_bind h
  obtain ⟨documentId, -, h⟩ := ok_of_bind h
  obtain ⟨chunkId, hchunk, h⟩ := ok_of_bind h
  obtain ⟨sourceName, -, h⟩ := ok_of_bind h
  obtain ⟨createdAt, -, h⟩ := ok_of_bind h
  cases h
  exact ⟨requireString_eq htenant, Option.some.inj (requireString_eq hfile),
    Option.some.inj (requireString_eq hchunk), rfl⟩

def put (s : Collection) (x : Point) : Collection := insert x (s.filter (·.id ≠ x.id))

def upsertPoints (chunks : List EmbeddedChunk) : Except StoreErr (Nat × Collection) := do
  let points ← chunks.mapM (buildPoint E cfg)
  return (points.length, points.foldl put s)

def deletePoints (filters : Filters) : Except StoreErr (Nat × Collection) := do
  let f ← buildDeleteFilter filters
  return ((f.select s).card, s.filter fun x => !f.admits x.payload)

end

end RagForge.Vector
