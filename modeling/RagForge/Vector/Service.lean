import RagForge.Vector.Store

/-
The vector service (`vector_db/app/services/vector_service.py`, `hybrid_retrieval.py`): searches,
label verification, upserts and deletes, each for the identity bound to the request.
-/

namespace RagForge.Vector

open Py Files RagForge.Embedding

inductive Err
  | invalidVector (message : String)
  | vectorStore (message : String)

def Err.text : Err → String
  | .invalidVector m | .vectorStore m => m

def scopedFilters (who : Option Identity) (filters : Filters) : Filters :=
  match who with
  | none => filters
  | some who =>
    let filters := Dict.set filters "tenant_id" (.one (.str who.tenantId))
    match who.role with
    | .admin =>
      Dict.erase (Dict.set filters "owner_admin_id" (.one (.str who.userId))) "owner_user_id"
    | .user =>
      Dict.erase (Dict.set filters "owner_user_id" (.one (.str who.userId))) "owner_admin_id"
    | .service => filters

/-! ## Rank fusion -/

inductive Arm
  | dense
  | sparse
  deriving DecidableEq

def Arm.name : Arm → String
  | .dense => "dense"
  | .sparse => "sparse"

structure Fused where
  candidate : Candidate
  denseRank : Option Nat
  denseScore : Option Rat
  sparseRank : Option Nat
  sparseScore : Option Rat
  fusedScore : Rat

def Fused.start (c : Candidate) : Fused := ⟨c, none, none, none, none, 0⟩

def Fused.rank (e : Fused) : Arm → Option Nat
  | .dense => e.denseRank
  | .sparse => e.sparseRank

def Fused.ranked (e : Fused) (arm : Arm) (rank : Nat) (score : Rat) (rrfK : Int) : Fused :=
  let e := { e with fusedScore := e.fusedScore + 1 / (rrfK + rank : Rat) }
  match arm with
  | .dense => { e with denseRank := some rank, denseScore := some score }
  | .sparse => { e with sparseRank := some rank, sparseScore := some score }

/-- `_candidate_id`. -/
def Candidate.fusionId (c : Candidate) : String :=
  strOr ((c.payload.map Payload.chunkId).getD "") c.id

/-- One pass of the loop over the candidates of an arm. -/
def fuseCandidate (arm : Arm) (rrfK : Int) (fused : Dict String Fused) (x : Candidate × Nat) :
    Dict String Fused :=
  let id := x.1.fusionId
  if id = "" then fused
  else
    let entry := (fused.get? id).getD (Fused.start x.1)
    match entry.rank arm with
    | some _ => fused
    | none => fused.set id (entry.ranked arm x.2 x.1.score rrfK)

def fuseArm (arm : Arm) (rrfK : Int) (fused : Dict String Fused) (candidates : List Candidate) :
    Dict String Fused :=
  (candidates.zipIdx 1).foldl (fuseCandidate arm rrfK) fused

def Fused.bestRank (e : Fused) : Nat :=
  match e.denseRank, e.sparseRank with
  | some d, some s => min d s
  | some d, none => d
  | none, some s => s
  | none, none => 0

/-- The sort key of the fused candidates: the score falls, then the best rank and the id rise. -/
def fusedBefore (a b : String × Fused) : Bool :=
  decide (b.2.fusedScore < a.2.fusedScore) ||
    (decide (a.2.fusedScore = b.2.fusedScore) &&
      (decide (a.2.bestRank < b.2.bestRank) ||
        (decide (a.2.bestRank = b.2.bestRank) && decide (a.1 ≤ b.1))))

def Fused.result (e : Fused) (fusedRank : Nat) : Candidate :=
  { e.candidate with
    score := e.fusedScore
    diagnostics := some ⟨e.denseRank, e.denseScore, e.sparseRank, e.sparseScore, e.fusedScore,
      fusedRank⟩ }

def reciprocalRankFusion (dense sparse : List Candidate) (limit rrfK : Int) :
    Except StoreErr (List Candidate) :=
  if limit < 1 ∨ rrfK < 1 then .error (.value "limit and rrf_k must be positive")
  else
    let fused := fuseArm .sparse rrfK (fuseArm .dense rrfK [] dense) sparse
    let ordered := (fused.insertionSort fun a b => fusedBefore a b).take limit.toNat
    .ok ((ordered.zipIdx 1).map fun x => x.1.2.result x.2)

/-! ## Reading -/

inductive Strategy
  | dense
  | hybrid
  | other (name : String)

structure SearchRequest where
  queryVector : Vec
  topK : Int
  filters : Filters
  includePayload : Bool
  includeVector : Bool
  querySparse : Option SparseVector
  strategy : Strategy
  denseCandidateK : Int
  sparseCandidateK : Int
  rrfK : Int

section

variable (E : Engine) (cfg : StoreConfig) (who : Option Identity) (s : Collection)

def armResult (arm : Arm) (r : Except StoreErr (List Candidate)) : Except Err (List Candidate) :=
  r.mapError fun e =>
    .vectorStore ("Failed to search chunks: " ++ arm.name ++ " hybrid search failed: " ++ e.text)

def searchError : StoreErr → Err
  | .value m => .invalidVector m
  | .engine m => .vectorStore ("Failed to search chunks: " ++ m)

def searchChunks (req : SearchRequest) : Except Err (List Candidate) :=
  if req.queryVector = [] then .error (.invalidVector "query_vector is required")
  else
    let filters := scopedFilters who req.filters
    match req.strategy, req.querySparse with
    | .hybrid, none =>
      .error (.vectorStore
        "Failed to search chunks: query_sparse is required for hybrid retrieval")
    | .hybrid, some sparse => do
        let denseArm ← armResult .dense (searchDense E cfg s req.queryVector req.denseCandidateK
          filters req.includePayload req.includeVector)
        let sparseArm ← armResult .sparse (searchSparse E s sparse req.sparseCandidateK filters
          req.includePayload)
        (reciprocalRankFusion denseArm sparseArm req.topK req.rrfK).mapError searchError
    | .dense, _ =>
      (searchDense E cfg s req.queryVector req.topK filters req.includePayload
        req.includeVector).mapError searchError
    | .other name, _ =>
      .error (.vectorStore ("Failed to search chunks: Unsupported retrieval_strategy: " ++ name))

structure Verified where
  present : List String
  retrievable : List String
  missing : List String

structure Verification where
  collectionName : String
  chunkIds : Verified
  fileIds : Verified

def verifyError (field : String) : StoreErr → Err
  | .value m => .invalidVector m
  | .engine m => .vectorStore ("Failed to verify " ++ field ++ " values: " ++ m)

/-- The loop body of `verify_chunk_ids`. -/
def verifyField (field : String) (values : List String) : Except Err Verified :=
  if values = [] then .ok ⟨[], [], []⟩
  else do
    let found ← (lookupIds E s field values (scopedFilters who [])).mapError (verifyError field)
    return ⟨sortedIds found.present, sortedIds found.retrievable,
      sortedIds (values.filter (· ∉ found.present))⟩

def verifyChunkIds (chunkIds fileIds : List String) : Except Err Verification :=
  let chunkIds := chunkIds.filter fun v => strip v ≠ ""
  let fileIds := fileIds.filter fun v => strip v ≠ ""
  if chunkIds = [] ∧ fileIds = [] then
    .error (.invalidVector "chunk_ids, file_ids, or both are required")
  else do
    let chunks ← verifyField E who s "chunk_id" chunkIds
    let files ← verifyField E who s "file_id" fileIds
    return ⟨cfg.collectionName, chunks, files⟩

end

end RagForge.Vector
