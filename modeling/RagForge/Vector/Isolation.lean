import RagForge.Vector.Service

/-
Isolation of tenants and owners.

Every read of the service selects points with a filter that contains the conditions of the caller's
scope, whatever the caller put into its own filters.  Two collections that agree on the points
inside that scope therefore select the same points and cannot be told apart.
-/

namespace RagForge.Vector

open Py Files RagForge.Embedding

/-- The point lies in the tenant and under the owner that the identity acts for. -/
def InScope (who : Identity) (x : Point) : Prop :=
  x.payload.tenantId = who.tenantId ∧
    match who.role with
    | .admin => x.payload.ownerAdminId = who.userId
    | .user => x.payload.ownerUserId = who.userId
    | .service => True

/-- Two collections that hold the same points of the identity's scope. -/
def AgreeOn (who : Identity) (s t : Collection) : Prop :=
  ∀ x, InScope who x → (x ∈ s ↔ x ∈ t)

/-! ## Filters that contain a scope -/

def tenantCondition (who : Identity) : FieldCondition :=
  ⟨"tenant_id", .value (.str who.tenantId)⟩

def adminCondition (who : Identity) : FieldCondition :=
  ⟨"owner_admin_id", .value (.str who.userId)⟩

def userCondition (who : Identity) : FieldCondition :=
  ⟨"owner_user_id", .value (.str who.userId)⟩

/-- The filter requires the tenant and the owner of the identity. -/
structure Confined (who : Identity) (f : Filter) : Prop where
  tenant : tenantCondition who ∈ f.must
  admin : who.role = .admin → adminCondition who ∈ f.must
  user : who.role = .user → userCondition who ∈ f.must

variable {f : Filter}

theorem Filter.holds_of_mem_must {c : FieldCondition} {p : Payload} (hc : c ∈ f.must)
    (hp : f.admits p = true) : c.holds p = true := by
  unfold Filter.admits at hp
  rw [Bool.and_eq_true, List.all_eq_true] at hp
  exact hp.1 c hc

variable {who : Identity}

theorem Confined.inScope (hf : Confined who f) {x : Point}
    (hx : f.admits x.payload = true) : InScope who x := by
  have htenant := Filter.holds_of_mem_must hf.tenant hx
  refine ⟨by simpa [FieldCondition.holds, tenantCondition, Payload.field] using htenant, ?_⟩
  cases hrole : who.role with
  | admin =>
    have howner := Filter.holds_of_mem_must (hf.admin hrole) hx
    simpa [FieldCondition.holds, adminCondition, Payload.field] using howner
  | user =>
    have howner := Filter.holds_of_mem_must (hf.user hrole) hx
    simpa [FieldCondition.holds, userCondition, Payload.field] using howner
  | service => trivial

variable {s t : Collection}

theorem Confined.select_eq (hf : Confined who f)
    (hst : AgreeOn who s t) : f.select s = f.select t := by
  ext x
  simp only [Filter.select, Finset.mem_filter]
  constructor
  · intro hx
    exact ⟨(hst x (hf.inScope hx.2)).mp hx.1, hx.2⟩
  · intro hx
    exact ⟨(hst x (hf.inScope hx.2)).mpr hx.1, hx.2⟩

/-! ## The filters of the service -/

theorem scopedFilters_tenant (who : Identity) (filters : Filters) :
    Dict.get? (scopedFilters (some who) filters) "tenant_id" = some (.one (.str who.tenantId)) := by
  cases hrole : who.role with
  | admin | user =>
    simp only [scopedFilters, hrole]
    rw [Dict.get?_erase_ne _ (by decide), Dict.get?_set_ne _ (by decide), Dict.get?_set_self]
  | service =>
    simp only [scopedFilters, hrole]
    exact Dict.get?_set_self _ _ _

theorem scopedFilters_admin (hrole : who.role = .admin) (filters : Filters) :
    Dict.get? (scopedFilters (some who) filters) "owner_admin_id" =
      some (.one (.str who.userId)) := by
  simp only [scopedFilters, hrole]
  rw [Dict.get?_erase_ne _ (by decide), Dict.get?_set_self]

theorem scopedFilters_user (hrole : who.role = .user) (filters : Filters) :
    Dict.get? (scopedFilters (some who) filters) "owner_user_id" =
      some (.one (.str who.userId)) := by
  simp only [scopedFilters, hrole]
  rw [Dict.get?_erase_ne _ (by decide), Dict.get?_set_self]

/-- A filter built by translating every entry of the scoped filters is confined, as soon as the
translation turns a plain text under one of the three scope keys into an equality condition. -/
theorem confined_of_translation (who : Identity) (filters : Filters)
    (htr : ∀ key v, key ∈ ["tenant_id", "owner_admin_id", "owner_user_id"] →
      (key, FilterValue.one (.str v)) ∈ scopedFilters (some who) filters →
      (⟨key, .value (.str v)⟩ : FieldCondition) ∈ f.must) : Confined who f where
  tenant := htr _ _ (by decide) (Dict.mem_of_get? _ (scopedFilters_tenant who filters))
  admin hrole := htr _ _ (by decide) (Dict.mem_of_get? _ (scopedFilters_admin hrole filters))
  user hrole := htr _ _ (by decide) (Dict.mem_of_get? _ (scopedFilters_user hrole filters))

theorem confined_search (who : Identity) (filters : Filters) :
    Confined who (buildSearchFilter (scopedFilters (some who) filters)) := by
  refine confined_of_translation who filters fun key v hkey hmem => ?_
  refine List.mem_cons_of_mem _ (List.mem_filterMap.mpr ⟨_, hmem, ?_⟩)
  simp only [List.mem_cons, List.not_mem_nil, or_false] at hkey
  rcases hkey with rfl | rfl | rfl <;> rfl

theorem confined_lookup (who : Identity) (c : FieldCondition) :
    Confined who ⟨c :: (scopedFilters (some who) []).filterMap scopeCondition, []⟩ := by
  refine confined_of_translation who [] fun key v hkey hmem => ?_
  refine List.mem_cons_of_mem _ (List.mem_filterMap.mpr ⟨_, hmem, ?_⟩)
  simp only [List.mem_cons, List.not_mem_nil, or_false] at hkey
  rcases hkey with rfl | rfl | rfl <;> rfl

/-! ## Reads -/

section

variable (E : Engine) (cfg : StoreConfig)

section

variable (hst : AgreeOn who s t)

include hst

theorem searchDense_eq (query : Vec) (topK : Int) (filters : Filters)
    (includePayload includeVector : Bool) :
    searchDense E cfg s query topK (scopedFilters (some who) filters) includePayload includeVector =
      searchDense E cfg t query topK (scopedFilters (some who) filters) includePayload
        includeVector := by
  unfold searchDense
  rw [(confined_search who filters).select_eq hst]

theorem searchSparse_eq (query : SparseVector) (topK : Int)
    (filters : Filters) (includePayload : Bool) :
    searchSparse E s query topK (scopedFilters (some who) filters) includePayload =
      searchSparse E t query topK (scopedFilters (some who) filters) includePayload := by
  unfold searchSparse
  rw [(confined_search who filters).select_eq hst]

theorem searchChunks_eq (req : SearchRequest) :
    searchChunks E cfg (some who) s req = searchChunks E cfg (some who) t req := by
  unfold searchChunks
  simp only [searchDense_eq E cfg hst, searchSparse_eq E hst]

theorem lookupIds_eq (field : String) (values : List String) :
    lookupIds E s field values (scopedFilters (some who) []) =
      lookupIds E t field values (scopedFilters (some who) []) := by
  unfold lookupIds
  split
  · rfl
  · rfl
  · dsimp only
    rw [(confined_lookup who _).select_eq hst]

theorem verifyChunkIds_eq (chunkIds fileIds : List String) :
    verifyChunkIds E cfg (some who) s chunkIds fileIds =
      verifyChunkIds E cfg (some who) t chunkIds fileIds := by
  have hfield : ∀ field values, verifyField E (some who) s field values =
      verifyField E (some who) t field values := by
    intro field values
    unfold verifyField
    rw [lookupIds_eq E hst]
  unfold verifyChunkIds
  simp only [hfield]

end

end

/-- What an identity reads depends only on the points of its own scope: for a user its own points in
its tenant, for an administrator the points it administers there. -/
theorem reads_isolated (E : Engine) (cfg : StoreConfig) (who : Identity) (s t : Collection)
    (hst : AgreeOn who s t) :
    (∀ req : SearchRequest,
      searchChunks E cfg (some who) s req = searchChunks E cfg (some who) t req) ∧
    ∀ chunkIds fileIds : List String,
      verifyChunkIds E cfg (some who) s chunkIds fileIds =
        verifyChunkIds E cfg (some who) t chunkIds fileIds :=
  ⟨searchChunks_eq E cfg hst, verifyChunkIds_eq E cfg hst⟩

/-! ## A collection with a foreign point -/

/-- An engine that lists the points of a catalogue it is handed. -/
def listingEngine (catalogue : List Point) : Engine where
  queryDense _ limit c := .ok (((catalogue.filter (· ∈ c)).take limit.toNat).map (·, 1))
  querySparse _ limit c := .ok (((catalogue.filter (· ∈ c)).take limit.toNat).map (·, 1))
  scroll c := .ok (catalogue.filter (· ∈ c))
  pointId := id
  sparseLib := ⟨fun _ => false, id, fun _ => 0, fun _ => 0, id⟩

def samplePoint (tenantId ownerUserId chunkId : String) : Point where
  id := tenantId ++ ":" ++ chunkId
  dense := [1]
  sparse := ⟨[], []⟩
  payload :=
    { tenantId, ownerUserId, ownerAdminId := "admin", fileId := "file", documentId := "file"
      chunkId, chunkIndex := 0, chunkVersion := 1, text := "text", textPreview := "text"
      sourceName := "a.txt", page := none, sectionName := none, retrievalAllowed := true
      reviewStatus := .clean, issueFlags := [], createdAt := "now" }

def sampleUser : Identity := ⟨"tenant", "user", .user, some "admin", none⟩

def foreignRequest : SearchRequest where
  queryVector := [1]
  topK := 5
  filters := [("tenant_id", .one (.str "other")), ("owner_user_id", .many [some (.str "other")])]
  includePayload := true
  includeVector := false
  querySparse := some ⟨[1], [1]⟩
  strategy := .hybrid
  denseCandidateK := 20
  sparseCandidateK := 20
  rrfK := 60

def ownPoint : Point := samplePoint "tenant" "user" "own"

def foreignPoint : Point := samplePoint "other" "other" "foreign"

theorem agreeOn_foreign : AgreeOn sampleUser {ownPoint} {ownPoint, foreignPoint} := by
  intro x hx
  have hne : x ≠ foreignPoint := by
    intro h
    rw [h] at hx
    exact absurd hx.1 (by decide)
  simp [hne]

/-- The foreign point is invisible although the caller asks for its tenant and owner. -/
theorem reads_isolated_foreign :
    AgreeOn sampleUser {ownPoint} {ownPoint, foreignPoint} ∧
      searchChunks (listingEngine [foreignPoint, ownPoint]) ⟨"rag_chunks_v1", 1⟩ (some sampleUser)
          {ownPoint, foreignPoint} foreignRequest =
        searchChunks (listingEngine [foreignPoint, ownPoint]) ⟨"rag_chunks_v1", 1⟩
          (some sampleUser) {ownPoint} foreignRequest ∧
      (searchChunks (listingEngine [foreignPoint, ownPoint]) ⟨"rag_chunks_v1", 1⟩
        (some sampleUser) {ownPoint} foreignRequest).toOption.map (List.map Candidate.id) =
          some ["tenant:own"] :=
  ⟨agreeOn_foreign, ((reads_isolated _ _ _ _ _ agreeOn_foreign).1 foreignRequest).symm,
    by decide +kernel⟩

end RagForge.Vector
