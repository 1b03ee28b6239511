import RagForge.Vector.Isolation

/-
The in-memory vector store (`vector_db/app/db/implementations/in_memory.py`) beside the Qdrant
store.

Both stores know a chunk by its tenant and its id, joined by a colon, and both search the points
that the filters of the caller leave.  The Qdrant store leaves a filter for removed chunks out,
which the in-memory store applies.
-/

namespace RagForge.Vector

open Py Files RagForge.Embedding

/-! ## Keys -/

/-- The checks of `upsert_chunks`, and the key that it stores a chunk under. -/
def inMemoryKey (c : EmbeddedChunk) : Except StoreErr String :=
  if c.chunkId = "" then .error (.value "chunk_id is required")
  else if c.tenantId.getD "" = "" ∨ c.ownerUserId.getD "" = "" ∨ c.ownerAdminId.getD "" = "" then
    .error (.value "tenant and owner fields are required")
  else .ok (c.tenantId.getD "" ++ ":" ++ c.chunkId)

/-- The store of `chromadb.py` makes the same checks and has the same keys. -/
def chromaKey (c : EmbeddedChunk) : Except StoreErr String := inMemoryKey c

theorem inMemoryKey_eq {c : EmbeddedChunk} {key : String} (h : inMemoryKey c = .ok key) :
    key = c.tenantId.getD "" ++ ":" ++ c.chunkId := by
  unfold inMemoryKey at h
  split at h
  · cases h
  · split at h
    · cases h
    · exact (Except.ok.inj h).symm

/-- A part of the chunk id of `c` that ends at a colon stands at the end of the tenant of `d`. -/
def Shifts (c d : EmbeddedChunk) : Prop :=
  ∃ part : String, d.tenantId.getD "" = c.tenantId.getD "" ++ ":" ++ part ∧
    c.chunkId = part ++ ":" ++ d.chunkId

/-- Two texts around a colon are read back up to a colon in one of them. -/
theorem joined_eq_iff {t c t' c' : String} : t ++ ":" ++ c = t' ++ ":" ++ c' ↔
    (t = t' ∧ c = c') ∨ (∃ part : String, t' = t ++ ":" ++ part ∧ c = part ++ ":" ++ c') ∨
      ∃ part : String, t = t' ++ ":" ++ part ∧ c' = part ++ ":" ++ c := by
  constructor
  · intro h
    have hlist : t.toList ++ ':' :: c.toList = t'.toList ++ ':' :: c'.toList := by
      simpa using congrArg String.toList h
    -- the colon of one side stands inside the other side, or both are the same
    have hsplit : ∀ {u : List Char} {s m s' m' : String}, s'.toList = s.toList ++ u →
        ':' :: m.toList = u ++ ':' :: m'.toList → (s = s' ∧ m = m') ∨
          ∃ part, s' = s ++ ":" ++ part ∧ m = part ++ ":" ++ m' := by
      intro u s m s' m' hs hm
      cases u with
      | nil =>
        refine .inl ⟨String.toList_inj.mp ?_, String.toList_inj.mp ?_⟩
        · simpa using hs.symm
        · simpa using hm
      | cons colon rest =>
        rw [List.cons_append, List.cons.injEq] at hm
        refine .inr ⟨String.ofList rest, String.toList_inj.mp ?_, String.toList_inj.mp ?_⟩
        · simpa [← hm.1] using hs
        · simpa using hm.2
    rcases List.append_eq_append_iff.mp hlist with ⟨u, hu, hrest⟩ | ⟨u, hu, hrest⟩
    · rcases hsplit hu hrest with heq | hpart
      · exact .inl heq
      · exact .inr (.inl hpart)
    · rcases hsplit hu hrest with heq | hpart
      · exact .inl ⟨heq.1.symm, heq.2.symm⟩
      · exact .inr (.inr hpart)
  · intro h
    rcases h with ⟨rfl, rfl⟩ | ⟨part, rfl, rfl⟩ | ⟨part, rfl, rfl⟩
    · rfl
    · simp [String.append_assoc]
    · simp [String.append_assoc]

/-- Two chunks of different tenants or ids have different keys in each store, and the upsert of one
leaves the point of the other, unless a colon moves a part of the chunk id of one into the tenant of
the other. -/
theorem point_keys_differ_iff (E : Engine) (cfg : StoreConfig) (hid : Function.Injective E.pointId)
    {c d : EmbeddedChunk} {x y : Point} {k l m n : String} (hx : buildPoint E cfg c = .ok x)
    (hy : buildPoint E cfg d = .ok y) (hk : inMemoryKey c = .ok k) (hl : inMemoryKey d = .ok l)
    (hm : chromaKey c = .ok m) (hn : chromaKey d = .ok n)
    (hne : (c.tenantId.getD "", c.chunkId) ≠ (d.tenantId.getD "", d.chunkId)) :
    (x.id ≠ y.id ∧ k ≠ l ∧ m ≠ n ∧ ∀ s : Collection, y ∈ s → y ∈ put s x) ↔
      ¬ Shifts c d ∧ ¬ Shifts d c := by
  have hpointId : ∀ {c : EmbeddedChunk} {x : Point}, buildPoint E cfg c = .ok x →
      x.id = E.pointId (c.tenantId.getD "" ++ ":" ++ c.chunkId) := by
    intro c x hx
    obtain ⟨htenant, -, hchunk, hpoint⟩ := buildPoint_fields hx
    rw [hpoint, htenant, hchunk, Option.getD_some]
  have hkeys : ∀ {k l : String}, inMemoryKey c = .ok k → inMemoryKey d = .ok l →
      (k = l ↔ x.id = y.id) := by
    intro k l hk hl
    rw [inMemoryKey_eq hk, inMemoryKey_eq hl, hpointId hx, hpointId hy, hid.eq_iff]
  have hjoined : x.id = y.id ↔ Shifts c d ∨ Shifts d c := by
    rw [hpointId hx, hpointId hy, hid.eq_iff, joined_eq_iff, Shifts, Shifts, or_iff_right]
    exact fun heq => hne (Prod.ext heq.1 heq.2)
  rw [← not_or, ← hjoined, ne_eq, ne_eq, ne_eq, hkeys hk hl, hkeys hm hn]
  refine ⟨fun h => h.1, fun h => ⟨h, h, h, fun s hy => ?_⟩⟩
  exact Finset.mem_insert_of_mem (Finset.mem_filter.mpr ⟨hy, fun heq => h heq.symm⟩)

def keyedChunk (tenantId chunkId : String) : EmbeddedChunk where
  fileId := "file"
  documentId := "file"
  chunkId := chunkId
  chunkIndex := 0
  chunkVersion := 1
  text := "text"
  textPreview := "text"
  sourceName := "a.txt"
  page := none
  sectionName := none
  retrievalAllowed := true
  reviewStatus := .clean
  issueFlags := []
  createdAt := "now"
  tenantId := some tenantId
  ownerUserId := some "user"
  ownerAdminId := some "admin"
  embedding := [1]

def keyedConfig : StoreConfig := ⟨"rag_chunks_v1", 1⟩

theorem point_keys_differ_two_tenants :
    "a:c" ≠ "b:c" ∧ ∀ s : Collection, samplePoint "b" "user" "c" ∈ s →
      samplePoint "b" "user" "c" ∈ put s (samplePoint "a" "user" "c") := by
  refine And.right ((point_keys_differ_iff (listingEngine []) keyedConfig Function.injective_id
    (c := keyedChunk "a" "c") (d := keyedChunk "b" "c") rfl rfl rfl rfl rfl rfl (by decide)).mpr ?_)
    |>.imp_right And.right
  constructor <;> intro h <;> obtain ⟨part, htenant, -⟩ := h <;>
    exact absurd (congrArg String.toList htenant) (by simp [keyedChunk])

/-- The chunk `b:c` of the tenant `a` is stored over the chunk `c` of the tenant `a:b`. -/
theorem foreign_point_replaced :
    (buildPoint (listingEngine []) keyedConfig (keyedChunk "a" "b:c")).toOption =
        some (samplePoint "a" "user" "b:c") ∧
      (buildPoint (listingEngine []) keyedConfig (keyedChunk "a:b" "c")).toOption =
        some (samplePoint "a:b" "user" "c") ∧
      samplePoint "a:b" "user" "c" ∉
        put {samplePoint "a:b" "user" "c"} (samplePoint "a" "user" "b:c") ∧
      (inMemoryKey (keyedChunk "a" "b:c")).toOption =
        (inMemoryKey (keyedChunk "a:b" "c")).toOption := by
  refine ⟨rfl, rfl, ?_, rfl⟩
  decide +kernel

/-! ## Filters -/

structure ChunkFilters where
  fileId : Option String := none
  documentId : Option String := none
  chunkVersion : Option Int := none
  reviewStatus : Option ChunkReview := none
  page : Option Int := none
  sectionName : Option String := none
  tenantId : Option String := none
  ownerUserId : Option String := none
  ownerAdminId : Option String := none

/-- The fields of the schema, with the values that were given. -/
def ChunkFilters.fields (f : ChunkFilters) : List (String × Option Scalar) :=
  [("file_id", f.fileId.map .str), ("document_id", f.documentId.map .str),
    ("chunk_version", f.chunkVersion.map .int),
    ("review_status", f.reviewStatus.map fun r => .str (ChunkReview.text r)),
    ("page", f.page.map .int), ("section", f.sectionName.map .str),
    ("tenant_id", f.tenantId.map .str), ("owner_user_id", f.ownerUserId.map .str),
    ("owner_admin_id", f.ownerAdminId.map .str)]

/-- `model_dump(exclude_none=True)`. -/
def ChunkFilters.dump (f : ChunkFilters) : Filters :=
  f.fields.filterMap fun e => e.2.map fun v => (e.1, .one v)

/-- `_matches_filters`.  A payload has every key that a filter can name. -/
def matchesFilters (p : Payload) (filters : Filters) : Bool :=
  filters.all fun e => match e.2 with
    | .null => p.field e.1 = none
    | .one v => p.field e.1 = some v
    | .many vs => p.field e.1 ∈ vs

/-- The points that the loops of `search_chunks` and `search_sparse` score. -/
def inMemoryAdmits (filters : Filters) (x : Point) : Bool :=
  x.payload.retrievalAllowed && x.payload.reviewStatus != .removed &&
    matchesFilters x.payload filters

/-- The payload has the value of every filter that was given. -/
def ChunkFilters.Satisfied (f : ChunkFilters) (p : Payload) : Prop :=
  ∀ e ∈ f.fields, ∀ v, e.2 = some v → p.field e.1 = some v

/-- The filter that the Qdrant store leaves out. -/
def removedFilter : String × Scalar := ("review_status", .str "removed")

theorem matchesFilters_dump (f : ChunkFilters) (p : Payload) :
    matchesFilters p f.dump = true ↔ f.Satisfied p := by
  simp only [matchesFilters, ChunkFilters.dump, List.all_eq_true, List.mem_filterMap,
    Option.map_eq_some_iff]
  constructor
  · intro h e he v hv
    exact of_decide_eq_true (h (e.1, .one v) ⟨e, he, v, hv, rfl⟩)
  · intro h entry hentry
    obtain ⟨e, he, v, hv, rfl⟩ := hentry
    exact decide_eq_true (h e he v hv)

theorem callerCondition_field {f : ChunkFilters} {e : String × Option Scalar} (he : e ∈ f.fields)
    {v : Scalar} (hv : e.2 = some v) : callerCondition (e.1, .one v) =
      if (e.1, v) = removedFilter then none else some ⟨e.1, .value v⟩ := by
  simp only [ChunkFilters.fields, List.mem_cons, List.not_mem_nil, or_false] at he
  rcases he with rfl | rfl | rfl | rfl | rfl | rfl | rfl | rfl | rfl
  case inr.inr.inr.inl =>
    obtain ⟨r, -, rfl⟩ := Option.map_eq_some_iff.mp hv
    cases r <;> rfl
  all_goals rfl

theorem searchFilter_admits (f : ChunkFilters) (x : Point) :
    (buildSearchFilter f.dump).admits x.payload = true ↔ x.retrievable = true ∧
      ∀ e ∈ f.fields, ∀ v, e.2 = some v → (e.1, v) ≠ removedFilter →
        x.payload.field e.1 = some v := by
  have hremoved : (⟨"review_status", .value (.str "removed")⟩ : FieldCondition).holds x.payload =
      (x.payload.reviewStatus == .removed) := by
    cases hstatus : x.payload.reviewStatus <;>
      simp [FieldCondition.holds, Payload.field, hstatus, ChunkReview.text]
  have hmust : (f.dump.filterMap callerCondition).all (·.holds x.payload) = true ↔
      ∀ e ∈ f.fields, ∀ v, e.2 = some v → (e.1, v) ≠ removedFilter →
        x.payload.field e.1 = some v := by
    simp only [ChunkFilters.dump, List.filterMap_filterMap, List.all_eq_true, List.mem_filterMap,
      Option.bind_eq_some_iff, Option.map_eq_some_iff]
    constructor
    · intro h e he v hv hne
      have hholds := h ⟨e.1, .value v⟩ ⟨e, he, _, ⟨v, hv, rfl⟩, by
        rw [callerCondition_field he hv, if_neg hne]⟩
      unfold FieldCondition.holds at hholds
      cases hfield : x.payload.field e.1 <;> simp_all
    · intro h c hc
      obtain ⟨e, he, _, ⟨v, hv, rfl⟩, hc⟩ := hc
      rw [callerCondition_field he hv] at hc
      split at hc
      · cases hc
      · next hne =>
        cases hc
        simp [FieldCondition.holds, h e he v hv hne]
  unfold Filter.admits buildSearchFilter Point.retrievable
  rw [List.all_cons, Bool.and_eq_true, Bool.and_eq_true, hmust, List.all_cons, List.all_nil,
    Bool.and_true, hremoved, Bool.and_eq_true]
  simp only [FieldCondition.holds, Payload.field, Scalar.bool.injEq, decide_eq_true_eq, bne]
  tauto

/-- The stores admit the same points and every point satisfies the filters of the caller, unless the
caller asks for removed chunks and some other chunk satisfies the rest of the filters. -/
theorem stores_admit_alike_iff (s : Collection) (f : ChunkFilters) :
    (∀ x ∈ s, (inMemoryAdmits f.dump x = true ↔
        (buildSearchFilter f.dump).admits x.payload = true) ∧
      ((buildSearchFilter f.dump).admits x.payload = true → f.Satisfied x.payload)) ↔
      (f.reviewStatus = some .removed → ∀ x ∈ s, x.retrievable = true →
        ¬ ({ f with reviewStatus := none } : ChunkFilters).Satisfied x.payload) := by
  have hmemory : ∀ x, inMemoryAdmits f.dump x = true ↔
      x.retrievable = true ∧ f.Satisfied x.payload := by
    intro x
    rw [inMemoryAdmits, Bool.and_eq_true, matchesFilters_dump]
    rfl
  simp only [hmemory, searchFilter_admits]
  by_cases hremoved : f.reviewStatus = some .removed
  · have hnever : ∀ x : Point, x.retrievable = true → ¬ f.Satisfied x.payload := by
      intro x hx hsat
      have hfield := hsat ("review_status", some (.str "removed")) (by
        simp [ChunkFilters.fields, hremoved, ChunkReview.text]) _ rfl
      cases hstatus : x.payload.reviewStatus <;>
        simp_all [Payload.field, ChunkReview.text, Point.retrievable]
    have hrest : ∀ x : Point, (∀ e ∈ f.fields, ∀ v, e.2 = some v → (e.1, v) ≠ removedFilter →
        x.payload.field e.1 = some v) ↔
          ({ f with reviewStatus := none } : ChunkFilters).Satisfied x.payload := by
      intro x
      simp [ChunkFilters.Satisfied, ChunkFilters.fields, hremoved, removedFilter, ChunkReview.text]
    simp only [hrest]
    refine ⟨fun h _ x hx hret hsat => ?_, fun h x hx => ⟨?_, ?_⟩⟩
    · exact hnever x hret ((h x hx).2 ⟨hret, hsat⟩)
    · exact iff_of_false (fun hx' => hnever x hx'.1 hx'.2) fun hx' => h hremoved x hx hx'.1 hx'.2
    · exact fun hx' => absurd hx'.2 (h hremoved x hx hx'.1)
  · have hall : ∀ x : Point, (∀ e ∈ f.fields, ∀ v, e.2 = some v → (e.1, v) ≠ removedFilter →
        x.payload.field e.1 = some v) ↔ f.Satisfied x.payload := by
      intro x
      refine ⟨fun h e he v hv => h e he v hv ?_, fun h e he v hv _ => h e he v hv⟩
      intro heq
      obtain ⟨key, value⟩ := e
      cases heq
      obtain rfl : value = f.reviewStatus.map fun r => .str (ChunkReview.text r) := by
        simpa [ChunkFilters.fields] using he
      obtain ⟨r, hr, htext⟩ := Option.map_eq_some_iff.mp hv
      cases r <;> simp_all [ChunkReview.text]
    simp only [hall]
    exact iff_of_true (fun x _ => ⟨trivial, And.right⟩) fun h => absurd h hremoved

/-- The Qdrant store gives a clean chunk to a caller that asks for removed ones. -/
theorem removed_filter_ignored :
    (buildSearchFilter ({ reviewStatus := some .removed } : ChunkFilters).dump).admits
        ownPoint.payload = true ∧
      inMemoryAdmits ({ reviewStatus := some .removed } : ChunkFilters).dump ownPoint = false := by
  decide +kernel

end RagForge.Vector
