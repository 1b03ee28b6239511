import RagForge.Py.Value

/-
The lineage of one retrieval, as `retrieval_trace.py` collects it.

The code that retrieves reports every step it takes, and the collector keeps a bounded view of it:
ids, ranks and scores of the first candidates of a list, and the first stages of a turn.  The
terminal context is always kept, in the place of an older one or of a stage recorded before it.
-/

namespace RagForge.Lineage

open Py (Json clip)

/-- `str` and `float` of Python on JSON values, `none` where `float` raises. -/
structure Scalars where
  str : Json → String
  float : Json → Option Rat

def stageBase : String := "base"
def stageMerged : String := "merged"
def stagePassTwo : String := "pass_two"
def stageFinalContext : String := "final_context"

/-- `value in (None, "")`. -/
def blank : Json → Bool
  | .null => true
  | .str s => s == ""
  | _ => false

/-- `isinstance(value, dict)`. -/
def isDict : Json → Bool
  | .obj _ => true
  | _ => false

/-- `isinstance(value, (int, float, str, bool))`, or `None`. -/
def isScalar : Json → Bool
  | .arr _ | .obj _ => false
  | _ => true

/-- `xs[:n]`, where a negative `n` counts from the end. -/
def sliceTo {α : Type} (xs : List α) (n : Int) : List α :=
  if n < 0 then xs.take (xs.length - n.natAbs) else xs.take n.toNat

structure RetrievalView where
  denseRank : Json
  denseScore : Option Rat
  sparseRank : Json
  sparseScore : Option Rat
  fusedRank : Json
  fusedScore : Option Rat
  matchedArms : List Json

/-- One candidate as it is stored.  The last two fields are absent from most candidates. -/
structure CandidateView where
  rank : Nat
  chunkId : Option String
  fileId : Option String
  score : Option Rat
  rerankerScore : Option (Option Rat)
  retrieval : Option RetrievalView

structure DroppedView where
  chunkId : Option String
  reason : Json

/-- One recorded stage.  A stage that refused nothing has no `dropped` list, here the empty one. -/
structure StageEntry where
  stage : String
  query : Option String
  querySource : Option String
  requestedK : Option Int
  returnedCount : Int
  keptCount : Nat
  candidates : List CandidateView
  candidatesTruncated : Bool
  dropped : List DroppedView

structure Decision where
  stage : String
  decision : String
  reason : Option String
  detail : List (String × Json)

/-- The arguments of `record_stage`. -/
structure StageCall where
  stage : String
  candidates : List Json
  query : Option String := none
  querySource : Option String := none
  requestedK : Option Int := none
  returnedCount : Option Int := none
  dropped : List Json := []

structure Limits where
  maxCandidates : Int := 20
  maxStages : Int := 12
  maxQueryChars : Int := 200

structure Trace where
  limits : Limits
  stages : List StageEntry := []
  decisions : List Decision := []
  truncated : Bool := false

section Views

variable (P : Scalars)

def cleanId (value : Json) : Option String := if blank value then none else some (P.str value)

def score : Json → Option Rat
  | .null | .bool _ => none
  | value => P.float value

/-- `_field`: the flat shape of a chunk first, then the nested one. -/
def field (chunk : Json) (name : String) : Json :=
  let payload := chunk.get "payload"
  let metadata := (chunk.get "metadata").orElse (payload.get "metadata")
  if !blank (chunk.get name) then chunk.get name
  else if !blank (payload.get name) then payload.get name
  else metadata.get name

def retrievalView (diagnostics : Json) : Option RetrievalView :=
  if diagnostics.truthy then
    some {
      denseRank := diagnostics.get "dense_rank"
      denseScore := score P (diagnostics.get "dense_score")
      sparseRank := diagnostics.get "sparse_rank"
      sparseScore := score P (diagnostics.get "sparse_score")
      fusedRank := diagnostics.get "fused_rank"
      fusedScore := score P (diagnostics.get "fused_score")
      matchedArms := (diagnostics.get "matched_arms").items.take 2 }
  else none

def candidateView (chunk : Json) (rank : Nat) : CandidateView where
  rank := rank
  chunkId := cleanId P (field chunk "chunk_id")
  fileId := cleanId P ((field chunk "file_id").orElse (field chunk "document_id"))
  score := score P (field chunk "score")
  rerankerScore :=
    match chunk.get "reranker_score" with
    | .null => none
    | value => some (score P value)
  retrieval := retrievalView P (chunk.get "retrieval_diagnostics")

/-- `candidate_views`: ranks are assigned before the list is cut at the limit. -/
def candidateViews (chunks : List Json) (limit : Int) : List CandidateView :=
  ((chunks.zipIdx 1).take limit.toNat).filterMap fun (chunk, rank) =>
    if isDict chunk then some (candidateView P chunk rank) else none

/-- The ids that a stored candidate can be matched on. -/
def CandidateView.ids (v : CandidateView) : List String :=
  (v.chunkId.toList ++ v.fileId.toList).filter (· ≠ "")

/-- The ids of a candidate in a list passed to `record_stage`. -/
def candidateIds (chunk : Json) : List String :=
  if isDict chunk then (candidateView P chunk 0).ids else []

theorem candidateView_ids {chunk : Json} (h : isDict chunk = true) (rank : Nat) :
    (candidateView P chunk rank).ids = candidateIds P chunk := by
  unfold candidateIds
  rw [if_pos h]
  rfl

end Views

variable {P : Scalars} {c : StageCall} {id : String}

namespace StageCall

def listed (c : StageCall) : List Json := c.candidates.filter isDict

def ids (P : Scalars) (c : StageCall) : List String := c.candidates.flatMap (candidateIds P)

/-- `returned_count`, or the number of candidates. -/
def returned (c : StageCall) : Int := c.returnedCount.getD c.listed.length

theorem mem_ids_iff : id ∈ c.ids P ↔ ∃ chunk ∈ c.listed, id ∈ candidateIds P chunk := by
  unfold ids listed
  rw [List.mem_flatMap]
  constructor
  · intro h
    obtain ⟨chunk, hc, hid⟩ := h
    have hd : isDict chunk = true := by
      by_contra hd
      simp [candidateIds, hd] at hid
    exact ⟨chunk, List.mem_filter.mpr ⟨hc, hd⟩, hid⟩
  · intro h
    obtain ⟨chunk, hc, hid⟩ := h
    exact ⟨chunk, List.mem_of_mem_filter hc, hid⟩

end StageCall

namespace StageEntry

def ids (s : StageEntry) : List String := s.candidates.flatMap CandidateView.ids

end StageEntry

namespace Trace

/-- `_query`: the text that is stored, and whether it was cut. -/
def query (t : Trace) : Option String → Option String × Bool
  | none => (none, false)
  | some text =>
    let limit := t.limits.maxQueryChars.toNat
    if text.length ≤ limit then (some text, false) else (some (clip limit text ++ "..."), true)

def stageLimit (t : Trace) : Nat := (max 1 t.limits.maxStages).toNat

theorem stageLimit_pos (t : Trace) : 0 < t.stageLimit := by
  unfold stageLimit
  omega

def retrievalStages (stages : List StageEntry) : List StageEntry :=
  stages.filter (·.stage ≠ stageFinalContext)

/-- The stage that makes room for the terminal context. -/
def dropIndex (stages : List StageEntry) : Nat :=
  (stages.findIdx? fun s => s.stage ∉ [stageBase, stageMerged, stagePassTwo]).getD
    (stages.length - 1)

section Record

variable (P : Scalars)

def entry (t : Trace) (c : StageCall) : StageEntry :=
  let views := candidateViews P c.listed t.limits.maxCandidates
  { stage := c.stage
    query := (t.query c.query).1
    querySource := c.querySource
    requestedK := c.requestedK
    returnedCount := c.returned
    keptCount := c.listed.length
    candidates := views
    candidatesTruncated := views.length < c.listed.length
    dropped := (sliceTo c.dropped t.limits.maxCandidates).map fun item =>
      ⟨cleanId P (item.get "chunk_id"), item.get "reason"⟩ }

def recordStage (t : Trace) (c : StageCall) : Trace :=
  let entry := t.entry P c
  let cut := t.truncated || (t.query c.query).2 || entry.candidatesTruncated
  if c.stage = stageFinalContext then
    let stages := retrievalStages t.stages
    if t.stageLimit ≤ stages.length then
      { t with stages := stages.eraseIdx (dropIndex stages) ++ [entry], truncated := true }
    else { t with stages := stages ++ [entry], truncated := cut }
  else if t.stageLimit ≤ t.stages.length then { t with truncated := true }
  else { t with stages := t.stages ++ [entry], truncated := cut }

def recordDecision (t : Trace) (d : Decision) : Trace :=
  { t with decisions := t.decisions ++ [{ d with detail := d.detail.filter (isScalar ·.2) }] }

/-- What the retrieval reports to its collector. -/
inductive Report
  | stage (c : StageCall)
  | decision (d : Decision)

def record (t : Trace) : Report → Trace
  | .stage c => t.recordStage P c
  | .decision d => t.recordDecision d

def collect (limits : Limits) (reports : List Report) : Trace :=
  reports.foldl (record P) { limits := limits }

def passed (reports : List Report) : List String :=
  reports.flatMap fun
    | .stage c => c.ids P
    | .decision _ => []

end Record

variable {t : Trace} {reports : List Report} {before : List String} {limits : Limits}

theorem collect_concat (limits : Limits) (reports : List Report) (r : Report) :
    collect P limits (reports ++ [r]) = (collect P limits reports).record P r := by
  unfold collect
  rw [List.foldl_append]
  rfl

theorem mem_passed_concat {r : Report} :
    id ∈ passed P (reports ++ [r]) ↔
      id ∈ passed P reports ∨ ∃ c, r = .stage c ∧ id ∈ c.ids P := by
  unfold passed
  cases r with
  | stage | decision => simp

/-! ## What an entry shows -/

theorem entry_candidates : (t.entry P c).candidates =
    ((c.listed.zipIdx 1).take t.limits.maxCandidates.toNat).map fun x =>
      candidateView P x.1 x.2 := by
  refine List.filterMap_eq_map_iff_forall_eq_some.mpr fun x hx => ?_
  have hmem : x.1 ∈ c.listed := List.fst_mem_of_mem_zipIdx (List.mem_of_mem_take hx)
  exact if_pos (List.mem_filter.mp hmem).2

/-! ## The calls that find a place -/

/-- The calls of the stages other than the terminal context. -/
def otherCalls (calls : List StageCall) : List StageCall :=
  calls.filter (·.stage ≠ stageFinalContext)

/-- The call that makes room for the terminal context: the first of a stage that is not one of the
three main ones, or else the last. -/
def evicted (calls : List StageCall) : Nat :=
  (calls.findIdx? fun c => c.stage ∉ [stageBase, stageMerged, stagePassTwo]).getD
    (calls.length - 1)

/-- The calls with a place after one more, where there are `limit` places. -/
def keep (limit : Nat) (calls : List StageCall) (c : StageCall) : List StageCall :=
  if c.stage = stageFinalContext then
    let others := otherCalls calls
    (if limit ≤ others.length then others.eraseIdx (evicted others) else others) ++ [c]
  else if limit ≤ calls.length then calls
  else calls ++ [c]

/-- The calls with a place at the end of a run. -/
def kept (limits : Limits) (reports : List Report) : List StageCall :=
  (reports.filterMap fun | .stage c => some c | .decision _ => none).foldl
    (keep (max 1 limits.maxStages).toNat) []

def entryOf (P : Scalars) (limits : Limits) (c : StageCall) : StageEntry :=
  Trace.entry P { limits := limits } c

theorem retrievalStages_map (calls : List StageCall) :
    retrievalStages (calls.map (entryOf P limits)) = (otherCalls calls).map (entryOf P limits) := by
  unfold retrievalStages otherCalls
  rw [List.filter_map]
  rfl

theorem dropIndex_map (calls : List StageCall) :
    dropIndex (calls.map (entryOf P limits)) = evicted calls := by
  unfold dropIndex evicted
  rw [List.findIdx?_map, List.length_map]
  rfl

theorem recordStage_stages {calls : List StageCall} (hlimits : t.limits = limits)
    (h : t.stages = calls.map (entryOf P limits)) :
    (t.recordStage P c).stages =
      (keep (max 1 limits.maxStages).toNat calls c).map (entryOf P limits) := by
  have hentry : t.entry P c = entryOf P limits c := by
    rw [← hlimits]
    rfl
  have hlimit : t.stageLimit = (max 1 limits.maxStages).toNat := by rw [stageLimit, hlimits]
  unfold recordStage keep
  simp only [h, hentry, hlimit, retrievalStages_map, dropIndex_map, List.length_map]
  split
  · split
    · rw [List.map_append, List.eraseIdx_eq_take_drop_succ, List.eraseIdx_eq_take_drop_succ,
        List.map_append, List.map_take, List.map_drop]
      rfl
    · rw [List.map_append]
      rfl
  · split
    · rfl
    · rw [List.map_append]
      rfl

theorem collect_stages (P : Scalars) (limits : Limits) (reports : List Report) :
    (collect P limits reports).stages = (kept limits reports).map (entryOf P limits) := by
  suffices (collect P limits reports).limits = limits ∧
      (collect P limits reports).stages = (kept limits reports).map (entryOf P limits) from this.2
  induction reports using List.reverseRecOn with
  | nil => exact ⟨rfl, rfl⟩
  | append_singleton reports r ih =>
    rw [collect_concat]
    cases r with
    | decision d =>
      refine ⟨ih.1, ih.2.trans ?_⟩
      simp [kept]
    | stage c =>
      refine ⟨?_, ?_⟩
      · refine Eq.trans ?_ ih.1
        unfold record recordStage
        dsimp only
        split <;> split <;> rfl
      · refine (recordStage_stages ih.1 ih.2).trans ?_
        simp [kept, List.filterMap_append, List.foldl_append]

theorem mem_entryOf_ids : id ∈ (entryOf P limits c).ids ↔
    ∃ chunk ∈ c.listed.take limits.maxCandidates.toNat, id ∈ candidateIds P chunk := by
  have hfst : ((c.listed.zipIdx 1).take limits.maxCandidates.toNat).map Prod.fst =
      c.listed.take limits.maxCandidates.toNat := by
    rw [List.map_take, List.zipIdx_map_fst]
  have hdict : ∀ {chunk : Json}, chunk ∈ c.listed.take limits.maxCandidates.toNat →
      isDict chunk = true := fun hchunk => (List.mem_filter.mp (List.mem_of_mem_take hchunk)).2
  unfold StageEntry.ids entryOf
  rw [entry_candidates, List.mem_flatMap, ← hfst]
  constructor
  · intro h
    obtain ⟨v, hv, hid⟩ := h
    obtain ⟨x, hx, rfl⟩ := List.mem_map.mp hv
    have hchunk := List.mem_map_of_mem (f := Prod.fst) hx
    refine ⟨x.1, hchunk, ?_⟩
    rwa [candidateView_ids P (hdict (hfst ▸ hchunk))] at hid
  · intro h
    obtain ⟨chunk, hchunk, hid⟩ := h
    obtain ⟨x, hx, rfl⟩ := List.mem_map.mp hchunk
    refine ⟨candidateView P x.1 x.2, List.mem_map_of_mem hx, ?_⟩
    rwa [candidateView_ids P (hdict (hfst ▸ hchunk))]

theorem entryOf_truncated : (entryOf P limits c).candidatesTruncated = true ↔
    limits.maxCandidates.toNat < c.listed.length := by
  have hlen : (entryOf P limits c).candidates.length =
      min limits.maxCandidates.toNat c.listed.length := by
    unfold entryOf
    rw [entry_candidates, List.length_map, List.length_take, List.length_zipIdx]
  have hdef : (entryOf P limits c).candidatesTruncated =
      decide ((entryOf P limits c).candidates.length < c.listed.length) := rfl
  rw [hdef, hlen, decide_eq_true_iff]
  omega

theorem mem_entry_ids (h : (t.entry P c).candidatesTruncated = false) (hid : id ∈ c.ids P) :
    id ∈ (t.entry P c).ids := by
  obtain ⟨chunk, hchunk, hid⟩ := StageCall.mem_ids_iff.mp hid
  have hfits : ¬ t.limits.maxCandidates.toNat < c.listed.length := fun hlt =>
    Bool.noConfusion (h.symm.trans (entryOf_truncated.mpr hlt))
  refine mem_entryOf_ids.mpr ⟨chunk, ?_, hid⟩
  rwa [List.take_of_length_le (Nat.not_lt.mp hfits)]

/-! ## What a run keeps -/

theorem recordStage_stages_ne_nil : (t.recordStage P c).stages ≠ [] := by
  unfold recordStage
  dsimp only
  split
  · split <;> simp
  · split
    · next hfull =>
      have hpos := t.stageLimit_pos
      have hlen : 0 < t.stages.length := by omega
      exact List.ne_nil_of_length_pos hlen
    · simp

theorem collect_stages_ne_nil (h : id ∈ passed P reports) :
    (collect P limits reports).stages ≠ [] := by
  induction reports using List.reverseRecOn with
  | nil => simp [passed] at h
  | append_singleton reports r ih =>
    rw [collect_concat]
    cases r with
    | stage c => exact recordStage_stages_ne_nil
    | decision d =>
      have hid : id ∈ passed P reports := by simpa [mem_passed_concat] using h
      exact ih hid

/-- The report of a stage loses nothing: its entry finds a place that no other stage has, it counts
its candidates, and a terminal context projects what earlier stages passed. -/
structure Keeps (P : Scalars) (t : Trace) (before : List String) (c : StageCall) : Prop where
  room : c.stage ≠ stageFinalContext → t.stages.length < t.stageLimit
  roomFinal : c.stage = stageFinalContext → (retrievalStages t.stages).length < t.stageLimit
  counted : ∀ n, c.returnedCount = some n → c.listed.length ≤ n
  projected : c.stage = stageFinalContext → ∀ id ∈ c.ids P, id ∈ before

/-- Every stage of the run was recorded without loss. -/
def Complete (P : Scalars) (limits : Limits) (reports : List Report) : Prop :=
  ∀ pre c post, reports = pre ++ .stage c :: post →
    Keeps P (collect P limits pre) (passed P pre) c

/-- Each id that was passed stands in a kept list or belongs to a kept list that was cut short, and
the counts of the kept lists cover their candidates. -/
structure Shows (t : Trace) (before : List String) : Prop where
  shown : ∀ id ∈ before, ∃ s ∈ retrievalStages t.stages,
    (id ∈ s.ids ∨ s.candidatesTruncated = true) ∧ 0 < s.returnedCount
  counts : ∀ s ∈ retrievalStages t.stages, 0 ≤ s.returnedCount

theorem entry_returnedCount_ge (hk : Keeps P t before c) :
    (c.listed.length : Int) ≤ (t.entry P c).returnedCount := by
  show (c.listed.length : Int) ≤ c.returnedCount.getD c.listed.length
  cases hn : c.returnedCount with
  | none => exact Int.le_refl _
  | some n => exact hk.counted n hn

theorem retrievalStages_recordStage (hk : Keeps P t before c) :
    retrievalStages (t.recordStage P c).stages = retrievalStages t.stages ++
      if c.stage = stageFinalContext then [] else [t.entry P c] := by
  unfold recordStage
  by_cases hfinal : c.stage = stageFinalContext
  · simp only [hfinal, if_true, if_neg (Nat.not_le.mpr (hk.roomFinal hfinal))]
    simp [retrievalStages, entry, hfinal]
  · simp only [hfinal, if_false, if_neg (Nat.not_le.mpr (hk.room hfinal))]
    simp [retrievalStages, entry, hfinal]

theorem recordStage_shows (hs : Shows t before) (hk : Keeps P t before c) :
    Shows (t.recordStage P c) (before ++ c.ids P) := by
  have hcount := entry_returnedCount_ge hk
  constructor
  · intro id hid
    rw [retrievalStages_recordStage hk]
    by_cases hnew : id ∈ before
    · obtain ⟨s, hmem, hshown⟩ := hs.shown id hnew
      exact ⟨s, List.mem_append_left _ hmem, hshown⟩
    · -- The terminal context has no id of its own, so another stage passed this one.
      have hid := (List.mem_append.mp hid).resolve_left hnew
      have hfinal : c.stage ≠ stageFinalContext := fun h => hnew (hk.projected h id hid)
      refine ⟨t.entry P c, by simp [hfinal], ?_, ?_⟩
      · cases hcut : (t.entry P c).candidatesTruncated with
        | true => exact .inr rfl
        | false => exact .inl (mem_entry_ids hcut hid)
      · obtain ⟨chunk, hchunk, _⟩ := StageCall.mem_ids_iff.mp hid
        have hpos := List.length_pos_of_mem hchunk
        omega
  · intro s hmem
    rw [retrievalStages_recordStage hk] at hmem
    rcases List.mem_append.mp hmem with hmem | hmem
    · exact hs.counts s hmem
    · split at hmem
      · cases hmem
      · rw [List.mem_singleton.mp hmem]
        omega

theorem collect_shows (h : Complete P limits reports) :
    Shows (collect P limits reports) (passed P reports) := by
  induction reports using List.reverseRecOn with
  | nil => exact ⟨nofun, nofun⟩
  | append_singleton reports r ih =>
    have hpre : Complete P limits reports := by
      intro pre c post heq
      exact h pre c (post ++ [r]) (by rw [heq, List.append_assoc, List.cons_append])
    have hs := ih hpre
    rw [collect_concat]
    cases r with
    | stage c =>
      have hpassed : passed P (reports ++ [.stage c]) = passed P reports ++ c.ids P := by
        unfold passed
        simp
      rw [hpassed]
      exact recordStage_shows hs (h reports c [] rfl)
    | decision d =>
      have hpassed : passed P (reports ++ [.decision d]) = passed P reports := by
        unfold passed
        simp
      rw [hpassed]
      exact ⟨hs.shown, hs.counts⟩

end Trace

end RagForge.Lineage
