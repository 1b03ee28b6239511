import RagForge.Lineage.Trace
import Mathlib.Data.List.Sort
import Mathlib.Algebra.Order.BigOperators.Group.List
import Mathlib.Algebra.GroupWithZero.Nat
import Mathlib.Algebra.Order.Group.Int

/-
Which stage lost an item, as `failure_attribution.py` reads it off the item's row.

The ladder of `classify_item` blames retrieval, the index or the second pass when no recorded list
shows a labelled id that the context misses.  That an id was never a candidate follows only if the
trace shows every list it was passed: `complete_accounted` gives the runs that do, and the theorem
below the exact condition for any run, on what was reported and on the limits.
-/

namespace RagForge.Lineage

open Py (Json Dict strip)

inductive Category
  | staleLabels
  | pipelineError
  | index
  | retrieval
  | ranking
  | passTwo
  | context
  | generation
  | completeness
  | grounding
  | unclassified
  | none
  | notApplicable
  deriving DecidableEq

structure Attribution where
  category : Category
  evidence : Dict String Json

/-- The fields of an item row that the ladder reads.  The answer is absent from a row of a retrieval
run. -/
structure ItemRow where
  outcome : Option String := none
  unscorable : Bool := false
  error : Option String := none
  expectedIds : List String := []
  retrievedIds : List String := []
  skipped : Bool := false
  answer : Option (Option String) := none
  hallucinationVerdict : Option String := none
  unsupportedClaimCount : Json := .null
  retrievalTrace : Option Trace := none

/-- `sorted(set(values))`. -/
def sortedSet (values : List String) : List String := values.dedup.insertionSort (· ≤ ·)

def maxEvidenceIds : Nat := 5

def strings (values : List String) : Json := .arr (values.map .str)

def count (n : Nat) : Json := .num n

def optional (s : Option String) : Json := (s.map .str).getD .null

def evidenceIds (values : List String) : Json := strings ((sortedSet values).take maxEvidenceIds)

namespace ItemRow

/-- `expected - retrieved`. -/
def missing (row : ItemRow) : List String := row.expectedIds.filter (· ∉ row.retrievedIds)

/-- `expected & retrieved`. -/
def found (row : ItemRow) : List String := row.expectedIds.filter (· ∈ row.retrievedIds)

def stages (row : ItemRow) : List StageEntry :=
  match row.retrievalTrace with
  | some t => t.stages
  | none => []

def failed (row : ItemRow) : Bool := (row.error.getD "") ≠ ""

end ItemRow

open Trace (retrievalStages)

section Ladder

variable (P : Scalars)

/-- The gate refused a chunk with one of the missing ids. -/
def DroppedView.refuses (missing : List String) (e : DroppedView) : Bool :=
  match e.chunkId with
  | some id => id ≠ "" && missing.contains id
  | none => false

/-- `_dropped_reasons`: the first reason of each id. -/
def droppedReasons (stages : List StageEntry) (missing : List String) : Dict String String :=
  (stages.flatMap (·.dropped)).foldl
    (fun reasons e =>
      let id := e.chunkId.getD ""
      if e.refuses missing && (reasons.get? id).isNone then
        reasons.set id (P.str (e.reason.orElse (.str "unknown")))
      else reasons) []

def returnedTotal (stages : List StageEntry) : Option Int :=
  if stages.isEmpty then none else some (stages.map (·.returnedCount)).sum

def candidatesTruncated (stages : List StageEntry) : Bool := stages.any (·.candidatesTruncated)

def passTwoSkip (t : Trace) : Option Decision :=
  t.decisions.find? fun d => d.stage = stagePassTwo ∧ d.decision = "skipped"

def seenIn (stages : List StageEntry) (missing : List String) : List String :=
  (stages.filter fun s => s.ids.any missing.contains).map (·.stage)

def answerAttribution (row : ItemRow) : Attribution :=
  match row.answer with
  | none => ⟨.none, []⟩
  | some answer =>
    if strip (answer.getD "") = "" then ⟨.generation, [("reason", .str "empty_answer")]⟩
    else
      match row.hallucinationVerdict with
      | none => ⟨.unclassified, [("reason", .str "answer_unjudged")]⟩
      | some verdict =>
        if verdict ≠ "none" then
          ⟨.grounding, [("hallucination_verdict", .str verdict),
            ("unsupported_claim_count", row.unsupportedClaimCount)]⟩
        else ⟨.none, []⟩

/-- The part of `_retrieval_attribution` for a trace that has stages. -/
def stagesAttribution (t : Trace) (missing : List String) : Attribution :=
  let dropped := droppedReasons P t.stages missing
  let searched := retrievalStages t.stages
  if dropped ≠ [] then
    ⟨.context, [("missing_ids", evidenceIds (dropped.map (·.1))),
      ("drop_reasons", strings (sortedSet (dropped.map (·.2))))]⟩
  else if seenIn searched missing ≠ [] then
    ⟨.ranking, [("missing_ids", evidenceIds missing),
      ("candidate_stages", strings (sortedSet (seenIn searched missing)))]⟩
  else if returnedTotal searched = some 0 then
    ⟨.index, [("missing_ids", evidenceIds missing), ("stages_searched", count searched.length)]⟩
  else if candidatesTruncated t.stages then
    ⟨.unclassified, [("reason", .str "truncated_candidates"), ("missing_ids", evidenceIds missing)]⟩
  else
    match passTwoSkip t with
    | some skipped =>
      ⟨.passTwo, [("missing_ids", evidenceIds missing), ("skip_reason", optional skipped.reason),
        ("top_score", (Dict.get? skipped.detail "top_score").getD .null)]⟩
    | none =>
      ⟨.retrieval, [("missing_ids", evidenceIds missing),
        ("stages_searched", count searched.length),
        ("candidates_returned",
          ((returnedTotal searched).map fun n => .num n).getD .null)]⟩

def retrievalAttribution (row : ItemRow) (missing : List String) : Attribution :=
  match row.retrievalTrace with
  | some t =>
    if t.stages.isEmpty then
      ⟨.unclassified, [("reason", .str "no_trace"), ("missing_ids", evidenceIds missing)]⟩
    else stagesAttribution P t missing
  | none => ⟨.unclassified, [("reason", .str "no_trace"), ("missing_ids", evidenceIds missing)]⟩

def classifyItem (row : ItemRow) : Attribution :=
  if row.outcome = some "guardrail_blocked" then
    ⟨.notApplicable, [("reason", .str "guardrail_blocked")]⟩
  else if row.unscorable then ⟨.staleLabels, [("reason", .str "labels_unreachable")]⟩
  else if row.failed then
    ⟨.pipelineError, [("stages_recorded", count row.stages.length),
      ("last_stage", optional (row.stages.getLast?.map (·.stage)))]⟩
  else if row.expectedIds.isEmpty || row.skipped then
    ⟨.notApplicable, [("reason", .str "unlabelled")]⟩
  else if row.missing.isEmpty then answerAttribution row
  else if !row.found.isEmpty then
    ⟨.completeness, [("missing_ids", evidenceIds row.missing),
      ("expected_count", count row.expectedIds.dedup.length),
      ("retrieved_expected_count", count row.found.dedup.length)]⟩
  else retrievalAttribution P row row.missing

end Ladder

/-! ## When the ladder blames retrieval -/

/-- The categories that say the labelled ids were never candidates. -/
def Category.blamesRetrieval : Category → Bool
  | .index | .retrieval | .passTwo => true
  | _ => false

/-- The item reaches the last rung: it is labelled, finished, and none of its ids was retrieved. -/
structure ItemRow.Lost (row : ItemRow) : Prop where
  notBlocked : row.outcome ≠ some "guardrail_blocked"
  scorable : row.unscorable = false
  finished : row.failed = false
  labelled : row.expectedIds ≠ []
  notSkipped : row.skipped = false
  nothingFound : row.found = []

/-- The trace accounts for the missing ids: the gate refused one, a kept list shows one, or a kept
list was cut short while the store returned something. -/
inductive Accounted (t : Trace) (missing : List String) : Prop
  | refused (s : StageEntry) (e : DroppedView) (hs : s ∈ t.stages) (he : e ∈ s.dropped)
      (h : e.refuses missing = true)
  | shown (s : StageEntry) (id : String) (hs : s ∈ retrievalStages t.stages) (hid : id ∈ s.ids)
      (h : id ∈ missing)
  | cutShort (s : StageEntry) (hs : s ∈ t.stages) (hcut : s.candidatesTruncated = true)
      (h : returnedTotal (retrievalStages t.stages) ≠ some 0)

variable {P : Scalars} {row : ItemRow} {t : Trace} {missing : List String}

theorem set_ne_nil (d : Dict String String) (k v : String) : d.set k v ≠ [] := by
  intro h
  have hget := d.get?_set_self k v
  rw [h] at hget
  simp [Dict.get?] at hget

theorem droppedReasons_ne_nil_iff {stages : List StageEntry} :
    droppedReasons P stages missing ≠ [] ↔
      ∃ s ∈ stages, ∃ e ∈ s.dropped, e.refuses missing = true := by
  have hfold : ∀ (es : List DroppedView) (d : Dict String String),
      es.foldl
        (fun reasons e =>
          let id := e.chunkId.getD ""
          if e.refuses missing && (reasons.get? id).isNone then
            reasons.set id (P.str (e.reason.orElse (.str "unknown")))
          else reasons) d ≠ [] ↔
        d ≠ [] ∨ ∃ e ∈ es, e.refuses missing = true := by
    intro es
    induction es with
    | nil => intro d; simp
    | cons e rest ih =>
      intro d
      rw [List.foldl_cons, ih]
      by_cases he : e.refuses missing = true
      · by_cases hnone : (d.get? (e.chunkId.getD "")).isNone
        · simp [he, hnone, set_ne_nil]
        · have hd : d ≠ [] := by
            intro hd
            rw [hd] at hnone
            exact hnone rfl
          simp [he, hnone, hd]
      · simp [he]
  unfold droppedReasons
  rw [hfold]
  simp only [ne_eq, not_true_eq_false, false_or, List.mem_flatMap]
  constructor
  · intro h
    obtain ⟨e, ⟨s, hs, he⟩, hr⟩ := h
    exact ⟨s, hs, e, he, hr⟩
  · intro h
    obtain ⟨s, hs, e, he, hr⟩ := h
    exact ⟨e, ⟨s, hs, he⟩, hr⟩

theorem seenIn_ne_nil_iff {stages : List StageEntry} :
    seenIn stages missing ≠ [] ↔ ∃ s ∈ stages, ∃ id ∈ s.ids, id ∈ missing := by
  unfold seenIn
  simp

/-- With stages recorded, retrieval is blamed for exactly what the trace does not account for. -/
theorem stagesAttribution_blames_iff :
    (stagesAttribution P t missing).category.blamesRetrieval = true ↔ ¬ Accounted t missing := by
  unfold stagesAttribution
  by_cases hdropped : droppedReasons P t.stages missing ≠ []
  · rw [if_pos hdropped]
    obtain ⟨s, hs, e, he, h⟩ := droppedReasons_ne_nil_iff.mp hdropped
    simpa [Category.blamesRetrieval] using Accounted.refused s e hs he h
  rw [if_neg hdropped]
  by_cases hseen : seenIn (retrievalStages t.stages) missing ≠ []
  · rw [if_pos hseen]
    obtain ⟨s, hs, id, hid, h⟩ := seenIn_ne_nil_iff.mp hseen
    simpa [Category.blamesRetrieval] using Accounted.shown s id hs hid h
  rw [if_neg hseen]
  have hrefused : ¬ ∃ s ∈ t.stages, ∃ e ∈ s.dropped, e.refuses missing = true := by
    rwa [← droppedReasons_ne_nil_iff]
  have hshown : ¬ ∃ s ∈ retrievalStages t.stages, ∃ id ∈ s.ids, id ∈ missing := by
    rwa [← seenIn_ne_nil_iff]
  -- The first two ways of accounting are closed, so only a list that was cut short is left.
  have hcut : Accounted t missing ↔
      returnedTotal (retrievalStages t.stages) ≠ some 0 ∧ candidatesTruncated t.stages = true := by
    unfold candidatesTruncated
    rw [List.any_eq_true]
    constructor
    · intro h
      cases h with
      | refused s e hs he h => exact absurd ⟨s, hs, e, he, h⟩ hrefused
      | shown s id hs hid h => exact absurd ⟨s, hs, id, hid, h⟩ hshown
      | cutShort s hs hcut h => exact ⟨h, s, hs, hcut⟩
    · intro h
      obtain ⟨hzero, s, hs, hcut⟩ := h
      exact .cutShort s hs hcut hzero
  rw [hcut]
  by_cases hzero : returnedTotal (retrievalStages t.stages) = some 0
  · simp [hzero, Category.blamesRetrieval]
  rw [if_neg hzero]
  by_cases htrunc : candidatesTruncated t.stages = true
  · simp [hzero, htrunc, Category.blamesRetrieval]
  · rw [if_neg htrunc]
    cases passTwoSkip t with
    | none | some => simp [htrunc, Category.blamesRetrieval]

theorem answerAttribution_blames : (answerAttribution row).category.blamesRetrieval = false := by
  unfold answerAttribution
  repeat' split
  all_goals rfl

theorem classifyItem_of_lost (h : row.Lost) :
    classifyItem P row = retrievalAttribution P row row.missing := by
  have hmissing : row.missing ≠ [] := by
    intro hnil
    obtain ⟨id, hid⟩ := List.exists_mem_of_ne_nil _ h.labelled
    have hret : id ∈ row.retrievedIds := by
      by_contra hret
      have hmem : id ∈ row.missing := List.mem_filter.mpr ⟨hid, by simpa using hret⟩
      rw [hnil] at hmem
      exact List.not_mem_nil hmem
    have hmem : id ∈ row.found := List.mem_filter.mpr ⟨hid, by simpa using hret⟩
    rw [h.nothingFound] at hmem
    exact List.not_mem_nil hmem
  unfold classifyItem
  simp [h.notBlocked, h.scorable, h.finished, h.labelled, h.notSkipped, h.nothingFound, hmissing]

theorem lost_of_blames (h : (classifyItem P row).category.blamesRetrieval = true) : row.Lost := by
  unfold classifyItem at h
  split at h
  · cases h
  next hblocked =>
  split at h
  · cases h
  next hscorable =>
  split at h
  · cases h
  next hfailed =>
  split at h
  · cases h
  next hlabelled =>
  split at h
  · rw [answerAttribution_blames] at h
    cases h
  split at h
  · cases h
  next hfound =>
  simp only [Bool.or_eq_true, List.isEmpty_iff, not_or] at hlabelled
  exact {
    notBlocked := hblocked
    scorable := by simpa using hscorable
    finished := by simpa using hfailed
    labelled := hlabelled.1
    notSkipped := by simpa using hlabelled.2
    nothingFound := by simpa using hfound }

def ItemRow.tracing (row : ItemRow) (P : Scalars) (limits : Limits)
    (reports : List Trace.Report) : ItemRow :=
  { row with retrievalTrace := some (Trace.collect P limits reports) }

/-- The stage calls that found a place account for the missing ids: one reported an id as refused by
the gate, one of a stage other than the terminal context has an id among the candidates within the
limit, or one has more candidates than the limit while the returned counts of those other stages do
not add up to zero. -/
inductive AccountedFor (P : Scalars) (limits : Limits) (kept : List StageCall)
    (missing : List String) : Prop
  | refused (c : StageCall) (item : Json) (hc : c ∈ kept)
      (hitem : item ∈ sliceTo c.dropped limits.maxCandidates)
      (h : DroppedView.refuses missing ⟨cleanId P (item.get "chunk_id"), item.get "reason"⟩ = true)
  | shown (c : StageCall) (chunk : Json) (id : String) (hc : c ∈ kept)
      (hstage : c.stage ≠ stageFinalContext)
      (hchunk : chunk ∈ c.listed.take limits.maxCandidates.toNat) (hid : id ∈ candidateIds P chunk)
      (h : id ∈ missing)
  | cutShort (c : StageCall) (hc : c ∈ kept) (hcut : limits.maxCandidates.toNat < c.listed.length)
      (h : Trace.otherCalls kept = [] ∨
        ((Trace.otherCalls kept).map StageCall.returned).sum ≠ 0)

theorem accounted_iff {limits : Limits} {reports : List Trace.Report} :
    Accounted (Trace.collect P limits reports) missing ↔
      AccountedFor P limits (Trace.kept limits reports) missing := by
  have hstages := Trace.collect_stages P limits reports
  have hothers : retrievalStages (Trace.collect P limits reports).stages =
      (Trace.otherCalls (Trace.kept limits reports)).map (Trace.entryOf P limits) := by
    rw [hstages, Trace.retrievalStages_map]
  have htotal : returnedTotal (retrievalStages (Trace.collect P limits reports).stages) ≠ some 0 ↔
      Trace.otherCalls (Trace.kept limits reports) = [] ∨
        ((Trace.otherCalls (Trace.kept limits reports)).map StageCall.returned).sum ≠ 0 := by
    rw [hothers, returnedTotal, List.map_map]
    by_cases hnil : Trace.otherCalls (Trace.kept limits reports) = []
    · simp [hnil]
    · simp only [List.isEmpty_iff, List.map_eq_nil_iff, hnil, if_false, ne_eq, Option.some.injEq,
        false_or]
      rfl
  constructor
  · intro h
    cases h with
    | refused s e hs he h =>
      rw [hstages] at hs
      obtain ⟨c, hc, rfl⟩ := List.mem_map.mp hs
      obtain ⟨item, hitem, rfl⟩ := List.mem_map.mp he
      exact .refused c item hc hitem h
    | shown s id hs hid h =>
      rw [hothers] at hs
      obtain ⟨c, hc, rfl⟩ := List.mem_map.mp hs
      obtain ⟨chunk, hchunk, hid⟩ := Trace.mem_entryOf_ids.mp hid
      exact .shown c chunk id (List.mem_of_mem_filter hc)
        (by simpa using (List.mem_filter.mp hc).2) hchunk hid h
    | cutShort s hs hcut h =>
      rw [hstages] at hs
      obtain ⟨c, hc, rfl⟩ := List.mem_map.mp hs
      exact .cutShort c hc (Trace.entryOf_truncated.mp hcut) (htotal.mp h)
  · intro h
    cases h with
    | refused c item hc hitem h =>
      refine .refused (Trace.entryOf P limits c) _ ?_ (List.mem_map_of_mem hitem) h
      rw [hstages]
      exact List.mem_map_of_mem hc
    | shown c chunk id hc hstage hchunk hid h =>
      refine .shown (Trace.entryOf P limits c) id ?_
        (Trace.mem_entryOf_ids.mpr ⟨chunk, hchunk, hid⟩) h
      rw [hothers]
      exact List.mem_map_of_mem (List.mem_filter.mpr ⟨hc, by simpa using hstage⟩)
    | cutShort c hc hcut h =>
      refine .cutShort (Trace.entryOf P limits c) ?_ (Trace.entryOf_truncated.mpr hcut)
        (htotal.mpr h)
      rw [hstages]
      exact List.mem_map_of_mem hc

/-- An item that is blamed on retrieval, the index or the second pass had no missing id among the
candidates, exactly when the stage calls that found a place within the limits account for the
missing ids of the item, should it be lost and have had one. -/
theorem blames_retrieval_iff_never_candidate (P : Scalars) (limits : Limits)
    (reports : List Trace.Report) (row : ItemRow) :
    ((classifyItem P (row.tracing P limits reports)).category.blamesRetrieval = true →
      ∀ id ∈ row.missing, id ∉ Trace.passed P reports) ↔
    (row.Lost → (∃ id ∈ row.missing, id ∈ Trace.passed P reports) →
      AccountedFor P limits (Trace.kept limits reports) row.missing) := by
  rw [← accounted_iff]
  have hlost : (row.tracing P limits reports).Lost ↔ row.Lost :=
    ⟨fun h => ⟨h.1, h.2, h.3, h.4, h.5, h.6⟩, fun h => ⟨h.1, h.2, h.3, h.4, h.5, h.6⟩⟩
  -- A passed id leaves a stage in the trace, so the ladder goes on to the recorded evidence.
  have hblames : row.Lost → (∃ id ∈ row.missing, id ∈ Trace.passed P reports) →
      ((classifyItem P (row.tracing P limits reports)).category.blamesRetrieval = true ↔
        ¬ Accounted (Trace.collect P limits reports) row.missing) := by
    intro hl hpassed
    obtain ⟨id, _, hid⟩ := hpassed
    have hstages : (Trace.collect P limits reports).stages ≠ [] := Trace.collect_stages_ne_nil hid
    have hrow : (row.tracing P limits reports).missing = row.missing := rfl
    rw [classifyItem_of_lost (hlost.mpr hl), hrow, ← stagesAttribution_blames_iff (P := P)]
    simp [retrievalAttribution, ItemRow.tracing, hstages]
  constructor
  · intro h hl hpassed
    by_contra hacc
    obtain ⟨id, hmissing, hid⟩ := hpassed
    exact h ((hblames hl ⟨id, hmissing, hid⟩).mpr hacc) id hmissing hid
  · intro h hb id hmissing hid
    have hl : row.Lost := hlost.mp (lost_of_blames hb)
    exact (hblames hl ⟨id, hmissing, hid⟩).mp hb (h hl ⟨id, hmissing, hid⟩)

def chunk (id : String) : Json := .obj [("chunk_id", .str id)]

/-- With room for one stage, the second pass that found the labelled chunk is not recorded, and the
item is blamed on retrieval. -/
theorem blamed_on_retrieval_though_candidate :
    let P : Scalars := ⟨Json.text, fun _ => none⟩
    let reports : List Trace.Report :=
      [.stage ⟨stageBase, [chunk "other"], none, none, none, none, []⟩,
        .stage ⟨stagePassTwo, [chunk "gold"], none, none, none, none, []⟩]
    let row : ItemRow := ItemRow.tracing { expectedIds := ["gold"], retrievedIds := ["other"] } P
      ⟨20, 1, 200⟩ reports
    (classifyItem P row).category = .retrieval ∧ "gold" ∈ row.missing ∧
      "gold" ∈ Trace.passed P reports := by
  decide +kernel

/-! ## Complete traces -/

/-- A run that recorded every stage without loss accounts for each missing id it passed. -/
theorem complete_accounted {limits : Limits} {reports : List Trace.Report} {id : String}
    (h : Trace.Complete P limits reports) (hid : id ∈ Trace.passed P reports)
    (hmissing : id ∈ missing) : Accounted (Trace.collect P limits reports) missing := by
  have hshows := Trace.collect_shows h
  obtain ⟨s, hs, hshown, hpos⟩ := hshows.shown id hid
  rcases hshown with hshown | hcut
  · exact .shown s id hs hshown hmissing
  · refine .cutShort s (List.mem_of_mem_filter hs) hcut ?_
    unfold returnedTotal
    rw [if_neg (by simpa using List.ne_nil_of_mem hs)]
    intro hzero
    have hle : s.returnedCount ≤
        ((retrievalStages (Trace.collect P limits reports).stages).map (·.returnedCount)).sum := by
      refine List.single_le_sum ?_ _ (List.mem_map_of_mem hs)
      intro n hn
      obtain ⟨r, hr, rfl⟩ := List.mem_map.mp hn
      exact hshows.counts r hr
    have hsum := Option.some.inj hzero
    omega

/-- An item with a missing id that a run without loss passed is not blamed on retrieval. -/
theorem complete_not_blamed {limits : Limits} {reports : List Trace.Report} {id : String}
    (h : Trace.Complete P limits reports) (hid : id ∈ Trace.passed P reports)
    (hmissing : id ∈ row.missing) :
    (classifyItem P (row.tracing P limits reports)).category.blamesRetrieval = false := by
  have hstages : (Trace.collect P limits reports).stages ≠ [] := Trace.collect_stages_ne_nil hid
  have haccounted := complete_accounted h hid hmissing
  by_contra hblames
  have hlost := lost_of_blames (eq_true_of_ne_false hblames)
  rw [classifyItem_of_lost hlost] at hblames
  simp only [retrievalAttribution, ItemRow.tracing, List.isEmpty_iff, hstages, if_false] at hblames
  exact stagesAttribution_blames_iff.mp (eq_true_of_ne_false hblames) haccounted

theorem complete_not_blamed_gold :
    let P : Scalars := ⟨Json.text, fun _ => none⟩
    let row : ItemRow := { expectedIds := ["gold"], retrievedIds := ["other"] }
    let reports : List Trace.Report :=
      [.stage ⟨stageBase, [chunk "gold"], none, none, none, none, []⟩]
    (classifyItem P (row.tracing P {} reports)).category.blamesRetrieval = false := by
  refine complete_not_blamed ?_ (?_ : "gold" ∈ _) (by decide +kernel)
  · intro pre c post heq
    cases pre with
    | nil =>
      cases heq
      exact ⟨fun _ => by decide, fun h => absurd h (by decide),
        fun _ h => absurd h.symm (Option.some_ne_none _), fun h => absurd h (by decide)⟩
    | cons r rest => simp at heq
  · decide +kernel

/-! ## The aggregate of a run -/

def Category.text : Category → String
  | .staleLabels => "stale_labels"
  | .pipelineError => "pipeline_error"
  | .index => "index"
  | .retrieval => "retrieval"
  | .ranking => "ranking"
  | .passTwo => "pass_two"
  | .context => "context"
  | .generation => "generation"
  | .completeness => "completeness"
  | .grounding => "grounding"
  | .unclassified => "unclassified"
  | .none => "none"
  | .notApplicable => "not_applicable"

def failureCategories : List String :=
  [Category.index, .retrieval, .passTwo, .ranking, .context, .completeness, .generation, .grounding,
    .staleLabels, .pipelineError, .unclassified].map Category.text

/-- A row as it is stored.  A row with a verdict keeps the category the verdict was stored with,
whatever version of the ladder gave it. -/
structure StoredRow where
  row : ItemRow
  verdict : Option (Option String)

def StoredRow.category (P : Scalars) (r : StoredRow) : Option String :=
  r.verdict.getD (some (classifyItem P r.row).category.text)

structure Aggregate where
  counts : Dict String Nat
  attributed : Nat
  passed : Nat

namespace Aggregate

def empty : Aggregate := ⟨failureCategories.map (·, 0), 0, 0⟩

def add (a : Aggregate) (category : Option String) : Aggregate :=
  if category = some Category.notApplicable.text then a
  else if category = some Category.none.text then
    { a with attributed := a.attributed + 1, passed := a.passed + 1 }
  else
    match category.bind fun c => (a.counts.get? c).map fun n => a.counts.set c (n + 1) with
    | some counts => { a with attributed := a.attributed + 1, counts := counts }
    | none => { a with attributed := a.attributed + 1 }

def rates (a : Aggregate) : Dict String (Option Rat) :=
  a.counts.map fun e => (e.1, if a.attributed = 0 then none else some (e.2 / a.attributed))

def itemsUnclassified (a : Aggregate) : Nat :=
  (a.counts.get? Category.unclassified.text).getD 0

def itemsFailedAttributed (a : Aggregate) : Int := a.attributed - a.passed - a.itemsUnclassified

def total (a : Aggregate) : Nat := (a.counts.map Prod.snd).sum

end Aggregate

/-- What `aggregate_attribution` returns. -/
structure AggregateResult extends Aggregate where
  rates : Dict String (Option Rat)
  itemsFailedAttributed : Int
  itemsUnclassified : Nat

def tally (P : Scalars) (rows : List StoredRow) : Aggregate :=
  rows.foldl (fun a r => a.add (r.category P)) .empty

def aggregateAttribution (P : Scalars) (rows : List StoredRow) : AggregateResult :=
  let a := tally P rows
  { a with
    rates := a.rates
    itemsFailedAttributed := a.itemsFailedAttributed
    itemsUnclassified := a.itemsUnclassified }

/-- The category is one that the ladder gives. -/
def isKnown (category : Option String) : Bool :=
  category.any fun c => c ∈ Category.notApplicable.text :: Category.none.text :: failureCategories

theorem isKnown_text (c : Category) : isKnown (some c.text) = true := by cases c <;> rfl

theorem sum_set {d : Dict String Nat} {k : String} {n : Nat} (h : d.get? k = some n) :
    ((d.set k (n + 1)).map Prod.snd).sum = (d.map Prod.snd).sum + 1 := by
  induction d with
  | nil => cases h
  | cons e rest ih =>
    by_cases hk : e.1 = k
    · simp only [Dict.get?, hk, if_true, Option.some.injEq] at h
      simp only [Dict.set, hk, if_true, List.map_cons, List.sum_cons]
      omega
    · simp only [Dict.get?, hk, if_false] at h
      simp only [Dict.set, hk, if_false, List.map_cons, List.sum_cons, ih h]
      omega

/-- An attributed item is counted as passed or under its category, or its category is unknown. -/
structure Aggregate.Balanced (a : Aggregate) (unknown : Nat) : Prop where
  keys : a.counts.map Prod.fst = failureCategories
  sum : a.passed + a.total + unknown = a.attributed

theorem Aggregate.Balanced.add {a : Aggregate} {n : Nat} (h : a.Balanced n)
    (category : Option String) :
    (a.add category).Balanced (n + if isKnown category then 0 else 1) := by
  have hsum := h.sum
  unfold Aggregate.add
  split
  · next heq =>
    rw [heq, isKnown_text]
    exact h
  next hskip =>
  split
  · next heq =>
    rw [heq, isKnown_text]
    refine ⟨h.keys, ?_⟩
    simp only [total, if_true] at hsum ⊢
    omega
  next hpassed =>
  split
  · next counts hcounts =>
    obtain ⟨c, rfl, hc⟩ := Option.bind_eq_some_iff.mp hcounts
    obtain ⟨m, hm, rfl⟩ := Option.map_eq_some_iff.mp hc
    have hmem : c ∈ failureCategories := by
      rw [← h.keys]
      exact List.mem_map_of_mem (Dict.mem_of_get? _ hm)
    refine ⟨by rw [Dict.keys_set, h.keys, if_pos hmem], ?_⟩
    simp only [total, sum_set hm, isKnown, Option.any, List.mem_cons, hmem, or_true, decide_true,
      if_true] at hsum ⊢
    omega
  · next hcounts =>
    have hunknown : isKnown category = false := by
      cases category with
      | none => rfl
      | some c =>
        have hfail : c ∉ failureCategories := by
          intro hmem
          rw [← h.keys] at hmem
          obtain ⟨e, he, rfl⟩ := List.mem_map.mp hmem
          have hnodup : (a.counts.map Prod.fst).Nodup := by rw [h.keys]; decide
          simp [(Dict.get?_eq_some_iff hnodup).mpr he] at hcounts
        have hskip' : c ≠ Category.notApplicable.text := fun heq => hskip (congrArg some heq)
        have hpassed' : c ≠ Category.none.text := fun heq => hpassed (congrArg some heq)
        simp [isKnown, hfail, hskip', hpassed']
    refine ⟨h.keys, ?_⟩
    simp only [total, hunknown] at hsum ⊢
    simp only [Bool.false_eq_true, if_false]
    omega

/-- Whatever verdicts are stored, the passed items, the counted ones and those with a stored
category that the ladder does not give add up to the attributed items. -/
theorem passed_add_counts_add_unknown (P : Scalars) (rows : List StoredRow) :
    let a := aggregateAttribution P rows
    a.passed + a.total + rows.countP (fun r => r.verdict.any fun c => !isKnown c) =
      a.attributed := by
  have hrun : (tally P rows).Balanced
      (rows.countP fun r => r.verdict.any fun c => !isKnown c) := by
    induction rows using List.reverseRecOn with
    | nil => exact ⟨rfl, rfl⟩
    | append_singleton rows r ih =>
      have hadd := ih.add (r.category P)
      have hstored : (if isKnown (r.category P) then 0 else 1) =
          [r].countP fun r => r.verdict.any fun c => !isKnown c := by
        unfold StoredRow.category
        cases hv : r.verdict with
        | none => simp [hv, isKnown_text]
        | some c => cases hc : isKnown c <;> simp [hv, hc]
      rw [hstored, ← List.countP_append] at hadd
      unfold tally
      rw [List.foldl_append]
      exact hadd
  exact hrun.sum

/-- A verdict stored under a category that the ladder does not give is attributed, not counted. -/
theorem unknown_category_not_counted :
    let a := aggregateAttribution ⟨Json.text, fun _ => none⟩ [⟨{}, some (some "merge")⟩]
    a.passed + a.total = 0 ∧ a.attributed = 1 := by
  decide +kernel

end RagForge.Lineage
