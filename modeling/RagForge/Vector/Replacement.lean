import RagForge.Vector.Handlers
import RagForge.Vector.InMemory

/-
Replacing chunks after a review (`upsert_chunks` of `services/vector_service.py` with the outcome
`remove_problematic_text`).

The chunks that the target filters match are deleted before the new ones are looked at.  A request
that fails after that has lost them, unless its upsert took effect and wrote the same points again.
-/

namespace RagForge.Vector

open RagForge.Embedding Effect Files

/-! ## The store that a request calls -/

/-- The exception of a call, if it raises one, and whether the call took effect before. -/
structure StoreFaults where
  delete : Option (Exc × Bool)
  upsert : Option (Exc × Bool)

def faulty (fault : Option (Exc × Bool)) (s : Collection)
    (out : Except StoreErr (Nat × Collection)) : Except Exc Nat × Collection :=
  let reply : Except Exc Nat × Collection :=
    match out with
    | .ok (count, t) => (.ok count, t)
    | .error e => (.error (.store e), s)
  match fault with
  | none => reply
  | some (e, applied) => (.error e, if applied then reply.2 else s)

section

variable (E : Engine) (cfg) (faults : StoreFaults) (who)

def storeHandler : Handler sig Collection
  | ⟨_, .upsertChunks chunks⟩, s => faulty faults.upsert s (upsertPoints E cfg s chunks)
  | ⟨_, .deleteChunks filters⟩, s => faulty faults.delete s (deletePoints s filters)
  | ⟨_, .sendReply ..⟩, s | ⟨_, .sendUpsertCompleted _⟩, s | ⟨_, .sendStageUpdate _⟩, s
  | ⟨_, .flush⟩, s => (.ok (), s)

/-! ## What a request replaces -/

def targeted (req : UpsertRequest) (s : Collection) : Collection :=
  match buildDeleteFilter (scopedFilters who req.targetFilters) with
  | .ok f => f.select s
  | .error _ => ∅

def sanitized (c : EmbeddedChunk) : EmbeddedChunk := { c with reviewStatus := .sanitized }

def replacement (req : UpsertRequest) : Option (List Point) := do
  let chunks ← (ownedChunks who req.chunks).toOption
  ((chunks.map sanitized).mapM (buildPoint E cfg)).toOption

/-- The checks before the deletion refuse the request. -/
def Refused (req : UpsertRequest) : Prop :=
  req.chunks = [] ∨ privileged who = false ∨ (ownedChunks who req.chunks).toOption = none ∨
    req.targetFilters = []

/-- What an upsert that raises after it took effect has written. -/
def rewritten (req : UpsertRequest) : Collection :=
  match faults.delete, faults.upsert, replacement E cfg who req with
  | none, some (_, true), some points => points.foldl put ∅
  | _, _, _ => ∅

end

variable {who : Option Identity} {h : Handler sig Collection} {req : UpsertRequest}
  {chunks : List EmbeddedChunk} {cfg : StoreConfig} {s : Collection} {x : Point}

theorem mem_foldl_put (points : List Point) : ∀ {s : Collection}, x ∉ s →
    (x ∈ points.foldl put s ↔ x ∈ points.foldl put ∅) := by
  have hput : ∀ (s : Collection) (y : Point), x ∈ put s y ↔ x = y ∨ x ∈ s ∧ x.id ≠ y.id := by
    intro s y
    simp [put]
  -- a point that is not in the collection before is in it afterwards only as a new one
  have hsame : ∀ (points : List Point) (s t : Collection), (x ∈ s ↔ x ∈ t) →
      (x ∈ points.foldl put s ↔ x ∈ points.foldl put t) := by
    intro points
    induction points with
    | nil => exact fun s t h => h
    | cons y rest ih =>
      intro s t h
      refine ih _ _ ?_
      rw [hput, hput, h]
  intro s hx
  exact hsame points s ∅ (iff_of_false hx (by simp))

theorem mem_deleted_iff :
    x ∈ (faulty none s (deletePoints s (scopedFilters who req.targetFilters))).2 ↔
      x ∈ s ∧ x ∉ targeted who req s := by
  unfold faulty deletePoints targeted
  cases buildDeleteFilter (scopedFilters who req.targetFilters) with
  | error e => simp [bind, Except.bind]
  | ok f =>
    have hselect : x ∈ f.select s ↔ x ∈ s ∧ f.admits x.payload = true := Finset.mem_filter
    simp +contextual [bind, Except.bind, pure, Except.pure, hselect]

theorem targeted_subset (who : Option Identity) (req : UpsertRequest) (s : Collection) :
    targeted who req s ⊆ s := by
  unfold targeted
  split
  · exact Finset.filter_subset _ _
  · exact Finset.empty_subset s

theorem refused_wp (hremove : req.reviewOutcome = .removeProblematicText)
    (hrefused : Refused who req) (s : Collection) :
    (upsertChunks cfg req).wp h.logic (fun _ _ t => t = s) who s := by
  unfold upsertChunks applyReviewOutcome check raise
  simp only [hremove, Proc.wp_bind, Proc.wp_ite, Proc.wp_read, Proc.wp_ofExcept]
  by_cases hchunks : req.chunks = []
  · rw [if_pos hchunks]
    exact Eq.refl s
  by_cases hpriv : privileged who = false
  · rw [if_neg hchunks, if_pos ⟨by decide, hpriv⟩]
    exact Eq.refl s
  rw [if_neg hchunks, if_neg fun hboth => hpriv hboth.2]
  cases howned : ownedChunks who req.chunks with
  | error e => simp only [Except.mapError]
  | ok chunks =>
    have htarget : req.targetFilters = [] := by
      rcases hrefused with h | h | h | h
      · exact absurd h hchunks
      · exact absurd h hpriv
      · exact absurd h (by simp [howned, Except.toOption])
      · exact h
    simp only [Except.mapError, htarget, if_true]
    exact Eq.refl s

theorem upsertChunks_wp (hremove : req.reviewOutcome = .removeProblematicText)
    (hchunks : req.chunks ≠ []) (hpriv : privileged who = true)
    (howned : ownedChunks who req.chunks = .ok chunks) (htarget : req.targetFilters ≠ [])
    (P : Collection → Prop) :
    (upsertChunks cfg req).wp h.logic (fun r _ t => r.toBool = false → P t) who s ↔
      let deleted := h ⟨who, .deleteChunks (scopedFilters who req.targetFilters)⟩ s
      let upserted := h ⟨who, .upsertChunks (chunks.map sanitized)⟩ deleted.2
      if deleted.1.toBool then upserted.1.toBool = false → P upserted.2 else P deleted.2 := by
  have hcall : ∀ (op : Op) (Q : sig.Result ⟨who, op⟩ → Option Identity → Collection → Prop)
      (t : Collection), (call op).wp h.logic Q who t ↔
        Q (h ⟨who, op⟩ t).1 who (h ⟨who, op⟩ t).2 := fun _ _ _ => Iff.rfl
  unfold upsertChunks applyReviewOutcome deleteChunks check raise
  simp only [hremove, if_neg hchunks, hpriv, howned, if_neg htarget, Proc.wp_bind, Proc.wp_ite,
    Proc.wp_read, Proc.wp_ofExcept, Proc.wp_handle, Except.mapError, Bool.true_eq_false, and_false,
    if_false, if_true]
  refine (hcall _ _ s).trans ?_
  rcases h ⟨who, .deleteChunks (scopedFilters who req.targetFilters)⟩ s with ⟨e | count, t⟩
  · exact ⟨fun hP => hP rfl, fun hP _ => hP⟩
  · simp only [Proc.wp_pure]
    refine (hcall (.upsertChunks (chunks.map sanitized)) _ t).trans ?_
    rcases h ⟨who, .upsertChunks (chunks.map sanitized)⟩ t with ⟨e | n, u⟩
    · exact Iff.rfl
    · exact Iff.rfl

/-- What that leaves of the targeted points. -/
theorem replaced_keeps_iff (E : Engine) (cfg : StoreConfig) (faults : StoreFaults)
    (who : Option Identity) (req : UpsertRequest) (s : Collection)
    (howned : ownedChunks who req.chunks = .ok chunks) :
    (let deleted := faulty faults.delete s (deletePoints s (scopedFilters who req.targetFilters))
      let upserted := faulty faults.upsert deleted.2
        (upsertPoints E cfg deleted.2 (chunks.map sanitized))
      if deleted.1.toBool then upserted.1.toBool = false → targeted who req s ⊆ upserted.2
      else targeted who req s ⊆ deleted.2) ↔
      (∃ e, faults.delete = some (e, false)) ∨
        (faults.delete = none ∧ faults.upsert = none ∧ (replacement E cfg who req).isSome = true) ∨
        targeted who req s ⊆ rewritten E cfg faults who req := by
  have hreplacement : replacement E cfg who req =
      ((chunks.map sanitized).mapM (buildPoint E cfg)).toOption := by
    unfold replacement
    rw [howned]
    rfl
  -- after the deletion none of the targeted points is left
  have hgone : ∀ x ∈ targeted who req s,
      x ∉ (faulty none s (deletePoints s (scopedFilters who req.targetFilters))).2 :=
    fun x hx hmem => (mem_deleted_iff.mp hmem).2 hx
  have hlost : targeted who req s ⊆
      (faulty none s (deletePoints s (scopedFilters who req.targetFilters))).2 ↔
        targeted who req s ⊆ ∅ := by
    constructor
    · exact fun hsub x hx => absurd (hsub hx) (hgone x hx)
    · exact fun hsub => hsub.trans (Finset.empty_subset _)
  unfold rewritten
  rw [hreplacement]
  cases hdelete : faults.delete with
  | some fault =>
    obtain ⟨e, applied⟩ := fault
    cases applied with
    | false => exact iff_of_true (targeted_subset who req s) (.inl ⟨e, rfl⟩)
    | true =>
      show targeted who req s ⊆
        (faulty none s (deletePoints s (scopedFilters who req.targetFilters))).2 ↔ _
      simp [hlost]
  | none =>
    cases hfilter : buildDeleteFilter (scopedFilters who req.targetFilters) with
    | error e =>
      have hempty : targeted who req s = ∅ := by
        unfold targeted
        rw [hfilter]
      simp [hempty]
    | ok f =>
      have hanswer : (faulty none s
          (deletePoints s (scopedFilters who req.targetFilters))).1.toBool = true := by
        unfold deletePoints
        rw [hfilter]
        rfl
      generalize faulty none s (deletePoints s (scopedFilters who req.targetFilters)) = out at *
      rw [if_pos hanswer]
      unfold upsertPoints
      cases (chunks.map sanitized).mapM (buildPoint E cfg) with
      | error e =>
        rcases faults.upsert with _ | ⟨e', _ | _⟩ <;>
          simp [faulty, bind, Except.bind, Except.toBool, Except.toOption, hlost]
      | ok points =>
        have hagain : targeted who req s ⊆ points.foldl put out.2 ↔
            targeted who req s ⊆ points.foldl put ∅ :=
          forall₂_congr fun x hx => mem_foldl_put points (hgone x hx)
        rcases faults.upsert with _ | ⟨e', _ | _⟩ <;>
          simp [faulty, bind, Except.bind, pure, Except.pure, Except.toBool, Except.toOption, hlost,
            hagain]

/-- A replacement that fails keeps the targeted points exactly if it fails before it deletes them,
if it cannot fail later, or if its upsert wrote them again. -/
theorem failed_replacement_keeps_iff (E : Engine) (cfg : StoreConfig) (faults : StoreFaults)
    (who : Option Identity) (req : UpsertRequest) (s : Collection)
    (hremove : req.reviewOutcome = .removeProblematicText) :
    (((upsertChunks cfg req).run (storeHandler E cfg faults) who s).1.toBool = false →
      targeted who req s ⊆ ((upsertChunks cfg req).run (storeHandler E cfg faults) who s).2.2) ↔
      Refused who req ∨ (∃ e, faults.delete = some (e, false)) ∨
        (faults.delete = none ∧ faults.upsert = none ∧ (replacement E cfg who req).isSome = true) ∨
        targeted who req s ⊆ rewritten E cfg faults who req := by
  rw [← Proc.wp_logic_iff (storeHandler E cfg faults) (upsertChunks cfg req)
    (fun r _ t => r.toBool = false → targeted who req s ⊆ t)]
  by_cases hrefused : Refused who req
  · refine iff_of_true (Proc.wp_mono (refused_wp hremove hrefused s) ?_) (.inl hrefused)
    intro r _ t ht _
    rw [ht]
    exact targeted_subset who req s
  have hchecks := hrefused
  unfold Refused at hchecks
  push Not at hchecks
  obtain ⟨hchunks, hpriv, howned, htarget⟩ := hchecks
  obtain ⟨chunks, howned⟩ : ∃ chunks, ownedChunks who req.chunks = .ok chunks := by
    cases h : ownedChunks who req.chunks with
    | error e => exact absurd (by rw [h]; rfl) howned
    | ok chunks => exact ⟨chunks, rfl⟩
  rw [or_iff_right hrefused]
  exact (upsertChunks_wp hremove hchunks (by simpa using hpriv) howned htarget _).trans
    (replaced_keeps_iff E cfg faults who req s howned)

def replacementRequest (embedding : Vec) : UpsertRequest where
  chunks := [{ keyedChunk "tenant" "new" with embedding }]
  reviewOutcome := .removeProblematicText
  targetFilters := [("file_id", .one (.str "file"))]
  replyTo := none

def replacementRun (faults : StoreFaults) (embedding : Vec) :
    Except Exc UpsertResult × Option Identity × Collection :=
  (upsertChunks keyedConfig (replacementRequest embedding)).run
    (storeHandler (listingEngine []) keyedConfig faults) none {samplePoint "tenant" "user" "old"}

/-- The deletion is refused by the store. -/
theorem failed_replacement_keeps_undeleted :
    (replacementRun ⟨some (.other "timeout", false), none⟩ [1]).1.toBool = false ∧
      targeted none (replacementRequest [1]) {samplePoint "tenant" "user" "old"} ⊆
        (replacementRun ⟨some (.other "timeout", false), none⟩ [1]).2.2 := by
  have hfails : (replacementRun ⟨some (.other "timeout", false), none⟩ [1]).1.toBool = false := by
    decide +kernel
  exact ⟨hfails, (failed_replacement_keeps_iff _ _ _ _ _ _ rfl).mpr (.inr (.inl ⟨_, rfl⟩)) hfails⟩

/-- The new chunk has an embedding of the wrong size: the request fails, and the old chunk is
gone. -/
theorem failed_replacement_loses_chunk : (replacementRun ⟨none, none⟩ [1, 2]).1.toBool = false ∧
      samplePoint "tenant" "user" "old" ∈
        targeted none (replacementRequest [1, 2]) {samplePoint "tenant" "user" "old"} ∧
      samplePoint "tenant" "user" "old" ∉ (replacementRun ⟨none, none⟩ [1, 2]).2.2 := by
  decide +kernel

end RagForge.Vector
