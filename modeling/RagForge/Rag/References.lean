import RagForge.Rag.InputGate

/-
When the passage references of a judge can be resolved.

A judge names passages by number or by identifier.  The claims it returns are resolved without an
exception exactly when the references of each claim can be iterated over and each of them that
reads as a number is one to `int` too; then only identifiers of passages come out.
-/

namespace RagForge.Rag

open Py

/-! ## Loops that may raise -/

section

variable {ε α β : Type} {f : α → β → Except ε α}

theorem exists_foldlM_iff {G : β → Prop} (hG : ∀ a x, (∃ b, f a x = .ok b) ↔ G x) (xs : List β)
    (a : α) : (∃ b, xs.foldlM f a = .ok b) ↔ ∀ x ∈ xs, G x := by
  induction xs generalizing a with
  | nil => exact ⟨nofun, fun _ => ⟨a, rfl⟩⟩
  | cons x rest ih =>
    rw [List.foldlM_cons, List.forall_mem_cons, ← hG a x]
    cases hx : f a x with
    | error e => exact ⟨fun ⟨_, h⟩ => (nomatch h), fun ⟨⟨_, h⟩, _⟩ => (nomatch h)⟩
    | ok a' => exact (ih a').trans ⟨fun h => ⟨⟨a', rfl⟩, h⟩, fun h => h.2⟩

theorem foldlM_inv {I : α → Prop} (hI : ∀ {a x b}, I a → f a x = .ok b → I b) {xs : List β}
    {a b : α} (ha : I a) (h : xs.foldlM f a = .ok b) : I b := by
  induction xs generalizing a with
  | nil => exact Except.ok.inj h ▸ ha
  | cons x rest ih =>
    obtain ⟨a', hx, hrest⟩ := ok_of_bind h
    exact ih (hI ha hx) hrest

end

/-! ## References -/

variable {lib : Lib} {passageIds : List String}

/-- The text names a passage, or `int` accepts it if it reads as a number. -/
def Readable (lib : Lib) (passageIds : List String) (raw : Json) : Prop :=
  referenceText lib raw ∉ passageIds → lib.isDigit (referenceText lib raw) = true →
    ∃ n, lib.int (referenceText lib raw) = .ok n

theorem resolveReference_ok_iff (ids : List String) (raw : Json) :
    (∃ next, resolveReference lib passageIds ids raw = .ok next) ↔
      Readable lib passageIds raw := by
  unfold resolveReference Readable
  dsimp only
  by_cases hknown : referenceText lib raw ∈ passageIds
  · simp [hknown]
  by_cases hdigit : lib.isDigit (referenceText lib raw) = true
  · cases hint : lib.int (referenceText lib raw) with
    | error message => simp [hknown, hdigit]
    | ok n =>
      cases n with
      | zero => simp [hknown, hdigit]
      | succ index => cases hget : passageIds[index]? <;> simp [hknown, hdigit, hget]
  · simp [hknown, hdigit]

theorem resolveReference_known {ids next : List String} {raw : Json}
    (hids : ∀ id ∈ ids, id ∈ passageIds)
    (h : resolveReference lib passageIds ids raw = .ok next) : ∀ id ∈ next, id ∈ passageIds := by
  have hadd {new : String} (hnew : new ∈ passageIds) :
      ∀ id ∈ (if new ∈ ids then ids else ids ++ [new]), id ∈ passageIds := by
    split
    · exact hids
    · intro id hid
      rcases List.mem_append.mp hid with hid | hid
      · exact hids id hid
      · exact List.mem_singleton.mp hid ▸ hnew
  unfold resolveReference at h
  dsimp only at h
  split at h
  · next hknown => exact Except.ok.inj h ▸ hadd hknown
  split at h
  · split at h
    · exact nomatch h
    · exact Except.ok.inj h ▸ hids
    · split at h
      · next hget => exact Except.ok.inj h ▸ hadd (List.mem_of_getElem? hget)
      · exact Except.ok.inj h ▸ hids
  · exact Except.ok.inj h ▸ hids

/-- The claim carries identifiers of passages only. -/
def PointsInto (passageIds : List String) (claim : Json) : Prop :=
  ∀ id ∈ (claim.get "supporting_passage_ids").items, ∃ p ∈ passageIds, id = .str p

/-- The references of the claim can be iterated over and read. -/
def ReadableRefs (lib : Lib) (passageIds : List String) (claim : Json) : Prop :=
  ∃ refs, iterate ((claim.get "supporting_passage_ids").orElse (.arr [])) = .ok refs ∧
    ∀ raw ∈ refs, Readable lib passageIds raw

theorem resolveClaim_ok_iff (fields : List (String × Json)) :
    (∃ claim, resolveClaim lib passageIds fields = .ok claim) ↔
      ReadableRefs lib passageIds (.obj fields) := by
  constructor
  · intro h
    obtain ⟨claim, hclaim⟩ := h
    obtain ⟨refs, hrefs, hbody⟩ := ok_of_bind hclaim
    obtain ⟨ids, hids, -⟩ := ok_of_bind hbody
    exact ⟨refs, hrefs, (exists_foldlM_iff resolveReference_ok_iff refs []).mp ⟨ids, hids⟩⟩
  · intro h
    obtain ⟨refs, hrefs, hread⟩ := h
    obtain ⟨ids, hids⟩ := (exists_foldlM_iff resolveReference_ok_iff refs []).mpr hread
    unfold resolveClaim
    rw [hrefs]
    simp only [bind, Except.bind, hids]
    exact ⟨_, rfl⟩

theorem resolveClaim_pointsInto {fields : List (String × Json)} {claim : Json}
    (h : resolveClaim lib passageIds fields = .ok claim) : PointsInto passageIds claim := by
  obtain ⟨refs, -, hbody⟩ := ok_of_bind h
  obtain ⟨ids, hids, hresult⟩ := ok_of_bind hbody
  cases hresult
  have hknown : ∀ id ∈ ids, id ∈ passageIds :=
    foldlM_inv resolveReference_known
      (fun _ h => absurd h List.not_mem_nil) hids
  intro id hid
  simp only [Json.get, Json.get?, Dict.get?_set_self, Option.getD_some, Json.items] at hid
  obtain ⟨p, hp, rfl⟩ := List.mem_map.mp hid
  exact ⟨p, hknown p hp, rfl⟩

/-- The claims are resolved to identifiers of the passages and nothing is raised exactly when the
references of each claim can be iterated over and read. -/
theorem resolveClaimPassageIds_ok_iff (lib : Lib) (claims : List Json)
    (passageIds : List String) :
    (∃ resolved, resolveClaimPassageIds lib claims passageIds = .ok resolved ∧
        ∀ claim ∈ resolved, PointsInto passageIds claim) ↔
      ∀ claim ∈ claims, ∀ fields, claim = .obj fields → ReadableRefs lib passageIds claim := by
  have hok : (∃ resolved, resolveClaimPassageIds lib claims passageIds = .ok resolved) ↔
      ∀ claim ∈ claims, ∀ fields, claim = .obj fields → ReadableRefs lib passageIds claim := by
    refine exists_foldlM_iff (fun resolved claim => ?_) claims []
    cases claim
    case obj fields =>
      have hclaim : (∃ c, resolveClaim lib passageIds fields = .ok c) ↔ _ :=
        resolveClaim_ok_iff fields
      cases hentry : resolveClaim lib passageIds fields <;>
        simpa [hentry, Except.map] using hclaim
    all_goals exact ⟨fun _ _ h => (nomatch h), fun _ => ⟨resolved, rfl⟩⟩
  refine ⟨fun ⟨resolved, h, _⟩ => hok.mp ⟨resolved, h⟩, fun h => ?_⟩
  obtain ⟨resolved, hresolved⟩ := hok.mpr h
  refine ⟨resolved, hresolved, foldlM_inv (I := fun resolved => ∀ claim ∈ resolved,
    PointsInto passageIds claim) (fun {done claim next} hdone h => ?_)
    (fun _ h => absurd h List.not_mem_nil) hresolved⟩
  cases claim
  case obj fields =>
    cases hentry : resolveClaim lib passageIds fields with
    | error e => simp [hentry, Except.map] at h
    | ok entry =>
      simp only [hentry, Except.map, Except.ok.injEq] at h
      rw [← h, List.forall_mem_append]
      exact ⟨hdone, List.forall_mem_singleton.mpr (resolveClaim_pointsInto hentry)⟩
  all_goals exact Except.ok.inj h ▸ hdone

/-- A superscript passes `isdigit` and makes `int` raise; a number in the place of the list cannot
be iterated over. -/
theorem superscript_reference_raises :
    (resolveClaimPassageIds sampleLib
      [.obj [("supporting_passage_ids", .arr [.str "[²]"])]] ["chunk-1"]).isOk = false ∧
    (resolveClaimPassageIds sampleLib
      [.obj [("supporting_passage_ids", .num 1)]] ["chunk-1"]).isOk = false := by
  decide +kernel

end RagForge.Rag
