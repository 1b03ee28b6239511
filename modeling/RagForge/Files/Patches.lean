import RagForge.Files.Text
import RagForge.Sequence.Edits

/-
What `apply_patch_map` makes of a text when `validate_patch_map` accepts the patches.

The patches of an accepted map are ordered edits of the text.  Sorting them from the end on and
splicing one after the other gives the edited text, whatever the order in which they are submitted.
The validation looks at the spans only; a replacement that is not a text passes it.
-/

namespace RagForge.Files

open Sequence

variable {ps patchMap : List Patch} {text : String} {p q : Patch}

def Patch.edit (p : Patch) : Edit Char where
  start := (p.start.getD 0).toNat
  stop := (p.stop.getD 0).toNat
  insert := (p.replacement.getD "").toList

structure Patch.Placed (textLength : Nat) (p : Patch) : Prop where
  start_eq : p.start = some (p.edit.start : Int)
  stop_eq : p.stop = some (p.edit.stop : Int)
  lt : p.edit.start < p.edit.stop
  le : p.edit.stop ≤ textLength

/-! ## Validation -/

theorem checkPatches_ok {textLength : Nat} {previousEnd : Int}
    (h : checkPatches textLength previousEnd ps = .ok ()) :
    (∀ p ∈ ps, p.Placed textLength ∧ previousEnd ≤ p.edit.start) ∧
      ps.Pairwise fun p q => p.edit.stop ≤ q.edit.start := by
  induction ps generalizing previousEnd with
  | nil => exact ⟨nofun, List.Pairwise.nil⟩
  | cons p rest ih =>
    rw [checkPatches] at h
    split at h
    · next start stop hstart hstop =>
      split at h
      · cases h
      · next hbounds =>
        split at h
        · cases h
        · next hprevious =>
          obtain ⟨hrest, hapart⟩ := ih h
          have hedit : p.edit.start = start.toNat ∧ p.edit.stop = stop.toNat := by
            simp [Patch.edit, hstart, hstop]
          have hplaced : p.Placed textLength :=
            ⟨by rw [hstart]; congr 1; omega, by rw [hstop]; congr 1; omega, by omega,
              by omega⟩
          refine ⟨fun q hq => ?_, List.pairwise_cons.mpr ⟨fun q hq => ?_, hapart⟩⟩
          · rcases List.mem_cons.mp hq with rfl | hq
            · exact ⟨hplaced, by omega⟩
            · obtain ⟨hq, hle⟩ := hrest q hq
              exact ⟨hq, by omega⟩
          · have := (hrest q hq).2
            omega
    · cases h

theorem checkPatches_of_apart {textLength : Nat} {previousEnd : Int}
    (hplaced : ∀ p ∈ ps, p.Placed textLength ∧ previousEnd ≤ p.edit.start)
    (hapart : ps.Pairwise fun p q => p.edit.stop ≤ q.edit.start) :
    checkPatches textLength previousEnd ps = .ok () := by
  induction ps generalizing previousEnd with
  | nil => rfl
  | cons p rest ih =>
    obtain ⟨hp, hprevious⟩ := hplaced p List.mem_cons_self
    obtain ⟨hnext, hapart⟩ := List.pairwise_cons.mp hapart
    have hlt := hp.lt
    have hle := hp.le
    rw [checkPatches, hp.start_eq, hp.stop_eq]
    dsimp only
    rw [if_neg (by omega), if_neg (by omega)]
    refine ih (fun q hq => ⟨(hplaced q (List.mem_cons_of_mem p hq)).1, ?_⟩) hapart
    exact Int.ofNat_le.mpr (hnext q hq)

def inOrder (patchMap : List Patch) : List Patch := patchMap.insertionSort fun p q => p.le q

/-- An accepted map gives ordered edits, and every bound in it is an integer. -/
theorem validatePatchMap_ok (h : validatePatchMap text patchMap = .ok ()) :
    Ordered text.toList.length ((inOrder patchMap).map Patch.edit) ∧
      ∀ p ∈ patchMap, p.Placed text.toList.length := by
  rw [validatePatchMap] at h
  split at h
  · cases h
  · obtain ⟨hplaced, hapart⟩ := checkPatches_ok h
    refine ⟨⟨List.pairwise_map.mpr hapart, fun e he => ?_⟩, fun p hp => ?_⟩
    · obtain ⟨p, hp, rfl⟩ := List.mem_map.mp he
      have := (hplaced p hp).1
      exact ⟨this.lt, this.le⟩
    · exact (hplaced p ((List.perm_insertionSort _ patchMap).mem_iff.mpr hp)).1

/-! ## Sorting -/

theorem Patch.le_iff {n : Nat} (hp : p.Placed n) (hq : q.Placed n) :
    p.le q = true ↔ p.edit.start < q.edit.start ∨
      p.edit.start = q.edit.start ∧ p.edit.stop ≤ q.edit.stop := by
  simp only [Patch.le, hp.start_eq, hq.start_eq, hp.stop_eq, hq.stop_eq, Option.getD_some,
    Bool.or_eq_true, Bool.and_eq_true, decide_eq_true_eq, beq_iff_eq]
  omega

theorem eq_of_start (h : validatePatchMap text patchMap = .ok ()) (hp : p ∈ patchMap)
    (hq : q ∈ patchMap) (hstart : p.edit.start = q.edit.start) : p = q := by
  obtain ⟨hordered, hplaced⟩ := validatePatchMap_ok h
  have hperm : (inOrder patchMap).Perm patchMap := List.perm_insertionSort _ patchMap
  have hdistinct : (inOrder patchMap).Pairwise fun p q => p.edit.start ≠ q.edit.start := by
    refine (List.pairwise_map.mp hordered.apart).imp_of_mem fun {p q} hp _ hle heq => ?_
    have := (hplaced p (hperm.mem_iff.mp hp)).lt
    omega
  have : Std.Symm fun p q : Patch => p.edit.start ≠ q.edit.start := ⟨fun _ _ hne => hne.symm⟩
  by_contra hne
  exact hdistinct.forall (hperm.mem_iff.mpr hp) (hperm.mem_iff.mpr hq) hne hstart

theorem Patch.le_total (p q : Patch) : p.le q = true ∨ q.le p = true := by
  simp only [Patch.le, Bool.or_eq_true, Bool.and_eq_true, decide_eq_true_eq, beq_iff_eq]
  omega

theorem Patch.le_trans {r : Patch} (hpq : p.le q = true) (hqr : q.le r = true) : p.le r = true := by
  simp only [Patch.le, Bool.or_eq_true, Bool.and_eq_true, decide_eq_true_eq, beq_iff_eq] at *
  omega

theorem pairwise_descending (order : List Patch) :
    (order.insertionSort fun p q => q.le p).Pairwise fun p q => q.le p = true := by
  have : Std.Total fun p q : Patch => q.le p = true := ⟨fun p q => q.le_total p⟩
  have : IsTrans Patch fun p q => q.le p = true := ⟨fun _ _ _ hpq hqr => Patch.le_trans hqr hpq⟩
  exact List.pairwise_insertionSort _ order

/-- Spans that do not overlap, in whatever order they come, are accepted. -/
theorem validatePatchMap_eq_ok_iff (hne : patchMap ≠ []) :
    validatePatchMap text patchMap = .ok () ↔
      (∀ p ∈ patchMap, p.Placed text.toList.length) ∧
        patchMap.Pairwise fun p q => p.edit.stop ≤ q.edit.start ∨ q.edit.stop ≤ p.edit.start := by
  have hperm : (inOrder patchMap).Perm patchMap := List.perm_insertionSort _ patchMap
  have hsymm : ∀ {p q : Patch}, p.edit.stop ≤ q.edit.start ∨ q.edit.stop ≤ p.edit.start →
      q.edit.stop ≤ p.edit.start ∨ p.edit.stop ≤ q.edit.start := fun h => h.symm
  constructor
  · intro h
    obtain ⟨hordered, hplaced⟩ := validatePatchMap_ok h
    exact ⟨hplaced, (hperm.pairwise_iff hsymm).mp
      ((List.pairwise_map.mp hordered.apart).imp fun hle => .inl hle)⟩
  · intro h
    obtain ⟨hplaced, hapart⟩ := h
    have hplaced' := fun p hp => hplaced p (hperm.mem_iff.mp hp)
    have : Std.Total fun p q : Patch => p.le q = true := ⟨Patch.le_total⟩
    have : IsTrans Patch fun p q => p.le q = true := ⟨fun _ _ _ => Patch.le_trans⟩
    have hsorted : (inOrder patchMap).Pairwise fun p q => p.le q = true :=
      List.pairwise_insertionSort _ patchMap
    rw [validatePatchMap, if_neg (by simpa using hne)]
    refine checkPatches_of_apart (fun p hp => ⟨hplaced' p hp, by omega⟩) ?_
    refine (hsorted.and ((hperm.pairwise_iff hsymm).mpr hapart)).imp_of_mem fun {p q} hp hq h => ?_
    have hle := (Patch.le_iff (hplaced' p hp) (hplaced' q hq)).mp h.1
    have hlt := (hplaced' q hq).lt
    omega

/-- The descending sort of `apply_patch_map` is the reverse of the ascending sort of
`validate_patch_map`, whatever the order of submission. -/
theorem descending_eq_reverse {order : List Patch} (h : validatePatchMap text patchMap = .ok ())
    (horder : order.Perm patchMap) :
    (order.insertionSort fun p q => q.le p) = (inOrder patchMap).reverse := by
  obtain ⟨hordered, hplaced⟩ := validatePatchMap_ok h
  have hasc : (inOrder patchMap).Perm patchMap := List.perm_insertionSort _ patchMap
  have hdesc : (order.insertionSort fun p q => q.le p).Perm patchMap :=
    (List.perm_insertionSort _ order).trans horder
  have hreverse : (inOrder patchMap).reverse.Pairwise fun p q => q.le p = true := by
    refine List.pairwise_reverse.mpr ?_
    refine (List.pairwise_map.mp hordered.apart).imp_of_mem fun {p q} hp hq hle => ?_
    have hp := hplaced p (hasc.mem_iff.mp hp)
    have hlt := hp.lt
    exact (Patch.le_iff hp (hplaced q (hasc.mem_iff.mp hq))).mpr (by omega)
  refine (hdesc.trans (hasc.symm.trans (List.reverse_perm _).symm)).eq_of_pairwise ?_
    (pairwise_descending order) hreverse
  intro p q hp hq hqp hpq
  have hp := hdesc.mem_iff.mp hp
  have hq := hasc.mem_iff.mp (List.mem_reverse.mp hq)
  rw [Patch.le_iff (hplaced q hq) (hplaced p hp)] at hqp
  rw [Patch.le_iff (hplaced p hp) (hplaced q hq)] at hpq
  exact eq_of_start h hp hq (by omega)

/-! ## Applying -/

theorem applyPatch_some {replacement : String} (h : p.replacement = some replacement)
    (patched : String) :
    applyPatch patched p = .ok (String.ofList (p.edit.splice patched.toList)) := by
  have htext : replacement = String.ofList p.edit.insert := by
    simp [Patch.edit, h]
  simp only [applyPatch, h]
  rw [htext]
  simp [Py.slice, Edit.splice, Patch.edit, String.append_assoc]

/-- From the last patch to the first, each one splices its own span. -/
theorem foldlM_applyPatch (h : ∀ p ∈ ps, p.replacement.isSome) (text : String) :
    ps.reverse.foldlM applyPatch text =
      .ok (String.ofList ((ps.map Patch.edit).foldr Edit.splice text.toList)) := by
  induction ps with
  | nil =>
    rw [List.map_nil, List.foldr_nil, String.ofList_toList]
    rfl
  | cons p rest ih =>
    obtain ⟨replacement, hp⟩ := Option.isSome_iff_exists.mp (h p List.mem_cons_self)
    rw [List.reverse_cons, List.foldlM_append,
      ih fun q hq => h q (List.mem_cons_of_mem p hq)]
    show (applyPatch _ p >>= pure) = _
    rw [bind_pure, applyPatch_some hp, String.toList_ofList, List.map_cons, List.foldr_cons]

theorem isSome_of_foldlM {result : String} (h : ps.foldlM applyPatch text = .ok result) :
    ∀ p ∈ ps, p.replacement.isSome := by
  induction ps generalizing text with
  | nil => exact nofun
  | cons p rest ih =>
    obtain ⟨patched, hp, hrest⟩ := RagForge.Py.ok_of_bind h
    intro q hq
    rcases List.mem_cons.mp hq with rfl | hq
    · cases hr : q.replacement with
      | none => simp [applyPatch, hr] at hp
      | some replacement => rfl
    · exact ih hrest q hq

/-- For every accepted map, applying it gives the text with each span replaced and everything else
kept, in whatever order the patches come, exactly when every replacement is a text. -/
theorem applyPatchMap_edits_iff (text : String) (patchMap : List Patch)
    (h : validatePatchMap text patchMap = .ok ()) :
    (∃ result : String, result.toList = edited (patchMap.map Patch.edit) text.toList ∧
      ∀ order : List Patch, order.Perm patchMap → applyPatchMap text order = .ok result) ↔
      ∀ p ∈ patchMap, p.replacement.isSome := by
  obtain ⟨hordered, hplaced⟩ := validatePatchMap_ok h
  have hperm : (inOrder patchMap).Perm patchMap := List.perm_insertionSort _ patchMap
  constructor
  · intro hresult p hp
    obtain ⟨result, -, happly⟩ := hresult
    have hok := happly patchMap (List.Perm.refl _)
    rw [applyPatchMap, descending_eq_reverse h (List.Perm.refl _)] at hok
    exact isSome_of_foldlM hok p (List.mem_reverse.mpr (hperm.mem_iff.mpr hp))
  · intro hsome
    refine ⟨String.ofList (edited (patchMap.map Patch.edit) text.toList), String.toList_ofList,
      fun order horder => ?_⟩
    rw [applyPatchMap, descending_eq_reverse h horder,
      foldlM_applyPatch (fun p hp => hsome p (hperm.mem_iff.mp hp)), foldr_splice hordered,
      edited_perm hordered (hperm.map Patch.edit).symm]

def twoPatches : List Patch := [⟨some 6, some 9, some "[B]"⟩, ⟨some 0, some 5, some "[A1]"⟩]

theorem applyPatchMap_two_spans :
    validatePatchMap "alice bob" twoPatches = .ok () ∧
      ∃ result : String, result.toList = edited (twoPatches.map Patch.edit) "alice bob".toList ∧
        ∀ order : List Patch, order.Perm twoPatches →
          applyPatchMap "alice bob" order = .ok result :=
  ⟨rfl, (applyPatchMap_edits_iff "alice bob" twoPatches rfl).mpr (by decide)⟩

def nullPatch : Patch := ⟨some 0, some 5, none⟩

/-- It is accepted, and applying it raises. -/
theorem applyPatchMap_null_replacement :
    validatePatchMap "alice bob" [nullPatch] = .ok () ∧
      applyPatchMap "alice bob" [nullPatch] =
        .error (.value "can only concatenate str to str") :=
  ⟨rfl, rfl⟩

end RagForge.Files
