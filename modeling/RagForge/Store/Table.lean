import Mathlib.Data.List.AList

/-
Tables of documents with unique keys.

A lookup and an update see a document only if a predicate shows it to the caller, as a filter on
the owner of the document does.
-/

namespace RagForge.Store

abbrev Table (κ ν : Type) : Type := AList fun _ : κ => ν

namespace Table

variable {κ ν : Type} [DecidableEq κ] {t : Table κ ν} {visible : ν → Bool} {k k' : κ} {v : ν}

def find (t : Table κ ν) (visible : ν → Bool) (k : κ) : Option ν := (t.lookup k).filter visible

def update (t : Table κ ν) (visible : ν → Bool) (k : κ) (f : ν → ν) : Table κ ν :=
  match t.find visible k with
  | none => t
  | some v => t.insert k (f v)

theorem find_eq_some_iff : t.find visible k = some v ↔ t.lookup k = some v ∧ visible v = true := by
  unfold find
  rw [Option.filter_eq_some_iff]

theorem update_of_none (h : t.find visible k = none) (f : ν → ν) : t.update visible k f = t := by
  unfold update
  rw [h]

theorem update_of_some (h : t.find visible k = some v) (f : ν → ν) :
    t.update visible k f = t.insert k (f v) := by
  unfold update
  rw [h]

theorem lookup_update_self (h : t.find visible k = some v) (f : ν → ν) :
    (t.update visible k f).lookup k = some (f v) := by
  rw [update_of_some h]
  exact AList.lookup_insert t

theorem find_update_self (h : t.find visible k = some v) {f : ν → ν}
    (hf : visible (f v) = true) : (t.update visible k f).find visible k = some (f v) :=
  find_eq_some_iff.mpr ⟨lookup_update_self h f, hf⟩

theorem lookup_update_ne (f : ν → ν) (hne : k' ≠ k) :
    (t.update visible k f).lookup k' = t.lookup k' := by
  unfold update
  cases t.find visible k with
  | none => rfl
  | some v => exact AList.lookup_insert_ne hne

theorem lookup_update_cases (f : ν → ν) (h : (t.update visible k f).lookup k' = some v) :
    t.lookup k' = some v ∨ k' = k ∧ ∃ v₀, t.lookup k = some v₀ ∧ v = f v₀ := by
  by_cases hne : k' = k
  · subst hne
    cases hfind : t.find visible k' with
    | none =>
      rw [update_of_none hfind] at h
      exact .inl h
    | some v₀ =>
      rw [lookup_update_self hfind] at h
      exact .inr ⟨rfl, v₀, (find_eq_some_iff.mp hfind).1, (Option.some.inj h).symm⟩
  · rw [lookup_update_ne f hne] at h
    exact .inl h

def filter (t : Table κ ν) (p : κ → ν → Bool) : Table κ ν where
  entries := t.entries.filter fun e => p e.1 e.2
  nodupKeys := t.nodupKeys.sublist List.filter_sublist

def select (t : Table κ ν) (p : κ → ν → Bool) : List ν :=
  (t.entries.filter fun e => p e.1 e.2).map Sigma.snd

theorem lookup_cases {t' : Table κ ν} {c : κ} {u : ν} (hself : t'.lookup c = some u)
    (hother : ∀ k, k ≠ c → t'.lookup k = t.lookup k) (h : t'.lookup k = some v) :
    (k = c ∧ v = u) ∨ (k ≠ c ∧ t.lookup k = some v) := by
  by_cases hk : k = c
  · rw [hk, hself] at h
    exact .inl ⟨hk, (Option.some.inj h).symm⟩
  · rw [hother k hk] at h
    exact .inr ⟨hk, h⟩

/-- Tables that differ at one key, where neither has `v`, agree on where `v` is. -/
theorem lookup_iff_of_ne {t' : Table κ ν} {c : κ} (hother : ∀ k, k ≠ c → t'.lookup k = t.lookup k)
    (hc : k = c → t.lookup c ≠ some v ∧ t'.lookup c ≠ some v) :
    t'.lookup k = some v ↔ t.lookup k = some v := by
  by_cases hkc : k = c
  · obtain ⟨hold, hnew⟩ := hc hkc
    rw [hkc]
    exact iff_of_false hnew hold
  · rw [hother k hkc]

end Table

end RagForge.Store
