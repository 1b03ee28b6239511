import Mathlib.Data.List.Basic

/-
Lists whose places belong to parties: one place is set, or one is added at the end.
-/

namespace RagForge.Sequence

variable {α : Type} {l : List α} {i j : Nat} {x y u : α}

theorem getElem?_set_cases (h : (l.set i x)[j]? = some u) :
    j = i ∧ u = x ∨ j ≠ i ∧ l[j]? = some u := by
  rw [List.getElem?_set] at h
  split at h
  · next hij =>
    split at h
    · exact .inl ⟨hij.symm, (Option.some.inj h).symm⟩
    · cases h
  · next hij => exact .inr ⟨Ne.symm hij, h⟩

theorem getElem?_set_of (h : l[i]? = some y) : (l.set i x)[i]? = some x :=
  List.getElem?_set_self (List.getElem?_eq_some_iff.mp h).1

theorem getElem?_of_set (h : l[i]? = some y) (hj : l[j]? = some u) (x : α) :
    j = i ∧ u = y ∧ (l.set i x)[j]? = some x ∨ j ≠ i ∧ (l.set i x)[j]? = some u := by
  by_cases hji : j = i
  · subst hji
    exact .inl ⟨rfl, Option.some.inj (hj.symm.trans h), getElem?_set_of h⟩
  · exact .inr ⟨hji, (List.getElem?_set_ne (Ne.symm hji)).trans hj⟩

theorem getElem?_append_cases (h : (l ++ [x])[j]? = some u) :
    l[j]? = some u ∨ j = l.length ∧ u = x := by
  rw [List.getElem?_append] at h
  split at h
  · exact .inl h
  · rw [List.getElem?_singleton] at h
    split at h
    · exact .inr ⟨by omega, (Option.some.inj h).symm⟩
    · cases h

theorem getElem?_append_of (h : l[j]? = some u) : (l ++ [x])[j]? = some u :=
  (List.getElem?_append_left (List.getElem?_eq_some_iff.mp h).1).trans h

end RagForge.Sequence
