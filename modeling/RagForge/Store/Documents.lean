import Mathlib.Data.List.Basic

/-
A collection of documents as a list, in the order of insertion.

`find?` is `find_one`, `updateFirst` is `update_one` and `eraseP` is `delete_one`: each works on
the first document that matches.  A query that implies a view sees as much in the view as in the
whole collection, and a change under such a query commutes with taking the view.
-/

namespace RagForge.Store

variable {α β : Type} {f : α → α} {x : α}

def updateFirst (q : α → Bool) (f : α → α) : List α → List α
  | [] => []
  | x :: rest => if q x then f x :: rest else x :: updateFirst q f rest

variable {q : α → Bool}

theorem updateFirst_cons_pos (h : q x = true) (rest : List α) :
    updateFirst q f (x :: rest) = f x :: rest := by
  rw [updateFirst, if_pos h]

theorem updateFirst_cons_neg (h : ¬ q x = true) (rest : List α) :
    updateFirst q f (x :: rest) = x :: updateFirst q f rest := by
  rw [updateFirst, if_neg h]

theorem map_updateFirst_of_same {g : α → β} (h : ∀ x, g (f x) = g x) (xs : List α) :
    (updateFirst q f xs).map g = xs.map g := by
  induction xs with
  | nil => rfl
  | cons x rest ih =>
    by_cases hx : q x = true
    · rw [updateFirst_cons_pos hx, List.map_cons, List.map_cons, h]
    · rw [updateFirst_cons_neg hx, List.map_cons, List.map_cons, ih]

/-! ## Views -/

variable {xs ys : List α}

section

variable {p : α → Bool} (himp : ∀ x, q x = true → p x = true) include himp

theorem filter_view (xs : List α) : (xs.filter p).filter q = xs.filter q := by
  rw [List.filter_filter]
  refine List.filter_congr fun x _ => ?_
  cases hq : q x with
  | false => rfl
  | true => rw [himp x hq]; rfl

theorem filter_eq_of_view (h : xs.filter p = ys.filter p) : xs.filter q = ys.filter q := by
  rw [← filter_view himp xs, h, filter_view himp]

theorem find?_eq_of_view (h : xs.filter p = ys.filter p) : xs.find? q = ys.find? q := by
  rw [← List.head?_filter, ← List.head?_filter, filter_eq_of_view himp h]

theorem any_eq_of_view (h : xs.filter p = ys.filter p) : xs.any q = ys.any q := by
  rw [Bool.eq_iff_iff, List.any_eq_true, List.any_eq_true]
  have hsame := filter_eq_of_view himp h
  constructor
  · intro ⟨x, hx, hq⟩
    exact ⟨x, List.mem_of_mem_filter (hsame ▸ List.mem_filter.mpr ⟨hx, hq⟩), hq⟩
  · intro ⟨x, hx, hq⟩
    exact ⟨x, List.mem_of_mem_filter (hsame ▸ List.mem_filter.mpr ⟨hx, hq⟩), hq⟩

theorem updateFirst_view (hf : ∀ x, q x = true → p (f x) = true) (xs : List α) :
    (updateFirst q f xs).filter p = updateFirst q f (xs.filter p) := by
  induction xs with
  | nil => rfl
  | cons x rest ih =>
    by_cases hx : q x = true
    · rw [updateFirst_cons_pos hx, List.filter_cons_of_pos (hf x hx),
        List.filter_cons_of_pos (himp x hx), updateFirst_cons_pos hx]
    · rw [updateFirst_cons_neg hx]
      by_cases hp : p x = true
      · rw [List.filter_cons_of_pos hp, List.filter_cons_of_pos hp, updateFirst_cons_neg hx, ih]
      · rw [List.filter_cons_of_neg hp, List.filter_cons_of_neg hp, ih]

end

end RagForge.Store
