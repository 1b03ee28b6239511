import Mathlib.Data.List.Basic

/-
Texts of pairs.

The pairs are written one after the other, with one sign inside a pair and another between two.  The
text determines them when the first sign is in no first part and the second in no second part.
-/

namespace RagForge.Sequence

variable {α : Type} [DecidableEq α] {a b : α} {l l' : List (List α × List α)}

theorem append_cons_inj {xs xs' ys ys' : List α} (hxs : a ∉ xs) (hxs' : a ∉ xs')
    (h : xs ++ a :: ys = xs' ++ a :: ys') : xs = xs' ∧ ys = ys' := by
  have hlength := congrArg (List.idxOf a) h
  rw [List.idxOf_append_of_notMem hxs, List.idxOf_append_of_notMem hxs', List.idxOf_cons_self,
    List.idxOf_cons_self] at hlength
  obtain ⟨hfirst, hrest⟩ := List.append_inj h hlength
  exact ⟨hfirst, (List.cons.inj hrest).2⟩

theorem append_cons_inj_right {xs xs' ys ys' : List α} (hys : a ∉ ys) (hys' : a ∉ ys')
    (h : xs ++ a :: ys = xs' ++ a :: ys') : xs = xs' ∧ ys = ys' := by
  have hreverse := congrArg List.reverse h
  simp only [List.reverse_append, List.reverse_cons, List.append_assoc, List.cons_append,
    List.nil_append] at hreverse
  obtain ⟨hlast, hfirst⟩ :=
    append_cons_inj (by rwa [List.mem_reverse]) (by rwa [List.mem_reverse]) hreverse
  exact ⟨List.reverse_injective hfirst, List.reverse_injective hlast⟩

end RagForge.Sequence
