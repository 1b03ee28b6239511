import Mathlib.Data.List.Basic

/-
A message broker with partitions.

A partition is a list of records that grows at its end, and the position of its consumers.  A poll
hands out the record at the position and moves past it, so the records of one partition are handed
out in the order of their publication and those of different partitions in any order.  Consumers
that lose their position start again from an older one, which is `rewind`.
-/

namespace RagForge.Messaging

/-- The partitions `π`, with records `ρ`. -/
structure Broker (π ρ : Type) where
  log : π → List ρ
  position : π → Nat
  position_le : ∀ p, position p ≤ (log p).length

namespace Broker

variable {π ρ : Type} {b : Broker π ρ} {p q : π} {r x : ρ}

def empty : Broker π ρ := ⟨fun _ => [], fun _ => 0, fun _ => Nat.le_refl 0⟩

def outstanding (b : Broker π ρ) (p : π) : List ρ := (b.log p).drop (b.position p)

def next (b : Broker π ρ) (p : π) : Option ρ := (b.log p)[b.position p]?

def Drained (b : Broker π ρ) : Prop := ∀ p, b.outstanding p = []

theorem outstanding_of_next (h : b.next p = some r) :
    b.outstanding p = r :: (b.log p).drop (b.position p + 1) := by
  obtain ⟨hlt, hr⟩ := List.getElem?_eq_some_iff.mp h
  unfold outstanding
  rw [List.drop_eq_getElem_cons hlt, hr]

theorem mem_log_of_next (h : b.next p = some r) : r ∈ b.log p := List.mem_of_getElem? h

variable [DecidableEq π]

section

variable (b) (p) (offset : Nat)

def publish (r : ρ) : Broker π ρ where
  log q := if q = p then b.log q ++ [r] else b.log q
  position := b.position
  position_le := by
    intro q
    split
    · rw [List.length_append]
      exact Nat.le_add_right_of_le (b.position_le q)
    · exact b.position_le q

def seek (h : offset ≤ (b.log p).length) : Broker π ρ where
  log := b.log
  position q := if q = p then offset else b.position q
  position_le := by
    intro q
    split
    · next hqp =>
      rw [hqp]
      exact h
    · exact b.position_le q

def poll : Option ρ × Broker π ρ :=
  if h : b.position p < (b.log p).length then
    (some ((b.log p)[b.position p]), b.seek p (b.position p + 1) h)
  else (none, b)

def rewind : Broker π ρ :=
  b.seek p (min offset (b.position p)) (Nat.le_trans (Nat.min_le_right ..) (b.position_le p))

end

/-! ## Publishing -/

theorem mem_log_publish : x ∈ (b.publish p r).log q ↔ x ∈ b.log q ∨ q = p ∧ x = r := by
  unfold publish
  by_cases hqp : q = p
  · subst hqp
    simp
  · simp [hqp]

theorem outstanding_publish_self : (b.publish p r).outstanding p = b.outstanding p ++ [r] := by
  unfold outstanding publish
  simp only [if_true]
  exact List.drop_append_of_le_length (b.position_le p)

theorem outstanding_publish_ne (hqp : q ≠ p) : (b.publish p r).outstanding q = b.outstanding q := by
  unfold outstanding publish
  simp only [if_neg hqp]

theorem mem_outstanding_publish :
    x ∈ (b.publish p r).outstanding q ↔ x ∈ b.outstanding q ∨ q = p ∧ x = r := by
  by_cases hqp : q = p
  · subst hqp
    rw [outstanding_publish_self]
    simp
  · rw [outstanding_publish_ne hqp]
    simp [hqp]

/-! ## Polling -/

theorem poll_fst : (b.poll p).1 = b.next p := by
  unfold poll next
  split
  · next h => exact (List.getElem?_eq_getElem h).symm
  · next h => exact (List.getElem?_eq_none (Nat.not_lt.mp h)).symm

theorem poll_log : (b.poll p).2.log = b.log := by
  unfold poll
  split <;> rfl

theorem outstanding_poll_ne (hqp : q ≠ p) : (b.poll p).2.outstanding q = b.outstanding q := by
  unfold poll
  split
  · unfold outstanding seek
    simp only [if_neg hqp]
  · rfl

theorem outstanding_poll (h : b.next p = some r) :
    b.outstanding p = r :: (b.poll p).2.outstanding p := by
  have hlt : b.position p < (b.log p).length := (List.getElem?_eq_some_iff.mp h).1
  rw [outstanding_of_next h]
  unfold poll
  rw [dif_pos hlt]
  unfold outstanding seek
  simp only [if_true]

theorem mem_of_mem_outstanding_poll (hx : x ∈ (b.poll p).2.outstanding q) :
    x ∈ b.outstanding q := by
  by_cases hqp : q = p
  · subst hqp
    cases hnext : b.next q with
    | none =>
      have hge : ¬ b.position q < (b.log q).length :=
        Nat.not_lt.mpr (List.getElem?_eq_none_iff.mp hnext)
      unfold poll at hx
      rw [dif_neg hge] at hx
      exact hx
    | some r =>
      rw [outstanding_poll hnext]
      exact List.mem_cons_of_mem r hx
  · rwa [outstanding_poll_ne hqp] at hx

theorem mem_outstanding_poll (hx : x ∈ b.outstanding q) :
    x ∈ (b.poll p).2.outstanding q ∨ b.next p = some x := by
  by_cases hqp : q = p
  · subst hqp
    cases hnext : b.next q with
    | none =>
      have hnil : b.outstanding q = [] :=
        List.drop_eq_nil_of_le (List.getElem?_eq_none_iff.mp hnext)
      rw [hnil] at hx
      exact absurd hx List.not_mem_nil
    | some r =>
      rw [outstanding_poll hnext] at hx
      rcases List.mem_cons.mp hx with rfl | hx
      · exact .inr rfl
      · exact .inl hx
  · rw [outstanding_poll_ne hqp]
    exact .inl hx

end Broker

end RagForge.Messaging
