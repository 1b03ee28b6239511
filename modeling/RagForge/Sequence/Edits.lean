import Mathlib.Data.List.Basic

/-
Edits of a sequence.

An edit replaces the stretch from `start` up to `stop` by other elements.  `Edit.splice` makes one
edit on the whole sequence.  `edited` says what a set of edits makes of a sequence position by
position, without an order on the edits.  When the stretches are disjoint, splicing them in from the
last to the first gives the edited sequence (`foldr_splice`).
-/

namespace RagForge.Sequence

variable {α : Type}

structure Edit (α : Type) where
  start : Nat
  stop : Nat
  insert : List α

variable {n i : Nat} {e : Edit α} {es : List (Edit α)} {xs : List α}

def Edit.covers (e : Edit α) (i : Nat) : Bool := decide (e.start ≤ i) && decide (i < e.stop)

def Edit.splice (e : Edit α) (xs : List α) : List α :=
  xs.take e.start ++ e.insert ++ xs.drop e.stop

/-- What becomes of the element at a position: the new elements of the edits that start there, and
the old element unless an edit covers it. -/
def editedAt (es : List (Edit α)) (i : Nat) (x : α) : List α :=
  (es.filter fun e => e.start = i).flatMap Edit.insert ++
    if es.any fun e => e.covers i then [] else [x]

def edited (es : List (Edit α)) (xs : List α) : List α :=
  xs.zipIdx.flatMap fun p => editedAt es p.2 p.1

/-- Stretches that are not empty, lie within `n` positions and stand in order. -/
structure Ordered (n : Nat) (es : List (Edit α)) : Prop where
  apart : es.Pairwise fun d e => d.stop ≤ e.start
  within : ∀ e ∈ es, e.start < e.stop ∧ e.stop ≤ n

theorem Ordered.tail (h : Ordered n (e :: es)) : Ordered n es :=
  ⟨h.apart.of_cons, fun d hd => h.within d (List.mem_cons_of_mem e hd)⟩

theorem Ordered.le_start (h : Ordered n (e :: es)) : ∀ d ∈ es, e.stop ≤ d.start :=
  fun _ hd => List.rel_of_pairwise_cons h.apart hd

/-! ## One position -/

theorem editedAt_before (h : ∀ e ∈ es, i < e.start) (x : α) : editedAt es i x = [x] := by
  have hnone : es.filter (fun e => e.start = i) = [] := by
    refine List.filter_eq_nil_iff.mpr fun e he => ?_
    have hlt := h e he
    simp only [decide_eq_true_eq]
    omega
  have hfree : ¬ es.any (fun e => e.covers i) = true := by
    intro hany
    obtain ⟨e, he, hcovers⟩ := List.any_eq_true.mp hany
    have hlt := h e he
    simp only [Edit.covers, Bool.and_eq_true, decide_eq_true_eq] at hcovers
    omega
  rw [editedAt, hnone, if_neg hfree]
  rfl

theorem editedAt_after (hne : e.start < e.stop) (h : e.stop ≤ i) (es : List (Edit α)) (x : α) :
    editedAt (e :: es) i x = editedAt es i x := by
  have hstart : ¬ e.start = i := by omega
  have hcovers : e.covers i = false := by
    simp only [Edit.covers, Bool.and_eq_false_iff, decide_eq_false_iff_not]
    omega
  rw [editedAt, editedAt, List.filter_cons_of_neg (by simpa using hstart), List.any_cons, hcovers,
    Bool.false_or]

theorem editedAt_inside (hcovers : e.covers i = true) (h : ∀ d ∈ es, i < d.start) (x : α) :
    editedAt (e :: es) i x = if i = e.start then e.insert else [] := by
  have hrest : es.filter (fun d => d.start = i) = [] := by
    refine List.filter_eq_nil_iff.mpr fun d hd => ?_
    have hlt := h d hd
    simp only [decide_eq_true_eq]
    omega
  rw [editedAt, List.any_cons, hcovers, Bool.true_or, if_pos rfl, List.append_nil,
    List.filter_cons, hrest]
  by_cases hi : e.start = i
  · simp [hi]
  · simp [hi, Ne.symm hi]

/-! ## One stretch -/

theorem flatMap_before (es : List (Edit α)) (xs : List α) (k : Nat)
    (h : ∀ e ∈ es, k + xs.length ≤ e.start) :
    (xs.zipIdx k).flatMap (fun p => editedAt es p.2 p.1) = xs := by
  induction xs generalizing k with
  | nil => rfl
  | cons x xs ih =>
    have hx : editedAt es k x = [x] := by
      refine editedAt_before (fun e he => ?_) x
      have := h e he
      rw [List.length_cons] at this
      omega
    rw [List.zipIdx_cons, List.flatMap_cons, hx, ih (k + 1)]
    · rfl
    · intro e he
      have := h e he
      rw [List.length_cons] at this
      omega

theorem flatMap_covered (insert : List α) (xs : List α) (k start : Nat) :
    (xs.zipIdx k).flatMap (fun p => if p.2 = start then insert else []) =
      if k ≤ start ∧ start < k + xs.length then insert else [] := by
  induction xs generalizing k with
  | nil =>
    rw [if_neg (by rw [List.length_nil]; omega)]
    rfl
  | cons x xs ih =>
    rw [List.zipIdx_cons, List.flatMap_cons, ih (k + 1), List.length_cons]
    by_cases hk : k = start
    · rw [if_pos hk, if_neg (by omega), if_pos (by omega), List.append_nil]
    · rw [if_neg hk, List.nil_append]
      by_cases hin : k + 1 ≤ start ∧ start < k + 1 + xs.length
      · rw [if_pos hin, if_pos (by omega)]
      · rw [if_neg hin, if_neg (by omega)]

theorem flatMap_inside (h : Ordered n (e :: es)) (xs : List α)
    (hlen : xs.length = e.stop - e.start) :
    (xs.zipIdx e.start).flatMap (fun p => editedAt (e :: es) p.2 p.1) = e.insert := by
  have hspan := (h.within e List.mem_cons_self).1
  have hcongr : (xs.zipIdx e.start).flatMap (fun p => editedAt (e :: es) p.2 p.1) =
      (xs.zipIdx e.start).flatMap fun p => if p.2 = e.start then e.insert else [] := by
    refine List.flatMap_congr fun p hp => ?_
    have hlow := List.le_snd_of_mem_zipIdx hp
    have hhigh := List.snd_lt_add_of_mem_zipIdx hp
    refine editedAt_inside ?_ (fun d hd => ?_) p.1
    · simp only [Edit.covers, Bool.and_eq_true, decide_eq_true_eq]
      omega
    · have := h.le_start d hd
      omega
  rw [hcongr, flatMap_covered, if_pos (by omega)]

theorem flatMap_after (hne : e.start < e.stop) (es : List (Edit α)) (xs : List α) :
    (xs.zipIdx e.stop).flatMap (fun p => editedAt (e :: es) p.2 p.1) =
      (xs.zipIdx e.stop).flatMap fun p => editedAt es p.2 p.1 :=
  List.flatMap_congr fun _ hp => editedAt_after hne (List.le_snd_of_mem_zipIdx hp) es _

/-! ## The whole sequence -/

theorem splice_take (hne : e.start < e.stop) (hlen : e.stop ≤ xs.length) (tail : List α) :
    e.splice (xs.take e.stop ++ tail) = xs.take e.start ++ e.insert ++ tail := by
  have hcut : (xs.take e.stop).length = e.stop := by
    rw [List.length_take]
    omega
  have hfirst : (xs.take e.stop ++ tail).take e.start = xs.take e.start := by
    rw [List.take_append_of_le_length (by omega), List.take_take]
    congr 1
    omega
  have hrest : (xs.take e.stop ++ tail).drop e.stop = tail := by
    rw [List.drop_append_of_le_length (by omega), List.drop_of_length_le (by omega),
      List.nil_append]
  rw [Edit.splice, hfirst, hrest]

/-- The edits leave the first `k` elements as they are and decide position by position about the
others. -/
theorem foldr_splice_from (h : Ordered xs.length es) {k : Nat} (hk : ∀ e ∈ es, k ≤ e.start) :
    es.foldr Edit.splice xs =
      xs.take k ++ ((xs.drop k).zipIdx k).flatMap fun p => editedAt es p.2 p.1 := by
  induction es generalizing k with
  | nil =>
    rw [flatMap_before [] _ k (fun _ he => nomatch he), List.take_append_drop]
    rfl
  | cons e es ih =>
    obtain ⟨hspan, hbound⟩ := h.within e List.mem_cons_self
    have hke := hk e List.mem_cons_self
    have hsplit : xs.drop k = (xs.drop k).take (e.start - k) ++
        ((xs.drop e.start).take (e.stop - e.start) ++ xs.drop e.stop) := by
      have htail : (xs.drop e.start).take (e.stop - e.start) ++ xs.drop e.stop =
          (xs.drop k).drop (e.start - k) := by
        rw [List.drop_drop, show k + (e.start - k) = e.start by omega]
        have := List.take_append_drop (e.stop - e.start) (xs.drop e.start)
        rwa [List.drop_drop, show e.start + (e.stop - e.start) = e.stop by omega] at this
      rw [htail, List.take_append_drop]
    have hfirst : ((xs.drop k).take (e.start - k)).length = e.start - k := by
      rw [List.length_take, List.length_drop]
      omega
    have hsecond : ((xs.drop e.start).take (e.stop - e.start)).length = e.stop - e.start := by
      rw [List.length_take, List.length_drop]
      omega
    have hbefore := flatMap_before (e :: es) ((xs.drop k).take (e.start - k)) k (by
      intro d hd
      rcases List.mem_cons.mp hd with rfl | hd
      · omega
      · have := h.le_start d hd
        omega)
    have hinside := flatMap_inside h _ hsecond
    have hstep := ih h.tail h.le_start
    have hkept : xs.take e.start = xs.take k ++ (xs.drop k).take (e.start - k) := by
      rw [← List.take_add, show k + (e.start - k) = e.start by omega]
    rw [List.foldr_cons, hstep, splice_take hspan hbound, ← flatMap_after hspan]
    conv_rhs => rw [hsplit]
    rw [List.zipIdx_append, List.zipIdx_append, List.flatMap_append, List.flatMap_append, hfirst,
      hsecond, show k + (e.start - k) = e.start by omega,
      show e.start + (e.stop - e.start) = e.stop by omega, hbefore, hinside, hkept]
    simp only [List.append_assoc]

/-- Splicing ordered edits in from the last to the first edits the sequence. -/
theorem foldr_splice (h : Ordered xs.length es) : es.foldr Edit.splice xs = edited es xs := by
  rw [foldr_splice_from h (fun _ _ => Nat.zero_le _)]
  rfl

/-! ## The order of the edits -/

theorem Ordered.eq_of_start (h : Ordered n es) {d : Edit α} (hd : d ∈ es) (he : e ∈ es)
    (hstart : d.start = e.start) : d = e := by
  induction es with
  | nil => exact absurd hd List.not_mem_nil
  | cons c es ih =>
    have hc := (h.within c List.mem_cons_self).1
    rcases List.mem_cons.mp hd with rfl | hd'
    · rcases List.mem_cons.mp he with rfl | he'
      · rfl
      · have := h.le_start e he'
        omega
    · rcases List.mem_cons.mp he with rfl | he'
      · have := h.le_start d hd'
        omega
      · exact ih h.tail hd' he'

/-- What ordered edits do does not depend on the order they are given in. -/
theorem edited_perm {ds : List (Edit α)} (h : Ordered n es) (hperm : ds.Perm es) (xs : List α) :
    edited ds xs = edited es xs := by
  refine List.flatMap_congr fun p _ => ?_
  -- At most one edit starts at a position, so the order of those that do is no matter.
  have hstart : ds.filter (fun e => e.start = p.2) = es.filter fun e => e.start = p.2 := by
    have htrue : ∀ l : List (Edit α), l.Pairwise fun _ _ => True :=
      fun l => List.pairwise_of_forall fun _ _ => trivial
    refine (hperm.filter fun e => e.start = p.2).eq_of_pairwise (fun d e hd he _ _ => ?_)
      (htrue _) (htrue _)
    obtain ⟨hd, hdi⟩ := List.mem_filter.mp hd
    obtain ⟨he, hei⟩ := List.mem_filter.mp he
    refine h.eq_of_start (hperm.mem_iff.mp hd) he ?_
    exact (of_decide_eq_true hdi).trans (of_decide_eq_true hei).symm
  rw [editedAt, editedAt, hstart, hperm.any_eq]

end RagForge.Sequence
