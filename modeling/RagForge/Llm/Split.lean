import RagForge.Py.Text

/-
Splitting a text into overlapping pieces (`split_text` of `text_window.py`).

The end of a piece moves back to a natural boundary, but never past the middle of the piece, and the
overlap is at most half a piece.  The two bounds together make every step go forward.
-/

namespace RagForge.Llm

open Py

/-- `text.rfind(part, floor, stop)`; `none` is -1. -/
def rfind (text part : List Char) (floor stop : Nat) : Option Nat :=
  ((List.range stop).filter fun i =>
    floor ≤ i ∧ i + part.length ≤ stop ∧ part <+: text.drop i).getLast?

def boundaryBefore (text : List Char) (start stop : Nat) : Nat :=
  let floor := start + (stop - start) / 2
  (["\n\n", ". ", "\n", " "].findSome? fun separator =>
    (rfind text separator.toList floor stop).bind fun found =>
      if floor < found then some (found + separator.length) else none).getD stop

/-- The loop of `split_text`: where its pieces start and end.  Each starts after the one before, so
as many rounds as the text has characters are enough. -/
def splitSpans (text : List Char) (maxChars overlap : Nat) : Nat → Nat → List (Nat × Nat)
  | 0, _ => []
  | fuel + 1, start =>
    if start < text.length then
      let stop := min (start + maxChars) text.length
      let stop := if stop < text.length then boundaryBefore text start stop else stop
      if text.length ≤ stop then [(start, stop)]
      else
        (start, stop) ::
          splitSpans text maxChars overlap fuel (max (stop - overlap) (start + 1))
    else []

def clampedOverlap (maxChars overlapChars : Int) : Int := max 0 (min overlapChars (maxChars / 2))

def splitText (text : String) (maxChars overlapChars : Int) : Except String (List String) :=
  if maxChars ≤ 0 then .error "max_chars must be positive"
  else if text = "" then .ok []
  else if text.length ≤ maxChars then .ok [text]
  else
    .ok ((splitSpans text.toList maxChars.toNat (clampedOverlap maxChars overlapChars).toNat
      text.length 0).map fun span => slice text span.1 span.2)

/-- Pieces of a text of this length: none is empty or too long, they start at `start` and reach the
end, and each but the last is longer than half the limit and ends the overlap after the start of the
next. -/
structure Splits (length maxChars overlap start : Nat) (spans : List (Nat × Nat)) : Prop where
  bounds : ∀ span ∈ spans, span.1 < span.2 ∧ span.2 ≤ length ∧ span.2 ≤ span.1 + maxChars
  first : spans.head?.map Prod.fst = some start
  last : spans.getLast?.map Prod.snd = some length
  steps : spans.IsChain fun a b =>
    a.1 < b.1 ∧ b.1 + overlap = a.2 ∧ maxChars < 2 * (a.2 - a.1)

section

variable {text part : List Char} {start stop floor found maxChars overlap length : Nat}

theorem rfind_bounds (h : rfind text part floor stop = some found) :
    found + part.length ≤ stop := by
  have hmem := (List.mem_filter.mp (List.mem_of_getLast? h)).2
  exact (of_decide_eq_true hmem).2.1

/-- The boundary is behind the middle. -/
theorem boundaryBefore_bounds (text : List Char) (h : start < stop) :
    start + (stop - start) / 2 < boundaryBefore text start stop ∧
      boundaryBefore text start stop ≤ stop := by
  unfold boundaryBefore
  dsimp only
  cases hfirst : List.findSome? _ _ with
  | none =>
    rw [Option.getD_none]
    omega
  | some boundary =>
    obtain ⟨separator, -, hseparator⟩ := List.exists_of_findSome?_eq_some hfirst
    obtain ⟨found, hfound, hboundary⟩ := Option.bind_eq_some_iff.mp hseparator
    obtain ⟨hfloor, hboundary⟩ := Option.ite_none_right_eq_some.mp hboundary
    have hstop := rfind_bounds hfound
    rw [String.length_toList] at hstop
    rw [Option.getD_some, ← Option.some.inj hboundary]
    omega

theorem Splits.single (h : start < length) (hmax : length ≤ start + maxChars) :
    Splits length maxChars overlap start [(start, length)] where
  bounds span hspan := by
    rw [List.mem_singleton.mp hspan]
    exact ⟨h, le_rfl, hmax⟩
  first := rfl
  last := rfl
  steps := .singleton _

theorem Splits.cons {next : Nat} {spans : List (Nat × Nat)} (hstop : stop ≤ length)
    (hmax : stop ≤ start + maxChars) (hnext : next + overlap = stop) (hforward : start < next)
    (hlong : maxChars < 2 * (stop - start)) (h : Splits length maxChars overlap next spans) :
    Splits length maxChars overlap start ((start, stop) :: spans) := by
  obtain ⟨hbounds, hfirst, hlast, hsteps⟩ := h
  cases spans with
  | nil => exact nomatch hfirst
  | cons span rest =>
    have hspan : span.1 = next := Option.some.inj hfirst
    refine ⟨fun x hx => ?_, rfl, ?_, .cons_cons ⟨?_, ?_, hlong⟩ hsteps⟩
    · rcases List.mem_cons.mp hx with rfl | hx
      · exact ⟨by dsimp only; omega, hstop, hmax⟩
      · exact hbounds x hx
    · rw [List.getLast?_cons_cons]
      exact hlast
    · exact hspan ▸ hforward
    · exact hspan ▸ hnext

theorem splits_splitSpans (hmax : 0 < maxChars) (hoverlap : overlap ≤ maxChars / 2) (fuel : Nat)
    (hfuel : text.length - start ≤ fuel) (hstart : start < text.length) :
    Splits text.length maxChars overlap start (splitSpans text maxChars overlap fuel start) := by
  induction fuel generalizing start with
  | zero => omega
  | succ fuel ih =>
    unfold splitSpans
    rw [if_pos hstart]
    dsimp only
    by_cases hend : start + maxChars < text.length
    · -- The overlap is at most half a piece and the boundary is behind its middle.
      have hboundary := boundaryBefore_bounds text (Nat.lt_add_of_pos_right (n := start) hmax)
      rw [Nat.min_eq_left hend.le, if_pos hend, if_neg (by omega)]
      refine .cons (by omega) hboundary.2 ?_ ?_ (by omega) (ih ?_ ?_) <;> omega
    · rw [Nat.min_eq_right (by omega), if_neg (lt_irrefl _), if_pos le_rfl]
      exact .single hstart (by omega)

end

/-- `split_text` returns for every positive limit, and its pieces are as asked. -/
theorem splitText_splits (text : String) (maxChars overlapChars : Int) (hmax : 0 < maxChars) :
    ∃ spans : List (Nat × Nat),
      splitText text maxChars overlapChars =
        .ok (spans.map fun span => slice text span.1 span.2) ∧
      if text = "" then spans = []
      else Splits text.length maxChars.toNat (clampedOverlap maxChars overlapChars).toNat 0
        spans := by
  unfold splitText
  rw [if_neg (by omega)]
  by_cases htext : text = ""
  · exact ⟨[], by simp [htext]⟩
  have hpos : 0 < text.length := by
    rw [← String.length_toList]
    exact List.length_pos_of_ne_nil fun hnil => htext (String.toList_eq_nil_iff.mp hnil)
  simp only [if_neg htext]
  by_cases hshort : text.length ≤ maxChars
  · refine ⟨[(0, text.length)], ?_, .single hpos (by omega)⟩
    rw [if_pos hshort]
    simp [slice, ← String.length_toList]
  · refine ⟨_, if_neg hshort, ?_⟩
    rw [← String.length_toList] at hpos ⊢
    refine splits_splitSpans (by omega) ?_ _ (by rw [String.length_toList]; omega) hpos
    unfold clampedOverlap
    omega

theorem splitText_splits_words :
    splitText "some words here" 6 2 = .ok ["some ", "e word", "rds he", "here"] ∧
      ∃ spans : List (Nat × Nat),
        splitText "some words here" 6 2 =
          .ok (spans.map fun span => slice "some words here" span.1 span.2) ∧
        if "some words here" = "" then spans = []
        else Splits "some words here".length 6 2 0 spans :=
  ⟨by decide +kernel, splitText_splits "some words here" 6 2 (by decide)⟩

end RagForge.Llm
