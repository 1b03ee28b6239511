import RagForge.Py.DateTime
import RagForge.Py.Value

/-
The feedback that the metrics count (`metrics_query.py`).

A feedback document stores when it was made as a text of `utc_now_iso`, and a window is a comparison
of texts.
-/

namespace RagForge.Rag.Metrics

open Py (DateTime)

inductive Window
  | hour
  | day
  | week
  | month

/-- `WINDOW_SECONDS`. -/
def Window.seconds : Window → Nat
  | .hour => 3600
  | .day => 86400
  | .week => 604800
  | .month => 2592000

def utcNowIso (now : DateTime) : String := String.ofList now.isoformat

/-- What the metrics read of a feedback document. -/
structure Feedback where
  tenantId : String
  feedbackType : String
  createdAt : String
  rating : Option String
  deriving DecidableEq

structure FeedbackCounts where
  thumbsUp : Nat
  thumbsDown : Nat
  thumbsUpRate : Option Rat

def ratio (numerator denominator : Nat) : Option Rat :=
  if denominator = 0 then none else some (numerator / denominator)

/-- `{"$gte": bound}`, which compares texts character by character. -/
def gte (bound text : String) : Bool := (compare bound.toList text.toList).isLE

/-- `_feedback_match`, given the cutoff. -/
def feedbackMatch (tenantId : String) (cutoff : DateTime) (d : Feedback) : Bool :=
  d.tenantId == tenantId && d.feedbackType == "answer_feedback" &&
    gte (utcNowIso cutoff) d.createdAt

def countRatings (matched : List Feedback) : FeedbackCounts :=
  let positive := matched.countP fun d => d.rating = some "positive"
  let negative := matched.countP fun d => d.rating = some "negative"
  ⟨positive, negative, ratio positive (positive + negative)⟩

def feedbackCounts (tenantId : String) (cutoff : DateTime) (documents : List Feedback) :
    FeedbackCounts :=
  countRatings (documents.filter (feedbackMatch tenantId cutoff))

/-- The answer feedback of a tenant that was made in the window. -/
def inWindow (tenantId : String) (window : Window) (now : DateTime) (made : Feedback → DateTime)
    (d : Feedback) : Bool :=
  d.tenantId == tenantId && d.feedbackType == "answer_feedback" &&
    now.micros ≤ (made d).micros + window.seconds * 1000000

theorem gte_utcNowIso (a b : DateTime) :
    gte (utcNowIso a) (utcNowIso b) = true ↔ a.micros ≤ b.micros := by
  rw [gte, utcNowIso, utcNowIso, String.toList_ofList, String.toList_ofList, Py.compare_isoformat]
  exact Nat.isLE_compare

/-- The order of the texts is the order of time, so what is counted for a window is what was made
at or after its cutoff. -/
theorem feedbackCounts_window (tenantId : String) (window : Window) (now cutoff : DateTime)
    (documents : List Feedback) (made : Feedback → DateTime)
    (hcutoff : cutoff.micros + window.seconds * 1000000 = now.micros)
    (hstamped : ∀ d ∈ documents, d.createdAt = utcNowIso (made d)) :
    (∀ a b, gte (utcNowIso a) (utcNowIso b) = true ↔ a.micros ≤ b.micros) ∧
      documents.filter (feedbackMatch tenantId cutoff) =
        documents.filter (inWindow tenantId window now made) ∧
      feedbackCounts tenantId cutoff documents =
        countRatings (documents.filter (inWindow tenantId window now made)) := by
  have hfilter : documents.filter (feedbackMatch tenantId cutoff) =
      documents.filter (inWindow tenantId window now made) := by
    refine List.filter_congr fun d hd => ?_
    have htime : gte (utcNowIso cutoff) d.createdAt =
        decide (now.micros ≤ (made d).micros + window.seconds * 1000000) := by
      rw [hstamped d hd, Bool.eq_iff_iff, gte_utcNowIso, decide_eq_true_iff]
      omega
    rw [feedbackMatch, inWindow, htime]
  exact ⟨gte_utcNowIso, hfilter, congrArg countRatings hfilter⟩

/-- The last day of February 2024, at midnight. -/
def leapDay : DateTime := ⟨2024, 2, 29, 0, 0, 0, 0, by decide⟩

def sampleFeedback : Feedback := ⟨"acme", "answer_feedback", utcNowIso leapDay, some "positive"⟩

theorem feedbackCounts_window_leapDay :
    feedbackCounts "acme" leapDay [sampleFeedback] = countRatings [sampleFeedback] := by
  have hcounted := (feedbackCounts_window "acme" .day ⟨2024, 3, 1, 0, 0, 0, 0, by decide⟩ leapDay
    [sampleFeedback] (fun _ => leapDay) (by decide +kernel) (by simp [sampleFeedback])).2.2
  exact hcounted.trans (congrArg countRatings (by decide +kernel))

end RagForge.Rag.Metrics
