import Mathlib.Data.Finset.Card

/-
Feedback of one owner with one signal (`handle_feedback`).

A handler stores the rating, counts the turns with the signal in the two collections one after the
other, and asks for a memory to be written when it counts exactly the threshold.  Every store
operation is a step, so other handlers may run in between.
-/

namespace RagForge.Rag.Feedback

inductive FeedbackType
  | answerFeedback
  | flowFeedback
  deriving DecidableEq

/-- Where the handler of an event is.  One that has not begun has nothing to do either. -/
inductive Phase
  | stored
  | counted (turns : Finset String)
  | reached
  | ended

structure State where
  /-- The turns that each collection has a rating of. -/
  turns : FeedbackType → Finset String
  handlers : Nat → Phase
  events : Nat
  requested : Nat

def State.initial : State := ⟨fun _ => ∅, fun _ => .ended, 0, 0⟩

inductive Action
  | rate (type : FeedbackType) (turn : String)
  | go (i : Nat)

def State.rate (s : State) (type : FeedbackType) (turn : String) : State where
  turns := Function.update s.turns type (insert turn (s.turns type))
  handlers := Function.update s.handlers s.events .stored
  events := s.events + 1
  requested := s.requested

def step (threshold : Int) (s : State) : Action → Option State
  | .rate type turn => some (s.rate type turn)
  | .go i =>
    let become (phase : Phase) : State := { s with handlers := Function.update s.handlers i phase }
    match s.handlers i with
    | .stored => some (become (.counted (s.turns .answerFeedback)))
    | .counted turns =>
      let count := (turns ∪ s.turns .flowFeedback).card
      some (become (if count = threshold then .reached else .ended))
    | .reached => some { become .ended with requested := s.requested + 1 }
    | .ended => none

def State.rated (s : State) : Finset String := s.turns .answerFeedback ∪ s.turns .flowFeedback

def State.AtRest (s : State) : Prop := ∀ i, s.handlers i = .ended

/-- A rating may come at any time while the threshold is not reached with it, or is exceeded.  One
that fills the threshold or comes while it is just full is of a turn that had no rating, and no
handler is at its counts then. -/
def Harmless (threshold : Int) (s : State) : Action → Prop
  | .rate _ turn =>
    (s.rated.card : Int) ≤ threshold → threshold ≤ (insert turn s.rated).card →
      turn ∉ s.rated ∧ ∀ i, s.handlers i = .reached ∨ s.handlers i = .ended
  | .go _ => True

inductive HarmlessRun (threshold : Int) : State → Prop
  | initial : HarmlessRun threshold .initial
  | step {s s' : State} {a : Action} (hs : HarmlessRun threshold s) (hok : Harmless threshold s a)
      (h : step threshold s a = some s') : HarmlessRun threshold s'

def due (threshold : Int) (turns : Finset String) : Nat := if threshold ≤ turns.card then 1 else 0

/-- The write is requested once, by the handler of the rating that fills the threshold. -/
def Once (threshold : Int) (s : State) : Prop :=
  s.requested ≤ due threshold s.rated ∧ (s.AtRest → s.requested = due threshold s.rated)

/-- What a handler will request if no rating comes in between. -/
def State.owes (threshold : Int) (s : State) : Phase → Nat
  | .stored => if s.rated.card = threshold then 1 else 0
  | .counted turns => if (turns ∪ s.turns .flowFeedback).card = threshold then 1 else 0
  | .reached => 1
  | .ended => 0

/-- At most one handler owes a request, and with it the requests are complete. -/
structure Settling (threshold : Int) (s : State) (i : Nat) : Prop where
  fresh : ∀ j, s.events ≤ j → s.handlers j = .ended
  counted : ∀ j turns, s.handlers j = .counted turns → turns ⊆ s.turns .answerFeedback ∧
    (threshold < s.rated.card → threshold < (turns ∪ s.turns .flowFeedback).card)
  rest : ∀ j, j ≠ i → s.owes threshold (s.handlers j) = 0
  total : s.requested + s.owes threshold (s.handlers i) = due threshold s.rated

variable {threshold : Int} {s s' : State} {i : Nat}

section

variable {type : FeedbackType} {turn : String}

theorem turns_subset_rate (type' : FeedbackType) :
    s.turns type' ⊆ (s.rate type turn).turns type' := by
  by_cases h : type' = type
  · subst h
    simp [State.rate]
  · simp [State.rate, h]

theorem card_flow_rate (s : State) (type : FeedbackType) (turn : String)
    (turns : Finset String) : (turns ∪ s.turns .flowFeedback).card ≤
      (turns ∪ (s.rate type turn).turns .flowFeedback).card :=
  Finset.card_le_card (Finset.union_subset_union_right (turns_subset_rate _))

theorem rated_rate : (s.rate type turn).rated = insert turn s.rated := by
  cases type with
  | answerFeedback | flowFeedback => simp [State.rated, State.rate]

theorem handlers_rate_of_ne {j : Nat} (h : j ≠ s.events) :
    (s.rate type turn).handlers j = s.handlers j :=
  Function.update_of_ne h _ _

/-- A rating that is harmless changes nothing for the handlers before it. -/
theorem Settling.owes_rate (h : Settling threshold s i)
    (hok : Harmless threshold s (.rate type turn)) (j : Nat) :
    (s.rate type turn).owes threshold (s.handlers j) = s.owes threshold (s.handlers j) := by
  have hcards : s.rated.card ≤ (insert turn s.rated).card :=
    Finset.card_le_card (Finset.subset_insert _ _)
  by_cases hcritical : (s.rated.card : Int) ≤ threshold ∧ threshold ≤ (insert turn s.rated).card
  · rcases (hok hcritical.1 hcritical.2).2 j with hj | hj <;> rw [hj] <;> rfl
  cases hj : s.handlers j with
  | reached | ended => rfl
  | stored =>
    simp only [State.owes, rated_rate]
    rw [if_neg (by omega), if_neg (by omega)]
  | counted turns =>
    obtain ⟨hsub, hfull⟩ := h.counted j turns hj
    have hflow := card_flow_rate s type turn turns
    have hrated : (turns ∪ (s.rate type turn).turns .flowFeedback).card ≤
        (s.rate type turn).rated.card :=
      Finset.card_le_card (Finset.union_subset_union_left (hsub.trans (turns_subset_rate _)))
    rw [rated_rate] at hrated
    simp only [State.owes]
    rw [if_neg (by omega), if_neg (by omega)]

theorem Settling.counted_rate (h : Settling threshold s i)
    (hok : Harmless threshold s (.rate type turn)) {j : Nat} {turns : Finset String}
    (hj : (s.rate type turn).handlers j = .counted turns) :
    turns ⊆ (s.rate type turn).turns .answerFeedback ∧
      (threshold < (s.rate type turn).rated.card →
        threshold < (turns ∪ (s.rate type turn).turns .flowFeedback).card) := by
  have hne : j ≠ s.events := by
    rintro rfl
    simp [State.rate] at hj
  rw [handlers_rate_of_ne hne] at hj
  obtain ⟨hsub, hfull⟩ := h.counted j turns hj
  refine ⟨hsub.trans (turns_subset_rate _), fun hlt => ?_⟩
  have hflow := card_flow_rate s type turn turns
  by_cases hfirst : (s.rated.card : Int) ≤ threshold
  · rw [rated_rate] at hlt
    -- No handler is at its counts when the threshold is exceeded.
    rcases (hok hfirst (by omega)).2 j with hidle | hidle <;> rw [hidle] at hj <;> cases hj
  · have := hfull (by omega)
    omega

theorem Settling.rate (h : Settling threshold s i)
    (hok : Harmless threshold s (.rate type turn)) :
    ∃ i', Settling threshold (s.rate type turn) i' := by
  have hfresh : ∀ j, s.events + 1 ≤ j → (s.rate type turn).handlers j = .ended := fun j hj =>
    (handlers_rate_of_ne (by omega)).trans (h.fresh j (by omega))
  have howes : ∀ j, j ≠ s.events → (s.rate type turn).owes threshold
      ((s.rate type turn).handlers j) = s.owes threshold (s.handlers j) := fun j hj => by
    rw [handlers_rate_of_ne hj]
    exact h.owes_rate hok j
  have hnew : (s.rate type turn).owes threshold ((s.rate type turn).handlers s.events) =
      if (insert turn s.rated).card = threshold then 1 else 0 := by
    have hstored : (s.rate type turn).handlers s.events = .stored := Function.update_self ..
    rw [hstored, State.owes, rated_rate]
  have hcards : s.rated.card ≤ (insert turn s.rated).card :=
    Finset.card_le_card (Finset.subset_insert _ _)
  have hcard : turn ∉ s.rated → (insert turn s.rated).card = s.rated.card + 1 :=
    Finset.card_insert_of_notMem
  have htotal := h.total
  by_cases hfills : ((insert turn s.rated).card : Int) = threshold
  · have hone := hcard (hok (by omega) (by omega)).1
    rw [due, if_neg (by omega), Nat.add_eq_zero_iff] at htotal
    have hnone : ∀ j, s.owes threshold (s.handlers j) = 0 := fun j => by
      by_cases hj : j = i
      · exact hj ▸ htotal.2
      · exact h.rest j hj
    refine ⟨s.events, hfresh, fun j turns => h.counted_rate hok, fun j hj => ?_, ?_⟩
    · rw [howes j hj, hnone]
    · rw [hnew, if_pos hfills, rated_rate, due, if_pos (by omega)]
      exact congrArg (· + 1) htotal.1
  · rw [if_neg hfills] at hnew
    have hsame : ∀ j, (s.rate type turn).owes threshold ((s.rate type turn).handlers j) =
        s.owes threshold (s.handlers j) := fun j => by
      by_cases hj : j = s.events
      · rw [hj, hnew, h.fresh s.events le_rfl, State.owes]
      · exact howes j hj
    refine ⟨i, hfresh, fun j turns => h.counted_rate hok, fun j hj => ?_, ?_⟩
    · rw [hsame, h.rest j hj]
    · have hdue : due threshold (insert turn s.rated) = due threshold s.rated := by
        by_cases hfirst : (s.rated.card : Int) ≤ threshold ∧
            threshold ≤ (insert turn s.rated).card
        · have hone := hcard (hok hfirst.1 hfirst.2).1
          rw [due, due, if_pos (by omega), if_pos (by omega)]
        · unfold due
          congr 1
          rw [eq_iff_iff]
          omega
      rw [hsame, rated_rate, hdue]
      exact htotal

end

theorem Settling.go (h : Settling threshold s i) {j : Nat}
    (hstep : step threshold s (.go j) = some s') : Settling threshold s' i := by
  have hlive : s.handlers j ≠ .ended := fun hj => by simp [step, hj] at hstep
  have hnext : ∀ (phase : Phase) (requested : Nat),
      (∀ turns, phase = .counted turns → turns = s.turns .answerFeedback) →
      s.owes threshold phase ≤ s.owes threshold (s.handlers j) →
      requested + s.owes threshold phase = s.requested + s.owes threshold (s.handlers j) →
      Settling threshold ⟨s.turns, Function.update s.handlers j phase, s.events, requested⟩ i := by
    intro phase requested hcounted hle hsum
    have hother {k : Nat} (hk : k ≠ j) : Function.update s.handlers j phase k = s.handlers k :=
      Function.update_of_ne hk _ _
    have hself : Function.update s.handlers j phase j = phase := Function.update_self ..
    refine ⟨fun k hk => ?_, fun k turns hk => ?_, fun k hk => ?_, ?_⟩
    · have hkj : k ≠ j := fun hkj => hlive (hkj ▸ h.fresh k hk)
      exact (hother hkj).trans (h.fresh k hk)
    · by_cases hkj : k = j
      · obtain rfl := hcounted turns (hself.symm.trans (hkj ▸ hk))
        exact ⟨subset_rfl, fun hfull => hfull⟩
      · exact h.counted k turns ((hother hkj).symm.trans hk)
    · show s.owes threshold (Function.update s.handlers j phase k) = 0
      have hnone := h.rest k hk
      by_cases hkj : k = j
      · rw [hkj] at hnone ⊢
        rw [hself]
        omega
      · rw [hother hkj, hnone]
    · show requested + s.owes threshold (Function.update s.handlers j phase i) = _
      have htotal := h.total
      by_cases hij : i = j
      · rw [hij] at htotal ⊢
        rw [hself, hsum, htotal]
        rfl
      · have hnone := h.rest j (Ne.symm hij)
        rw [hother hij, show requested = s.requested by omega, htotal]
        rfl
  dsimp only [step] at hstep
  split at hstep
  · next hphase =>
    cases hstep
    rw [hphase] at hnext
    exact hnext _ _ (fun turns heq => (Phase.counted.inj heq).symm) le_rfl rfl
  · next turns hphase =>
    cases hstep
    rw [hphase] at hnext
    have howes : s.owes threshold (if ((turns ∪ s.turns .flowFeedback).card : Int) = threshold
        then .reached else .ended) = s.owes threshold (.counted turns) := by
      show _ = ite _ _ _
      split <;> rfl
    exact hnext _ _ (fun turns heq => by split at heq <;> cases heq) howes.le (by rw [howes])
  · next hphase =>
    cases hstep
    rw [hphase] at hnext
    exact hnext _ _ nofun (Nat.zero_le _) rfl
  · cases hstep

/-- In every run of harmless ratings the write is requested once. -/
theorem requested_once (threshold : Int) (hpos : 1 ≤ threshold) (s : State)
    (hs : HarmlessRun threshold s) : Once threshold s := by
  obtain ⟨i, h⟩ : ∃ i, Settling threshold s i := by
    induction hs with
    | initial =>
      have hnone : ¬ threshold ≤ 0 := by omega
      exact ⟨0, fun _ _ => rfl, nofun, fun _ _ => rfl, (if_neg hnone).symm⟩
    | @step s s' a _ hok hstep ih =>
      obtain ⟨i, hi⟩ := ih
      cases a with
      | rate type turn =>
        cases hstep
        exact hi.rate hok
      | go j => exact ⟨_, hi.go hstep⟩
  have htotal := h.total
  refine ⟨by omega, fun hrest => ?_⟩
  rw [hrest i] at htotal
  exact htotal

theorem requested_once_first : ∃ s, s.requested = 1 ∧ Once 1 s := by
  refine ⟨_, ?_, requested_once 1 (by decide) _ (.step (a := .go 0) (.step (a := .go 0)
    (.step (a := .go 0) (.step (a := .rate .answerFeedback "turn") .initial
      (fun _ _ => ⟨by decide, fun _ => .inr rfl⟩) rfl) trivial rfl) trivial rfl) trivial rfl)⟩
  rfl

/-- A turn that is rated again while the threshold is full has the write requested again. -/
theorem requested_twice :
    let first : List Action := [.rate .answerFeedback "turn", .go 0, .go 0, .go 0]
    let again : List Action := [.rate .answerFeedback "turn", .go 1, .go 1, .go 1]
    ((first ++ again).foldlM (step 1) .initial).map State.requested = some 2 := by
  decide +kernel

end RagForge.Rag.Feedback
