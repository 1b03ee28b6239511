import RagForge.Batching.Invariants

/-
Callers.

A call submits a list of items and then reads the futures of its tickets one after the other.  It
returns the values it read, or raises at the first future that has none, or gives up at any time.
What it leaves behind when it raises is a cancellation for some of its tickets, which is an action
of the scheduler like any other.
-/

namespace RagForge.Batching

open Sequence

variable {ι ω ρ ε Λ : Type}

inductive Raised (ε : Type)
  | timeout
  | cancelled
  | failed (e : ε)
  | closed
  deriving DecidableEq

inductive Call (ι ε ρ : Type)
  | waiting (xs : List ι) (left : List (Ticket ι)) (results : List ρ)
  | returned (xs : List ι) (results : List ρ)
  | raised (xs : List ι) (e : Raised ε)
  deriving DecidableEq

structure System (ι ε ρ Λ : Type) where
  scheduler : State ι ε ρ Λ
  calls : List (Call ι ε ρ)

inductive Event (ι ω ε : Type)
  | act (a : Action ι ω ε)
  | call (xs : List ι)
  | read (c : Nat)
  | giveUp (c : Nat)

variable {D : Discipline ι ω ρ ε Λ} {sys : System ι ε ρ Λ}
  {ok : State ι ε ρ Λ → Action ι ω ε → Prop} {s : State ι ε ρ Λ} {own : ι → ρ} {s' : State ι ε ρ Λ}
  {call : Call ι ε ρ} {xs : List ι}

namespace System

def initial (D : Discipline ι ω ρ ε Λ) : System ι ε ρ Λ := ⟨State.initial D, []⟩

/-- `future.result()` on the next ticket of a call; a pending future blocks. -/
def readNext (s : State ι ε ρ Λ) (xs : List ι) (results : List ρ) :
    List (Ticket ι) → Option (Call ι ε ρ)
  | [] => some (.returned xs results)
  | t :: left =>
    match s.futures t.id with
    | .done (.value v) => some (.waiting xs left (results ++ [v]))
    | .done (.failed e) => some (.raised xs (.failed e))
    | .done .closed => some (.raised xs .closed)
    | .cancelled => some (.raised xs .cancelled)
    | .pending => none
    | .running => none

def step (D : Discipline ι ω ρ ε Λ) (sys : System ι ε ρ Λ) :
    Event ι ω ε → Option (System ι ε ρ Λ)
  | .act (.submit _) => none
  | .act a => (Batching.step D sys.scheduler a).map fun s => { sys with scheduler := s }
  | .call xs =>
    (Batching.step D sys.scheduler (.submit xs)).map fun s =>
      { scheduler := s
        calls := sys.calls ++ [.waiting xs (sys.scheduler.tickets xs) []] }
  | .read c =>
    match sys.calls[c]? with
    | some (.waiting xs left results) =>
      (readNext sys.scheduler xs results left).map fun call =>
        { sys with calls := sys.calls.set c call }
    | _ => none
  | .giveUp c =>
    match sys.calls[c]? with
    | some (.waiting xs _ _) => some { sys with calls := sys.calls.set c (.raised xs .timeout) }
    | _ => none

inductive Reachable (D : Discipline ι ω ρ ε Λ) (ok : State ι ε ρ Λ → Action ι ω ε → Prop) :
    System ι ε ρ Λ → Prop
  | initial : Reachable D ok (System.initial D)
  | step {sys sys' : System ι ε ρ Λ} {e : Event ι ω ε} (hs : Reachable D ok sys)
      (hok : ∀ a, e = .act a → ok sys.scheduler a)
      (hcall : ∀ xs, e = .call xs → ok sys.scheduler (.submit xs))
      (h : System.step D sys e = some sys') : Reachable D ok sys'

/-- What a step of the system does: a step of the scheduler, a submission with a new call, or a
change of one call. -/
inductive Moved (D : Discipline ι ω ρ ε Λ) (sys : System ι ε ρ Λ) :
    Event ι ω ε → System ι ε ρ Λ → Prop
  | act (a : Action ι ω ε) (s : State ι ε ρ Λ) (h : Batching.step D sys.scheduler a = some s) :
      Moved D sys (.act a) { sys with scheduler := s }
  | call (xs : List ι) (s : State ι ε ρ Λ)
      (h : Batching.step D sys.scheduler (.submit xs) = some s) :
      Moved D sys (.call xs)
        { scheduler := s
          calls := sys.calls ++ [.waiting xs (sys.scheduler.tickets xs) []] }
  | read (c : Nat) (xs : List ι) (left : List (Ticket ι)) (results : List ρ) (call : Call ι ε ρ)
      (hc : sys.calls[c]? = some (.waiting xs left results))
      (hnext : readNext sys.scheduler xs results left = some call) :
      Moved D sys (.read c) { sys with calls := sys.calls.set c call }
  | giveUp (c : Nat) (xs : List ι) :
      Moved D sys (.giveUp c) { sys with calls := sys.calls.set c (.raised xs .timeout) }

theorem step_moved {sys' : System ι ε ρ Λ} {e : Event ι ω ε} (h : step D sys e = some sys') :
    Moved D sys e sys' := by
  cases e with
  | act a =>
    have hact : (Batching.step D sys.scheduler a).map
        (fun s => { sys with scheduler := s }) = some sys' := by
      cases a with
      | submit xs => cases h
      | _ => exact h
    obtain ⟨s, hs, rfl⟩ := Option.map_eq_some_iff.mp hact
    exact .act a s hs
  | call xs =>
    obtain ⟨s, hs, rfl⟩ := Option.map_eq_some_iff.mp h
    exact .call xs s hs
  | read c =>
    simp only [step] at h
    split at h
    · next xs left results hc =>
      obtain ⟨call, hcall, rfl⟩ := Option.map_eq_some_iff.mp h
      exact .read c xs left results call hc hcall
    · cases h
  | giveUp c =>
    simp only [step] at h
    split at h
    · next xs left results hc =>
      cases h
      exact .giveUp c xs
    · cases h

theorem Reachable.scheduler (hs : Reachable D ok sys) : Batching.Reachable D ok sys.scheduler := by
  induction hs with
  | initial => exact .initial
  | step _ hok hcall h ih =>
    cases step_moved h with
    | act a s hstep => exact .step ih (hok a rfl) hstep
    | call xs s hstep => exact .step ih (hcall xs rfl) hstep
    | read | giveUp => exact ih

theorem Reachable.mono {ok' : State ι ε ρ Λ → Action ι ω ε → Prop} (hok : ∀ s a, ok s a → ok' s a)
    (hs : Reachable D ok sys) : Reachable D ok' sys := by
  induction hs with
  | initial => exact .initial
  | step _ hact hcall h ih =>
    exact .step ih (fun a ha => hok _ _ (hact a ha)) (fun xs hxs => hok _ _ (hcall xs hxs)) h

def allowed (ok : State ι ε ρ Λ → Action ι ω ε → Prop) [∀ s a, Decidable (ok s a)]
    (sys : System ι ε ρ Λ) : Event ι ω ε → Bool
  | .act a => decide (ok sys.scheduler a)
  | .call xs => decide (ok sys.scheduler (.submit xs))
  | _ => true

theorem exists_reachable (D : Discipline ι ω ρ ε Λ) (ok : State ι ε ρ Λ → Action ι ω ε → Prop)
    [∀ s a, Decidable (ok s a)] (events : List (Event ι ω ε)) (p : System ι ε ρ Λ → Bool)
    (h : (follow (step D) (allowed ok) events (initial D)).any p = true) :
    ∃ sys, Reachable D ok sys ∧ p sys = true := by
  refine exists_of_follow ?_ events .initial h
  intro sys e sys' hs hok hstep
  refine .step hs ?_ ?_ hstep
  · intro a ha
    subst ha
    exact of_decide_eq_true hok
  · intro xs hxs
    subst hxs
    exact of_decide_eq_true hok

end System

/-! ## What calls return -/

theorem accepted_step {a : Action ι ω ε} (hstep : Moved D s a s') : s.accepted ⊆ s'.accepted := by
  cases hstep with
  | submit xs hopen hadm => exact List.subset_append_left _ _
  | _ => exact List.Subset.refl _

def Call.Sound (own : ι → ρ) (accepted : List (Ticket ι)) : Call ι ε ρ → Prop
  | .waiting xs left results =>
    results ++ left.map (fun t => own t.item) = xs.map own ∧ left ⊆ accepted
  | .returned xs results => results = xs.map own
  | .raised _ _ => True

theorem Call.Sound.mono {accepted accepted' : List (Ticket ι)} (hsub : accepted ⊆ accepted')
    (h : call.Sound own accepted) : call.Sound own accepted' := by
  cases call with
  | waiting xs left results => exact ⟨h.1, fun _ ht => hsub (h.2 ht)⟩
  | returned xs results => exact h
  | raised xs e => trivial

theorem sound_readNext (hal : Aligned own s) {left : List (Ticket ι)} {results : List ρ}
    (h : (Call.waiting xs left results : Call ι ε ρ).Sound own s.accepted)
    (hnext : System.readNext s xs results left = some call) : call.Sound own s.accepted := by
  cases left with
  | nil =>
    cases hnext
    have hall := h.1
    rw [List.map_nil, List.append_nil] at hall
    exact hall
  | cons t left =>
    simp only [System.readNext] at hnext
    split at hnext
    · next v hv =>
      cases hnext
      have hown := hal.futures t (h.2 List.mem_cons_self) v hv
      refine ⟨?_, fun _ hu => h.2 (List.mem_cons_of_mem _ hu)⟩
      rw [hown, List.append_assoc]
      exact h.1
    · cases hnext
      trivial
    · cases hnext
      trivial
    · cases hnext
      trivial
    · cases hnext
    · cases hnext

theorem submit_accepted (h : step D s (.submit xs) = some s') :
    s'.accepted = s.accepted ++ s.tickets xs := by
  cases step_moved h with
  | submit _ hopen hadm => rfl

/-- In every run in which the model gives each item its own value, a call that returns gives the
values of its own items, one for each and in their order. -/
theorem System.Reachable.calls_sound (hs : System.Reachable D (SoundOutput own D) sys) :
    ∀ call ∈ sys.calls, call.Sound own sys.scheduler.accepted := by
  induction hs with
  | initial => exact fun call hcall => (List.not_mem_nil hcall).elim
  | step hs _ _ h ih =>
    have hal := hs.scheduler.aligned
    cases System.step_moved h with
    | act a s hstep =>
      intro call hcall
      exact (ih call hcall).mono (accepted_step (Batching.step_moved hstep))
    | call xs s hstep =>
      have hacc := submit_accepted hstep
      intro call hcall
      rcases List.mem_append.mp hcall with hcall | hcall
      · refine (ih call hcall).mono ?_
        rw [hacc]
        exact List.subset_append_left _ _
      · rw [List.mem_singleton.mp hcall]
        refine ⟨?_, ?_⟩
        · rw [List.nil_append, ← Function.comp_def own, ← List.map_map, map_item_tickets]
        · rw [hacc]
          exact List.subset_append_right _ _
    | read c xs left results call hc hnext =>
      exact forall_mem_set ih (sound_readNext hal (ih _ (List.mem_of_getElem? hc)) hnext)
    | giveUp c xs => exact forall_mem_set ih trivial

end RagForge.Batching
