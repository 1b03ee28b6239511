import Mathlib.Logic.Relation
import RagForge.Effect.Frame
import RagForge.Sequence.Slots

/-
Interleavings of programs over shared state.

A pool holds any number of programs that share one state.  A step starts one more program or lets
one of them perform its next operation.  A program that crashes is one that takes no further step,
so every statement about all reachable pools covers every pattern of crashes.
-/

namespace RagForge.Effect

open Sequence

variable {S : Sig} {σ μ α : Type}

structure Pool (S : Sig) (α σ : Type) where
  threads : List (Prog S α)
  state : σ
  /-- Who performed which operation, oldest first. -/
  trace : List (Nat × Event S)

variable {P P' : Pool S α σ} {ε : Type} {m : μ} {h : Handler S σ} {start : Prog S α → Prop}
  {guard : σ → S.Op → Prop} {s₀ : σ}

namespace Pool

def initial (s : σ) : Pool S α σ := ⟨[], s, []⟩

def spawn (P : Pool S α σ) (p : Prog S α) : Pool S α σ :=
  { P with threads := P.threads ++ [p] }

def perform (h : Handler S σ) (P : Pool S α σ) (i : Nat) (op : S.Op)
    (k : S.Result op → Prog S α) : Pool S α σ :=
  ⟨P.threads.set i (k (h op P.state).1), (h op P.state).2,
    P.trace ++ [(i, ⟨op, (h op P.state).1⟩)]⟩

/-- One step: `start` says which programs may begin, `guard` which operations may happen now. -/
inductive Step (h : Handler S σ) (start : Prog S α → Prop) (guard : σ → S.Op → Prop) :
    Pool S α σ → Pool S α σ → Prop
  | spawn {P : Pool S α σ} (p : Prog S α) (hp : start p) : Step h start guard P (P.spawn p)
  | act {P : Pool S α σ} (i : Nat) (op : S.Op) (k : S.Result op → Prog S α)
      (hi : P.threads[i]? = some (.call op k)) (hg : guard P.state op) :
      Step h start guard P (P.perform h i op k)

inductive Reachable (h : Handler S σ) (start : Prog S α → Prop) (guard : σ → S.Op → Prop)
    (s₀ : σ) : Pool S α σ → Prop
  | initial : Reachable h start guard s₀ (Pool.initial s₀)
  | step {P P' : Pool S α σ} (hr : Reachable h start guard s₀ P)
      (hs : Step h start guard P P') : Reachable h start guard s₀ P'

/-- The induction every statement about reachable pools goes through. -/
theorem Reachable.rule {I : Pool S α σ → Prop} (hinit : I (Pool.initial s₀))
    (hspawn : ∀ P p, I P → start p → I (P.spawn p))
    (hact : ∀ P i op k, I P → P.threads[i]? = some (.call op k) → guard P.state op →
      I (P.perform h i op k))
    (hP : Reachable h start guard s₀ P) : I P := by
  induction hP with
  | initial => exact hinit
  | step _ hs ih =>
    cases hs with
    | spawn p hp => exact hspawn _ p ih hp
    | act i op k hi hg => exact hact _ i op k ih hi hg

/-! ## Schedules that can be run -/

inductive Choice (S : Sig) (α : Type)
  | spawn (p : Prog S α)
  | act (i : Nat)

/-- Follow a schedule; a choice that is not possible is skipped. -/
def exec (h : Handler S σ) : List (Choice S α) → Pool S α σ → Pool S α σ
  | [], P => P
  | .spawn p :: rest, P => exec h rest (P.spawn p)
  | .act i :: rest, P =>
    match P.threads[i]? with
    | some (.call op k) => exec h rest (P.perform h i op k)
    | _ => exec h rest P

def Guarded (h : Handler S σ) (guard : σ → S.Op → Prop) : List (Choice S α) → Pool S α σ → Prop
  | [], _ => True
  | .spawn p :: rest, P => Guarded h guard rest (P.spawn p)
  | .act i :: rest, P =>
    match P.threads[i]? with
    | some (.call op k) => guard P.state op ∧ Guarded h guard rest (P.perform h i op k)
    | _ => Guarded h guard rest P

instance Guarded.decidable (h : Handler S σ) (guard : σ → S.Op → Prop)
    [∀ s, DecidablePred (guard s)] :
    (cs : List (Choice S α)) → (P : Pool S α σ) → Decidable (Guarded h guard cs P)
  | [], _ => .isTrue trivial
  | .spawn p :: rest, P => Guarded.decidable h guard rest (P.spawn p)
  | .act i :: rest, P => by
      unfold Guarded
      exact match P.threads[i]? with
      | some (.call op k) =>
        have := Guarded.decidable h guard rest (P.perform h i op k)
        inferInstanceAs (Decidable (_ ∧ _))
      | some (.ret _) | none => Guarded.decidable h guard rest P

theorem reachable_iff : Reachable h start guard s₀ P ↔
    Relation.ReflTransGen (Step h start guard) (Pool.initial s₀) P := by
  constructor
  · intro hP
    induction hP with
    | initial => exact .refl
    | step _ hs ih => exact .tail ih hs
  · intro hrun
    induction hrun with
    | refl => exact .initial
    | tail _ hs ih => exact .step ih hs

theorem steps_exec (cs : List (Choice S α)) (hstart : ∀ p, .spawn p ∈ cs → start p)
    (hguard : Guarded h guard cs P) :
    Relation.ReflTransGen (Step h start guard) P (exec h cs P) := by
  induction cs generalizing P with
  | nil => exact .refl
  | cons c rest ih =>
    have hrest : ∀ p, .spawn p ∈ rest → start p :=
      fun p hp => hstart p (List.mem_cons_of_mem c hp)
    cases c with
    | spawn p =>
      have hp := hstart p List.mem_cons_self
      exact .head (.spawn p hp) (ih hrest hguard)
    | act i =>
      simp only [exec, Guarded] at hguard ⊢
      split at hguard
      · next op k hi => exact .head (.act i op k hi hguard.1) (ih hrest hguard.2)
      · exact ih hrest hguard

theorem reachable_exec (cs : List (Choice S α)) (hstart : ∀ p, .spawn p ∈ cs → start p)
    (hguard : Guarded h guard cs P) (hP : Reachable h start guard s₀ P) :
    Reachable h start guard s₀ (exec h cs P) :=
  reachable_iff.mpr ((reachable_iff.mp hP).trans (steps_exec cs hstart hguard))

theorem exec_inv {I : σ → Prop} (hI : ∀ op s, I s → I (h op s).2) (cs : List (Choice S α)) :
    ∀ P : Pool S α σ, I P.state → I (exec h cs P).state := by
  induction cs with
  | nil => exact fun P hP => hP
  | cons c rest ih =>
    intro P hP
    cases c with
    | spawn p => exact ih _ hP
    | act i =>
      simp only [exec]
      split
      · next op k _ => exact ih _ (hI op P.state hP)
      · exact ih P hP

theorem guarded_true (cs : List (Choice S α)) (P : Pool S α σ) :
    Guarded h (fun _ _ => True) cs P := by
  induction cs generalizing P with
  | nil => trivial
  | cons c rest ih =>
    cases c with
    | spawn p => exact ih _
    | act i =>
      simp only [Guarded]
      split
      · exact ⟨trivial, ih _⟩
      · exact ih _

end Pool

/-! ## Traces -/

/-- Every entry of the trace is justified by the entries before it. -/
def Justified {ε : Type} (Q : List ε → ε → Prop) (trace : List ε) : Prop :=
  ∀ before x after, trace = before ++ x :: after → Q before x

variable {Q : List ε → ε → Prop}

theorem Justified.nil : Justified Q [] :=
  fun _ _ _ heq => absurd heq (by simp)

theorem Justified.append {trace : List ε} (h : Justified Q trace) {x : ε}
    (hx : Q trace x) : Justified Q (trace ++ [x]) := by
  intro before y after heq
  rcases List.eq_nil_or_concat after with rfl | ⟨after', z, rfl⟩
  · obtain ⟨rfl, hxy⟩ := List.append_inj' heq rfl
    rw [← List.head_eq_of_cons_eq hxy]
    exact hx
  · have hsplit : trace ++ [x] = (before ++ y :: after') ++ [z] := by simpa using heq
    exact h before y after' (List.append_inj' hsplit rfl).1

/-! ## Monitors -/

/-- An automaton that watches the operations of one program and their replies. -/
structure Monitor (S : Sig) (μ : Type) where
  allow : μ → S.Op → Prop
  next : μ → (op : S.Op) → S.Result op → μ

/-- The logic in which a program is checked against the monitor for all replies. -/
def Monitor.logic (M : Monitor S μ) : Logic S μ where
  wp op Q m := M.allow m op ∧ ∀ r, Q r (M.next m op r)
  mono hPQ hw := ⟨hw.1, fun r => hPQ r _ (hw.2 r)⟩

/-- The logic in which a program is checked for the replies that are possible. -/
def Monitor.logicOn (M : Monitor S μ) (possible : (op : S.Op) → S.Result op → Prop) :
    Logic S μ where
  wp op Q m := M.allow m op ∧ ∀ r, possible op r → Q r (M.next m op r)
  mono hPQ hw := ⟨hw.1, fun r hr => hPQ r _ (hw.2 r hr)⟩

variable {M : Monitor S μ} {J : σ → μ → Prop} {Q : α → μ → Prop}

theorem Prog.wp_monitored
    (hJ : ∀ s m op, J s m → M.allow m op → J (h op s).2 (M.next m op (h op s).1)) (p : Prog S α) :
    ∀ s m, p.wp M.logic Q m → J s m → ∃ m', Q (p.run h s).1 m' ∧ J (p.run h s).2 m' := by
  induction p with
  | ret a => exact fun s m hp hs => ⟨m, hp, hs⟩
  | call op k ih =>
    intro s m hp hs
    exact ih _ _ _ (hp.2 (h op s).1) (hJ s m op hs hp.1)

theorem Ensures.monitored {L : Type}
    (hJ : ∀ s m op, J s m → M.allow m op → J (h op s).2 (M.next m op (h op s).1)) {F : Frame L μ}
    {p : Proc S L α} {P : α → L → μ → Prop} {l l' : L} {s s' : σ} {r : Except S.Err α}
    (hp : Ensures M.logic F p P l m) (hs : J s m) (hrun : p.run h l s = (r, l', s')) :
    ∃ m', F.rel l m l' m' ∧ (∀ a, r = .ok a → P a l' m') ∧ J s' m' := by
  obtain ⟨m', hQ, hJ'⟩ := Prog.wp_monitored hJ (p l) s m hp.wp hs
  obtain ⟨rfl, rfl, rfl⟩ := hrun
  exact ⟨m', hQ.1, hQ.2, hJ'⟩

theorem Prog.wp_logicOn (possible : (op : S.Op) → S.Result op → Prop) (p : Prog S α) :
    ∀ m, p.wp M.logic Q m → p.wp (M.logicOn possible) Q m := by
  induction p with
  | ret a => exact fun m hp => hp
  | call op k ih => exact fun m hp => ⟨hp.1, fun r _ => ih r _ (hp.2 r)⟩

namespace Pool

/-- Each thread is accepted by its own monitor for the possible replies, and ends in a state of the
monitor that satisfies `Q`. -/
structure Followed (M : Monitor S μ) (possible : (op : S.Op) → S.Result op → Prop)
    (Q : α → μ → Prop) (P : Pool S α σ) (ms : List μ) : Prop where
  length : ms.length = P.threads.length
  accepted : ∀ (i : Nat) (p : Prog S α) m, P.threads[i]? = some p → ms[i]? = some m →
    p.wp (M.logicOn possible) Q m

variable {possible : (op : S.Op) → S.Result op → Prop} {ms : List μ}

section Followed

variable {p : Prog S α} {i : Nat}

theorem followed_initial (s : σ) : Followed M possible Q (Pool.initial s : Pool S α σ) [] :=
  ⟨rfl, fun i p m hp => by simp [Pool.initial] at hp⟩

theorem Followed.monitor (hP : Followed M possible Q P ms) (hi : P.threads[i]? = some p) :
    ∃ m, ms[i]? = some m ∧ p.wp (M.logicOn possible) Q m := by
  have hlt : i < ms.length := hP.length ▸ (List.getElem?_eq_some_iff.mp hi).1
  have hm : ms[i]? = some ms[i] := List.getElem?_eq_getElem hlt
  exact ⟨ms[i], hm, hP.accepted i _ _ hi hm⟩

theorem Followed.spawn (hP : Followed M possible Q P ms) (hp : p.wp (M.logicOn possible) Q m) :
    Followed M possible Q (P.spawn p) (ms ++ [m]) := by
  refine ⟨by simp [Pool.spawn, hP.length], ?_⟩
  intro i q n hq hn
  have hlen := hP.length
  rcases getElem?_append_cases hq with hq | ⟨hi, rfl⟩ <;>
    rcases getElem?_append_cases hn with hn | ⟨hi', rfl⟩
  · exact hP.accepted i q n hq hn
  · exact absurd (List.getElem?_eq_some_iff.mp hq).1 (by omega)
  · exact absurd (List.getElem?_eq_some_iff.mp hn).1 (by omega)
  · exact hp

theorem Followed.perform (hP : Followed M possible Q P ms) (h : Handler S σ) {op : S.Op}
    {k : S.Result op → Prog S α}
    (hk : (k (h op P.state).1).wp (M.logicOn possible) Q (M.next m op (h op P.state).1)) :
    Followed M possible Q (P.perform h i op k) (ms.set i (M.next m op (h op P.state).1)) := by
  refine ⟨by simp [Pool.perform, hP.length], ?_⟩
  intro j q n hq hn
  rcases getElem?_set_cases hq with ⟨hj, rfl⟩ | ⟨hj, hq⟩ <;>
    rcases getElem?_set_cases hn with ⟨hj', rfl⟩ | ⟨hj', hn⟩
  · exact hk
  · exact absurd hj hj'
  · exact absurd hj' hj
  · exact hP.accepted j q n hq hn

end Followed

theorem Step.trace_subset (hs : Step h start guard P P') : ∀ x ∈ P.trace, x ∈ P'.trace := by
  cases hs with
  | spawn p hp => exact fun x hx => hx
  | act i op k hi hg => exact fun x hx => List.mem_append_left _ hx

section Simulation

variable (M : Monitor S μ) {Init : μ → Prop} {J : σ → List (Nat × Event S) → List μ → Prop}

section

variable (hprog : ∀ p, start p → ∃ m, Init m ∧ p.wp (M.logicOn possible) Q m)
  (hinit : J s₀ [] []) (hspawn : ∀ s tr ms m, J s tr ms → Init m → J s tr (ms ++ [m]))
  (hact : ∀ s tr ms i m op, J s tr ms → ms[i]? = some m → M.allow m op → guard s op →
    possible op (h op s).1 → J (h op s).2 (tr ++ [(i, ⟨op, (h op s).1⟩)])
      (ms.set i (M.next m op (h op s).1)))

include hprog hspawn hact

theorem Step.monitored (hs : Step h start guard P P')
    (hpossible : ∀ x ∈ P'.trace, possible x.2.op x.2.reply) (hJ : J P.state P.trace ms)
    (hP : Followed M possible Q P ms) :
    ∃ ms', J P'.state P'.trace ms' ∧ Followed M possible Q P' ms' := by
  cases hs with
  | spawn p hp =>
    obtain ⟨m, hm, hw⟩ := hprog p hp
    exact ⟨ms ++ [m], hspawn _ _ _ m hJ hm, hP.spawn hw⟩
  | act i op k hi hg =>
    obtain ⟨m, hm, hallow, hk⟩ := hP.monitor hi
    have hr : possible op (h op P.state).1 :=
      hpossible (i, ⟨op, (h op P.state).1⟩)
        (List.mem_append_right _ (List.mem_singleton_self _))
    exact ⟨_, hact _ _ _ i m op hJ hm hallow hg hr, hP.perform h (hk _ hr)⟩

include hinit in
theorem Reachable.followed (hP : Reachable h start guard s₀ P)
    (hpossible : ∀ x ∈ P.trace, possible x.2.op x.2.reply) :
    ∃ ms, J P.state P.trace ms ∧ Followed M possible Q P ms := by
  induction hP with
  | initial => exact ⟨[], hinit, followed_initial s₀⟩
  | step _ hs ih =>
    obtain ⟨ms, hJ, hms⟩ := ih fun x hx => hpossible x (hs.trace_subset x hx)
    exact Step.monitored M hprog hspawn hact hs hpossible hJ hms

end

variable (hprog : ∀ p, start p → ∃ m, Init m ∧ p.wp M.logic Q m)
  (hinit : J s₀ [] []) (hspawn : ∀ s tr ms m, J s tr ms → Init m → J s tr (ms ++ [m]))
  (hact : ∀ s tr ms i m op, J s tr ms → ms[i]? = some m → M.allow m op → guard s op →
    J (h op s).2 (tr ++ [(i, ⟨op, (h op s).1⟩)]) (ms.set i (M.next m op (h op s).1)))

include hprog hspawn hact

theorem steps_monitored (hrun : Relation.ReflTransGen (Step h start guard) P P')
    (hJ : J P.state P.trace ms) (hP : Followed M (fun _ _ => True) Q P ms) :
    ∃ ms', J P'.state P'.trace ms' ∧ Followed M (fun _ _ => True) Q P' ms' := by
  induction hrun with
  | refl => exact ⟨ms, hJ, hP⟩
  | tail _ hs ih =>
    obtain ⟨ms', hJ', hP'⟩ := ih
    refine Step.monitored M (fun p hp => ?_) hspawn
      (fun s tr ms i m op hJ hm hallow hg _ => hact s tr ms i m op hJ hm hallow hg) hs
      (fun _ _ => trivial) hJ' hP'
    obtain ⟨m, hm, hw⟩ := hprog p hp
    exact ⟨m, hm, p.wp_logicOn _ m hw⟩

include hinit in
/-- The pool is simulated by its monitors.  If every program that may start is accepted for all
replies, an invariant of the shared state, the trace and the monitors' states holds in every
reachable pool as soon as every operation the monitors allow keeps it.  The programs themselves
no longer occur in what is left to prove. -/
theorem Reachable.monitored (hP : Reachable h start guard s₀ P) : ∃ ms, J P.state P.trace ms := by
  obtain ⟨ms, hJ, -⟩ := steps_monitored M hprog hspawn hact (reachable_iff.mp hP) hinit
    (followed_initial s₀)
  exact ⟨ms, hJ⟩

end Simulation

end Pool

end RagForge.Effect
