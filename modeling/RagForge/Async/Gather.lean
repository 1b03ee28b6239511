import RagForge.Async.Tasks
import RagForge.Effect.Pool

/-
Main tasks that outlive their children.

If a child raises while another one still runs, the main task goes on and the other child does so
beside it.  A run in which that does not happen is orderly: whenever the main task is not gathering,
every child has ended or was told to cancel.  The main task can then be checked on its own, against
a monitor, and the children need to be looked at only while it gathers.
-/

namespace RagForge.Async

open Effect

variable {I : Interface} {ρ α σ μ : Type} {s : State I ρ α σ} {i : Nat} {answer : I.Answer}
  {c : Child I ρ} {p : Coroutine I ρ} {cancelled : Prop} {children : List (Child I ρ)}
  {g : Group I ρ} {k : Except I.Err (List ρ) → Program I ρ α} {a : Action I} {m : μ}

/-! ## Orderly runs -/

namespace State

def raisedAt (s : State I ρ α σ) (i : Nat) : Bool := (s.children[i]?).any Child.raised

/-- Child `i` does not belong to the group that is gathered, or the whole group is quiet. -/
def quietBeside (s : State I ρ α σ) (i : Nat) : Bool :=
  match s.main with
  | .gathering g _ => decide (i < g.first) || (s.children.drop g.first).all Child.quiet
  | _ => true

end State

/-- No child raises while another child of its group runs on. -/
def orderly (h : I.Service σ) (s : State I ρ α σ) (a : Action I) : Bool :=
  match a, step h s a with
  | .child i _, some s' => !s'.raisedAt i || s'.quietBeside i
  | _, _ => true

theorem orderly_child {h : I.Service σ} (hok : orderly h s (.child i answer) = true)
    (hc : s.children[i]? = some c) (hp : c.next answer = some p)
    (hraised : (s.moveChild h i c p).raisedAt i = true) :
    (s.moveChild h i c p).quietBeside i = true := by
  have hstep : step h s (.child i answer) = some (s.moveChild h i c p) := by
    simp only [step, hc, hp, Option.map_some]
  simp only [orderly, hstep, hraised, Bool.not_true, Bool.false_or] at hok
  exact hok

/-! ## Children that obey -/

/-- A child performs only what it is allowed to, and nothing once it was cancelled.  The state of
the monitor says whether it was. -/
def obedient (allowed : I.Now → Prop) : Monitor I.child Prop where
  allow cancelled op := ¬ cancelled ∧
    match op with
    | .now op => allowed op
    | .later _ => True
  next cancelled op r :=
    match op, r with
    | .now _, _ => cancelled
    | .later _, r => cancelled ∨ r = .error I.cancelled

variable {allowed : I.Now → Prop} {h : I.Service σ}

/-- The monitor accepts the rest of a coroutine. -/
def Obeys (allowed : I.Now → Prop) (p : Coroutine I ρ) (cancelled : Prop) : Prop :=
  p.wp (obedient allowed).logic (fun _ _ => True) cancelled

theorem Obeys.ret_of_cancelled (hp : Obeys allowed p cancelled) (hc : cancelled) :
    ∃ r, p = .ret r := by
  cases p with
  | ret r => exact ⟨r, rfl⟩
  | call op k => exact absurd hc hp.1.1

def Task.Obeys (allowed : I.Now → Prop) : Task I ρ → Prop
  | .ready p => Async.Obeys allowed p False
  | .waiting _ k => ∃ cancelled, ∀ r, Async.Obeys allowed (k r) (cancelled ∨ r = .error I.cancelled)
  | .done _ => True

theorem Obeys.settle (hp : Obeys allowed p cancelled) (s : σ) : (p.settle h s).1.Obeys allowed := by
  induction p generalizing s with
  | ret r => trivial
  | call op k ih =>
    cases op with
    | now op => exact ih _ (hp.2 _) _
    | later w => exact ⟨cancelled, hp.2⟩

theorem Obeys.settle_keeps {J : σ → Prop} (hJ : ∀ op s, allowed op → J s → J (h op s).2)
    (hp : Obeys allowed p cancelled) {s : σ} (hs : J s) : J (p.settle h s).2 := by
  induction p generalizing s with
  | ret r => exact hs
  | call op k ih =>
    cases op with
    | now op => exact ih _ (hp.2 _) (hJ op s hp.1.2 hs)
    | later w => exact hs

/-- Code that is not cancelled yet obeys, and once it is cancelled it raises just that. -/
structure Passes (allowed : I.Now → Prop) (p : Proc I.child Unit α) : Prop where
  wp : ∀ cancelled, ¬ cancelled → p.wp (obedient allowed).logic
    (fun r _ cancelled => cancelled → r = .error I.cancelled) () cancelled

namespace Passes

variable {β : Type}

theorem pure (a : α) : Passes allowed (pure a) := ⟨fun _ hc hc' => absurd hc' hc⟩

theorem now {op : I.Now} (hop : allowed op) :
    Passes allowed (Proc.perform (S := I.child) (.now op)) :=
  ⟨fun _ hc => ⟨⟨hc, hop⟩, fun _ hc' => absurd hc' hc⟩⟩

theorem later (w : I.Later) : Passes allowed (Proc.perform (S := I.child) (.later w)) :=
  ⟨fun _ hc => ⟨⟨hc, trivial⟩, fun _ hc' => hc'.resolve_left hc⟩⟩

theorem bind {p : Proc I.child Unit α} {f : α → Proc I.child Unit β} (hp : Passes allowed p)
    (hf : ∀ a, Passes allowed (f a)) : Passes allowed (p >>= f) := by
  refine ⟨fun cancelled hc => (Proc.wp_bind p f).mpr (Proc.wp_mono (hp.wp cancelled hc) ?_)⟩
  intro r _ cancelled' hr
  cases r with
  | error e =>
    intro hc'
    rw [Except.error.inj (hr hc')]
  | ok a => exact (hf a).wp cancelled' fun hc' => nomatch hr hc'

theorem handle {p : Proc I.child Unit α} {f : I.Err → Proc I.child Unit α}
    (hp : Passes allowed p) (hcancelled : f I.cancelled = Proc.raise I.cancelled)
    (hf : ∀ e, e ≠ I.cancelled → Passes allowed (f e)) : Passes allowed (p.handle f) := by
  refine ⟨fun cancelled hc => (Proc.wp_handle p f).mpr (Proc.wp_mono (hp.wp cancelled hc) ?_)⟩
  intro r _ cancelled' hr
  cases r with
  | ok a => exact hr
  | error e =>
    by_cases he : e = I.cancelled
    · show (f e).wp _ _ _ _
      rw [he, hcancelled]
      exact fun _ => rfl
    · exact (hf e he).wp cancelled' fun hc' => he (Except.error.inj (hr hc'))

theorem obeys {p : Proc I.child Unit ρ} (hp : Passes allowed p) :
    Obeys allowed (Coroutine.of p) False := by
  refine (Prog.wp_bind _ _ _ _).mpr (Prog.wp_mono ?_ _ _ (hp.wp False id))
  exact fun _ _ _ => trivial

end Passes

namespace Child

theorem next_obeys (hc : c.task.Obeys allowed) (hp : c.next answer = some p) :
    ∃ cancelled, Obeys allowed p cancelled ∧ (c.told = true → cancelled) := by
  obtain ⟨task, told⟩ := c
  cases task with
  | ready q =>
    cases hp
    cases told with
    | true => exact ⟨True, trivial, fun _ => trivial⟩
    | false => exact ⟨False, hc, fun h => by cases h⟩
  | waiting w k =>
    cases hp
    obtain ⟨cancelled, hk⟩ := hc
    refine ⟨_, hk _, ?_⟩
    intro htold
    rw [if_pos htold]
    exact .inr rfl
  | done r => cases hp

theorem next_of_told (hc : c.task.Obeys allowed) (htold : c.told = true)
    (hp : c.next answer = some p) : ∃ r, p = .ret r := by
  obtain ⟨cancelled, hobeys, hcancelled⟩ := next_obeys hc hp
  exact hobeys.ret_of_cancelled (hcancelled htold)

theorem told_of_quiet (hq : c.quiet = true) (hp : c.next answer = some p) : c.told = true := by
  obtain ⟨task, told⟩ := c
  cases told with
  | true => rfl
  | false =>
    cases task with
    | ready | waiting => cases hq
    | done r => cases hp

theorem tell_task (c : Child I ρ) : c.tell.task = c.task := by
  unfold tell
  split <;> rfl

theorem tell_quiet (c : Child I ρ) : c.tell.quiet = true := by
  unfold tell
  split
  · next hr => simp only [quiet, hr, Bool.or_true]
  · rfl

end Child

theorem quiet_of_returned {rs : List ρ} (hrs : returned children = some rs) :
    ∀ c ∈ children, c.quiet = true := by
  induction children generalizing rs with
  | nil =>
    intro c hc
    cases hc
  | cons d rest ih =>
    simp only [returned] at hrs
    split at hrs
    · next r hd =>
      obtain ⟨rs', hrest, -⟩ := Option.map_eq_some_iff.mp hrs
      intro c hc
      cases List.mem_cons.mp hc with
      | inl heq =>
        rw [heq]
        simp only [Child.quiet, hd, Option.isSome_some, Bool.or_true]
      | inr hc => exact ih hrest c hc
    · cases hrs

/-! ## Supervision -/

/-- A monitor for the main task, the replies it reckons with, what the children are allowed to do
and the replies the main task is given to what it awaits. -/
structure Watch (I : Interface) (ρ μ : Type) where
  monitor : Monitor (I.main ρ) μ
  possible : (op : MainOp I ρ) → (I.main ρ).Result op → Prop
  allowed : I.Now → Prop
  given : (w : I.Later) → Except I.Err (I.LaterReply w) → Prop

def Watch.logic (M : Watch I ρ μ) : Logic (I.main ρ) μ := M.monitor.logicOn M.possible

def Main.Accepted (M : Watch I ρ μ) (Q : Except I.Err α → μ → Prop) : Main I ρ α → μ → Prop
  | .ready p, m => p.wp M.logic Q m
  | .waiting w k, m => M.logic.wp (.later w) (fun r m => (k r).wp M.logic Q m) m
  | .gathering _ k, m => ∃ cs, M.logic.wp (.gather cs) (fun r m => (k r).wp M.logic Q m) m
  | .done r, m => Q r m

/-- `J` relates the shared state to the state of the main task's monitor and survives what the
main task does, and what the children do while it gathers. -/
structure Supervises (h : I.Service σ) (M : Watch I ρ μ) (J : σ → μ → Prop) : Prop where
  now : ∀ s m op, J s m → M.monitor.allow m (.now op) → M.possible (.now op) (h op s).1 ∧
    J (h op s).2 (M.monitor.next m (.now op) (h op s).1)
  later : ∀ s m w r, J s m → M.monitor.allow m (.later w) → M.given w r →
    M.possible (.later w) r ∧ J s (M.monitor.next m (.later w) r)
  wake : ∀ s m cs r, J s m → M.monitor.allow m (.gather cs) →
    M.possible (.gather cs) r ∧ J s (M.monitor.next m (.gather cs) r)
  child : ∀ s m cs op, J s m → M.monitor.allow m (.gather cs) → M.allowed op → J (h op s).2 m
  obey : ∀ m cs, M.monitor.allow m (.gather cs) → ∀ c ∈ cs, Obeys M.allowed c False

/-- Every child obeys, and only those that are gathered are not quiet. -/
structure Structured (allowed : I.Now → Prop) (s : State I ρ α σ) : Prop where
  obeys : ∀ (i : Nat) (c : Child I ρ), s.children[i]? = some c → c.task.Obeys allowed
  quiet : ∀ (i : Nat) (c : Child I ρ), s.children[i]? = some c →
    (∀ g k, s.main = .gathering g k →
      i < g.first ∨ g.verdict.isSome = true ∨ g.told = true) → c.quiet = true

/-- The state is structured and its main task is where its monitor is. -/
structure Watched (M : Watch I ρ μ) (Q : Except I.Err α → μ → Prop) (J : σ → μ → Prop)
    (s : State I ρ α σ) : Prop where
  structured : Structured M.allowed s
  main : ∃ m, J s.shared m ∧ s.main.Accepted M Q m

section Watching

variable {M : Watch I ρ μ} {Q : Except I.Err α → μ → Prop} {J : σ → μ → Prop}
  {ok : State I ρ α σ → Action I → Bool} {s' : State I ρ α σ}

theorem Supervises.settle (hS : Supervises h M J)
    (hobeys : ∀ (i : Nat) (c : Child I ρ), children[i]? = some c → c.task.Obeys M.allowed)
    (hquiet : ∀ (i : Nat) (c : Child I ρ), children[i]? = some c → c.quiet = true)
    (p : Program I ρ α) :
    ∀ m s, p.wp M.logic Q m → J s m → Watched M Q J (p.settle h children s) := by
  induction p with
  | ret r => exact fun m s hp hs => ⟨⟨hobeys, fun i c hc _ => hquiet i c hc⟩, m, hs, hp⟩
  | call op k ih =>
    intro m s hp hs
    cases op with
    | now op =>
      obtain ⟨hpossible, hs'⟩ := hS.now s m op hs hp.1
      exact ih _ _ _ (hp.2 _ hpossible) hs'
    | later w => exact ⟨⟨hobeys, fun i c hc _ => hquiet i c hc⟩, m, hs, hp⟩
    | gather cs =>
      refine ⟨⟨?_, ?_⟩, m, hs, cs, hp⟩
      · intro i c hc
        have hc : (children ++ cs.map fun c => ⟨.ready c, false⟩)[i]? = some c := hc
        rw [List.getElem?_append] at hc
        split at hc
        · exact hobeys i c hc
        · obtain ⟨q, hq, rfl⟩ := List.mem_map.mp (List.mem_of_getElem? hc)
          exact hS.obey m cs hp.1 q hq
      · intro i c hc hclosed
        have hc : (children ++ cs.map fun c => ⟨.ready c, false⟩)[i]? = some c := hc
        rw [List.getElem?_append] at hc
        split at hc
        · exact hquiet i c hc
        · next hge =>
          obtain ⟨q, hq, -⟩ := List.mem_map.mp (List.mem_of_getElem? hc)
          have hne : cs.isEmpty = false := by
            cases cs with
            | nil => cases hq
            | cons _ _ => rfl
          have hopen := hclosed _ _ rfl
          rw [hne] at hopen
          simp only [Bool.false_eq_true, if_false, Option.isSome_none, or_false] at hopen
          exact absurd hopen hge

theorem Structured.all_quiet (hs : Structured allowed s)
    (hmain : ∀ g k, s.main = .gathering g k → g.verdict.isSome = true) (i : Nat) (c : Child I ρ)
    (hc : s.children[i]? = some c) : c.quiet = true :=
  hs.quiet i c hc fun g k hg => .inr (.inl (hmain g k hg))

theorem shared_moveChild_of_quiet (hs : Structured allowed s) (hc : s.children[i]? = some c)
    (hp : c.next answer = some p) (hq : c.quiet = true) :
    (s.moveChild h i c p).shared = s.shared := by
  obtain ⟨r, rfl⟩ := Child.next_of_told (hs.obeys i c hc) (Child.told_of_quiet hq hp) hp
  rfl

/-- How a step of a child can end the gathering. -/
theorem Group.note_cases {t : Task I ρ} (hopen : g.verdict.isSome = false)
    (hover : (g.note children i t).verdict.isSome = true) :
    g.first ≤ i ∧
      ((∃ e, t = .done (.error e)) ∨ ∃ rs, returned (children.drop g.first) = some rs) := by
  simp only [Group.note, hopen, Bool.false_or, decide_eq_true_eq] at hover
  split at hover
  · rw [hopen] at hover
    cases hover
  · next hi =>
    refine ⟨Nat.le_of_not_lt hi, ?_⟩
    split at hover
    · next e => exact .inl ⟨e, rfl⟩
    · rw [Option.isSome_map] at hover
      exact .inr (Option.isSome_iff_exists.mp hover)
    · rw [hopen] at hover
      cases hover

theorem Group.note_first (g : Group I ρ) (children : List (Child I ρ)) (i : Nat) (t : Task I ρ) :
    (g.note children i t).first = g.first := by
  unfold Group.note
  split
  · rfl
  · split <;> rfl

theorem Group.note_told (g : Group I ρ) (children : List (Child I ρ)) (i : Nat) (t : Task I ρ) :
    (g.note children i t).told = g.told := by
  unfold Group.note
  split
  · rfl
  · split <;> rfl

section MoveChild

variable {d : Child I ρ} {j : Nat}

theorem main_moveChild (hmain : s.main = .gathering g k) :
    (s.moveChild h i c p).main =
      .gathering (g.note (s.moveChild h i c p).children i (p.settle h s.shared).1) k := by
  simp only [State.moveChild, Main.note, hmain]

theorem getElem?_moveChild (hd : (s.moveChild h i c p).children[j]? = some d) :
    j = i ∧ d = ⟨(p.settle h s.shared).1, c.told⟩ ∨ s.children[j]? = some d :=
  (Sequence.getElem?_set_cases hd).imp_right And.right

/-- An orderly step of a child that ends the gathering leaves the group quiet. -/
theorem quiet_of_note (hok : orderly h s (.child i answer) = true) (hc : s.children[i]? = some c)
    (hp : c.next answer = some p) (hmain : s.main = .gathering g k)
    (hopen : g.verdict.isSome = false)
    (hover : (g.note (s.moveChild h i c p).children i (p.settle h s.shared).1).verdict.isSome =
      true) :
    ∀ d ∈ (s.moveChild h i c p).children.drop g.first, d.quiet = true := by
  have hlt : i < s.children.length := (List.getElem?_eq_some_iff.mp hc).1
  obtain ⟨hfirst, hraised | hreturned⟩ := Group.note_cases hopen hover
  · obtain ⟨e, he⟩ := hraised
    have hraised : (s.moveChild h i c p).raisedAt i = true := by
      simp only [State.raisedAt, State.moveChild, List.getElem?_set_self hlt, he, Option.any_some,
        Child.raised]
    have hquiet := orderly_child hok hc hp hraised
    simp only [State.quietBeside, main_moveChild hmain, Group.note_first, Bool.or_eq_true,
      decide_eq_true_eq, List.all_eq_true] at hquiet
    exact hquiet.resolve_left (Nat.not_lt.mpr hfirst)
  · obtain ⟨rs, hrs⟩ := hreturned
    exact quiet_of_returned hrs

theorem Structured.quiet_moveChild (hs : Structured allowed s) (hc : s.children[i]? = some c)
    (hp : c.next answer = some p) (hd : (s.moveChild h i c p).children[j]? = some d)
    (hbefore : ∀ g k, s.main = .gathering g k →
      j < g.first ∨ g.verdict.isSome = true ∨ g.told = true) : d.quiet = true := by
  cases getElem?_moveChild hd with
  | inl hi =>
    rw [hi.1] at hbefore
    have htold := Child.told_of_quiet (hs.quiet i c hc hbefore) hp
    rw [hi.2]
    simp only [Child.quiet, htold, Bool.true_or]
  | inr hj => exact hs.quiet j d hj hbefore

theorem Structured.moveChild (hs : Structured allowed s)
    (hok : orderly h s (.child i answer) = true) (hc : s.children[i]? = some c)
    (hp : c.next answer = some p) : Structured allowed (s.moveChild h i c p) := by
  refine ⟨?_, ?_⟩
  · intro j d hd
    cases getElem?_moveChild hd with
    | inl hi =>
      obtain ⟨cancelled, hobeys, -⟩ := Child.next_obeys (hs.obeys i c hc) hp
      rw [hi.2]
      exact hobeys.settle s.shared
    | inr hj => exact hs.obeys j d hj
  · intro j d hd hafter
    by_cases hbefore : ∀ g k, s.main = .gathering g k →
        j < g.first ∨ g.verdict.isSome = true ∨ g.told = true
    · exact hs.quiet_moveChild hc hp hd hbefore
    · -- The child belongs to a group that was open before the step and is not any more.
      simp only [not_forall, not_or, Bool.not_eq_true] at hbefore
      obtain ⟨g, k, hmain, hge, hopen, huntold⟩ := hbefore
      have hnote := hafter _ k (main_moveChild hmain)
      rw [Group.note_first, Group.note_told, huntold] at hnote
      have hover := (hnote.resolve_left hge).resolve_right (by simp)
      refine quiet_of_note hok hc hp hmain hopen hover d (List.mem_of_getElem?
        (i := j - g.first) ?_)
      rw [List.getElem?_drop, Nat.add_sub_cancel' (Nat.le_of_not_lt hge)]
      exact hd

end MoveChild

theorem Structured.tellGroup (hs : Structured allowed s) (hmain : s.main = .gathering g k) :
    Structured allowed (s.tellGroup g k) := by
  have hget : ∀ (i : Nat) (d : Child I ρ), (s.tellGroup g k).children[i]? = some d →
      ∃ c, s.children[i]? = some c ∧ d = if i < g.first then c else c.tell := by
    intro i d hd
    simp only [State.tellGroup, List.getElem?_mapIdx, Option.map_eq_some_iff] at hd
    obtain ⟨c, hc, hd⟩ := hd
    exact ⟨c, hc, hd.symm⟩
  refine ⟨?_, ?_⟩
  · intro i d hd
    obtain ⟨c, hc, rfl⟩ := hget i d hd
    split
    · exact hs.obeys i c hc
    · rw [Child.tell_task]
      exact hs.obeys i c hc
  · intro i d hd _
    obtain ⟨c, hc, rfl⟩ := hget i d hd
    split
    · next hi =>
      refine hs.quiet i c hc ?_
      intro g' k' hg'
      rw [hmain] at hg'
      injection hg' with hg' _
      rw [← hg']
      exact .inl hi
    · exact c.tell_quiet

theorem Structured.overrule (hs : Structured allowed s) (hmain : s.main = .gathering g k)
    (hv : g.verdict.isSome = true) : Structured allowed (s.overrule g k) := by
  refine ⟨hs.obeys, ?_⟩
  intro i c hc _
  refine hs.all_quiet ?_ i c hc
  intro g' k' hg'
  rw [hmain] at hg'
  injection hg' with hg' _
  rw [← hg']
  exact hv

/-! ## Runs under supervision -/

theorem Resumes.over {m : Main I ρ α} {p : Program I ρ α} (hp : Resumes m a p) (g : Group I ρ)
    (k : Except I.Err (List ρ) → Program I ρ α) (hm : m = .gathering g k) :
    g.verdict.isSome = true := by
  cases hp with
  | start | stop | reply => cases hm
  | wake g' k' v hv =>
    injection hm with hg _
    rw [← hg, hv]
    rfl

theorem Supervises.moveChild (hS : Supervises h M J) (hs : Structured M.allowed s)
    (hc : s.children[i]? = some c) (hp : c.next answer = some p) (hJ : J s.shared m)
    (hacc : s.main.Accepted M Q m) : J (s.moveChild h i c p).shared m := by
  by_cases hq : c.quiet = true
  · rw [shared_moveChild_of_quiet hs hc hp hq]
    exact hJ
  · -- A child that is not quiet is one that is gathered.
    have hgather : ∃ cs, M.monitor.allow m (.gather cs) := by
      cases hmain : s.main with
      | gathering g k =>
        rw [hmain] at hacc
        obtain ⟨cs, hk⟩ := hacc
        exact ⟨cs, hk.1⟩
      | ready | done => exact absurd (hs.all_quiet (fun g k hg =>
        by rw [hmain] at hg; cases hg) i c hc) hq
      | waiting w k =>
        exact absurd (hs.all_quiet (fun g k hg => by rw [hmain] at hg; cases hg) i c hc) hq
    obtain ⟨cs, hallow⟩ := hgather
    obtain ⟨cancelled, hobeys, -⟩ := Child.next_obeys (hs.obeys i c hc) hp
    exact hobeys.settle_keeps (fun op t hop ht => hS.child t m cs op ht hallow hop) hJ

theorem Main.Accepted.note {m : Main I ρ α} {x : μ} (hacc : m.Accepted M Q x)
    (children : List (Child I ρ)) (i : Nat) (t : Task I ρ) :
    (m.note children i t).Accepted M Q x := by
  cases m with
  | gathering | ready | waiting | done => exact hacc

/-- What `ok` has to guarantee: the run is orderly, the main task is given only replies it may be
given, and one that is cancelled before it began may end as it does. -/
structure Regular (h : I.Service σ) (M : Watch I ρ μ) (Q : Except I.Err α → μ → Prop)
    (ok : State I ρ α σ → Action I → Bool) : Prop where
  orderly : ∀ s a, ok s a = true → orderly h s a = true
  given : ∀ s a w k r, ok s a = true → s.main = .waiting w k → a.reply w = some r → M.given w r
  early : ∀ s p m, ok s .cancel = true → s.main = .ready p → Q (.error I.cancelled) m

theorem Watched.step (hS : Supervises h M J) (hR : Regular h M Q ok) (hs : Watched M Q J s)
    (hok : ok s a = true) (hmoved : Moved h s a s') : Watched M Q J s' := by
  obtain ⟨hst, m, hJ, hacc⟩ := hs
  cases hmoved with
  | run a p hp =>
    have hquiet : ∀ (i : Nat) (c : Child I ρ), s.children[i]? = some c → c.quiet = true :=
      hst.all_quiet fun g k hg => hp.over g k hg
    cases hmain : s.main with
    | ready q =>
      rw [hmain] at hp hacc
      cases hp with
      | start _ answer => exact hS.settle hst.obeys hquiet p m _ hacc hJ
      | stop _ => exact hS.settle hst.obeys hquiet _ m _ (hR.early s q m hok hmain) hJ
    | waiting w k =>
      rw [hmain] at hp hacc
      cases hp with
      | reply _ _ _ r hr =>
        obtain ⟨hpossible, hJ'⟩ :=
          hS.later _ m w r hJ hacc.1 (hR.given s a w k r hok hmain hr)
        exact hS.settle hst.obeys hquiet _ _ _ (hacc.2 r hpossible) hJ'
    | gathering g k =>
      rw [hmain] at hp hacc
      obtain ⟨cs, hk⟩ := hacc
      cases hp with
      | wake _ _ v hv =>
        obtain ⟨hpossible, hJ'⟩ := hS.wake _ m cs v hJ hk.1
        exact hS.settle hst.obeys hquiet _ _ _ (hk.2 v hpossible) hJ'
    | done r =>
      rw [hmain] at hp
      cases hp
  | tell g k hg hv =>
    rw [hg] at hacc
    exact ⟨hst.tellGroup hg, m, hJ, hacc⟩
  | overrule g k hg hv =>
    rw [hg] at hacc
    exact ⟨hst.overrule hg hv, m, hJ, hacc⟩
  | child i answer c p hc hp =>
    refine ⟨hst.moveChild (hR.orderly _ _ hok) hc hp, m, ?_, hacc.note _ _ _⟩
    exact hS.moveChild hst hc hp hJ hacc

/-- Along a regular run the main task stays where its monitor is. -/
theorem Run.watched (hS : Supervises h M J) (hR : Regular h M Q ok) {p : Program I ρ α} {w : σ}
    (hp : p.wp M.logic Q m) (hw : J w m) (hr : Run h ok (State.initial p w) s) :
    Watched M Q J s := by
  refine hr.rule ⟨⟨?_, ?_⟩, m, hw, hp⟩ fun t a t' ht hok hmoved => ht.step hS hR hok hmoved
  · intro i c hc
    cases hc
  · intro i c hc
    cases hc

/-- Where the monitor allows nothing more, no step changes what is shared. -/
theorem Structured.frozen (hs : Structured M.allowed s) (hacc : s.main.Accepted M Q m)
    (hnone : ∀ op, ¬ M.monitor.allow m op) (hmoved : Moved h s a s') : s'.shared = s.shared := by
  cases hmoved with
  | run a p hp =>
    cases hmain : s.main with
    | ready q =>
      rw [hmain] at hp hacc
      cases hp with
      | start _ answer =>
        cases p with
        | ret r => rfl
        | call op k => exact absurd hacc.1 (hnone op)
      | stop _ => rfl
    | waiting w k =>
      rw [hmain] at hacc
      exact absurd hacc.1 (hnone _)
    | gathering g k =>
      rw [hmain] at hacc
      obtain ⟨cs, hk⟩ := hacc
      exact absurd hk.1 (hnone _)
    | done r =>
      rw [hmain] at hp
      cases hp
  | tell | overrule => rfl
  | child i answer c p hc hp =>
    refine shared_moveChild_of_quiet hs hc hp (hs.all_quiet ?_ i c hc)
    intro g k hg
    rw [hg] at hacc
    obtain ⟨cs, hk⟩ := hacc
    exact absurd hk.1 (hnone _)

end Watching

end RagForge.Async
