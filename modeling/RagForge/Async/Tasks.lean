import RagForge.Effect.Logic
import RagForge.Sequence.Follow

/-
Coroutines of one event loop.

A coroutine performs some operations at once and awaits others.  Between two awaits nothing else
runs, so a step lets one task go from one await to the next.  The main task may gather children: it
is given their results, or the first exception one of them raises, and then the other children go
on by themselves.  Cancelling a task that gathers cancels the children that have not ended.
-/

namespace RagForge.Async

open Effect Sequence

/-- The operations of coroutines: those performed at once and those that are awaited. -/
structure Interface where
  Now : Type
  NowReply : Now → Type
  Later : Type
  LaterReply : Later → Type
  Err : Type
  /-- What a cancelled task is woken with. -/
  cancelled : Err

variable {I : Interface} {ρ α σ : Type}

abbrev Interface.Answer (I : Interface) : Type := (w : I.Later) → Except I.Err (I.LaterReply w)

abbrev Interface.Service (I : Interface) (σ : Type) : Type :=
  (op : I.Now) → σ → Except I.Err (I.NowReply op) × σ

/-! ## Code -/

inductive ChildOp (I : Interface)
  | now (op : I.Now)
  | later (w : I.Later)

def ChildOp.Reply : ChildOp I → Type
  | .now op => I.NowReply op
  | .later w => I.LaterReply w

def Interface.child (I : Interface) : Sig := ⟨ChildOp I, ChildOp.Reply, I.Err⟩

abbrev Coroutine (I : Interface) (ρ : Type) : Type := Prog I.child (Except I.Err ρ)

inductive MainOp (I : Interface) (ρ : Type)
  | now (op : I.Now)
  | later (w : I.Later)
  | gather (children : List (Coroutine I ρ))

def MainOp.Reply : MainOp I ρ → Type
  | .now op => I.NowReply op
  | .later w => I.LaterReply w
  | .gather _ => List ρ

def Interface.main (I : Interface) (ρ : Type) : Sig := ⟨MainOp I ρ, MainOp.Reply, I.Err⟩

/-- A coroutine that may gather children with results in `ρ`. -/
abbrev Program (I : Interface) (ρ α : Type) : Type := Prog (I.main ρ) (Except I.Err α)

def Coroutine.of (p : Proc I.child Unit ρ) : Coroutine I ρ := (p.start ()).bind fun x => .ret x.1

def Program.of (p : Proc (I.main ρ) Unit α) : Program I ρ α := (p.start ()).bind fun x => .ret x.1

def Coroutine.embed {β : Type} : Prog I.child β → Prog (I.main ρ) β
  | .ret b => .ret b
  | .call (.now op) k => .call (.now op) fun r => Coroutine.embed (k r)
  | .call (.later w) k => .call (.later w) fun r => Coroutine.embed (k r)

/-! ## Tasks -/

inductive Task (I : Interface) (ρ : Type)
  | ready (p : Coroutine I ρ)
  | waiting (w : I.Later) (k : Except I.Err (I.LaterReply w) → Coroutine I ρ)
  | done (r : Except I.Err ρ)

def Coroutine.settle (h : I.Service σ) : Coroutine I ρ → σ → Task I ρ × σ
  | .ret r, s => (.done r, s)
  | .call (.now op) k, s => Coroutine.settle h (k (h op s).1) (h op s).2
  | .call (.later w) k, s => (.waiting w k, s)

structure Child (I : Interface) (ρ : Type) where
  task : Task I ρ
  told : Bool

namespace Child

/-- What a child goes on with.  One that was told to cancel is woken with that, whatever it
awaits. -/
def next (c : Child I ρ) (answer : I.Answer) : Option (Coroutine I ρ) :=
  match c.task with
  | .ready p => some (if c.told then .ret (.error I.cancelled) else p)
  | .waiting w k => some (k (if c.told then .error I.cancelled else answer w))
  | .done _ => none

def result (c : Child I ρ) : Option (Except I.Err ρ) :=
  match c.task with
  | .done r => some r
  | _ => none

def raised (c : Child I ρ) : Bool :=
  match c.task with
  | .done (.error _) => true
  | _ => false

def quiet (c : Child I ρ) : Bool := c.told || c.result.isSome

def tell (c : Child I ρ) : Child I ρ := if c.result.isSome then c else { c with told := true }

end Child

def returned : List (Child I ρ) → Option (List ρ)
  | [] => some []
  | c :: rest =>
    match c.result with
    | some (.ok r) => (returned rest).map (r :: ·)
    | _ => none

/-- The children a task gathers: where they start in the list of all children, how the gathering
ended, and whether it was cancelled before. -/
structure Group (I : Interface) (ρ : Type) where
  first : Nat
  verdict : Option (Except I.Err (List ρ))
  told : Bool

/-- Take note of a step of child `i`.  The first exception decides; without one the last child to
return does. -/
def Group.note (g : Group I ρ) (children : List (Child I ρ)) (i : Nat) (t : Task I ρ) :
    Group I ρ :=
  if g.verdict.isSome || decide (i < g.first) then g
  else
    match t with
    | .done (.error e) => { g with verdict := some (.error e) }
    | .done (.ok _) =>
      { g with verdict := (returned (children.drop g.first)).map fun rs =>
          if g.told then .error I.cancelled else .ok rs }
    | _ => g

inductive Main (I : Interface) (ρ α : Type)
  | ready (p : Program I ρ α)
  | waiting (w : I.Later) (k : Except I.Err (I.LaterReply w) → Program I ρ α)
  | gathering (g : Group I ρ) (k : Except I.Err (List ρ) → Program I ρ α)
  | done (r : Except I.Err α)

def Main.note (m : Main I ρ α) (children : List (Child I ρ)) (i : Nat) (t : Task I ρ) :
    Main I ρ α :=
  match m with
  | .gathering g k => .gathering (g.note children i t) k
  | m => m

def Main.ended : Main I ρ α → Bool
  | .done _ => true
  | _ => false

structure State (I : Interface) (ρ α σ : Type) where
  main : Main I ρ α
  children : List (Child I ρ)
  shared : σ

def Program.settle (h : I.Service σ) (children : List (Child I ρ)) :
    Program I ρ α → σ → State I ρ α σ
  | .ret r, s => ⟨.done r, children, s⟩
  | .call (.now op) k, s => Program.settle h children (k (h op s).1) (h op s).2
  | .call (.later w) k, s => ⟨.waiting w k, children, s⟩
  | .call (.gather cs) k, s =>
    { main := .gathering ⟨children.length, if cs.isEmpty then some (.ok []) else none, false⟩ k
      children := children ++ cs.map fun c => ⟨.ready c, false⟩
      shared := s }

/-! ## Steps -/

inductive Action (I : Interface)
  /-- Start the main task, or give it what it awaits. -/
  | main (answer : I.Answer)
  /-- Wake the main task with the outcome of what it gathers. -/
  | wake
  /-- Cancel the main task. -/
  | cancel
  /-- Start a child, or give it what it awaits. -/
  | child (i : Nat) (answer : I.Answer)

/-- What an action replies to a main task that awaits `w`. -/
def Action.reply (a : Action I) (w : I.Later) : Option (Except I.Err (I.LaterReply w)) :=
  match a with
  | .main answer => some (answer w)
  | .cancel => some (.error I.cancelled)
  | _ => none

namespace State

variable (h : I.Service σ) (s : State I ρ α σ)

def initial (p : Program I ρ α) (w : σ) : State I ρ α σ := ⟨.ready p, [], w⟩

/-- Child `i`, which was `c`, runs `p` up to its next await. -/
def moveChild (i : Nat) (c : Child I ρ) (p : Coroutine I ρ) : State I ρ α σ :=
  let out := p.settle h s.shared
  let children := s.children.set i ⟨out.1, c.told⟩
  ⟨s.main.note children i out.1, children, out.2⟩

def tellGroup (g : Group I ρ) (k : Except I.Err (List ρ) → Program I ρ α) : State I ρ α σ :=
  { s with
    main := .gathering { g with told := true } k
    children := s.children.mapIdx fun i c => if i < g.first then c else c.tell }

/-- Cancel a gathering that is over before the main task was woken. -/
def overrule (g : Group I ρ) (k : Except I.Err (List ρ) → Program I ρ α) : State I ρ α σ :=
  { s with main := .gathering { g with verdict := some (.error I.cancelled) } k }

end State

def step (h : I.Service σ) (s : State I ρ α σ) : Action I → Option (State I ρ α σ)
  | .main answer =>
    match s.main with
    | .ready p => some (p.settle h s.children s.shared)
    | .waiting w k => some ((k (answer w)).settle h s.children s.shared)
    | _ => none
  | .wake =>
    match s.main with
    | .gathering g k => g.verdict.map fun v => (k v).settle h s.children s.shared
    | _ => none
  | .cancel =>
    match s.main with
    | .ready _ => some { s with main := .done (.error I.cancelled) }
    | .waiting _ k => some ((k (.error I.cancelled)).settle h s.children s.shared)
    | .gathering g k => some (if g.verdict.isSome then s.overrule g k else s.tellGroup g k)
    | .done _ => none
  | .child i answer =>
    match s.children[i]? with
    | none => none
    | some c => (c.next answer).map fun p => s.moveChild h i c p

inductive Resumes : Main I ρ α → Action I → Program I ρ α → Prop
  | start (p : Program I ρ α) (answer : I.Answer) : Resumes (.ready p) (.main answer) p
  | stop (p : Program I ρ α) : Resumes (.ready p) .cancel (.ret (.error I.cancelled))
  | reply (w : I.Later) (k : Except I.Err (I.LaterReply w) → Program I ρ α) (a : Action I)
      (r : Except I.Err (I.LaterReply w)) (hr : a.reply w = some r) : Resumes (.waiting w k) a (k r)
  | wake (g : Group I ρ) (k : Except I.Err (List ρ) → Program I ρ α)
      (v : Except I.Err (List ρ)) (hv : g.verdict = some v) : Resumes (.gathering g k) .wake (k v)

/-- The cases of `step`, with their guards. -/
inductive Moved (h : I.Service σ) (s : State I ρ α σ) : Action I → State I ρ α σ → Prop
  | run (a : Action I) (p : Program I ρ α) (hp : Resumes s.main a p) :
      Moved h s a (p.settle h s.children s.shared)
  | tell (g : Group I ρ) (k : Except I.Err (List ρ) → Program I ρ α)
      (hg : s.main = .gathering g k) (hv : g.verdict = none) : Moved h s .cancel (s.tellGroup g k)
  | overrule (g : Group I ρ) (k : Except I.Err (List ρ) → Program I ρ α)
      (hg : s.main = .gathering g k) (hv : g.verdict.isSome = true) :
      Moved h s .cancel (s.overrule g k)
  | child (i : Nat) (answer : I.Answer) (c : Child I ρ) (p : Coroutine I ρ)
      (hc : s.children[i]? = some c) (hp : c.next answer = some p) :
      Moved h s (.child i answer) (s.moveChild h i c p)

theorem step_moved {h : I.Service σ} {s s' : State I ρ α σ} {a : Action I}
    (hs : step h s a = some s') : Moved h s a s' := by
  cases a with
  | main answer =>
    simp only [step] at hs
    split at hs
    · next p hm =>
      cases hs
      exact .run _ p (by rw [hm]; exact .start p answer)
    · next w k hm =>
      cases hs
      exact .run _ _ (by rw [hm]; exact .reply w k _ _ rfl)
    · cases hs
  | wake =>
    simp only [step] at hs
    split at hs
    · next g k hm =>
      obtain ⟨v, hv, rfl⟩ := Option.map_eq_some_iff.mp hs
      exact .run _ _ (by rw [hm]; exact .wake g k v hv)
    · cases hs
  | cancel =>
    simp only [step] at hs
    split at hs
    · next p hm =>
      cases hs
      exact .run _ (.ret (.error I.cancelled)) (by rw [hm]; exact .stop p)
    · next w k hm =>
      cases hs
      exact .run _ _ (by rw [hm]; exact .reply w k _ _ rfl)
    · next g k hm =>
      cases hs
      by_cases hv : g.verdict.isSome = true
      · rw [if_pos hv]
        exact .overrule g k hm hv
      · rw [if_neg hv]
        exact .tell g k hm (by simpa using hv)
    · cases hs
  | child i answer =>
    simp only [step] at hs
    split at hs
    · cases hs
    · next c hc =>
      obtain ⟨p, hp, rfl⟩ := Option.map_eq_some_iff.mp hs
      exact .child i answer c p hc hp

/-! ## Runs -/

/-- A run in which `ok` allows every action. -/
inductive Run (h : I.Service σ) (ok : State I ρ α σ → Action I → Bool) (s : State I ρ α σ) :
    State I ρ α σ → Prop
  | refl : Run h ok s s
  | step {s' s'' : State I ρ α σ} (a : Action I) (hr : Run h ok s s') (hok : ok s' a = true)
      (hs : step h s' a = some s'') : Run h ok s s''

theorem Run.rule {h : I.Service σ} {ok : State I ρ α σ → Action I → Bool}
    {P : State I ρ α σ → Prop} {s s' : State I ρ α σ} (hr : Run h ok s s') (hinit : P s)
    (hstep : ∀ t a t', P t → ok t a = true → Moved h t a t' → P t') : P s' := by
  induction hr with
  | refl => exact hinit
  | step a _ hok hs ih => exact hstep _ a _ ih hok (step_moved hs)

theorem exists_run (h : I.Service σ) (ok : State I ρ α σ → Action I → Bool)
    (s : State I ρ α σ) (actions : List (Action I)) (p : State I ρ α σ → Bool)
    (hf : (follow (step h) ok actions s).any p = true) : ∃ t, Run h ok s t ∧ p t = true :=
  exists_of_follow (fun _ a _ hr hok hs => .step a hr hok hs) actions .refl hf

end RagForge.Async
