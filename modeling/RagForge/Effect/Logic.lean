import RagForge.Effect.Prog

/-
Weakest preconditions for effectful programs.

A `Logic` gives each operation a predicate transformer over a state type.  `Prog.wp` and `Proc.wp`
extend it to programs.  Two logics are used below: the one of a deterministic handler, and the one
of a monitor that watches the operations of a program whatever the replies are.
-/

namespace RagForge.Effect

variable {S : Sig} {σ L α β : Type}

/-- A monotone predicate transformer for each operation. -/
structure Logic (S : Sig) (σ : Type) where
  wp : (op : S.Op) → (S.Result op → σ → Prop) → σ → Prop
  mono : ∀ {op : S.Op} {P Q : S.Result op → σ → Prop} {s : σ},
    (∀ r s, P r s → Q r s) → wp op P s → wp op Q s

variable {A : Logic S σ}

namespace Prog

def wp (A : Logic S σ) : Prog S α → (α → σ → Prop) → σ → Prop
  | .ret a, Q, s => Q a s
  | .call op k, Q, s => A.wp op (fun r s => (k r).wp A Q s) s

@[simp] theorem wp_ret (a : α) (Q : α → σ → Prop) (s : σ) :
    (Prog.ret a : Prog S α).wp A Q s ↔ Q a s := Iff.rfl

@[simp] theorem wp_call (op : S.Op) (k : S.Result op → Prog S α) (Q : α → σ → Prop) (s : σ) :
    (Prog.call op k).wp A Q s ↔ A.wp op (fun r s => (k r).wp A Q s) s := Iff.rfl

theorem wp_mono {P Q : α → σ → Prop} (h : ∀ a s, P a s → Q a s) (p : Prog S α) :
    ∀ s, p.wp A P s → p.wp A Q s := by
  induction p with
  | ret a => exact h a
  | call op k ih => exact fun s => A.mono fun r s => ih r s

theorem wp_bind (p : Prog S α) (f : α → Prog S β) (Q : β → σ → Prop) :
    ∀ s, (p.bind f).wp A Q s ↔ p.wp A (fun a s => (f a).wp A Q s) s := by
  induction p with
  | ret a => exact fun s => Iff.rfl
  | call op k ih =>
    intro s
    exact ⟨A.mono fun r s => (ih r s).mp, A.mono fun r s => (ih r s).mpr⟩

end Prog

variable {l : L} {s : σ} {p : Proc S L α}

namespace Proc

/-- Weakest precondition of code with local variables. -/
def wp (A : Logic S σ) (p : Proc S L α) (Q : Except S.Err α → L → σ → Prop) (l : L) (s : σ) :
    Prop :=
  (p l).wp A (fun x s => Q x.1 x.2 s) s

variable {Q : Except S.Err β → L → σ → Prop}

theorem wp_start (p : Proc S L α) (Q : Except S.Err α → L → σ → Prop) :
    (p.start l).wp A (fun x s => Q x.1 x.2 s) s ↔ p.wp A Q l s := Iff.rfl

theorem wp_mono {P Q : Except S.Err α → L → σ → Prop}
    (h : p.wp A P l s) (hPQ : ∀ r l s, P r l s → Q r l s) : p.wp A Q l s :=
  Prog.wp_mono (fun (x : Except S.Err α × L) s => hPQ x.1 x.2 s) (p l) s h

@[simp] theorem wp_pure (b : β) : (pure b : Proc S L β).wp A Q l s ↔ Q (.ok b) l s := Iff.rfl

@[simp] theorem wp_raise (e : S.Err) : (raise e : Proc S L β).wp A Q l s ↔ Q (.error e) l s :=
  Iff.rfl

@[simp] theorem wp_bind (p : Proc S L α) (f : α → Proc S L β) :
    (p >>= f).wp A Q l s ↔
      p.wp A (fun r l s =>
        match r with
        | .ok a => (f a).wp A Q l s
        | .error e => Q (.error e) l s) l s := by
  refine ((p l).wp_bind _ _ s).trans ?_
  constructor <;> refine Prog.wp_mono ?_ _ s <;> rintro ⟨_ | a, l⟩ s h <;> exact h

@[simp] theorem wp_handle (p : Proc S L β) (h : S.Err → Proc S L β) :
    (p.handle h).wp A Q l s ↔
      p.wp A (fun r l s =>
        match r with
        | .ok b => Q (.ok b) l s
        | .error e => (h e).wp A Q l s) l s := by
  refine ((p l).wp_bind _ _ s).trans ?_
  constructor <;> refine Prog.wp_mono ?_ _ s <;> rintro ⟨_ | a, l⟩ s h <;> exact h

@[simp] theorem wp_perform (op : S.Op) (Q : S.Result op → L → σ → Prop) :
    (perform op : Proc S L _).wp A Q l s ↔ A.wp op (fun r s => Q r l s) s := Iff.rfl

@[simp] theorem wp_read (Q : Except S.Err L → L → σ → Prop) :
    (read : Proc S L L).wp A Q l s ↔ Q (.ok l) l s := Iff.rfl

@[simp] theorem wp_ite (c : Prop) [Decidable c] (p q : Proc S L β) :
    (if c then p else q).wp A Q l s ↔ if c then p.wp A Q l s else q.wp A Q l s := by
  split <;> rfl

@[simp] theorem wp_ofExcept (x : Except S.Err β) :
    (ofExcept x : Proc S L β).wp A Q l s ↔ Q x l s := by
  cases x <;> simp [ofExcept]

end Proc

/-! ## Deterministic handlers -/

abbrev Handler (S : Sig) (σ : Type) : Type := (op : S.Op) → σ → S.Result op × σ

structure Event (S : Sig) where
  op : S.Op
  reply : S.Result op

def Handler.logic (h : Handler S σ) : Logic S σ where
  wp op Q s := Q (h op s).1 (h op s).2
  mono hPQ := hPQ _ _

@[simp] theorem Handler.logic_wp (h : Handler S σ) (op : S.Op) (Q : S.Result op → σ → Prop)
    (s : σ) : h.logic.wp op Q s ↔ Q (h op s).1 (h op s).2 := Iff.rfl

def Prog.run (h : Handler S σ) : Prog S α → σ → α × σ
  | .ret a, s => (a, s)
  | .call op k, s => (k (h op s).1).run h (h op s).2

theorem Prog.wp_logic_iff (h : Handler S σ) (p : Prog S α) (Q : α → σ → Prop) :
    ∀ s, p.wp h.logic Q s ↔ Q (p.run h s).1 (p.run h s).2 := by
  induction p with
  | ret a => exact fun s => Iff.rfl
  | call op k ih => exact fun s => ih (h op s).1 (h op s).2

variable {h : Handler S σ}

theorem Prog.run_inv {I : σ → Prop} (hI : ∀ op s, I s → I (h op s).2)
    (p : Prog S α) : ∀ s, I s → I (p.run h s).2 := by
  induction p with
  | ret a => exact fun s hs => hs
  | call op k ih => exact fun s hs => ih _ _ (hI op s hs)

def Proc.run (h : Handler S σ) (p : Proc S L α) (l : L) (s : σ) : Except S.Err α × L × σ :=
  let out := (p l).run h s
  (out.1.1, out.1.2, out.2)

theorem Proc.wp_logic_iff (h : Handler S σ) (p : Proc S L α) (Q : Except S.Err α → L → σ → Prop)
    (l : L) (s : σ) :
    p.wp h.logic Q l s ↔ Q (p.run h l s).1 (p.run h l s).2.1 (p.run h l s).2.2 :=
  Prog.wp_logic_iff h (p l) _ s

variable {l' : L} {s' : σ}

theorem Proc.run_bind_ok {f : α → Proc S L β} {a : α} (hp : p.run h l s = (.ok a, l', s')) :
    (p >>= f).run h l s = (f a).run h l' s' := by
  refine (Proc.wp_logic_iff h (p >>= f) (fun r l s => (r, l, s) = (f a).run h l' s') l s).mp ?_
  rw [Proc.wp_bind, Proc.wp_logic_iff, hp]
  exact (Proc.wp_logic_iff h (f a) _ l' s').mpr rfl

theorem Proc.run_bind_error {f : α → Proc S L β} {e : S.Err}
    (hp : p.run h l s = (.error e, l', s')) : (p >>= f).run h l s = (.error e, l', s') := by
  refine (Proc.wp_logic_iff h (p >>= f) (fun r l s => (r, l, s) = (.error e, l', s')) l s).mp ?_
  rw [Proc.wp_bind, Proc.wp_logic_iff, hp]

end RagForge.Effect
