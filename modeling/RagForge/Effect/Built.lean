import RagForge.Effect.Frame

/-
Code that is built from blocks.

`Built R p P` says that code is put together from the blocks that `R` names and returns only
results that satisfy `P`.  It is proved once along the code, and every frame that the blocks keep
then holds of the whole.
-/

namespace RagForge.Effect

variable {S : Sig} {L σ : Type}

/-- The blocks of some code, and what holds of its local variables all along. -/
structure Rules (S : Sig) (L : Type) where
  inv : L → Prop
  block : {α : Type} → Proc S L α → Prop

inductive Built (R : Rules S L) : {α : Type} → Proc S L α → (α → Prop) → Prop
  | pure {α : Type} {P : α → Prop} {a : α} (h : P a) : Built R (pure a) P
  | raise {α : Type} {P : α → Prop} (e : S.Err) : Built R (Proc.raise e) P
  | read {P : L → Prop} (h : ∀ l, R.inv l → P l) : Built R Proc.read P
  | block {α : Type} {P : α → Prop} {p : Proc S L α} (hp : R.block p) (h : ∀ a, P a) : Built R p P
  | bind {α β : Type} {P : α → Prop} {Q : β → Prop} {p : Proc S L α} {f : α → Proc S L β}
      (hp : Built R p P) (hf : ∀ a, P a → Built R (f a) Q) : Built R (p >>= f) Q
  | handle {α : Type} {P : α → Prop} {p : Proc S L α} {f : S.Err → Proc S L α}
      (hp : Built R p P) (hf : ∀ e, Built R (f e) P) : Built R (p.handle f) P

variable {α β γ : Type} {c : Prop} {A : Logic S σ} {F : Frame L σ} {p q : Proc S L α}
  {f : α → Proc S L β} {body : γ → Proc S L Unit}

namespace Built

variable {R : Rules S L} {P : α → Prop} {Q : β → Prop}

theorem mono {P' : α → Prop} (h : Built R p P) (hP : ∀ a, P a → P' a) : Built R p P' := by
  induction h with
  | pure ha => exact .pure (hP _ ha)
  | raise e => exact .raise e
  | read hread => exact .read fun l hl => hP l (hread l hl)
  | block hp hres => exact .block hp fun a => hP a (hres a)
  | bind hp hf ihp ihf => exact .bind hp fun a ha => ihf a ha hP
  | handle hp hf ihp ihf => exact .handle (ihp hP) fun e => ihf e hP

theorem read_bind {f : L → Proc S L β} (hf : ∀ l, R.inv l → Built R (f l) Q) :
    Built R (Proc.read >>= f) Q :=
  .bind (.read fun _ h => h) hf

theorem block_bind (hp : R.block p) (hf : ∀ a, Built R (f a) Q) : Built R (p >>= f) Q :=
  .bind (.block hp fun _ => trivial) fun a _ => hf a

theorem ite [Decidable c] (hp : c → Built R p P)
    (hq : ¬ c → Built R q P) : Built R (if c then p else q) P := by
  by_cases hc : c
  · rw [if_pos hc]
    exact hp hc
  · rw [if_neg hc]
    exact hq hc

theorem forEach (xs : List γ) (hbody : ∀ x ∈ xs, Built R (body x) fun _ => True) :
    Built R (Proc.forEach xs body) fun _ => True := by
  induction xs with
  | nil => exact .pure trivial
  | cons x rest ih =>
    refine .bind (hbody x List.mem_cons_self) fun _ _ => ?_
    exact ih fun y hy => hbody y (List.mem_cons_of_mem x hy)

theorem ensures (hinv : ∀ {l s l' s'}, F.rel l s l' s' → R.inv l → R.inv l')
    (hblock : ∀ {α : Type} {p : Proc S L α}, R.block p → ∀ l s, R.inv l →
      Ensures A F p (fun _ _ _ => True) l s)
    (h : Built R p P) : ∀ l s, R.inv l → Ensures A F p (fun a _ _ => P a) l s := by
  induction h with
  | pure ha => exact fun l s _ => .pure ha
  | raise e => exact fun l s _ => .raise e
  | read hP => exact fun l s hl => .read (hP l hl)
  | block hp hP => exact fun l s hl => (hblock hp l s hl).mono fun a _ _ _ _ => hP a
  | bind hp hf ihp ihf =>
    intro l s hl
    refine (ihp l s hl).bind ?_
    intro a l' s' hrel ha
    exact ihf a ha l' s' (hinv hrel hl)
  | handle hp hf ihp ihf =>
    intro l s hl
    refine (ihp l s hl).handle ?_
    intro e l' s' hrel
    exact ihf e l' s' (hinv hrel hl)

theorem relax {R' : Rules S L} (h : Built R p P) (hinv : ∀ l, R'.inv l → R.inv l)
    (hblock : ∀ {α : Type} {p : Proc S L α}, R.block p → R'.block p) : Built R' p P := by
  induction h with
  | pure ha => exact .pure ha
  | raise e => exact .raise e
  | read hP => exact .read fun l hl => hP l (hinv l hl)
  | block hp hP => exact .block (hblock hp) hP
  | bind hp hf ihp ihf => exact .bind ihp ihf
  | handle hp hf ihp ihf => exact .handle ihp ihf

theorem ofExcept {x : Except S.Err α} (h : ∀ a, x = .ok a → P a) :
    Built R (Proc.ofExcept x : Proc S L α) P := by
  cases x with
  | error e => exact .raise e
  | ok a => exact .pure (h a rfl)

end Built

/-! ## Code that performs certain operations -/

inductive OneOf (ok : S.Op → Prop) : {α : Type} → Proc S L α → Prop
  | op (o : S.Op) (h : ok o) : OneOf ok (Proc.perform o)

def Rules.only (ok : S.Op → Prop) : Rules S L := ⟨fun _ => True, OneOf ok⟩

def Performs {α : Type} (ok : S.Op → Prop) (p : Proc S L α) : Prop :=
  Built (Rules.only ok) p fun _ => True

namespace Performs

variable {ok : S.Op → Prop}

theorem pure (a : α) : Performs (L := L) ok (Pure.pure a) := Built.pure trivial

theorem raise (e : S.Err) : Performs (L := L) ok (Proc.raise e : Proc S L α) := Built.raise e

theorem perform {op : S.Op} (h : ok op) : Performs (L := L) ok (Proc.perform op) :=
  .block (.op op h) fun _ => trivial

theorem ofExcept (x : Except S.Err α) : Performs (L := L) ok (Proc.ofExcept x) :=
  Built.ofExcept fun _ _ => trivial

theorem bind (hp : Performs ok p) (hf : ∀ a, Performs ok (f a)) : Performs ok (p >>= f) :=
  Built.bind hp fun a _ => hf a

theorem handle {f : S.Err → Proc S L α} (hp : Performs ok p) (hf : ∀ e, Performs ok (f e)) :
    Performs ok (p.handle f) :=
  Built.handle hp hf

theorem ite [Decidable c] (hp : Performs ok p) (hq : Performs ok q) :
    Performs ok (if c then p else q) :=
  Built.ite (fun _ => hp) fun _ => hq

theorem forEach (xs : List γ)
    (hbody : ∀ x ∈ xs, Performs ok (body x)) : Performs ok (Proc.forEach xs body) :=
  Built.forEach xs hbody

theorem mono {ok' : S.Op → Prop} (h : Performs ok p) (hok : ∀ op, ok op → ok' op) :
    Performs ok' p := by
  refine h.relax (fun _ hl => hl) ?_
  intro γ q hq
  cases hq with
  | op o ho => exact .op o (hok o ho)

theorem ensures (h : Performs ok p)
    (hop : ∀ op, ok op → ∀ l s, Ensures A F (Proc.perform op) (fun _ _ _ => True) l s) (l : L)
    (s : σ) : Ensures A F p (fun _ _ _ => True) l s := by
  refine Built.ensures (fun _ hl => hl) ?_ h l s trivial
  intro γ q hq l s _
  cases hq with
  | op o ho => exact hop o ho l s

end Performs

end RagForge.Effect
