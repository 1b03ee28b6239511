import RagForge.Effect.Logic

/-
Postconditions with a frame.

Most code leaves most things alone.  A `Frame` is a preorder that says how local variables and
state may move; `Ensures` asks for the frame on every outcome and for a postcondition when the code
returns.  The rules follow the shape of the code, so a proof about a function reads like the
function.
-/

namespace RagForge.Effect

variable {S : Sig} {σ L α β : Type} {p : Proc S L α} {f : α → Proc S L β} {a : α} {l : L}
  {P' : α → L → σ → Prop} {g : L → L} {op : S.Op}

/-- How local variables and state may move. -/
structure Frame (L σ : Type) where
  rel : L → σ → L → σ → Prop
  refl : ∀ l s, rel l s l s
  trans : ∀ {l₁ s₁ l₂ s₂ l₃ s₃}, rel l₁ s₁ l₂ s₂ → rel l₂ s₂ l₃ s₃ → rel l₁ s₁ l₃ s₃

/-- Whatever the outcome the frame holds, and a result satisfies `P`. -/
structure Ensures (A : Logic S σ) (F : Frame L σ) (p : Proc S L α) (P : α → L → σ → Prop) (l : L)
    (s : σ) : Prop where
  wp : p.wp A (fun r l' s' => F.rel l s l' s' ∧ ∀ a, r = .ok a → P a l' s') l s

namespace Ensures

variable {A : Logic S σ} {F : Frame L σ} {l : L} {s : σ} {P : α → L → σ → Prop}
  {Q : β → L → σ → Prop}

theorem pure (h : P a l s) : Ensures A F (pure a) P l s :=
  ⟨⟨F.refl l s, fun _ hb => Except.ok.inj hb ▸ h⟩⟩

theorem raise (e : S.Err) : Ensures A F (Proc.raise e) P l s :=
  ⟨⟨F.refl l s, fun _ hb => nomatch hb⟩⟩

theorem mono (h : Ensures A F p P l s) (hP : ∀ a l' s', F.rel l s l' s' → P a l' s' → P' a l' s') :
    Ensures A F p P' l s :=
  ⟨Proc.wp_mono h.wp fun _ _ _ hr => ⟨hr.1, fun a ha => hP a _ _ hr.1 (hr.2 a ha)⟩⟩

theorem bind (hp : Ensures A F p P l s)
    (hf : ∀ a l' s', F.rel l s l' s' → P a l' s' → Ensures A F (f a) Q l' s') :
    Ensures A F (p >>= f) Q l s := by
  refine ⟨(Proc.wp_bind p f).mpr (Proc.wp_mono hp.wp ?_)⟩
  rintro (e | a) l' s' ⟨hframe, hres⟩
  · exact ⟨hframe, fun b hb => nomatch hb⟩
  · refine Proc.wp_mono (hf a l' s' hframe (hres a rfl)).wp ?_
    intro r l'' s'' hr
    exact ⟨F.trans hframe hr.1, hr.2⟩

theorem handle {f : S.Err → Proc S L α} (hp : Ensures A F p P l s)
    (hf : ∀ e l' s', F.rel l s l' s' → Ensures A F (f e) P l' s') :
    Ensures A F (p.handle f) P l s := by
  refine ⟨(Proc.wp_handle p f).mpr (Proc.wp_mono hp.wp ?_)⟩
  rintro (e | a) l' s' ⟨hframe, hres⟩
  · refine Proc.wp_mono (hf e l' s' hframe).wp ?_
    intro r l'' s'' hr
    exact ⟨F.trans hframe hr.1, hr.2⟩
  · exact ⟨hframe, hres⟩

theorem weaken {F' : Frame L σ} (h : Ensures A F p P l s)
    (hF : ∀ {l s l' s'}, F.rel l s l' s' → F'.rel l s l' s') : Ensures A F' p P l s :=
  ⟨Proc.wp_mono h.wp fun _ _ _ hr => ⟨hF hr.1, hr.2⟩⟩

theorem read {P : L → L → σ → Prop} (h : P l l s) : Ensures A F Proc.read P l s :=
  ⟨⟨F.refl l s, fun _ hb => Except.ok.inj hb ▸ h⟩⟩

theorem modify {f : L → L} {P : Unit → L → σ → Prop} (hF : F.rel l s (f l) s)
    (h : P () (f l) s) : Ensures A F (Proc.modify f) P l s :=
  ⟨⟨hF, fun _ _ => h⟩⟩

theorem read_bind {f : L → Proc S L β} (h : Ensures A F (f l) Q l s) :
    Ensures A F (Proc.read >>= f) Q l s := by
  refine bind (P := fun x l' s' => x = l ∧ l' = l ∧ s' = s) (read ⟨rfl, rfl, rfl⟩) ?_
  rintro x l' s' - ⟨rfl, rfl, rfl⟩
  exact h

theorem modify_bind {f : Unit → Proc S L β} (hF : F.rel l s (g l) s)
    (h : Ensures A F (f ()) Q (g l) s) : Ensures A F (Proc.modify g >>= f) Q l s := by
  refine bind (P := fun _ l' s' => l' = g l ∧ s' = s) (modify hF ⟨rfl, rfl⟩) ?_
  rintro x l' s' - ⟨rfl, rfl⟩
  exact h

theorem perform {P : S.Reply op → L → σ → Prop}
    (h : A.wp op (fun r s' => F.rel l s l s' ∧ ∀ a, r = .ok a → P a l s') s) :
    Ensures A F (Proc.perform op) P l s := ⟨h⟩

end Ensures

/-! ## Both outcomes -/

/-- A result satisfies `Q`, and what is left after an exception satisfies `E`. -/
structure Ends (A : Logic S σ) (p : Proc S L α) (Q : α → L → σ → Prop)
    (E : S.Err → L → σ → Prop) (l : L) (s : σ) : Prop where
  wp : p.wp A (fun r l' s' =>
    match r with
    | .ok a => Q a l' s'
    | .error e => E e l' s') l s

namespace Ends

variable {A : Logic S σ} {E : S.Err → L → σ → Prop} {l : L} {s : σ} {P : α → L → σ → Prop}
  {Q : β → L → σ → Prop} {E' : S.Err → L → σ → Prop} {h : Handler S σ}

theorem pure (h : P a l s) : Ends A (pure a) P E l s := ⟨h⟩

theorem bind (hp : Ends A p P E l s) (hf : ∀ a l' s', P a l' s' → Ends A (f a) Q E l' s') :
    Ends A (p >>= f) Q E l s := by
  refine ⟨(Proc.wp_bind p f).mpr (Proc.wp_mono hp.wp ?_)⟩
  intro r l' s' hr
  cases r with
  | error e => exact hr
  | ok a => exact (hf a l' s' hr).wp

theorem handle {f : S.Err → Proc S L α} (hp : Ends A p P E l s)
    (hf : ∀ e l' s', E e l' s' → Ends A (f e) P E' l' s') : Ends A (p.handle f) P E' l s := by
  refine ⟨(Proc.wp_handle p f).mpr (Proc.wp_mono hp.wp ?_)⟩
  intro r l' s' hr
  cases r with
  | error e => exact (hf e l' s' hr).wp
  | ok a => exact hr

theorem mono (h : Ends A p P E l s) (hP : ∀ a l' s', P a l' s' → P' a l' s')
    (hE : ∀ e l' s', E e l' s' → E' e l' s') : Ends A p P' E' l s := by
  refine ⟨Proc.wp_mono h.wp ?_⟩
  intro r l' s' hr
  cases r with
  | error e => exact hE e l' s' hr
  | ok a => exact hP a l' s' hr

theorem read_bind {f : L → Proc S L β} (h : Ends A (f l) Q E l s) :
    Ends A (Proc.read >>= f) Q E l s := ⟨(Proc.wp_bind Proc.read f).mpr h.wp⟩

theorem modify_bind {f : Unit → Proc S L β} (h : Ends A (f ()) Q E (g l) s) :
    Ends A (Proc.modify g >>= f) Q E l s := ⟨(Proc.wp_bind (Proc.modify g) f).mpr h.wp⟩

theorem of_handler (h : Handler S σ) (p : Proc S L α) :
    Ends h.logic p (fun _ _ _ => True) (fun _ _ _ => True) l s := by
  refine ⟨(Proc.wp_logic_iff h p _ l s).mpr ?_⟩
  split
  · trivial
  · trivial

theorem perform_handler {P : S.Reply op → L → σ → Prop}
    (hok : ∀ a, (h op s).1 = .ok a → P a l (h op s).2)
    (herr : ∀ e, (h op s).1 = .error e → E e l (h op s).2) :
    Ends h.logic (Proc.perform op) P E l s := by
  refine ⟨(Proc.wp_perform op _).mpr ((Handler.logic_wp h op _ s).mpr ?_)⟩
  cases hr : (h op s).1 with
  | ok a => exact hok a hr
  | error e => exact herr e hr

theorem run_ok (hp : Ends h.logic p P E l s) (hrun : (p.run h l s).1 = .ok a) :
    P a (p.run h l s).2.1 (p.run h l s).2.2 := by
  have hend := (Proc.wp_logic_iff h p _ l s).mp hp.wp
  rw [hrun] at hend
  exact hend

end Ends

theorem Ensures.ends {A : Logic S σ} {F : Frame L σ} {P Q : α → L → σ → Prop}
    {E : S.Err → L → σ → Prop} {s : σ} (h : Ensures A F p P l s)
    (hQ : ∀ a l' s', F.rel l s l' s' → P a l' s' → Q a l' s')
    (hE : ∀ e l' s', F.rel l s l' s' → E e l' s') : Ends A p Q E l s := by
  refine ⟨Proc.wp_mono h.wp ?_⟩
  intro r l' s' hr
  cases r with
  | error e => exact hE e l' s' hr.1
  | ok a => exact hQ a l' s' hr.1 (hr.2 a rfl)

theorem Ends.ensures {A : Logic S σ} {F : Frame L σ} {P : α → L → σ → Prop} {s : σ}
    (h : Ends A p (fun a l' s' => F.rel l s l' s' ∧ P a l' s')
      (fun _ l' s' => F.rel l s l' s') l s) :
    Ensures A F p P l s := by
  refine ⟨Proc.wp_mono h.wp ?_⟩
  intro r l' s' hr
  cases r with
  | error e => exact ⟨hr, fun _ ha => nomatch ha⟩
  | ok a => exact ⟨hr.1, fun b hb => Except.ok.inj hb ▸ hr.2⟩

/-! ## Code that leaves everything alone -/

def Frame.same : Frame L σ where
  rel l s l' s' := l' = l ∧ s' = s
  refl _ _ := ⟨rfl, rfl⟩
  trans h₁ h₂ := ⟨h₂.1.trans h₁.1, h₂.2.trans h₁.2⟩

def Frame.locals : Frame L σ where
  rel l _ l' _ := l' = l
  refl _ _ := rfl
  trans h₁ h₂ := h₂.trans h₁

/-- Code that the logic accepts in state `s`, that changes nothing and whose result satisfies
`P`. -/
def Still (A : Logic S σ) (s : σ) (p : Proc S L α) (P : α → Prop) : Prop :=
  ∀ l, Ensures A Frame.same p (fun a _ _ => P a) l s

namespace Still

variable {A : Logic S σ} {s : σ} {P : α → Prop} {Q : β → Prop}

theorem pure (h : P a) : Still A s (pure a : Proc S L α) P := fun _ => .pure h

theorem raise (e : S.Err) : Still A s (Proc.raise e : Proc S L α) P := fun _ => .raise e

theorem read : Still A s (Proc.read : Proc S L L) fun _ => True := fun _ => .read trivial

theorem bind (hp : Still A s p P) (hf : ∀ a, P a → Still A s (f a) Q) : Still A s (p >>= f) Q := by
  intro l
  refine (hp l).bind ?_
  intro a l' s' hsame ha
  obtain ⟨rfl, rfl⟩ := hsame
  exact hf a ha l'

theorem handle {f : S.Err → Proc S L α} (hp : Still A s p P) (hf : ∀ e, Still A s (f e) P) :
    Still A s (p.handle f) P := by
  intro l
  refine (hp l).handle ?_
  intro e l' s' hsame
  obtain ⟨rfl, rfl⟩ := hsame
  exact hf e l'

theorem ofExcept {x : Except S.Err α} (h : ∀ a, x = .ok a → P a) :
    Still A s (Proc.ofExcept x : Proc S L α) P := by
  cases x with
  | error e => exact raise e
  | ok a => exact pure (h a rfl)

theorem before {F : Frame L σ} {R : β → L → σ → Prop} (hp : Still A s p P)
    (hf : ∀ a, P a → Ensures A F (f a) R l s) : Ensures A F (p >>= f) R l s := by
  have hsame : Ensures A F p (fun a l' s' => P a ∧ l' = l ∧ s' = s) l s := by
    refine ⟨Proc.wp_mono (hp l).wp ?_⟩
    intro r l' s' hr
    obtain ⟨⟨rfl, rfl⟩, hP⟩ := hr
    exact ⟨F.refl _ _, fun a ha => ⟨hP a ha, rfl, rfl⟩⟩
  refine .bind hsame ?_
  intro a l' s' _ ha
  obtain ⟨ha, rfl, rfl⟩ := ha
  exact hf a ha

end Still

end RagForge.Effect
