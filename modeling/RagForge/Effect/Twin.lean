import RagForge.Effect.Built

/-
Two runs of one program.

A property of two runs says that states which look alike to a program lead to results that are
alike.  `Twin h R R' p` starts the two runs in states that `R` relates and asks for equal results
and for states that `R'` relates.
-/

namespace RagForge.Effect

variable {S : Sig} {σ L α β : Type} {p : Proc S L α} {ok : S.Op → Prop}

theorem Prog.run_bind (h : Handler S σ) (p : Prog S α) (f : α → Prog S β) :
    ∀ s, (p.bind f).run h s = (f (p.run h s).1).run h (p.run h s).2 := by
  induction p with
  | ret a => exact fun s => rfl
  | call op k ih => exact fun s => ih _ _

structure Twin (h : Handler S σ) (R R' : σ → σ → Prop) (p : Proc S L α) : Prop where
  same : ∀ l s s', R s s' → ((p l).run h s).1 = ((p l).run h s').1 ∧
    R' ((p l).run h s).2 ((p l).run h s').2

variable {h : Handler S σ} {R : σ → σ → Prop} {f : α → Proc S L β} {s s' : σ}

namespace Twin

variable {R' R'' : σ → σ → Prop}

theorem raise (e : S.Err) : Twin h R R (Proc.raise e : Proc S L α) := ⟨fun _ _ _ hR => ⟨rfl, hR⟩⟩

theorem mono {Q Q' : σ → σ → Prop} (hp : Twin h R R' p) (hin : ∀ s s', Q s s' → R s s')
    (hout : ∀ s s', R' s s' → Q' s s') : Twin h Q Q' p :=
  ⟨fun l s s' hQ => ⟨(hp.same l s s' (hin s s' hQ)).1, hout _ _ (hp.same l s s' (hin s s' hQ)).2⟩⟩

theorem andThen {γ : Type} {k : Except S.Err α × L → Prog S γ} (hp : Twin h R R' p)
    (hk : ∀ x s s', R' s s' →
      ((k x).run h s).1 = ((k x).run h s').1 ∧ R'' ((k x).run h s).2 ((k x).run h s').2)
    (l : L) (s s' : σ) (hR : R s s') :
    (((p l).bind k).run h s).1 = (((p l).bind k).run h s').1 ∧
      R'' (((p l).bind k).run h s).2 (((p l).bind k).run h s').2 := by
  obtain ⟨hsame, hR'⟩ := hp.same l s s' hR
  rw [Prog.run_bind, Prog.run_bind, ← hsame]
  exact hk _ _ _ hR'

/-- The middle relation also has to give the last one, for the runs that end in an exception. -/
theorem bind (hp : Twin h R R' p) (hf : ∀ a, Twin h R' R'' (f a))
    (hle : ∀ s s', R' s s' → R'' s s') : Twin h R R'' (p >>= f) := by
  refine ⟨hp.andThen fun x s s' hR' => ?_⟩
  match x with
  | (.error e, l) => exact ⟨rfl, hle _ _ hR'⟩
  | (.ok a, l) => exact (hf a).same _ _ _ hR'

theorem handle {f : S.Err → Proc S L α} (hp : Twin h R R' p) (hf : ∀ e, Twin h R' R'' (f e))
    (hle : ∀ s s', R' s s' → R'' s s') : Twin h R R'' (p.handle f) := by
  refine ⟨hp.andThen fun x s s' hR' => ?_⟩
  match x with
  | (.error e, l) => exact (hf e).same _ _ _ hR'
  | (.ok a, l) => exact ⟨rfl, hle _ _ hR'⟩

theorem ofExcept_bind {x : Except S.Err α}
    (hf : ∀ a, x = .ok a → Twin h R R' (f a)) (hle : ∀ s s', R s s' → R' s s') :
    Twin h R R' (Proc.ofExcept x >>= f) := by
  cases x with
  | error e => exact ⟨fun _ s s' hR => ⟨rfl, hle s s' hR⟩⟩
  | ok a => exact hf a rfl

theorem result_eq (hp : Twin h R R' p) (l : L) (hR : R s s') :
    (p.run h l s).1 = (p.run h l s').1 := by
  have hsame : ((p l).run h s).1.1 = ((p l).run h s').1.1 :=
    congrArg Prod.fst (hp.same l s s' hR).1
  exact hsame

theorem state_related (hp : Twin h R R' p) (l : L) (hR : R s s') :
    R' (p.run h l s).2.2 (p.run h l s').2.2 :=
  (hp.same l s s' hR).2

end Twin

/-! ## Code with a given repertoire -/

def Logic.only (ok : S.Op → Prop) : Logic S Unit where
  wp op Q u := ok op ∧ ∀ r, Q r u
  mono hPQ hw := ⟨hw.1, fun r => hPQ r () (hw.2 r)⟩

theorem Performs.wp_only (hp : Performs ok p) (l : L) :
    (p l).wp (Logic.only ok) (fun _ _ => True) () := by
  have hframe : Ensures (Logic.only ok) Frame.locals p (fun _ _ _ => True) l () := by
    refine hp.ensures ?_ l ()
    intro op hop l u
    exact .perform ⟨hop, fun r => ⟨rfl, fun _ _ => trivial⟩⟩
  exact Prog.wp_mono (fun _ _ _ => trivial) _ () hframe.wp

theorem Prog.run_related
    (hop : ∀ op, ok op → ∀ s s', R s s' → (h op s).1 = (h op s').1 ∧ R (h op s).2 (h op s').2)
    (p : Prog S α) (hp : p.wp (Logic.only ok) (fun _ _ => True) ()) :
    ∀ s s', R s s' → (p.run h s).1 = (p.run h s').1 ∧ R (p.run h s).2 (p.run h s').2 := by
  induction p with
  | ret a => exact fun s s' hR => ⟨rfl, hR⟩
  | call op k ih =>
    intro s s' hR
    obtain ⟨hok, hk⟩ := hp
    obtain ⟨hsame, hR'⟩ := hop op hok s s' hR
    have hrest := ih (h op s).1 (hk _) (h op s).2 (h op s').2 hR'
    show ((k (h op s).1).run h (h op s).2).1 = ((k (h op s').1).run h (h op s').2).1 ∧
      R ((k (h op s).1).run h (h op s).2).2 ((k (h op s').1).run h (h op s').2).2
    rw [← hsame]
    exact hrest

theorem Performs.twin (hp : Performs ok p)
    (hop : ∀ op, ok op → ∀ s s', R s s' → (h op s).1 = (h op s').1 ∧ R (h op s).2 (h op s').2) :
    Twin h R R p :=
  ⟨fun l => Prog.run_related hop (p l) (hp.wp_only l)⟩

end RagForge.Effect
