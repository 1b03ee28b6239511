import RagForge.Effect.Logic

/-
Programs of one signature as programs of a larger one.

A system of several services has one signature whose operations are those of the services.  The
code of a service is written against its own signature; `Prog.embed` reads it as code of the system,
and what a logic of the system says about it is what the logic says along the inclusion.
-/

namespace RagForge.Effect

variable {S T : Sig} {σ α β : Type}

/-- The operations of `S` are among those of `T`. -/
structure Inclusion (S T : Sig) where
  op : S.Op → T.Op
  result : (o : S.Op) → T.Result (op o) → S.Result o

def Prog.embed (ι : Inclusion S T) : Prog S α → Prog T α
  | .ret a => .ret a
  | .call o k => .call (ι.op o) fun r => (k (ι.result o r)).embed ι

/-- The logic that `A` gives to the operations of `S`. -/
def Logic.along (A : Logic T σ) (ι : Inclusion S T) : Logic S σ where
  wp o Q s := A.wp (ι.op o) (fun r s' => Q (ι.result o r) s') s
  mono hPQ hw := A.mono (fun r s => hPQ (ι.result _ r) s) hw

theorem Prog.wp_embed {A : Logic T σ} {ι : Inclusion S T} {Q : α → σ → Prop} (p : Prog S α) :
    ∀ s, (p.embed ι).wp A Q s ↔ p.wp (A.along ι) Q s := by
  induction p with
  | ret a => exact fun s => Iff.rfl
  | call o k ih =>
    intro s
    exact ⟨A.mono fun r s => (ih (ι.result o r) s).mp, A.mono fun r s => (ih (ι.result o r) s).mpr⟩

end RagForge.Effect
