import Mathlib.Logic.Basic

/-
Effectful programs as trees.

A program is a finite description of what a piece of service code does: it returns a result, or
asks its surroundings to perform one operation and goes on with the reply.  Every operation may
fail, so a reply is an `Except`.  Nothing here says what an operation means; a `Handler` does that,
and so does the interleaving semantics of `RagForge.Effect.Pool`.
-/

namespace RagForge.Effect

/-- An effect signature: the operations, the type of each reply and the exceptions. -/
structure Sig where
  Op : Type
  Reply : Op → Type
  Err : Type

/-- What an operation of the signature gives back to the program that performed it. -/
abbrev Sig.Result (S : Sig) (op : S.Op) : Type := Except S.Err (S.Reply op)

/-- A tree of operations with results at its leaves. -/
inductive Prog (S : Sig) (α : Type) : Type
  | ret (a : α)
  | call (op : S.Op) (k : S.Result op → Prog S α)

namespace Prog

variable {S : Sig} {α β γ : Type}

def bind : Prog S α → (α → Prog S β) → Prog S β
  | .ret a, f => f a
  | .call op k, f => .call op (fun r => (k r).bind f)

@[simp] theorem bind_ret (a : α) (f : α → Prog S β) : (Prog.ret a).bind f = f a := rfl

@[simp] theorem bind_call (op : S.Op) (k : S.Result op → Prog S α) (f : α → Prog S β) :
    (Prog.call op k).bind f = .call op (fun r => (k r).bind f) := rfl

end Prog

/-- Code with local variables of type `L`.  The local variables survive an exception, as the fields
of an object do when one of its methods raises. -/
def Proc (S : Sig) (L : Type) (α : Type) : Type := L → Prog S (Except S.Err α × L)

namespace Proc

variable {S : Sig} {L : Type} {α β : Type}

protected def pure (a : α) : Proc S L α := fun l => .ret (.ok a, l)

protected def bind (p : Proc S L α) (f : α → Proc S L β) : Proc S L β := fun l =>
  (p l).bind fun x =>
    match x.1 with
    | .ok a => f a x.2
    | .error e => .ret (.error e, x.2)

instance : Monad (Proc S L) where
  pure := Proc.pure
  bind := Proc.bind

def start (p : Proc S L α) (l : L) : Prog S (Except S.Err α × L) := p l

def raise (e : S.Err) : Proc S L α := fun l => .ret (.error e, l)

/-- Run `p`, and `h` on the exception it raises. -/
def handle (p : Proc S L α) (h : S.Err → Proc S L α) : Proc S L α := fun l =>
  (p l).bind fun x =>
    match x.1 with
    | .ok a => .ret (.ok a, x.2)
    | .error e => h e x.2

def perform (op : S.Op) : Proc S L (S.Reply op) := fun l => .call op (fun r => .ret (r, l))

def read : Proc S L L := fun l => .ret (.ok l, l)

def modify (f : L → L) : Proc S L Unit := fun l => .ret (.ok (), f l)

def forEach (xs : List β) (body : β → Proc S L Unit) : Proc S L Unit :=
  match xs with
  | [] => pure ()
  | x :: rest => do
      body x
      forEach rest body

def ofExcept (x : Except S.Err α) : Proc S L α :=
  match x with
  | .ok a => pure a
  | .error e => raise e

end Proc

end RagForge.Effect
