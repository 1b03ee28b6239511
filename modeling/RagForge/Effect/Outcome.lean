import RagForge.Effect.Logic

/-
Code whose outcome can be told beforehand.

The state counts the operations that can fail, and whether one of them does depends on its number
only.  `Settles n c` says that code raises exactly when one of its `n` operations fails or the check
`c` does, so the conditions of a sequence are the conditions of its parts.
-/

namespace RagForge.Effect

variable {S : Sig} {σ L α β : Type}

def Clear (ok : Nat → Prop) (k n : Nat) : Prop := ∀ i, i < n → ok (k + i)

theorem Clear.zero (ok : Nat → Prop) (k : Nat) : Clear ok k 0 :=
  fun i hi => absurd hi (Nat.not_lt_zero i)

variable {ok : Nat → Prop} {k : Nat}

theorem clear_one : Clear ok k 1 ↔ ok k := by
  refine ⟨fun h => h 0 Nat.one_pos, fun h i hi => ?_⟩
  obtain rfl : i = 0 := by omega
  exact h

variable {m n : Nat}

theorem clear_add : Clear ok k (m + n) ↔ Clear ok k m ∧ Clear ok (k + m) n := by
  constructor
  · intro h
    refine ⟨fun i hi => h i (by omega), fun i hi => ?_⟩
    have hin := h (m + i) (by omega)
    rwa [← Nat.add_assoc] at hin
  · intro h i hi
    by_cases him : i < m
    · exact h.1 i him
    · have hin := h.2 (i - m) (by omega)
      rwa [Nat.add_assoc, Nat.add_sub_cancel' (by omega)] at hin

/-- The code returns if and only if its `n` operations do not fail and `c` holds. -/
structure Settles (A : Logic S σ) (tick : σ → Nat) (ok : Nat → Prop) (n : Nat) (c : Prop)
    (p : Proc S L α) (P : α → L → σ → Prop) (l : L) (s : σ) : Prop where
  wp : p.wp A (fun r l' s' => (r.toBool = true ↔ Clear ok (tick s) n ∧ c) ∧
    ∀ a, r = .ok a → tick s' = tick s + n ∧ P a l' s') l s

variable {p : Proc S L α}

namespace Settles

variable {A : Logic S σ} {tick : σ → Nat} {l : L} {s : σ} {c d : Prop} {P : α → L → σ → Prop}
  {Q : β → L → σ → Prop}

theorem pure {a : α} (h : P a l s) : Settles A tick ok 0 True (pure a) P l s :=
  ⟨⟨iff_of_true rfl ⟨Clear.zero _ _, trivial⟩, fun _ ha => ⟨rfl, Except.ok.inj ha ▸ h⟩⟩⟩

theorem raise (e : S.Err) : Settles A tick ok n False (Proc.raise e) P l s :=
  ⟨⟨iff_of_false (by simp [Except.toBool]) fun h => h.2, fun _ ha => nomatch ha⟩⟩

theorem ofExcept {x : Except S.Err α} (h : ∀ a, x = .ok a → P a l s) :
    Settles A tick ok 0 (x.toBool = true) (Proc.ofExcept x) P l s := by
  cases x with
  | error e =>
    exact ⟨⟨iff_of_false (by simp [Except.toBool]) fun hc => by simp [Except.toBool] at hc,
      fun _ ha => nomatch ha⟩⟩
  | ok a =>
    exact ⟨⟨iff_of_true rfl ⟨Clear.zero _ _, rfl⟩, fun _ ha => ⟨rfl, h _ ha⟩⟩⟩

/-- The second part is told from what the first one ensures. -/
theorem bind {f : α → Proc S L β} (hp : Settles A tick ok m c p P l s)
    (hf : ∀ a l' s', P a l' s' → Settles A tick ok n d (f a) Q l' s') :
    Settles A tick ok (m + n) (c ∧ d) (p >>= f) Q l s := by
  refine ⟨(Proc.wp_bind p f).mpr (Proc.wp_mono hp.wp ?_)⟩
  intro r l' s' hr
  obtain ⟨hiff, hres⟩ := hr
  cases r with
  | error e =>
    refine ⟨iff_of_false (by simp [Except.toBool]) ?_, fun _ hb => nomatch hb⟩
    intro h
    exact absurd (hiff.mpr ⟨(clear_add.mp h.1).1, h.2.1⟩) (by simp [Except.toBool])
  | ok a =>
    obtain ⟨htick, hP⟩ := hres a rfl
    have hfirst := hiff.mp rfl
    refine Proc.wp_mono (hf a l' s' hP).wp ?_
    intro r' l'' s'' hr'
    rw [htick] at hr'
    refine ⟨hr'.1.trans ?_, fun b hb => ?_⟩
    · rw [clear_add]
      exact ⟨fun h => ⟨⟨hfirst.1, h.1⟩, hfirst.2, h.2⟩, fun h => ⟨h.1.2, h.2.2⟩⟩
    · obtain ⟨htick', hQ⟩ := hr'.2 b hb
      exact ⟨by rw [htick', Nat.add_assoc], hQ⟩

theorem mono {P' : α → L → σ → Prop} (h : Settles A tick ok n c p P l s)
    (hc : c ↔ d) (hP : ∀ a l' s', P a l' s' → P' a l' s') :
    Settles A tick ok n d p P' l s := by
  refine ⟨Proc.wp_mono h.wp ?_⟩
  intro r l' s' hr
  rw [hc] at hr
  exact ⟨hr.1, fun a ha => ⟨(hr.2 a ha).1, hP a l' s' (hr.2 a ha).2⟩⟩

end Settles

end RagForge.Effect
