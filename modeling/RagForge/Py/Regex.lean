import RagForge.Py.Text

/-
Regular expressions, matched by backtracking.

`ends` lists where the matches that begin at a position end, in the order in which they are tried,
so the first of them is the match that `search` reports.
-/

namespace RagForge.Py

/-- A character of a class, `\b`, a sequence, `p*?`, and `a{least,least+extra}` of an expression
that matches no empty text. -/
inductive Regex
  | one (p : Char → Bool)
  | boundary (word : Char → Bool)
  | seq (a b : Regex)
  | fewest (p : Char → Bool)
  | between (a : Regex) (least extra : Nat)

namespace Regex

def fewestEnds (p : Char → Bool) : List Char → Nat → List Nat
  | [], i => [i]
  | c :: rest, i => i :: if p c then fewestEnds p rest (i + 1) else []

def mostEnds (f : Nat → List Nat) : Nat → Nat → List Nat
  | 0, i => [i]
  | extra + 1, i => (f i).flatMap (mostEnds f extra) ++ [i]

def repeatEnds (f : Nat → List Nat) (extra : Nat) : Nat → Nat → List Nat
  | 0, i => mostEnds f extra i
  | least + 1, i => (f i).flatMap (repeatEnds f extra least)

def ends (text : List Char) : Regex → Nat → List Nat
  | one p, i => if text[i]?.any p then [i + 1] else []
  | boundary word, i =>
    if (decide (0 < i) && text[i - 1]?.any word) ≠ text[i]?.any word then [i] else []
  | seq a b, i => (ends text a i).flatMap (ends text b)
  | fewest p, i => fewestEnds p (text.drop i) i
  | between a least extra, i => repeatEnds (ends text a) extra least i

/-- The span of the first match. -/
def search (r : Regex) (text : List Char) : Option (Nat × Nat) :=
  (List.range (text.length + 1)).findSome? fun i => (r.ends text i).head?.map fun e => (i, e)

/-- The number of characters that every match has at least. -/
def width : Regex → Nat
  | one _ => 1
  | boundary _ => 0
  | seq a b => a.width + b.width
  | fewest _ => 0
  | between a least _ => least * a.width

theorem fewestEnds_bounds {p : Char → Bool} {rest : List Char} {i e : Nat}
    (h : e ∈ fewestEnds p rest i) : i ≤ e ∧ e ≤ i + rest.length := by
  induction rest generalizing i with
  | nil =>
    rw [fewestEnds, List.mem_singleton] at h
    omega
  | cons c rest ih =>
    rw [fewestEnds, List.mem_cons] at h
    rw [List.length_cons]
    rcases h with h | h
    · omega
    · split at h
      · have := ih h
        omega
      · exact absurd h List.not_mem_nil

section

variable {text : List Char} {f g : Nat → List Nat} {v w : Nat}

theorem flatMap_bounds (hf : ∀ {i e}, e ∈ f i → i ≤ text.length → i + v ≤ e ∧ e ≤ text.length)
    (hg : ∀ {i e}, e ∈ g i → i ≤ text.length → i + w ≤ e ∧ e ≤ text.length) {i e : Nat}
    (h : e ∈ (f i).flatMap g) (hi : i ≤ text.length) : i + (v + w) ≤ e ∧ e ≤ text.length := by
  obtain ⟨j, hj, he⟩ := List.mem_flatMap.mp h
  have hfirst := hf hj hi
  have hsecond := hg he hfirst.2
  omega

theorem mostEnds_bounds
    (hf : ∀ {i e}, e ∈ f i → i ≤ text.length → i + w ≤ e ∧ e ≤ text.length) (extra : Nat) :
    ∀ {i e : Nat}, e ∈ mostEnds f extra i → i ≤ text.length → i + 0 ≤ e ∧ e ≤ text.length := by
  induction extra with
  | zero =>
    intro i e h hi
    rw [mostEnds, List.mem_singleton] at h
    omega
  | succ extra ih =>
    intro i e h hi
    rw [mostEnds, List.mem_append, List.mem_singleton] at h
    rcases h with h | h
    · have := flatMap_bounds hf ih h hi
      omega
    · omega

theorem repeatEnds_bounds
    (hf : ∀ {i e}, e ∈ f i → i ≤ text.length → i + w ≤ e ∧ e ≤ text.length) (extra least : Nat) :
    ∀ {i e : Nat}, e ∈ repeatEnds f extra least i → i ≤ text.length →
      i + least * w ≤ e ∧ e ≤ text.length := by
  induction least with
  | zero =>
    rw [Nat.zero_mul]
    exact mostEnds_bounds hf extra
  | succ least ih =>
    rw [Nat.succ_mul, Nat.add_comm (least * w)]
    exact flatMap_bounds hf ih

theorem ends_bounds (r : Regex) : ∀ {i e : Nat}, e ∈ r.ends text i → i ≤ text.length →
    i + r.width ≤ e ∧ e ≤ text.length := by
  induction r with
  | one p =>
    intro i e h hi
    rw [ends] at h
    split at h
    · next hp =>
      obtain ⟨c, hc, -⟩ := (Option.any_eq_true _ _).mp hp
      have := (List.getElem?_eq_some_iff.mp hc).1
      rw [List.mem_singleton] at h
      rw [width]
      omega
    · exact absurd h List.not_mem_nil
  | boundary word =>
    intro i e h hi
    rw [ends] at h
    split at h
    · rw [List.mem_singleton] at h
      rw [width]
      omega
    · exact absurd h List.not_mem_nil
  | seq a b iha ihb => exact flatMap_bounds iha ihb
  | fewest p =>
    intro i e h hi
    have := fewestEnds_bounds h
    rw [List.length_drop] at this
    rw [width]
    omega
  | between a least extra ih => exact repeatEnds_bounds ih extra least

theorem search_bounds {r : Regex} {span : Nat × Nat} (h : r.search text = some span) :
    span.1 + r.width ≤ span.2 ∧ span.2 ≤ text.length := by
  obtain ⟨i, hi, hend⟩ := List.exists_of_findSome?_eq_some h
  obtain ⟨e, he, rfl⟩ := Option.map_eq_some_iff.mp hend
  exact ends_bounds r (List.mem_of_mem_head? he) (by simpa [Nat.lt_succ_iff] using hi)

end

end Regex

end RagForge.Py
