import Mathlib.Algebra.Order.Ring.Unbundled.Rat
import Mathlib.Data.List.Nodup
import RagForge.Py.Text

/-
Python dictionaries and JSON values.

A dictionary is a list of pairs in insertion order.  Assigning to a key that is present keeps its
place.  The payloads that services exchange are `Json` values, and reading them follows `dict.get`:
a missing key, like a value that is no dictionary, reads as `None`.
-/

namespace RagForge.Py

/-- A computation that did not raise had a result at each of its steps. -/
theorem ok_of_bind {ε α β : Type} {x : Except ε α} {f : α → Except ε β} {b : β}
    (h : x >>= f = .ok b) : ∃ a, x = .ok a ∧ f a = .ok b := by
  cases x with
  | error e => exact nomatch h
  | ok a => exact ⟨a, rfl, h⟩

theorem ok_of_ite {ε α : Type} {c : Prop} [Decidable c] {e : ε} {x : Except ε α} {a : α}
    (h : (if c then .error e else x) = .ok a) : ¬ c ∧ x = .ok a := by
  split at h
  · cases h
  · next hc => exact ⟨hc, h⟩

theorem ok_of_map {ε α β : Type} {x : Except ε α} {f : α → β} {b : β} (h : x.map f = .ok b) :
    ∃ a, x = .ok a ∧ b = f a := by
  cases x with
  | error e => exact nomatch h
  | ok a => exact ⟨a, rfl, (Except.ok.inj h).symm⟩

/-- A dictionary in insertion order. -/
abbrev Dict (κ ν : Type) : Type := List (κ × ν)

namespace Dict

variable {κ ν : Type} [DecidableEq κ] {d : Dict κ ν} {k : κ} {v : ν}

def get? (d : Dict κ ν) (k : κ) : Option ν :=
  match d with
  | [] => none
  | (k', v) :: rest => if k' = k then some v else get? rest k

def set (d : Dict κ ν) (k : κ) (v : ν) : Dict κ ν :=
  match d with
  | [] => [(k, v)]
  | (k', v') :: rest => if k' = k then (k', v) :: rest else (k', v') :: set rest k v

@[simp] theorem get?_set_self (d : Dict κ ν) (k : κ) (v : ν) : (d.set k v).get? k = some v := by
  induction d with
  | nil => simp [set, get?]
  | cons x rest ih =>
    by_cases h : x.1 = k
    · simp [set, get?, h]
    · simpa [set, get?, h] using ih

theorem get?_set_ne (d : Dict κ ν) {j : κ} (h : k ≠ j) (v : ν) : (d.set k v).get? j = d.get? j := by
  induction d with
  | nil => simp [set, get?, h]
  | cons x rest ih =>
    by_cases hk : x.1 = k
    · simp [set, get?, hk, h]
    · simp only [set, hk, if_false, get?, ih]

theorem set_eq_self_of_get? (d : Dict κ ν) (h : d.get? k = some v) : d.set k v = d := by
  induction d with
  | nil => simp [get?] at h
  | cons x rest ih =>
    by_cases hk : x.1 = k
    · simp only [get?, hk, if_true, Option.some.injEq] at h
      simp [set, hk, ← h, Prod.ext_iff]
    · simp only [get?, hk, if_false] at h
      simp [set, hk, ih h]

theorem set_eq_self_iff (d : Dict κ ν) (k : κ) (v : ν) : d.set k v = d ↔ d.get? k = some v :=
  ⟨fun h => h ▸ get?_set_self d k v, set_eq_self_of_get? d⟩

/-- `d.pop(k, None)`. -/
def erase (d : Dict κ ν) (k : κ) : Dict κ ν := d.filter fun e => e.1 ≠ k

theorem get?_erase_ne (d : Dict κ ν) {j : κ} (h : k ≠ j) : (d.erase k).get? j = d.get? j := by
  induction d with
  | nil => rfl
  | cons x rest ih =>
    by_cases hk : x.1 = k
    · simpa [erase, List.filter_cons, hk, get?, h] using ih
    · simp only [erase, List.filter_cons, hk, ne_eq, not_false_eq_true, decide_true, if_true, get?]
      rw [← erase, ih]

theorem get?_erase_self (d : Dict κ ν) (k : κ) : (d.erase k).get? k = none := by
  induction d with
  | nil => rfl
  | cons x rest ih =>
    by_cases hk : x.1 = k
    · simpa [erase, List.filter_cons, hk] using ih
    · simp only [erase, List.filter_cons, hk, ne_eq, not_false_eq_true, decide_true, if_true, get?,
        if_false]
      rw [← erase, ih]

theorem get?_append (a b : Dict κ ν) (k : κ) : Dict.get? (a ++ b) k = (a.get? k).or (b.get? k) := by
  induction a with
  | nil => rfl
  | cons p rest ih =>
    rw [List.cons_append, get?, get?]
    by_cases hk : p.1 = k
    · rw [if_pos hk, if_pos hk, Option.some_or]
    · rw [if_neg hk, if_neg hk, ih]

theorem mem_of_get? (d : Dict κ ν) (h : d.get? k = some v) : (k, v) ∈ d := by
  induction d with
  | nil => simp [get?] at h
  | cons x rest ih =>
    by_cases hk : x.1 = k
    · simp only [get?, hk, if_true, Option.some.injEq] at h
      rw [← hk, ← h]
      exact List.mem_cons_self
    · simp only [get?, hk, if_false] at h
      exact List.mem_cons_of_mem _ (ih h)

theorem get?_eq_some_iff (h : (d.map Prod.fst).Nodup) : d.get? k = some v ↔ (k, v) ∈ d := by
  constructor
  · exact mem_of_get? d
  · intro hmem
    induction d with
    | nil => exact (List.not_mem_nil hmem).elim
    | cons p rest ih =>
      rw [List.map_cons, List.nodup_cons] at h
      rcases List.mem_cons.mp hmem with rfl | hmem
      · simp [get?]
      · have hne : p.1 ≠ k := by
          intro heq
          exact h.1 (heq ▸ List.mem_map_of_mem hmem)
        rw [get?, if_neg hne]
        exact ih h.2 hmem

theorem get?_perm {d' : Dict κ ν} (hp : d.Perm d') (h : (d.map Prod.fst).Nodup) (k : κ) :
    d.get? k = d'.get? k := by
  have h' : (d'.map Prod.fst).Nodup := (hp.map Prod.fst).nodup_iff.mp h
  refine Option.ext fun v => ?_
  rw [get?_eq_some_iff h, get?_eq_some_iff h', hp.mem_iff]

theorem keys_set (d : Dict κ ν) (k : κ) (v : ν) :
    (d.set k v).map Prod.fst =
      if k ∈ d.map Prod.fst then d.map Prod.fst else d.map Prod.fst ++ [k] := by
  induction d with
  | nil => rfl
  | cons p rest ih =>
    rw [set]
    by_cases hk : p.1 = k
    · simp [hk]
    · have hk' : k ≠ p.1 := fun h => hk h.symm
      rw [if_neg hk, List.map_cons, ih]
      rw [List.map_cons]
      by_cases hmem : k ∈ rest.map Prod.fst
      · rw [if_pos hmem, if_pos (List.mem_cons_of_mem p.1 hmem)]
      · rw [if_neg hmem, if_neg (List.not_mem_cons_of_ne_of_not_mem hk' hmem), List.cons_append]

theorem nodup_set (h : (d.map Prod.fst).Nodup) (k : κ) (v : ν) :
    ((d.set k v).map Prod.fst).Nodup := by
  rw [keys_set]
  split
  · exact h
  · next hk =>
    rw [List.nodup_append]
    refine ⟨h, by simp, ?_⟩
    intro a ha b hb heq
    rw [heq, List.mem_singleton.mp hb] at ha
    exact hk ha

/-- `counter[k] += n`, one after the other. -/
def tally (l : List (κ × Nat)) : Dict κ Nat :=
  l.foldl (fun d e => d.set e.1 ((get? d e.1).getD 0 + e.2)) []

theorem nodup_tally (l : List (κ × Nat)) : ((tally l).map Prod.fst).Nodup :=
  List.foldlRecOn (motive := fun d : Dict κ Nat => (d.map Prod.fst).Nodup) l _ List.nodup_nil
    fun _ h _ _ => nodup_set h _ _

theorem get?_tally (l : List (κ × Nat)) (k : κ) :
    (tally l).get? k =
      l.foldl (fun o e => if e.1 = k then some (o.getD 0 + e.2) else o) none := by
  refine (List.foldl_hom (fun d : Dict κ Nat => d.get? k) fun d e => ?_).symm
  by_cases hk : e.1 = k
  · simp [hk]
  · simp [hk, get?_set_ne d hk]

theorem tally_perm {l l' : List (κ × Nat)} (h : l.Perm l') : (tally l).Perm (tally l') := by
  have hnodup : ∀ l : List (κ × Nat), (tally l).Nodup := fun l => (nodup_tally l).of_map _
  refine (List.perm_ext_iff_of_nodup (hnodup l) (hnodup l')).mpr fun e => ?_
  rw [← get?_eq_some_iff (nodup_tally l), ← get?_eq_some_iff (nodup_tally l'), get?_tally,
    get?_tally, h.foldl_eq']
  intro x _ y _ o
  by_cases hx : x.1 = e.1 <;> by_cases hy : y.1 = e.1 <;> simp [hx, hy, Nat.add_right_comm]

end Dict

/-- A JSON value. -/
inductive Json
  | null
  | bool (b : Bool)
  | num (q : Rat)
  | str (s : String)
  | arr (xs : List Json)
  | obj (fields : List (String × Json))

namespace Json

/-- The value of a key, when the value is a dictionary that has it. -/
def get? (j : Json) (key : String) : Option Json :=
  match j with
  | .obj fields => Dict.get? fields key
  | _ => none

/-- `j.get(key)`. -/
def get (j : Json) (key : String) : Json := (j.get? key).getD .null

/-- `bool(j)`. -/
def truthy : Json → Bool
  | .null => false
  | .bool b => b
  | .num q => decide (q ≠ 0)
  | .str s => s != ""
  | .arr xs => !xs.isEmpty
  | .obj fields => !fields.isEmpty

/-- `a or b`. -/
def orElse (a b : Json) : Json := if a.truthy then a else b

/-- The text of a string value, the empty string for anything else. -/
def text : Json → String
  | .str s => s
  | _ => ""

/-- The items of a list value. -/
def items : Json → List Json
  | .arr xs => xs
  | _ => []

/-- A number, zero for anything else. -/
def number : Json → Rat
  | .num q => q
  | _ => 0

/-! ## Equality and order -/

/-- The number that a boolean or a number is. -/
def asNumber : Json → Option Rat
  | .bool b => some (if b then 1 else 0)
  | .num q => some q
  | _ => none

mutual

/-- `a == b`.  Booleans are numbers, and the order of a dictionary's keys does not count. -/
def same : Json → Json → Bool
  | .null, .null => true
  | .str s, .str t => s == t
  | .arr xs, .arr ys => sameItems xs ys
  | .obj d, .obj e => d.length == e.length && sameFields d e
  | .bool b, other => other.asNumber == some (if b then 1 else 0)
  | .num q, other => other.asNumber == some q
  | _, _ => false

def sameItems : List Json → List Json → Bool
  | [], [] => true
  | x :: xs, y :: ys => same x y && sameItems xs ys
  | _, _ => false

def sameFields : List (String × Json) → List (String × Json) → Bool
  | [], _ => true
  | (k, v) :: rest, e =>
    (match Dict.get? e k with
      | some v' => same v v'
      | none => false) && sameFields rest e

end

mutual

/-- The order of two values, where `<` is defined between them or they are equal. -/
def order? : Json → Json → Option Ordering
  | .str s, .str t => some (compareOfLessAndEq s t)
  | .arr xs, .arr ys => orderItems? xs ys
  | a, b =>
    match a.asNumber, b.asNumber with
    | some p, some q => some (compareOfLessAndEq p q)
    | _, _ => if same a b then some .eq else none

def orderItems? : List Json → List Json → Option Ordering
  | [], [] => some .eq
  | [], _ :: _ => some .lt
  | _ :: _, [] => some .gt
  | x :: xs, y :: ys => if same x y then orderItems? xs ys else order? x y

end

/-- What a value is as a key of a dictionary. -/
inductive Key
  | null
  | num (q : Rat)
  | str (s : String)
  deriving DecidableEq

/-- The key that a hashable value is. -/
def key? : Json → Option Key
  | .null => some .null
  | .bool b => some (.num (if b then 1 else 0))
  | .num q => some (.num q)
  | .str s => some (.str s)
  | _ => none

end Json

end RagForge.Py
