import Mathlib.Algebra.Group.Nat.Defs

/-
Python's `datetime` in UTC, and the texts of `isoformat`.

A text leaves the fraction out at a whole second, so texts have two lengths.  Their order is the
order of time all the same, since a plus sign is before a full stop.
-/

namespace RagForge.Py

/-! ## Instants and their texts -/

/-- How much comes before the `n`-th part of a whole. -/
def before (width : Nat → Nat) : Nat → Nat
  | 0 => 0
  | n + 1 => before width n + width n

def isLeap (year : Nat) : Bool := year % 4 == 0 && (year % 100 != 0 || year % 400 == 0)

def daysInMonth (leap : Bool) (month : Nat) : Nat :=
  [0, 31, if leap then 29 else 28, 31, 30, 31, 30, 31, 31, 30, 31, 30, 31].getD month 0

def daysInYear (year : Nat) : Nat := before (daysInMonth (isLeap year)) 13

/-- A `datetime` in UTC. -/
structure DateTime where
  year : Nat
  month : Nat
  day : Nat
  hour : Nat
  minute : Nat
  second : Nat
  microsecond : Nat
  valid : (1 ≤ year ∧ year ≤ 9999) ∧ (1 ≤ month ∧ month ≤ 12) ∧
    (1 ≤ day ∧ day ≤ daysInMonth (isLeap year) month) ∧ hour < 24 ∧ minute < 60 ∧ second < 60 ∧
    microsecond < 1000000

namespace DateTime

def ordinal (t : DateTime) : Nat :=
  before daysInYear t.year + (before (daysInMonth (isLeap t.year)) t.month + t.day)

/-- Microseconds since the beginning of the year 0. -/
def micros (t : DateTime) : Nat :=
  (((t.ordinal * 24 + t.hour) * 60 + t.minute) * 60 + t.second) * 1000000 + t.microsecond

end DateTime

/-- The last `k` decimal digits of a number. -/
def pad : Nat → Nat → List Char
  | 0, _ => []
  | k + 1, n => (n / 10 ^ k).digitChar :: pad k (n % 10 ^ k)

def fraction (microsecond : Nat) : List Char :=
  if microsecond = 0 then [] else '.' :: pad 6 microsecond

def DateTime.isoformat (t : DateTime) : List Char :=
  pad 4 t.year ++ '-' :: (pad 2 t.month ++ '-' :: (pad 2 t.day ++ 'T' :: (pad 2 t.hour ++
    ':' :: (pad 2 t.minute ++ ':' :: (pad 2 t.second ++ (fraction t.microsecond ++
      "+00:00".toList))))))

/-! ## The two orders -/

theorem compare_add {a b m n r s : Nat} (hlt : a < b → m + r < n + s)
    (heq : a = b → m = n) (hgt : b < a → n + s < m + r) :
    compare (m + r) (n + s) = (compare a b).then (compare r s) := by
  rcases Nat.lt_trichotomy a b with h | h | h
  · rw [Nat.compare_eq_lt.mpr h]
    exact Nat.compare_eq_lt.mpr (hlt h)
  · rw [Nat.compare_eq_eq.mpr h, heq h]
    simp only [Nat.compare_eq_ite_lt, Nat.add_lt_add_iff_left]
    rfl
  · rw [Nat.compare_eq_gt.mpr h]
    exact Nat.compare_eq_gt.mpr (hgt h)

theorem compare_radix (q : Nat) {a b r s : Nat} (hr : r < q) (hs : s < q) :
    compare (a * q + r) (b * q + s) = (compare a b).then (compare r s) := by
  have hstep : ∀ {a b}, a < b → a * q + q ≤ b * q := by
    intro a b hab
    rw [← Nat.succ_mul]
    exact Nat.mul_le_mul_right q hab
  refine compare_add (fun h => ?_) (congrArg (· * q)) fun h => ?_
  · have hab := hstep h
    omega
  · have hba := hstep h
    omega

theorem compare_digitChar : ∀ a < 10, ∀ b < 10,
    compare (Nat.digitChar a) (Nat.digitChar b) = compare a b := by
  decide

theorem compare_pad {k a b : Nat} (ha : a < 10 ^ k) (hb : b < 10 ^ k) (x y : List Char) :
    compare (pad k a ++ x) (pad k b ++ y) = (compare a b).then (compare x y) := by
  induction k generalizing a b with
  | zero =>
    obtain rfl : a = 0 := by simpa using ha
    obtain rfl : b = 0 := by simpa using hb
    rfl
  | succ k ih =>
    have hpos : 0 < 10 ^ k := Nat.pow_pos (by decide)
    have hdigit : ∀ {n}, n < 10 ^ (k + 1) → n / 10 ^ k < 10 := fun h =>
      Nat.div_lt_of_lt_mul (by rwa [← Nat.pow_succ])
    rw [pad, pad, List.cons_append, List.cons_append, List.compare_cons_cons,
      compare_digitChar _ (hdigit ha) _ (hdigit hb),
      ih (Nat.mod_lt _ hpos) (Nat.mod_lt _ hpos), ← Ordering.then_assoc,
      ← compare_radix (10 ^ k) (Nat.mod_lt _ hpos) (Nat.mod_lt _ hpos), Nat.div_add_mod',
      Nat.div_add_mod']

theorem compare_cons_self (c : Char) (x y : List Char) :
    compare (c :: x) (c :: y) = compare x y := by
  rw [List.compare_cons_cons, Std.ReflOrd.compare_self]
  rfl

theorem compare_fraction {a b : Nat} (ha : a < 1000000) (hb : b < 1000000) :
    compare (fraction a ++ "+00:00".toList) (fraction b ++ "+00:00".toList) = compare a b := by
  unfold fraction
  by_cases ha0 : a = 0
  · by_cases hb0 : b = 0
    · rw [if_pos ha0, if_pos hb0, ha0, hb0, Std.ReflOrd.compare_self, Std.ReflOrd.compare_self]
    · rw [if_pos ha0, if_neg hb0, Nat.compare_eq_lt.mpr (by omega)]
      rfl
  · by_cases hb0 : b = 0
    · rw [if_neg ha0, if_pos hb0, Nat.compare_eq_gt.mpr (by omega)]
      rfl
    · rw [if_neg ha0, if_neg hb0, List.cons_append, List.cons_append, compare_cons_self,
        compare_pad ha hb, Std.ReflOrd.compare_self, Ordering.then_eq]

theorem before_add_le (width : Nat → Nat) {a b : Nat} (h : a < b) :
    before width a + width a ≤ before width b := by
  induction h with
  | refl => exact Nat.le_refl _
  | step _ ih => exact Nat.le_trans ih (Nat.le_add_right _ _)

theorem compare_before {width : Nat → Nat} {a b r s : Nat} (hr : 0 < r ∧ r ≤ width a)
    (hs : 0 < s ∧ s ≤ width b) :
    compare (before width a + r) (before width b + s) = (compare a b).then (compare r s) := by
  refine compare_add (fun h => ?_) (congrArg (before width)) fun h => ?_
  · have hab := before_add_le width h
    omega
  · have hba := before_add_le width h
    omega

theorem DateTime.dayOfYear (t : DateTime) :
    0 < before (daysInMonth (isLeap t.year)) t.month + t.day ∧
      before (daysInMonth (isLeap t.year)) t.month + t.day ≤ daysInYear t.year := by
  obtain ⟨-, ⟨-, hmonth⟩, ⟨hday, hday'⟩, -⟩ := t.valid
  have hlast := before_add_le (daysInMonth (isLeap t.year)) (show t.month < 13 by omega)
  unfold daysInYear
  omega

variable (a b : DateTime)

theorem compare_ordinal : compare a.ordinal b.ordinal =
    (compare a.year b.year).then ((compare a.month b.month).then (compare a.day b.day)) := by
  unfold DateTime.ordinal
  rw [compare_before a.dayOfYear b.dayOfYear]
  cases hyear : compare a.year b.year with
  | lt | gt => rfl
  | eq =>
    have ha := a.valid.2.2.1
    rw [Nat.compare_eq_eq.mp hyear] at ha ⊢
    exact congrArg _ (compare_before ha b.valid.2.2.1)

theorem compare_isoformat : compare a.isoformat b.isoformat = compare a.micros b.micros := by
  obtain ⟨⟨-, hyear⟩, ⟨-, hmonth⟩, ⟨-, hday⟩, hhour, hminute, hsecond, hmicro⟩ := a.valid
  obtain ⟨⟨-, hyear'⟩, ⟨-, hmonth'⟩, ⟨-, hday'⟩, hhour', hminute', hsecond', hmicro'⟩ := b.valid
  have hmax : ∀ leap, ∀ m ≤ 12, daysInMonth leap m < 100 := by decide +kernel
  have hd := hmax (isLeap a.year) a.month hmonth
  have hd' := hmax (isLeap b.year) b.month hmonth'
  unfold DateTime.isoformat DateTime.micros
  rw [compare_pad (by omega) (by omega), compare_cons_self, compare_pad (by omega) (by omega),
    compare_cons_self, compare_pad (by omega) (by omega), compare_cons_self,
    compare_pad (by omega) (by omega), compare_cons_self, compare_pad (by omega) (by omega),
    compare_cons_self, compare_pad (by omega) (by omega), compare_fraction hmicro hmicro',
    compare_radix _ hmicro hmicro', compare_radix _ hsecond hsecond',
    compare_radix _ hminute hminute', compare_radix _ hhour hhour', compare_ordinal]
  simp only [Ordering.then_assoc]

end RagForge.Py
