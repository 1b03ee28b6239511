import Mathlib.Data.Nat.Digits.Lemmas
import RagForge.JsonText.Print

/-
Integers in decimal notation.
-/

namespace RagForge.JsonText

def natText (n : Nat) : List Char :=
  if n = 0 then ['0'] else (Nat.digits 10 n).reverse.map Nat.digitChar

def natValue (t : List Char) : Nat := Nat.ofDigits 10 (t.reverse.map fun c => c.toNat - 48)

def intText : Int → List Char
  | .ofNat n => natText n
  | .negSucc n => '-' :: natText (n + 1)

def readNat (t : List Char) : Option Nat :=
  if t ≠ [] ∧ t.all Char.isDigit ∧ (t.head? ≠ some '0' ∨ t = ['0']) then some (natValue t) else none

def readInt : List Char → Option Int
  | '-' :: t => (readNat t).map fun n => -Int.ofNat n
  | t => (readNat t).map Int.ofNat

theorem digitChar_toNat {d : Nat} (h : d < 10) : d.digitChar.toNat - 48 = d := by
  revert d
  decide

theorem digitChar_isDigit {d : Nat} (h : d < 10) : d.digitChar.isDigit = true := by
  revert d
  decide

theorem natValue_natText (n : Nat) : natValue (natText n) = n := by
  unfold natText natValue
  by_cases hn : n = 0
  · rw [if_pos hn, hn]
    rfl
  · have hdigits : ((Nat.digits 10 n).map Nat.digitChar).map (fun c => c.toNat - 48) =
        Nat.digits 10 n := by
      rw [List.map_map]
      conv => rhs; rw [← List.map_id (Nat.digits 10 n)]
      refine List.map_congr_left fun d hd => ?_
      exact digitChar_toNat (Nat.digits_lt_base (by decide) hd)
    rw [if_neg hn, ← List.map_reverse, List.reverse_reverse, hdigits, Nat.ofDigits_digits]

theorem natText_digits (n : Nat) : ∀ c ∈ natText n, c.isDigit = true := by
  intro c hc
  unfold natText at hc
  split at hc
  · rw [List.mem_singleton.mp hc]
    decide
  · obtain ⟨d, hd, rfl⟩ := List.mem_map.mp hc
    exact digitChar_isDigit (Nat.digits_lt_base (by decide) (List.mem_reverse.mp hd))

theorem natText_ne_nil (n : Nat) : natText n ≠ [] := by
  unfold natText
  split
  · exact List.cons_ne_nil _ _
  · next hn =>
    intro h
    rw [List.map_eq_nil_iff, List.reverse_eq_nil_iff, Nat.digits_eq_nil_iff_eq_zero] at h
    exact hn h

theorem natText_head (n : Nat) : (natText n).head? ≠ some '0' ∨ natText n = ['0'] := by
  unfold natText
  by_cases hn : n = 0
  · rw [if_pos hn]
    exact .inr rfl
  · refine .inl ?_
    rw [if_neg hn, List.head?_map, List.head?_reverse]
    have hne : Nat.digits 10 n ≠ [] := Nat.digits_ne_nil_iff_ne_zero.mpr hn
    rw [List.getLast?_eq_some_getLast hne, Option.map_some]
    have hlast := Nat.getLast_digit_ne_zero 10 hn
    have hlt := Nat.digits_lt_base (by decide) (List.getLast_mem hne)
    intro h
    have hd : (((Nat.digits 10 n).getLast hne).digitChar).toNat - 48 = 0 := by
      rw [Option.some.inj h]
      rfl
    rw [digitChar_toNat hlt] at hd
    exact hlast hd

theorem readNat_natText (n : Nat) : readNat (natText n) = some n := by
  unfold readNat
  rw [if_pos ⟨natText_ne_nil n, List.all_eq_true.mpr (natText_digits n), natText_head n⟩,
    natValue_natText]

def intNumerals : Numerals Int where
  print := intText
  read := readInt
  read_print n := by
    cases n with
    | ofNat n =>
      have hdigit : ∀ t, natText n ≠ '-' :: t := by
        intro t h
        have hc := natText_digits n '-' (by rw [h]; exact List.mem_cons_self)
        revert hc
        decide
      unfold intText readInt
      split
      · next h => exact absurd h (hdigit _)
      · rw [readNat_natText]
        rfl
    | negSucc n =>
      show (readNat (natText (n + 1))).map (fun n => -Int.ofNat n) = some (Int.negSucc n)
      rw [readNat_natText]
      rfl
  print_ne_nil n := by
    cases n with
    | ofNat n => exact natText_ne_nil n
    | negSucc n => exact List.cons_ne_nil _ _
  print_chars n c hc := by
    unfold isNumChar
    cases n with
    | ofNat n => rw [natText_digits n c hc, Bool.true_or]
    | negSucc n =>
      rcases List.mem_cons.mp hc with rfl | hc
      · decide
      · rw [natText_digits (n + 1) c hc, Bool.true_or]

end RagForge.JsonText
