import RagForge.JsonText.RoundTrip

/-
The characters of a printed document.

Everything but the contents of strings is printed in ASCII without control characters.  So a
character outside ASCII stands in a text only if a string of the document holds it, and where those
are not escaped it stands there for every string that does.
-/

namespace RagForge.JsonText

variable {ν : Type} {c d : Char} {s : String}

mutual

def texts : Doc ν → List String
  | .null | .bool _ | .num _ => []
  | .str s => [s]
  | .arr xs => textsItems xs
  | .obj fields => textsFields fields

def textsItems : List (Doc ν) → List String
  | [] => []
  | x :: rest => texts x ++ textsItems rest

def textsFields : List (String × Doc ν) → List String
  | [] => []
  | (k, v) :: rest => k :: (texts v ++ textsFields rest)

end

/-- A character that no token is made of: a control character, or one outside ASCII. -/
def Outside (c : Char) : Prop := c.toNat < 0x20 ∨ 0x80 ≤ c.toNat

instance (c : Char) : Decidable (Outside c) := inferInstanceAs (Decidable (_ ∨ _))

theorem ne_of_outside (h : Outside c) (hd : ¬ Outside d) : c ≠ d := by
  intro heq
  rw [heq] at h
  exact hd h

theorem not_outside_of_isNumChar (h : isNumChar c = true) : ¬ Outside c := by
  unfold isNumChar at h
  rw [Bool.or_eq_true] at h
  rcases h with h | h
  · unfold Outside
    simp only [Char.isDigit, Bool.and_eq_true, decide_eq_true_eq, ge_iff_le, UInt32.le_iff_toNat_le]
      at h
    have hc : c.toNat = c.val.toNat := rfl
    have h0 : '0'.val.toNat = 48 := rfl
    have h9 : '9'.val.toNat = 57 := rfl
    omega
  · have hall : "+-.eE".toList.all (fun d => decide (¬ Outside d)) = true := by decide
    exact of_decide_eq_true (List.all_eq_true.mp hall c (List.contains_iff_mem.mp h))

theorem not_outside_word (h : Outside c) (word : List Char)
    (hword : word.all (fun d => decide (¬ Outside d)) = true) : c ∉ word := by
  intro hmem
  exact of_decide_eq_true (List.all_eq_true.mp hword c hmem) h

theorem digitChar_not_outside {n : Nat} (h : n < 16) : ¬ Outside n.digitChar := by
  revert n
  decide

theorem not_mem_unit (h : Outside c) (n : Nat) : c ∉ unit n := by
  unfold unit hex4
  have hlt : ∀ m, m % 16 < 16 := fun m => Nat.mod_lt m (by decide)
  simp only [List.mem_cons, List.not_mem_nil, or_false, not_or]
  exact ⟨ne_of_outside h (by decide), ne_of_outside h (by decide),
    ne_of_outside h (digitChar_not_outside (hlt _)), ne_of_outside h
      (digitChar_not_outside (hlt _)),
    ne_of_outside h (digitChar_not_outside (hlt _)), ne_of_outside h
      (digitChar_not_outside (hlt _))⟩

theorem not_mem_unicodeEscape (h : Outside c) (n : Nat) : c ∉ unicodeEscape n := by
  unfold unicodeEscape
  split
  · exact not_mem_unit h n
  · intro hmem
    rcases List.mem_append.mp hmem with hmem | hmem
    · exact not_mem_unit h _ hmem
    · exact not_mem_unit h _ hmem

theorem not_mem_pair {e : Char} (h : Outside c) (hd : ¬ Outside d) (he : ¬ Outside e) :
    c ∉ [d, e] := by
  simp only [List.mem_cons, List.not_mem_nil, or_false, not_or]
  exact ⟨ne_of_outside h hd, ne_of_outside h he⟩

theorem mem_escape {ascii : Bool} (h : Outside c) (hmem : c ∈ escape ascii d) :
    c = d ∧ 0x80 ≤ c.toNat := by
  unfold escape at hmem
  repeat
    split at hmem
    · exact absurd hmem (not_mem_pair h (by decide) (by decide))
  split at hmem
  · exact absurd hmem (not_mem_unicodeEscape h _)
  · next hplain =>
    have hcd : c = d := List.mem_singleton.mp hmem
    have hctrl : ¬ d.toNat < 0x20 := fun hlt => hplain (by simp [hlt])
    rw [← hcd] at hctrl
    rcases h with h | h
    · exact absurd h hctrl
    · exact ⟨hcd, h⟩

theorem mem_escape_self (h : 0x80 ≤ c.toNat) : c ∈ escape false c := by
  have hne : ∀ d, d.toNat < 0x80 → c ≠ d := by
    intro d hd heq
    rw [heq] at h
    omega
  have hctrl : ¬ c.toNat < 0x20 := by omega
  unfold escape
  rw [if_neg (hne _ (by decide)), if_neg (hne _ (by decide)), if_neg (hne _ (by decide)),
    if_neg (hne _ (by decide)), if_neg (hne _ (by decide)), if_neg (hne _ (by decide)),
    if_neg (hne _ (by decide)), if_neg (by simp [hctrl])]
  exact List.mem_singleton_self c

theorem mem_printStr {ascii : Bool} (h : Outside c) (hmem : c ∈ printStr ascii s) :
    c ∈ s.toList ∧ 0x80 ≤ c.toNat := by
  rcases List.mem_cons.mp hmem with hmem | hmem
  · exact absurd hmem (ne_of_outside h (by decide))
  rcases List.mem_append.mp hmem with hmem | hmem
  · obtain ⟨d, hd, hmem⟩ := List.mem_flatMap.mp hmem
    obtain ⟨rfl, hc⟩ := mem_escape h hmem
    exact ⟨hd, hc⟩
  · exact absurd (List.mem_singleton.mp hmem) (ne_of_outside h (by decide))

theorem mem_printStr_self (h : 0x80 ≤ c.toNat) (hmem : c ∈ s.toList) : c ∈ printStr false s := by
  refine List.mem_cons_of_mem _ (List.mem_append_left _ ?_)
  exact List.mem_flatMap.mpr ⟨c, hmem, mem_escape_self h⟩

theorem not_mem_comma {y : Style} (h : Outside c) : c ∉ y.comma := by
  unfold Style.comma
  split
  · exact not_mem_pair h (by decide) (by decide)
  · exact fun hmem => ne_of_outside h (by decide) (List.mem_singleton.mp hmem)

theorem not_mem_colon {y : Style} (h : Outside c) : c ∉ y.colon := by
  unfold Style.colon
  split
  · exact not_mem_pair h (by decide) (by decide)
  · exact fun hmem => ne_of_outside h (by decide) (List.mem_singleton.mp hmem)

def Held (c : Char) (ss : List String) : Prop := 0x80 ≤ c.toNat ∧ ∃ s ∈ ss, c ∈ s.toList

theorem held_append {ss ts : List String} : Held c (ss ++ ts) ↔ Held c ss ∨ Held c ts := by
  constructor
  · intro h
    obtain ⟨hc, s, hs, hmem⟩ := h
    rcases List.mem_append.mp hs with hs | hs
    · exact .inl ⟨hc, s, hs, hmem⟩
    · exact .inr ⟨hc, s, hs, hmem⟩
  · intro h
    rcases h with ⟨hc, s, hs, hmem⟩ | ⟨hc, s, hs, hmem⟩
    · exact ⟨hc, s, List.mem_append_left _ hs, hmem⟩
    · exact ⟨hc, s, List.mem_append_right _ hs, hmem⟩

theorem held_cons {ss : List String} : Held c (s :: ss) ↔ Held c [s] ∨ Held c ss := by
  rw [← List.singleton_append, held_append]

theorem held_singleton : Held c [s] ↔ c ∈ s.toList ∧ 0x80 ≤ c.toNat := by
  unfold Held
  simp [and_comm]

theorem mem_printStr_iff (h : Outside c) : c ∈ printStr false s ↔ Held c [s] := by
  rw [held_singleton]
  constructor
  · intro hmem
    exact mem_printStr h hmem
  · intro hheld
    exact mem_printStr_self hheld.2 hheld.1

variable {N : Numerals ν} {y : Style} {c : Char}

mutual

/-- A character from outside is printed exactly if a string of the document holds it. -/
theorem mem_print_iff (hy : y.ascii = false) (h : Outside c) (v : Doc ν) :
    c ∈ print N y v ↔ Held c (texts v) := by
  match v with
  | .null => simpa [print, texts, Held] using not_outside_word h "null".toList rfl
  | .bool true => simpa [print, texts, Held] using not_outside_word h "true".toList rfl
  | .bool false => simpa [print, texts, Held] using not_outside_word h "false".toList rfl
  | .num n =>
    constructor
    · intro hmem
      exact absurd h (not_outside_of_isNumChar (N.print_chars n c hmem))
    · intro hheld
      obtain ⟨_, s, hs, _⟩ := hheld
      exact (List.not_mem_nil hs).elim
  | .str s =>
    rw [print, texts, hy]
    exact mem_printStr_iff h
  | .arr xs =>
    rw [print, texts, List.mem_cons, List.mem_append, mem_printItems_iff hy h xs]
    simp [ne_of_outside h (show ¬ Outside '[' by decide),
      ne_of_outside h (show ¬ Outside ']' by decide)]
  | .obj fields =>
    rw [print, texts, List.mem_cons, List.mem_append, mem_printFields_iff hy h fields]
    simp [ne_of_outside h (show ¬ Outside '{' by decide),
      ne_of_outside h (show ¬ Outside '}' by decide)]

theorem mem_printItems_iff (hy : y.ascii = false) (h : Outside c) (xs : List (Doc ν)) :
    c ∈ printItems N y xs ↔ Held c (textsItems xs) := by
  match xs with
  | [] => simp [printItems, textsItems, Held]
  | [x] =>
    rw [printItems, textsItems, textsItems, List.append_nil]
    exact mem_print_iff hy h x
  | x :: z :: rest =>
    rw [printItems_cons_cons, textsItems, held_append, List.mem_append, List.mem_append,
      mem_print_iff hy h x, mem_printItems_iff hy h (z :: rest)]
    simp [not_mem_comma h]

theorem mem_printFields_iff (hy : y.ascii = false) (h : Outside c)
    (fields : List (String × Doc ν)) :
    c ∈ printFields N y fields ↔ Held c (textsFields fields) := by
  match fields with
  | [] => simp [printFields, textsFields, Held]
  | [(k, v)] =>
    rw [printFields, textsFields, textsFields, List.append_nil, held_cons, List.mem_append,
      List.mem_append, mem_print_iff hy h v, hy, mem_printStr_iff h]
    simp [not_mem_colon h]
  | (k, v) :: p :: rest =>
    rw [printFields_cons_cons, textsFields, held_cons, held_append,
      List.mem_append, List.mem_append, List.mem_append, List.mem_append, mem_print_iff hy h v,
      mem_printFields_iff hy h (p :: rest), hy, mem_printStr_iff h]
    simp [not_mem_colon h, not_mem_comma h]

end

end RagForge.JsonText
