import Mathlib.Data.List.DropRight

/-
Python strings.  `strip` and `rstrip` remove the characters for which `str.isspace` holds.
-/

namespace RagForge.Py

/-- The characters that `str.strip()` removes. -/
def isSpace (c : Char) : Bool :=
  let n := c.toNat
  (9 ≤ n && n ≤ 13) || (28 ≤ n && n ≤ 32) || n == 0x85 || n == 0xa0 || n == 0x1680 ||
    (0x2000 ≤ n && n ≤ 0x200a) || n == 0x2028 || n == 0x2029 || n == 0x202f || n == 0x205f ||
    n == 0x3000

def rstrip (s : String) : String := String.ofList (s.toList.rdropWhile isSpace)

def strip (s : String) : String :=
  String.ofList ((s.toList.dropWhile isSpace).rdropWhile isSpace)

/-- `s[:n]` for a natural number `n`. -/
def clip (n : Nat) (s : String) : String := String.ofList (s.toList.take n)

/-- `s[start:stop]` for bounds that are not negative. -/
def slice (s : String) (start stop : Nat) : String :=
  String.ofList ((s.toList.take stop).drop start)

/-- `s.upper()` for texts of ASCII letters. -/
def upper (s : String) : String := String.ofList (s.toList.map Char.toUpper)

/-- `a or b` on strings: the empty string is false. -/
def strOr (a b : String) : String := if a = "" then b else a

/-- `a or b` for an optional string: both `None` and the empty string are false. -/
def optOr (a : Option String) (b : String) : String := strOr (a.getD "") b

/-- `part in whole`. -/
def contains (part whole : String) : Bool :=
  whole.toList.tails.any fun rest => part.toList.isPrefixOf rest

/-- A run of white space becomes one blank; `blank` tells that the last character was one. -/
def squeeze (blank : Bool) : List Char → List Char
  | [] => []
  | c :: rest =>
    if isSpace c then if blank then squeeze true rest else ' ' :: squeeze true rest
    else c :: squeeze false rest

/-- `re.sub(r"\s+", " ", s).strip()`. -/
def collapse (s : String) : String := strip (String.ofList (squeeze false s.toList))

/-- The texts in their order, each once: `dict.fromkeys`. -/
def firsts (xs : List String) : List String :=
  xs.foldl (fun seen x => if x ∈ seen then seen else seen ++ [x]) []

theorem dropWhile_eq_self_of_prefix {p : Char → Bool} {l m : List Char}
    (hl : l.dropWhile p = l) (hm : m <+: l) : m.dropWhile p = m := by
  cases m with
  | nil => rfl
  | cons c rest =>
    obtain ⟨t, rfl⟩ := hm
    have hc : ¬ p c := by
      intro hc
      have hlen := congrArg List.length hl
      have hle : ((rest ++ t).dropWhile p).length ≤ (rest ++ t).length :=
        (List.dropWhile_suffix p).length_le
      simp only [List.cons_append, List.dropWhile_cons, hc, if_true, List.length_cons] at hlen
      omega
    simp [hc]

@[simp] theorem strip_strip (s : String) : strip (strip s) = strip s := by
  have hdrop : ((s.toList.dropWhile isSpace).rdropWhile isSpace).dropWhile isSpace =
      (s.toList.dropWhile isSpace).rdropWhile isSpace :=
    dropWhile_eq_self_of_prefix (List.dropWhile_idempotent isSpace s.toList)
      (List.rdropWhile_prefix _ _)
  simp only [strip, String.toList_ofList, hdrop, List.rdropWhile_idempotent]

/-- A text that stripping changes has white space at one of its ends. -/
theorem isSpace_end_of_strip_ne {s : String} (h : strip s ≠ s) :
    ∃ c, isSpace c = true ∧ (s.toList.head? = some c ∨ s.toList.getLast? = some c) := by
  by_contra hends
  refine h ?_
  have hdrop : s.toList.dropWhile isSpace = s.toList := by
    rw [List.dropWhile_eq_self_iff]
    intro hpos hspace
    exact hends ⟨_, hspace, .inl (List.head?_eq_getElem? ▸ List.getElem?_eq_getElem hpos)⟩
  have hrdrop : s.toList.rdropWhile isSpace = s.toList := by
    rw [List.rdropWhile_eq_self_iff]
    intro hne hspace
    exact hends ⟨_, hspace, .inr (List.getLast?_eq_some_getLast hne)⟩
  rw [strip, hdrop, hrdrop, String.ofList_toList]

end RagForge.Py
