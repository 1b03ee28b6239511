import RagForge.JsonText.Parse

/-
A printed document reads back as itself, in every style.

The readers are shown right on a printed text followed by anything that does not prolong it.  Only a
numeral can be prolonged, so what follows has to stop one.
-/

namespace RagForge.JsonText

open Py (Dict)

variable {ν : Type} {n fuel : Nat} {t u r rest : List Char} {c : Char} {N : Numerals ν} {v : Doc ν}
  {pairs : List (String × Doc ν)} {cs : List Char} {y : Style} {x : Doc ν} {d : Char}

/-! ## Strings -/

theorem hexVal_digitChar (h : n < 16) : hexVal n.digitChar = some n := by
  revert n
  decide

theorem readHex4_hex4 (h : n < 0x10000) (rest : List Char) :
    readHex4 (hex4 n ++ rest) = some (n, rest) := by
  unfold hex4
  simp only [List.cons_append, List.nil_append, readHex4]
  rw [hexVal_digitChar (by omega), hexVal_digitChar (by omega), hexVal_digitChar (by omega),
    hexVal_digitChar (by omega)]
  simp only [Option.bind_eq_bind, Option.bind_some, Option.some.injEq, Prod.mk.injEq, and_true]
  omega

theorem readUnicode_unit (hn : n < 0x10000) (hs : n < 0xd800 ∨ 0xdfff < n) (rest : List Char) :
    readUnicode (hex4 n ++ rest) = some (Char.ofNat n, rest) := by
  unfold readUnicode
  rw [readHex4_hex4 hn]
  simp only [Option.bind_eq_bind, Option.bind_some]
  rw [if_neg (by omega), if_neg (by omega)]

theorem readLow_unit {high low : Nat} (h : 0xdc00 ≤ low ∧ low ≤ 0xdfff) (rest : List Char) :
    readLow high (unit low ++ rest) =
      some (Char.ofNat (0x10000 + (high - 0xd800) * 1024 + (low - 0xdc00)), rest) := by
  have hread := readHex4_hex4 (n := low) (by omega) rest
  unfold unit
  rw [List.cons_append, List.cons_append]
  unfold readLow
  simp only [hread, Option.bind_eq_bind, Option.bind_some, if_pos h]

theorem readUnicode_pair (high low : Nat) (hhigh : 0xd800 ≤ high ∧ high ≤ 0xdbff)
    (hlow : 0xdc00 ≤ low ∧ low ≤ 0xdfff) (rest : List Char) :
    readUnicode (hex4 high ++ (unit low ++ rest)) =
      some (Char.ofNat (0x10000 + (high - 0xd800) * 1024 + (low - 0xdc00)), rest) := by
  have hread := readHex4_hex4 (n := high) (by omega) (unit low ++ rest)
  unfold readUnicode
  simp only [hread, Option.bind_eq_bind, Option.bind_some, if_pos hhigh]
  exact readLow_unit hlow rest

theorem toNat_bounds (c : Char) : c.toNat < 0x110000 ∧ (c.toNat < 0xd800 ∨ 0xdfff < c.toNat) := by
  have h := c.valid
  simp only [UInt32.isValidChar, Nat.isValidChar] at h
  have hc : c.toNat = c.val.toNat := rfl
  omega

theorem readChar_unicodeEscape (c : Char) (rest : List Char) :
    readChar (unicodeEscape c.toNat ++ rest) = some (c, rest) := by
  obtain ⟨hmax, hsurrogate⟩ := toNat_bounds c
  unfold unicodeEscape
  by_cases hbmp : c.toNat < 0x10000
  · rw [if_pos hbmp]
    simp only [unit, List.cons_append, readChar, if_true, readEscape]
    rw [readUnicode_unit hbmp hsurrogate, Char.ofNat_toNat]
  · rw [if_neg hbmp, List.append_assoc]
    have hsum : 0x10000 + (0xd800 + (c.toNat - 0x10000) / 1024 - 0xd800) * 1024 +
        (0xdc00 + (c.toNat - 0x10000) % 1024 - 0xdc00) = c.toNat := by
      omega
    have hpair := readUnicode_pair (0xd800 + (c.toNat - 0x10000) / 1024)
      (0xdc00 + (c.toNat - 0x10000) % 1024) (by omega) (by omega) rest
    rw [hsum, Char.ofNat_toNat] at hpair
    exact hpair

section

variable (N) (ascii : Bool)

theorem readChar_escape (c : Char) (rest : List Char) :
    readChar (escape ascii c ++ rest) = some (c, rest) := by
  unfold escape
  repeat
    split
    · next h => subst h; rfl
  split
  · exact readChar_unicodeEscape c rest
  · next hslash _ _ _ _ _ hplain =>
    have hctrl : ¬ c.toNat < 0x20 := by
      intro hlt
      exact hplain (by simp [hlt])
    simp [readChar, hslash, hctrl]

theorem escape_head (c : Char) : ∃ d cs, escape ascii c = d :: cs ∧ d ≠ '"' := by
  unfold escape unicodeEscape unit
  by_cases hquote : c = '"'
  · exact ⟨'\\', _, by rw [if_pos hquote], by decide⟩
  rw [if_neg hquote]
  repeat' split
  all_goals first
    | exact ⟨_, _, rfl, by decide⟩
    | exact ⟨c, [], rfl, hquote⟩

theorem readStr_of_head (h : d ≠ '"') : readStr (fuel + 1) (d :: t) = (do
      let (c, rest) ← readChar (d :: t)
      let (cs, rest) ← readStr fuel rest
      some (c :: cs, rest)) := by
  rw [readStr]
  intro rest heq
  exact h (List.cons.inj heq).1

theorem readStr_escapes (cs : List Char) (h : cs.length < fuel) (rest : List Char) :
    readStr fuel (cs.flatMap (escape ascii) ++ '"' :: rest) = some (cs, rest) := by
  induction cs generalizing fuel with
  | nil =>
    obtain ⟨fuel, rfl⟩ := Nat.exists_eq_succ_of_ne_zero (Nat.ne_of_gt h)
    rfl
  | cons c cs ih =>
    obtain ⟨fuel, rfl⟩ := Nat.exists_eq_succ_of_ne_zero (Nat.ne_of_gt (Nat.zero_lt_of_lt h))
    obtain ⟨d, ds, hd, hquote⟩ := escape_head ascii c
    have hread := readChar_escape ascii c (cs.flatMap (escape ascii) ++ '"' :: rest)
    rw [hd] at hread
    rw [List.flatMap_cons, List.append_assoc, hd]
    rw [List.cons_append] at hread ⊢
    rw [readStr_of_head hquote, hread]
    have htail : readStr fuel (cs.flatMap (escape ascii) ++ '"' :: rest) = some (cs, rest) :=
      ih (Nat.lt_of_succ_lt_succ h)
    simp only [Option.bind_eq_bind, Option.bind_some, htail]

theorem escape_ne_nil (c : Char) : 0 < (escape ascii c).length := by
  obtain ⟨d, cs, h, _⟩ := escape_head ascii c
  rw [h]
  exact Nat.succ_pos _

theorem length_le_escapes (cs : List Char) : cs.length ≤ (cs.flatMap (escape ascii)).length := by
  induction cs with
  | nil => exact Nat.le_refl 0
  | cons c cs ih =>
    have hpos := escape_ne_nil ascii c
    rw [List.flatMap_cons, List.length_append, List.length_cons]
    omega

theorem readStr_printStr (s : String) (fuel : Nat)
    (h : (printStr ascii s).length ≤ fuel + 1) (rest : List Char) :
    ∃ body, printStr ascii s ++ rest = '"' :: body ∧
      readStr fuel body = some (s.toList, rest) := by
  refine ⟨s.toList.flatMap (escape ascii) ++ '"' :: rest, by simp [printStr], ?_⟩
  have hlen := length_le_escapes ascii s.toList
  simp only [printStr, List.length_cons, List.length_append, List.length_nil] at h
  exact readStr_escapes ascii s.toList (by omega) rest

/-! ## Heads of printed documents -/

def Stops (t : List Char) : Prop := ∀ c cs, t = c :: cs → isNumChar c = false

theorem stops_nil : Stops [] := fun _ _ h => nomatch h

theorem stops_cons (h : isNumChar c = false) (cs : List Char) : Stops (c :: cs) := by
  intro d ds heq
  rw [← (List.cons.inj heq).1]
  exact h

theorem isSpace_of_isNumChar (h : isNumChar c = true) : isSpace c = false := by
  by_contra hs
  have hmem : c ∈ " \t\n\r".toList := by
    rw [isSpace, Bool.not_eq_false, List.contains_iff_mem] at hs
    exact hs
  have hall : " \t\n\r".toList.all (fun d => !isNumChar d) = true := by decide
  have hc := List.all_eq_true.mp hall c hmem
  rw [h] at hc
  cases hc

theorem ne_of_isNumChar (h : isNumChar c = true) (hd : isNumChar d = false) : c ≠ d := by
  intro heq
  rw [heq, hd] at h
  cases h

theorem print_head (y : Style) (v : Doc ν) :
    ∃ c cs, print N y v = c :: cs ∧ isSpace c = false ∧ c ≠ ']' ∧ c ≠ '}' := by
  cases v with
  | null => exact ⟨'n', _, by rw [print]; rfl, by decide⟩
  | bool b =>
    cases b
    · exact ⟨'f', _, by rw [print]; rfl, by decide⟩
    · exact ⟨'t', _, by rw [print]; rfl, by decide⟩
  | num n =>
    obtain ⟨c, cs, hcs⟩ := List.exists_cons_of_ne_nil (N.print_ne_nil n)
    have hnum : isNumChar c = true := N.print_chars n c (by rw [hcs]; exact List.mem_cons_self)
    exact ⟨c, cs, by rw [print, hcs], isSpace_of_isNumChar hnum,
      ne_of_isNumChar hnum (by decide), ne_of_isNumChar hnum (by decide)⟩
  | str s => exact ⟨'"', _, by rw [print]; rfl, by decide⟩
  | arr xs => exact ⟨'[', _, by rw [print], by decide⟩
  | obj fields => exact ⟨'{', _, by rw [print], by decide⟩

theorem printItems_head (y : Style) (x : Doc ν) (xs : List (Doc ν)) (rest : List Char) :
    ∃ c cs, printItems N y (x :: xs) ++ rest = c :: cs ∧ isSpace c = false ∧ c ≠ ']' ∧ c ≠ '}' := by
  obtain ⟨c, cs, hcs, hc⟩ := print_head N y x
  cases xs with
  | nil => exact ⟨c, cs ++ rest, by rw [printItems, hcs, List.cons_append], hc⟩
  | cons z xs =>
    exact ⟨c, _, by rw [printItems_cons_cons, hcs, List.cons_append, List.cons_append], hc⟩

theorem printFields_head (y : Style) (k : String) (v : Doc ν)
    (fields : List (String × Doc ν)) (rest : List Char) :
    ∃ cs, printFields N y ((k, v) :: fields) ++ rest = '"' :: cs := by
  cases fields with
  | nil => exact ⟨_, by rw [printFields, printStr, List.cons_append, List.cons_append]⟩
  | cons p fields =>
    exact ⟨_, by rw [printFields_cons_cons, printStr, List.cons_append, List.cons_append]⟩

theorem skip_of_head (h : isSpace c = false) (cs : List Char) : skip (c :: cs) = c :: cs := by
  unfold skip
  rw [List.dropWhile_cons_of_neg (by simp [h])]

theorem skip_print (y : Style) (v : Doc ν) (rest : List Char) :
    skip (print N y v ++ rest) = print N y v ++ rest := by
  obtain ⟨c, cs, hcs, hspace, _⟩ := print_head N y v
  rw [hcs, List.cons_append, skip_of_head hspace]

theorem skip_blank (h : skip t = t) : skip (' ' :: t) = t := by
  rw [← h]
  unfold skip
  rw [List.dropWhile_cons_of_pos (by decide), List.dropWhile_idempotent]

theorem skip_comma (h : skip t = t) : ∃ u, y.comma ++ t = ',' :: u ∧ skip u = t := by
  unfold Style.comma
  by_cases hy : y.spaced = true
  · exact ⟨' ' :: t, by simp [hy], skip_blank h⟩
  · exact ⟨t, by simp [hy], h⟩

theorem skip_colon (h : skip t = t) : ∃ u, y.colon ++ t = ':' :: u ∧ skip u = t := by
  unfold Style.colon
  by_cases hy : y.spaced = true
  · exact ⟨' ' :: t, by simp [hy], skip_blank h⟩
  · exact ⟨t, by simp [hy], h⟩

/-! ## Numbers and dictionaries -/

theorem readNum_print (n : ν) (h : Stops rest) :
    readNum N (N.print n ++ rest) = some (.num n, rest) := by
  have htake : (N.print n ++ rest).takeWhile isNumChar = N.print n := by
    cases rest with
    | nil => rw [List.append_nil]; exact List.takeWhile_eq_self_iff.mpr (N.print_chars n)
    | cons c cs =>
      rw [List.takeWhile_append_of_pos (N.print_chars n),
        List.takeWhile_cons_of_neg (by simp [h c cs rfl]), List.append_nil]
  have hdrop : (N.print n ++ rest).dropWhile isNumChar = rest := by
    rw [List.dropWhile_append_of_pos (N.print_chars n)]
    cases rest with
    | nil => rfl
    | cons c cs => exact List.dropWhile_cons_of_neg (by simp [h c cs rfl])
  unfold readNum
  rw [htake, hdrop, N.read_print, if_neg (N.print_ne_nil n)]
  rfl

theorem readDoc_of_numChar (h : isNumChar c = true) (fuel : Nat) (t : List Char) :
    readDoc N (fuel + 1) (c :: t) = readNum N (c :: t) := by
  unfold readDoc
  split
  case h_7 => rfl
  all_goals
    next heq =>
      have hc := (List.cons.inj heq).1
      rw [hc] at h
      cases h

theorem set_append_of_notMem {d : Dict String (Doc ν)} {k : String} (h : k ∉ d.map Prod.fst)
    (v : Doc ν) : d.set k v = d ++ [(k, v)] := by
  induction d with
  | nil => rfl
  | cons x rest ih =>
    have hx : x.1 ≠ k := fun heq => h (by simp [heq])
    have hrest : k ∉ rest.map Prod.fst := fun hmem => h (by simp [hmem])
    rw [Dict.set, if_neg hx, ih hrest, List.cons_append]

theorem toDict_eq_self (h : (pairs.map Prod.fst).Nodup) : toDict pairs = pairs := by
  have hfold : ∀ d : Dict String (Doc ν), ((d ++ pairs).map Prod.fst).Nodup →
      pairs.foldl (fun d p => d.set p.1 p.2) d = d ++ pairs := by
    clear h
    induction pairs with
    | nil => intro d _; exact (List.append_nil d).symm
    | cons p rest ih =>
      intro d hd
      have hp : p.1 ∉ d.map Prod.fst := by
        rw [List.map_append, List.map_cons, List.nodup_append] at hd
        intro hmem
        exact hd.2.2 _ hmem _ List.mem_cons_self rfl
      have hcons : d ++ p :: rest = (d ++ [p]) ++ rest := by simp
      rw [List.foldl_cons, set_append_of_notMem hp, hcons]
      rw [hcons] at hd
      exact ih (d ++ [p]) hd
  exact hfold [] h

/-! ## Documents -/

theorem readDoc_str (s : String) (h : 2 * (printStr ascii s).length ≤ fuel) (rest : List Char) :
    readDoc N fuel (printStr ascii s ++ rest) = some (.str s, rest) := by
  have hpos : 0 < (printStr ascii s).length := by simp [printStr]
  obtain ⟨fuel, rfl⟩ := Nat.exists_eq_succ_of_ne_zero (show fuel ≠ 0 by omega)
  obtain ⟨body, hbody, hread⟩ := readStr_printStr ascii s fuel (by omega) rest
  rw [hbody]
  unfold readDoc
  simp only [hread, Option.bind_eq_bind, Option.bind_some, String.ofList_toList]

theorem readDoc_arr (h : skip t = c :: cs) (hc : c ≠ ']') (fuel : Nat) :
    readDoc N (fuel + 1) ('[' :: t) = (do
      let (xs, rest) ← readItems N fuel (c :: cs)
      some (.arr xs, rest)) := by
  conv => lhs; unfold readDoc
  simp only [h]
  split
  · next heq => exact absurd (List.cons.inj heq).1 hc
  · rfl

theorem readDoc_obj (h : skip t = c :: cs) (hc : c ≠ '}') (fuel : Nat) :
    readDoc N (fuel + 1) ('{' :: t) = (do
      let (pairs, rest) ← readPairs N fuel (c :: cs)
      some (.obj (toDict pairs), rest)) := by
  conv => lhs; unfold readDoc
  simp only [h]
  split
  · next heq => exact absurd (List.cons.inj heq).1 hc
  · rfl

end

theorem readItems_last (h : readDoc N fuel t = some (x, r))
    (hr : skip r = ']' :: rest) : readItems N (fuel + 1) t = some ([x], rest) := by
  unfold readItems
  simp only [h, hr, Option.bind_eq_bind, Option.bind_some]

theorem readItems_more {xs : List (Doc ν)} (h : readDoc N fuel t = some (x, r))
    (hr : skip r = ',' :: u) (hs : readItems N fuel (skip u) = some (xs, rest)) :
    readItems N (fuel + 1) t = some (x :: xs, rest) := by
  conv => lhs; unfold readItems
  simp only [h, hr, hs, Option.bind_eq_bind, Option.bind_some]

theorem readPairs_last {r' k : List Char} (hk : readStr fuel t = some (k, r))
    (hr : skip r = ':' :: u) (hv : readDoc N fuel (skip u) = some (v, r'))
    (hr' : skip r' = '}' :: rest) :
    readPairs N (fuel + 1) ('"' :: t) = some ([(String.ofList k, v)], rest) := by
  unfold readPairs
  simp only [hk, hr, hv, hr', Option.bind_eq_bind, Option.bind_some]

theorem readPairs_more {r' w k : List Char} (hk : readStr fuel t = some (k, r))
    (hr : skip r = ':' :: u) (hv : readDoc N fuel (skip u) = some (v, r'))
    (hr' : skip r' = ',' :: w) (hs : readPairs N fuel (skip w) = some (pairs, rest)) :
    readPairs N (fuel + 1) ('"' :: t) = some ((String.ofList k, v) :: pairs, rest) := by
  conv => lhs; unfold readPairs
  simp only [hk, hr, hv, hr', hs, Option.bind_eq_bind, Option.bind_some]

mutual

/-- A printed document reads back as itself, whatever follows it. -/
theorem readDoc_print (N : Numerals ν) (y : Style) (v : Doc ν) (hv : v.valid = true) (fuel : Nat)
    (h : 2 * (print N y v).length ≤ fuel) (rest : List Char) (hrest : Stops rest) :
    readDoc N fuel (print N y v ++ rest) = some (v, rest) := by
  obtain ⟨c, cs, hcs, _⟩ := print_head N y v
  have hpos : 0 < (print N y v).length := by simp [hcs]
  obtain ⟨fuel, rfl⟩ := Nat.exists_eq_succ_of_ne_zero (show fuel ≠ 0 by omega)
  match v, hv with
  | .null, _ => rw [print]; rfl
  | .bool true, _ => rw [print]; rfl
  | .bool false, _ => rw [print]; rfl
  | .num n, _ =>
    rw [print] at hcs ⊢
    have hnum : isNumChar c = true := N.print_chars n c (by rw [hcs]; exact List.mem_cons_self)
    have hread := readNum_print N n hrest
    rw [hcs, List.cons_append] at hread ⊢
    rw [readDoc_of_numChar N hnum, hread]
  | .str s, _ =>
    exact readDoc_str N y.ascii s h rest
  | .arr [], _ => rw [print, printItems]; rfl
  | .arr (x :: xs), hv =>
    rw [print] at h ⊢
    simp only [List.length_cons, List.length_append, List.length_nil] at h
    have hread := readItems_print N y x xs hv fuel (by omega) rest
    rw [List.cons_append, List.append_assoc, List.singleton_append]
    obtain ⟨d, ds, hds, hspace, hclose, _⟩ := printItems_head N y x xs (']' :: rest)
    rw [hds] at hread ⊢
    rw [readDoc_arr N (skip_of_head hspace ds) hclose, hread]
    rfl
  | .obj [], _ => rw [print, printFields]; rfl
  | .obj ((k, w) :: fields), hv =>
    simp only [Doc.valid, Bool.and_eq_true, decide_eq_true_eq] at hv
    rw [print] at h ⊢
    simp only [List.length_cons, List.length_append, List.length_nil] at h
    have hread := readPairs_print N y k w fields hv.2 fuel (by omega) rest
    rw [List.cons_append, List.append_assoc, List.singleton_append]
    obtain ⟨ds, hds⟩ := printFields_head N y k w fields ('}' :: rest)
    rw [hds] at hread ⊢
    rw [readDoc_obj N (skip_of_head (by decide) ds) (by decide), hread]
    simp only [Option.bind_eq_bind, Option.bind_some, toDict_eq_self hv.1]
termination_by fuel

theorem readItems_print (N : Numerals ν) (y : Style) (x : Doc ν) (xs : List (Doc ν))
    (hv : validItems (x :: xs) = true) (fuel : Nat)
    (h : 2 * (printItems N y (x :: xs)).length + 1 ≤ fuel) (rest : List Char) :
    readItems N fuel (printItems N y (x :: xs) ++ ']' :: rest) = some (x :: xs, rest) := by
  obtain ⟨fuel, rfl⟩ := Nat.exists_eq_succ_of_ne_zero (show fuel ≠ 0 by omega)
  rw [validItems, Bool.and_eq_true] at hv
  match xs with
  | [] =>
    rw [printItems] at h ⊢
    exact readItems_last
      (readDoc_print N y x hv.1 fuel (by omega) (']' :: rest) (stops_cons (by decide) rest))
      (skip_of_head (by decide) rest)
  | z :: xs =>
    rw [printItems_cons_cons] at h ⊢
    simp only [List.length_append] at h
    rw [List.append_assoc, List.append_assoc]
    obtain ⟨d, ds, hds, hspace, _⟩ := printItems_head N y z xs (']' :: rest)
    have hskip : skip (printItems N y (z :: xs) ++ ']' :: rest) =
        printItems N y (z :: xs) ++ ']' :: rest := by
      rw [hds, skip_of_head hspace]
    obtain ⟨u, hu, hnext⟩ := skip_comma hskip
    have hcomma : 0 < y.comma.length := y.comma_length_pos
    rw [hu]
    refine readItems_more
      (readDoc_print N y x hv.1 fuel (by omega) (',' :: u) (stops_cons (by decide) u))
      (skip_of_head (by decide) u) ?_
    rw [hnext]
    exact readItems_print N y z xs hv.2 fuel (by omega) rest
termination_by fuel

theorem readPairs_print (N : Numerals ν) (y : Style) (k : String) (v : Doc ν)
    (fields : List (String × Doc ν)) (hv : validFields ((k, v) :: fields) = true) (fuel : Nat)
    (h : 2 * (printFields N y ((k, v) :: fields)).length + 1 ≤ fuel) (rest : List Char) :
    readPairs N fuel (printFields N y ((k, v) :: fields) ++ '}' :: rest) =
      some ((k, v) :: fields, rest) := by
  obtain ⟨fuel, rfl⟩ := Nat.exists_eq_succ_of_ne_zero (show fuel ≠ 0 by omega)
  rw [validFields, Bool.and_eq_true] at hv
  match fields with
  | [] =>
    rw [printFields] at h ⊢
    simp only [List.length_append] at h
    rw [List.append_assoc, List.append_assoc]
    obtain ⟨u, hu, hvalue⟩ := skip_colon (skip_print N y v ('}' :: rest))
    obtain ⟨body, hbody, hkey⟩ :=
      readStr_printStr y.ascii k fuel (by omega) (':' :: u)
    rw [hu, hbody]
    have hdoc := readDoc_print N y v hv.1 fuel (by omega) ('}' :: rest)
      (stops_cons (by decide) rest)
    rw [← hvalue] at hdoc
    have hpairs := readPairs_last hkey (skip_of_head (by decide) u) hdoc
      (skip_of_head (by decide) rest)
    rwa [String.ofList_toList] at hpairs
  | (k', v') :: fields =>
    rw [printFields_cons_cons] at h ⊢
    simp only [List.length_append] at h
    rw [List.append_assoc, List.append_assoc, List.append_assoc, List.append_assoc]
    obtain ⟨ds, hds⟩ := printFields_head N y k' v' fields ('}' :: rest)
    have hskip : skip (printFields N y ((k', v') :: fields) ++ '}' :: rest) =
        printFields N y ((k', v') :: fields) ++ '}' :: rest := by
      rw [hds, skip_of_head (by decide)]
    obtain ⟨w, hw, hnext⟩ := skip_comma hskip
    obtain ⟨u, hu, hvalue⟩ := skip_colon (skip_print N y v (',' :: w))
    obtain ⟨body, hbody, hkey⟩ :=
      readStr_printStr y.ascii k fuel (by omega) (':' :: u)
    have hcomma : 0 < y.comma.length := y.comma_length_pos
    rw [hw, hu, hbody]
    have hdoc := readDoc_print N y v hv.1 fuel (by omega) (',' :: w) (stops_cons (by decide) w)
    have hrest := readPairs_print N y k' v' fields hv.2 fuel (by omega) rest
    rw [← hvalue] at hdoc
    rw [← hnext] at hrest
    have hpairs := readPairs_more hkey (skip_of_head (by decide) u) hdoc
      (skip_of_head (by decide) w) hrest
    rwa [String.ofList_toList] at hpairs
termination_by fuel

end

/-- What was printed parses to the document. -/
theorem parse_print (N : Numerals ν) (y : Style) (hv : v.valid = true) :
    parse N (print N y v) = some v := by
  have hskip := skip_print N y v []
  have hread := readDoc_print N y v hv (2 * (print N y v).length + 2) (by omega) [] stops_nil
  rw [List.append_nil] at hskip hread
  unfold parse
  rw [hskip, hread]
  rfl

theorem print_injective (N : Numerals ν) (y : Style) {w : Doc ν} (hv : v.valid = true)
    (hw : w.valid = true) (h : print N y v = print N y w) : v = w := by
  have hparse := parse_print N y hv
  rw [h, parse_print N y hw] at hparse
  exact (Option.some.inj hparse).symm

end RagForge.JsonText
