import RagForge.JsonText.RoundTrip

/-
A text that is cut short.

What a reader accepts it accepts with the same result when more text follows, numerals at the very
end apart.  So the text of an object has no proper beginning that is a document.
-/

namespace RagForge.JsonText

variable {ν : Type} {s t r : List Char} {c : Char} {fuel : Nat} {N : Numerals ν} {v : Doc ν}
  {xs : List (Doc ν)} {pairs : List (String × Doc ν)}

/-! ## Strings -/

theorem readHex4_append {n : Nat} (h : readHex4 t = some (n, r)) :
    readHex4 (t ++ s) = some (n, r ++ s) := by
  unfold readHex4 at h
  split at h
  · next a b c d rest =>
    simp only [Option.bind_eq_bind, Option.bind_eq_some_iff, Option.some.injEq,
      Prod.mk.injEq] at h
    obtain ⟨x, ha, y, hb, z, hc, w, hd, hn, rfl⟩ := h
    simp only [List.cons_append, readHex4, ha, hb, hc, hd, Option.bind_eq_bind, Option.bind_some,
      hn]
  · cases h

theorem readLow_append {high : Nat} (h : readLow high t = some (c, r)) :
    readLow high (t ++ s) = some (c, r ++ s) := by
  unfold readLow at h
  split at h
  · next rest =>
    simp only [Option.bind_eq_bind, Option.bind_eq_some_iff] at h
    obtain ⟨⟨low, u⟩, hlow, h⟩ := h
    simp only [List.cons_append, readLow, readHex4_append hlow, Option.bind_eq_bind,
      Option.bind_some]
    split at h
    · next hrange =>
      simp only [Option.some.injEq, Prod.mk.injEq] at h
      rw [if_pos hrange, h.1, h.2]
    · cases h
  · cases h

theorem readUnicode_append (h : readUnicode t = some (c, r)) :
    readUnicode (t ++ s) = some (c, r ++ s) := by
  unfold readUnicode at h ⊢
  simp only [Option.bind_eq_bind, Option.bind_eq_some_iff] at h
  obtain ⟨⟨n, u⟩, hn, h⟩ := h
  simp only [readHex4_append hn, Option.bind_eq_bind, Option.bind_some]
  split at h
  · next hhigh =>
    rw [if_pos hhigh]
    exact readLow_append h
  · next hhigh =>
    rw [if_neg hhigh]
    split at h
    · cases h
    · next hlow =>
      simp only [Option.some.injEq, Prod.mk.injEq] at h
      rw [if_neg hlow, h.1, h.2]

theorem readEscape_append (h : readEscape t = some (c, r)) :
    readEscape (t ++ s) = some (c, r ++ s) := by
  unfold readEscape at h
  split at h
  case h_9 => exact readUnicode_append h
  case h_10 => cases h
  all_goals
    obtain ⟨rfl, rfl⟩ := h
    rfl

theorem readChar_append (h : readChar t = some (c, r)) : readChar (t ++ s) = some (c, r ++ s) := by
  cases t with
  | nil => cases h
  | cons d t =>
    simp only [readChar, List.cons_append] at h ⊢
    split at h
    · next hslash =>
      rw [if_pos hslash]
      exact readEscape_append h
    · next hslash =>
      split at h
      · cases h
      · next hctrl =>
        simp only [Option.some.injEq, Prod.mk.injEq] at h
        rw [if_neg hslash, if_neg hctrl, h.1, h.2]

theorem readStr_append {fuel' : Nat} {cs : List Char} (h : readStr fuel t = some (cs, r))
    (hle : fuel ≤ fuel') : readStr fuel' (t ++ s) = some (cs, r ++ s) := by
  induction fuel generalizing fuel' t cs with
  | zero => cases h
  | succ fuel ih =>
    obtain ⟨fuel', rfl⟩ := Nat.exists_eq_succ_of_ne_zero (show fuel' ≠ 0 by omega)
    cases t with
    | nil => cases h
    | cons d t =>
      by_cases hquote : d = '"'
      · subst hquote
        simp only [readStr, Option.some.injEq, Prod.mk.injEq] at h
        rw [← h.1, ← h.2]
        rfl
      · rw [readStr_of_head hquote] at h
        rw [List.cons_append, readStr_of_head hquote]
        simp only [Option.bind_eq_bind, Option.bind_eq_some_iff, Option.some.injEq,
          Prod.mk.injEq] at h
        obtain ⟨⟨c, u⟩, hc, ⟨ds, w⟩, hds, rfl, rfl⟩ := h
        have hc' := readChar_append (s := s) hc
        rw [List.cons_append] at hc'
        simp only [hc', ih hds (Nat.le_of_succ_le_succ hle), Option.bind_eq_bind,
          Option.bind_some]

/-! ## Documents -/

theorem skip_append_of_ne_nil (h : skip t ≠ []) : skip (t ++ s) = skip t ++ s := by
  unfold skip at h ⊢
  rw [List.dropWhile_append, if_neg (by simpa using h)]

theorem skip_append {u : List Char} (h : skip t = c :: u) : skip (t ++ s) = c :: (u ++ s) := by
  rw [skip_append_of_ne_nil (by rw [h]; exact List.cons_ne_nil c u), h, List.cons_append]

def Doc.isNum : Doc ν → Bool
  | .num _ => true
  | _ => false

theorem readNum_append (h : readNum N t = some (v, r)) (hr : r ≠ []) :
    readNum N (t ++ s) = some (v, r ++ s) := by
  unfold readNum at h ⊢
  split at h
  · cases h
  · next hne =>
    simp only [Option.map_eq_some_iff, Prod.mk.injEq] at h
    obtain ⟨n, hn, hv, hdrop⟩ := h
    have htake' : (t ++ s).takeWhile isNumChar = t.takeWhile isNumChar := by
      rw [List.takeWhile_append, if_neg]
      intro hlen
      have hall := List.takeWhile_append_dropWhile (p := isNumChar) (l := t)
      have hlen' := congrArg List.length hall
      rw [List.length_append, hlen, hdrop] at hlen'
      exact hr (List.length_eq_zero_iff.mp (by omega))
    have hdrop' : (t ++ s).dropWhile isNumChar = r ++ s := by
      rw [List.dropWhile_append, hdrop]
      simp [hr]
    rw [htake', if_neg hne, hn, hdrop', ← hv]
    rfl

theorem readItems_cases (h : readItems N (fuel + 1) t = some (xs, r)) :
    ∃ x u, readDoc N fuel t = some (x, u) ∧
      (skip u = ']' :: r ∧ xs = [x] ∨
        ∃ w ys, skip u = ',' :: w ∧ readItems N fuel (skip w) = some (ys, r) ∧ xs = x :: ys) := by
  unfold readItems at h
  simp only [Option.bind_eq_bind, Option.bind_eq_some_iff] at h
  obtain ⟨⟨x, u⟩, hx, h⟩ := h
  refine ⟨x, u, hx, ?_⟩
  split at h
  · next hclose =>
    simp only [Option.some.injEq, Prod.mk.injEq] at h
    exact .inl ⟨by rw [hclose, h.2], h.1.symm⟩
  · next w hcomma =>
    simp only [Option.bind_eq_some_iff, Option.some.injEq, Prod.mk.injEq] at h
    obtain ⟨⟨ys, w'⟩, hys, hxs, rfl⟩ := h
    exact .inr ⟨w, ys, hcomma, hys, hxs.symm⟩
  · cases h

theorem readPairs_cases (h : readPairs N (fuel + 1) t = some (pairs, r)) :
    ∃ t' k u w v u', t = '"' :: t' ∧ readStr fuel t' = some (k, u) ∧ skip u = ':' :: w ∧
      readDoc N fuel (skip w) = some (v, u') ∧
      (skip u' = '}' :: r ∧ pairs = [(String.ofList k, v)] ∨
        ∃ w' ps, skip u' = ',' :: w' ∧ readPairs N fuel (skip w') = some (ps, r) ∧
          pairs = (String.ofList k, v) :: ps) := by
  unfold readPairs at h
  split at h
  · next t' =>
    simp only [Option.bind_eq_bind, Option.bind_eq_some_iff] at h
    obtain ⟨⟨k, u⟩, hk, h⟩ := h
    split at h
    · next w hcolon =>
      simp only [Option.bind_eq_some_iff] at h
      obtain ⟨⟨v, u'⟩, hv, h⟩ := h
      refine ⟨t', k, u, w, v, u', rfl, hk, hcolon, hv, ?_⟩
      split at h
      · next hclose =>
        simp only [Option.some.injEq, Prod.mk.injEq] at h
        exact .inl ⟨by rw [hclose, h.2], h.1.symm⟩
      · next w' hcomma =>
        simp only [Option.bind_eq_some_iff, Option.some.injEq, Prod.mk.injEq] at h
        obtain ⟨⟨ps, w''⟩, hps, hpairs, rfl⟩ := h
        exact .inr ⟨w', ps, hcomma, hps, hpairs.symm⟩
      · cases h
    · cases h
  · cases h

theorem readDoc_nil (N : Numerals ν) (fuel : Nat) : readDoc N fuel [] = none := by
  cases fuel with
  | zero | succ => unfold readDoc; rfl

theorem ne_nil_of_readItems (h : readItems N fuel t = some (xs, r)) : t ≠ [] := by
  intro ht
  subst ht
  cases fuel with
  | zero =>
    cases h
  | succ fuel =>
    obtain ⟨x, u, hx, _⟩ := readItems_cases h
    rw [readDoc_nil] at hx
    cases hx

theorem ne_nil_of_readPairs (h : readPairs N fuel t = some (pairs, r)) : t ≠ [] := by
  intro ht
  subst ht
  cases fuel with
  | zero =>
    cases h
  | succ fuel =>
    obtain ⟨t', _, _, _, _, _, ht, _⟩ := readPairs_cases h
    cases ht

theorem ne_nil_of_readDoc (h : readDoc N fuel t = some (v, r)) : t ≠ [] := by
  intro ht
  rw [ht, readDoc_nil] at h
  cases h

theorem ne_nil_of_skip {u : List Char} (h : skip t = c :: u) : t ≠ [] := by
  intro ht
  rw [ht] at h
  cases h

/-- What a reader with some fuel accepts, one with more fuel accepts before any text. -/
structure Extends (N : Numerals ν) (fuel : Nat) : Prop where
  doc : ∀ {fuel' t v r}, readDoc N fuel t = some (v, r) → (v.isNum = true → r ≠ []) →
    fuel ≤ fuel' → ∀ s, readDoc N fuel' (t ++ s) = some (v, r ++ s)
  items : ∀ {fuel' t xs r}, readItems N fuel t = some (xs, r) → fuel ≤ fuel' →
    ∀ s, readItems N fuel' (t ++ s) = some (xs, r ++ s)
  pairs : ∀ {fuel' t ps r}, readPairs N fuel t = some (ps, r) → fuel ≤ fuel' →
    ∀ s, readPairs N fuel' (t ++ s) = some (ps, r ++ s)

theorem isNum_of_brace (h : readDoc N (fuel + 1) ('{' :: t) = some (v, r)) : v.isNum = false := by
  simp only [readDoc] at h
  split at h
  · cases h
    rfl
  · simp only [Option.bind_eq_bind, Option.bind_eq_some_iff, Option.some.injEq,
      Prod.mk.injEq] at h
    obtain ⟨_, _, rfl, _⟩ := h
    rfl

section Step

variable {N : Numerals ν} {fuel fuel' : Nat}

theorem extends_items (ih : Extends N fuel) (h : readItems N (fuel + 1) t = some (xs, r))
    (hle : fuel ≤ fuel') (s : List Char) :
    readItems N (fuel' + 1) (t ++ s) = some (xs, r ++ s) := by
  obtain ⟨x, u, hx, hnext⟩ := readItems_cases h
  rcases hnext with ⟨hclose, rfl⟩ | ⟨w, ys, hcomma, hys, rfl⟩
  · have hx' := ih.doc hx (fun _ => ne_nil_of_skip hclose) hle s
    exact readItems_last hx' (skip_append hclose)
  · have hx' := ih.doc hx (fun _ => ne_nil_of_skip hcomma) hle s
    have hys' := ih.items hys hle s
    rw [← skip_append_of_ne_nil (ne_nil_of_readItems hys)] at hys'
    exact readItems_more hx' (skip_append hcomma) hys'

theorem extends_pairs (ih : Extends N fuel) (h : readPairs N (fuel + 1) t = some (pairs, r))
    (hle : fuel ≤ fuel') (s : List Char) :
    readPairs N (fuel' + 1) (t ++ s) = some (pairs, r ++ s) := by
  obtain ⟨t', k, u, w, v, u', rfl, hk, hcolon, hv, hnext⟩ := readPairs_cases h
  have hk' := readStr_append (s := s) hk hle
  rcases hnext with ⟨hclose, rfl⟩ | ⟨w', ps, hcomma, hps, rfl⟩
  · have hv' := ih.doc hv (fun _ => ne_nil_of_skip hclose) hle s
    rw [← skip_append_of_ne_nil (ne_nil_of_readDoc hv)] at hv'
    exact readPairs_last hk' (skip_append hcolon) hv' (skip_append hclose)
  · have hv' := ih.doc hv (fun _ => ne_nil_of_skip hcomma) hle s
    have hps' := ih.pairs hps hle s
    rw [← skip_append_of_ne_nil (ne_nil_of_readDoc hv)] at hv'
    rw [← skip_append_of_ne_nil (ne_nil_of_readPairs hps)] at hps'
    exact readPairs_more hk' (skip_append hcolon) hv' (skip_append hcomma) hps'

theorem extends_doc (ih : Extends N fuel) (h : readDoc N (fuel + 1) t = some (v, r))
    (hnum : v.isNum = true → r ≠ []) (hle : fuel ≤ fuel') (s : List Char) :
    readDoc N (fuel' + 1) (t ++ s) = some (v, r ++ s) := by
  unfold readDoc at h
  split at h
  · cases h
    rfl
  · cases h
    rfl
  · cases h
    rfl
  · next t' =>
    simp only [Option.bind_eq_bind, Option.bind_eq_some_iff, Option.some.injEq,
      Prod.mk.injEq] at h
    obtain ⟨⟨cs, u⟩, hcs, rfl, rfl⟩ := h
    rw [List.cons_append]
    unfold readDoc
    simp only [readStr_append hcs hle, Option.bind_eq_bind, Option.bind_some]
  · next t' =>
    rw [List.cons_append]
    split at h
    · next hclose =>
      cases h
      unfold readDoc
      simp only [skip_append hclose]
    · next hopen =>
      simp only [Option.bind_eq_bind, Option.bind_eq_some_iff, Option.some.injEq,
        Prod.mk.injEq] at h
      obtain ⟨⟨xs, u⟩, hxs, rfl, rfl⟩ := h
      obtain ⟨c, cs, hcs⟩ := List.exists_cons_of_ne_nil (ne_nil_of_readItems hxs)
      have hxs' := ih.items hxs hle s
      have hc : c ≠ ']' := fun hc => hopen cs (by rw [hcs, hc])
      rw [hcs, List.cons_append] at hxs'
      rw [readDoc_arr N (skip_append hcs) hc, hxs']
      rfl
  · next t' =>
    rw [List.cons_append]
    split at h
    · next hclose =>
      cases h
      unfold readDoc
      simp only [skip_append (s := s) hclose]
    · next hopen =>
      simp only [Option.bind_eq_bind, Option.bind_eq_some_iff, Option.some.injEq,
        Prod.mk.injEq] at h
      obtain ⟨⟨ps, u⟩, hps, rfl, rfl⟩ := h
      obtain ⟨c, cs, hcs⟩ := List.exists_cons_of_ne_nil (ne_nil_of_readPairs hps)
      have hps' := ih.pairs hps hle s
      have hc : c ≠ '}' := fun hc => hopen cs (by rw [hcs, hc])
      rw [hcs, List.cons_append] at hps'
      rw [readDoc_obj N (skip_append hcs) hc, hps']
      rfl
  · -- A numeral: its first character decides the branch for the longer text too.
    cases t with
    | nil => cases h
    | cons c t =>
      have hc : isNumChar c = true := by
        by_contra hc
        simp [readNum, hc] at h
      have hv : v.isNum = true := by
        unfold readNum at h
        split at h
        · cases h
        · simp only [Option.map_eq_some_iff, Prod.mk.injEq] at h
          obtain ⟨n, _, rfl, _⟩ := h
          rfl
      have hread := readNum_append (s := s) h (hnum hv)
      rw [List.cons_append] at hread ⊢
      rw [readDoc_of_numChar N hc, hread]

end Step

theorem extends_read (N : Numerals ν) (fuel : Nat) : Extends N fuel := by
  induction fuel with
  | zero =>
    constructor
    · intro fuel' t v r h
      cases h
    · intro fuel' t xs r h
      cases h
    · intro fuel' t ps r h
      cases h
  | succ fuel ih =>
    constructor
    · intro fuel' t v r h hnum hle s
      obtain ⟨fuel', rfl⟩ := Nat.exists_eq_succ_of_ne_zero (show fuel' ≠ 0 by omega)
      exact extends_doc ih h hnum (Nat.le_of_succ_le_succ hle) s
    · intro fuel' t xs r h hle s
      obtain ⟨fuel', rfl⟩ := Nat.exists_eq_succ_of_ne_zero (show fuel' ≠ 0 by omega)
      exact extends_items ih h (Nat.le_of_succ_le_succ hle) s
    · intro fuel' t ps r h hle s
      obtain ⟨fuel', rfl⟩ := Nat.exists_eq_succ_of_ne_zero (show fuel' ≠ 0 by omega)
      exact extends_pairs ih h (Nat.le_of_succ_le_succ hle) s

/-- The text of an object, cut anywhere before its end, is no document. -/
theorem parse_cut (N : Numerals ν) (y : Style) {fields : List (String × Doc ν)}
    (hv : (Doc.obj fields).valid = true) {front back : List Char}
    (h : print N y (.obj fields) = front ++ back) (hback : back ≠ []) : parse N front = none := by
  by_contra hne
  obtain ⟨v, hparse⟩ := Option.ne_none_iff_exists'.mp hne
  unfold parse at hparse
  simp only [Option.bind_eq_bind, Option.bind_eq_some_iff] at hparse
  obtain ⟨⟨w, u⟩, hread, hrest⟩ := hparse
  have hfront : ∃ cs, front = '{' :: cs := by
    cases front with
    | nil => rw [show skip ([] : List Char) = [] from rfl, readDoc_nil] at hread; cases hread
    | cons c cs =>
      exact ⟨cs, by rw [← (List.cons.inj h).1]⟩
  obtain ⟨cs, rfl⟩ := hfront
  rw [skip_of_head (by decide)] at hread
  have hnum := isNum_of_brace hread
  -- The whole text would leave what follows the cut unread.
  have hwhole := (extends_read N _).doc hread (fun h => by rw [hnum] at h; cases h)
    (Nat.le_max_left _
    (2 * (print N y (.obj fields)).length)) back
  have hprint := readDoc_print N y (.obj fields) hv _ (Nat.le_max_right
    (2 * ('{' :: cs).length + 2) _) [] stops_nil
  rw [List.append_nil, h] at hprint
  rw [h, hprint] at hwhole
  simp only [Option.some.injEq, Prod.mk.injEq, List.nil_eq, List.append_eq_nil_iff] at hwhole
  exact hback hwhole.2.2

end RagForge.JsonText
