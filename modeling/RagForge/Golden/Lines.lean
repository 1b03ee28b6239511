import RagForge.Golden.Validation
import RagForge.JsonText.Chars
import RagForge.JsonText.Prefix

/-
JSON Lines against the JSON array of the same objects.

A JSON string may hold the characters U+0085, U+2028 and U+2029 as they are, and `str.splitlines`
ends a line at each of them.  A line that holds one is cut inside a string, and what stands before
the cut is no document, so the set is rejected.  Without them both texts give the same items, up to
the ids that each call generates for itself.
-/

namespace RagForge.Golden

open JsonText (Doc Numerals Object Style Held texts)

variable {ν : Type} {t front line : List Char} {c : Char}

/-! ## Splitting lines -/

theorem splitLines_cons (h : isBreak c = false) (t : List Char) :
    splitLines (c :: t) =
      match splitLines t with
      | [] => [[c]]
      | line :: lines => (c :: line) :: lines := by
  have hcr : c ≠ '\r' := by
    intro heq
    rw [heq] at h
    revert h
    decide
  conv => lhs; unfold splitLines
  split
  · next heq => cases heq
  · next heq => exact absurd (List.cons.inj heq).1 hcr
  · next heq =>
    obtain ⟨rfl, rfl⟩ := List.cons.inj heq
    refine (if_neg (by simp [h])).trans ?_
    rfl

theorem splitLines_of_break (h : isBreak c = true) (t : List Char) :
    ∃ lines, splitLines (c :: t) = [] :: lines := by
  unfold splitLines
  split
  · next heq => cases heq
  · exact ⟨_, rfl⟩
  · next heq =>
    obtain ⟨rfl, rfl⟩ := List.cons.inj heq
    rw [if_pos h]
    exact ⟨_, rfl⟩

theorem splitLines_append (h : ∀ c ∈ front, isBreak c = false) {lines : List (List Char)}
    (ht : splitLines t = line :: lines) : splitLines (front ++ t) = (front ++ line) :: lines := by
  induction front with
  | nil => exact ht
  | cons c front ih =>
    have hfront := ih fun d hd => h d (List.mem_cons_of_mem _ hd)
    rw [List.cons_append, splitLines_cons (h c List.mem_cons_self), hfront]
    rfl

theorem splitLines_line (h : ∀ c ∈ line, isBreak c = false) (t : List Char) :
    splitLines (line ++ '\n' :: t) = line :: splitLines t := by
  have hnewline : splitLines ('\n' :: t) = [] :: splitLines t := by
    conv => lhs; unfold splitLines
    rfl
  rw [splitLines_append h hnewline, List.append_nil]

theorem exists_first_line (h : ∃ c ∈ t, isBreak c = true) (rest : List Char) :
    ∃ front c back lines, t = front ++ c :: back ∧ isBreak c = true ∧
      splitLines (t ++ rest) = front :: lines := by
  induction t with
  | nil =>
    obtain ⟨c, hc, _⟩ := h
    exact (List.not_mem_nil hc).elim
  | cons d t ih =>
    by_cases hd : isBreak d = true
    · obtain ⟨lines, hlines⟩ := splitLines_of_break hd (t ++ rest)
      exact ⟨[], d, t, lines, rfl, hd, hlines⟩
    · have hd' : isBreak d = false := by simpa using hd
      have htail : ∃ c ∈ t, isBreak c = true := by
        obtain ⟨c, hc, hbreak⟩ := h
        rcases List.mem_cons.mp hc with rfl | hc
        · exact absurd hbreak hd
        · exact ⟨c, hc, hbreak⟩
      obtain ⟨front, c, back, lines, rfl, hc, hlines⟩ := ih htail
      refine ⟨d :: front, c, back, lines, rfl, hc, ?_⟩
      rw [List.cons_append, splitLines_cons hd', hlines]

/-! ## Texts of objects -/

section Texts

variable (N : Numerals ν)

def jsonlText (objects : List (Object ν)) : List Char :=
  objects.flatMap fun o => JsonText.print N .compact o.doc ++ ['\n']

def arrayText (objects : List (Object ν)) : List Char :=
  JsonText.print N .compact (.arr (objects.map Object.doc))

/-- `json.loads` reads the documents, and rejects every other text as malformed. -/
structure Env.Loads (E : Env ν) : Prop where
  document : ∀ {t : List Char} {doc : Doc ν}, JsonText.parse N t = some doc → E.loads t = .ok doc
  malformed : ∀ {t : List Char}, JsonText.parse N t = none →
    ∃ line column message, E.loads t = .error (.decode line column message)

end Texts

def isUnescapedBreak (c : Char) : Bool := [0x85, 0x2028, 0x2029].contains c.toNat

def NoBreaks (o : Object ν) : Prop :=
  ∀ s ∈ texts o.doc, ∀ c ∈ s.toList, isUnescapedBreak c = false

instance (o : Object ν) : Decidable (NoBreaks o) :=
  inferInstanceAs (Decidable (∀ s ∈ texts o.doc, ∀ c ∈ s.toList, isUnescapedBreak c = false))

theorem outside_of_isBreak (h : isBreak c = true) : JsonText.Outside c := by
  unfold isBreak at h
  unfold JsonText.Outside
  simp only [List.contains_iff_mem, List.mem_cons, List.not_mem_nil, or_false] at h
  omega

theorem isBreak_iff_of_held (h : 0x80 ≤ c.toNat) :
    isBreak c = true ↔ isUnescapedBreak c = true := by
  unfold isBreak isUnescapedBreak
  simp only [List.contains_iff_mem, List.mem_cons, List.not_mem_nil, or_false]
  omega

/-- The text of an object has a break exactly if one of its strings holds one. -/
theorem noBreaks_iff (N : Numerals ν) (o : Object ν) :
    NoBreaks o ↔ ∀ c ∈ JsonText.print N .compact o.doc, isBreak c = false := by
  constructor
  · intro h c hc
    by_contra hbreak
    have hbreak' : isBreak c = true := by simpa using hbreak
    obtain ⟨hhigh, s, hs, hmem⟩ :=
      (JsonText.mem_print_iff rfl (outside_of_isBreak hbreak') o.doc).mp hc
    have hno := h s hs c hmem
    rw [(isBreak_iff_of_held hhigh).mp hbreak'] at hno
    cases hno
  · intro h s hs c hmem
    by_contra hbreak
    have hbreak' : isUnescapedBreak c = true := by simpa using hbreak
    have hhigh : 0x80 ≤ c.toNat := by
      unfold isUnescapedBreak at hbreak'
      simp only [List.contains_iff_mem, List.mem_cons, List.not_mem_nil, or_false] at hbreak'
      omega
    have hprinted := (JsonText.mem_print_iff (N := N) (y := .compact) rfl (.inr hhigh) o.doc).mpr
      ⟨hhigh, s, hs, hmem⟩
    have hno := h c hprinted
    rw [(isBreak_iff_of_held hhigh).mpr hbreak'] at hno
    cases hno

theorem strip_brace (t : List Char) : Py.strip (String.ofList ('{' :: t)) ≠ "" := by
  intro h
  have hchars := congrArg String.toList h
  unfold Py.strip at hchars
  rw [String.toList_ofList, String.toList_ofList, List.dropWhile_cons_of_neg (by decide)] at hchars
  have hall := List.rdropWhile_eq_nil_iff.mp hchars '{' List.mem_cons_self
  revert hall
  decide

theorem object_head (N : Numerals ν) (o : Object ν) :
    ∃ t, JsonText.print N .compact o.doc = '{' :: t := by
  exact ⟨_, rfl⟩

section Parsing

variable {N : Numerals ν} {limits : Limits} {ids : Nat → String} {o : Object ν} {E : Env ν}

theorem jsonlText_cons (o : Object ν) (rest : List (Object ν)) :
    jsonlText N (o :: rest) = JsonText.print N .compact o.doc ++ '\n' :: jsonlText N rest := by
  simp [jsonlText]

theorem strip_object (o : Object ν) :
    Py.strip (String.ofList (JsonText.print N .compact o.doc)) ≠ "" := by
  obtain ⟨t, ht⟩ := object_head N o
  rw [ht]
  exact strip_brace t

section

variable (hE : Env.Loads N E)

include hE

theorem parseLines_object (ho : NoBreaks o) (rest : List (Object ν)) (maxItems : Int)
    (number count : Nat) (hroom : ¬ maxItems ≤ count) :
    parseLines E maxItems number count (splitLines (jsonlText N (o :: rest))) =
      (parseLines E maxItems (number + 1) (count + 1) (splitLines (jsonlText N rest))).map
        (o.doc :: ·) := by
  rw [jsonlText_cons, splitLines_line ((noBreaks_iff N o).mp ho), parseLines,
    if_neg (strip_object o), if_neg hroom, Object.doc,
    hE.document (JsonText.parse_print N .compact o.property)]

theorem parseLines_objects (objects : List (Object ν)) (h : ∀ o ∈ objects, NoBreaks o)
    (maxItems : Int) (number count : Nat) (hmax : (count + objects.length : Int) ≤ maxItems) :
    parseLines E maxItems number count
      (splitLines (jsonlText N objects)) = .ok (objects.map Object.doc) := by
  induction objects generalizing number count with
  | nil => rfl
  | cons o rest ih =>
    rw [List.length_cons] at hmax
    have hroom : ¬ maxItems ≤ (count : Int) := by omega
    have hrest := ih (fun p hp => h p (List.mem_cons_of_mem _ hp)) (number + 1) (count + 1)
      (by omega)
    rw [parseLines_object hE (h o List.mem_cons_self) rest maxItems number count hroom, hrest]
    rfl

theorem parseLines_refused (objects : List (Object ν)) (maxItems : Int) (number count : Nat)
    (h : (∃ o ∈ objects, ¬ NoBreaks o) ∨ objects ≠ [] ∧ maxItems < (count + objects.length : Int)) :
    ∃ e, parseLines E maxItems number count
      (splitLines (jsonlText N objects)) = .error e := by
  induction objects generalizing number count with
  | nil =>
    rcases h with ⟨o, ho, _⟩ | ⟨hne, _⟩
    · exact (List.not_mem_nil ho).elim
    · exact absurd rfl hne
  | cons o rest ih =>
    by_cases ho : NoBreaks o
    · by_cases hroom : maxItems ≤ (count : Int)
      · rw [jsonlText_cons, splitLines_line ((noBreaks_iff N o).mp ho), parseLines,
          if_neg (strip_object o), if_pos hroom]
        exact ⟨_, rfl⟩
      · have hrest : (∃ p ∈ rest, ¬ NoBreaks p) ∨
            rest ≠ [] ∧ maxItems < ((count + 1 : Nat) + rest.length : Int) := by
          rcases h with ⟨p, hp, hbad⟩ | ⟨_, hmax⟩
          · rcases List.mem_cons.mp hp with rfl | hp
            · exact absurd ho hbad
            · exact .inl ⟨p, hp, hbad⟩
          · rw [List.length_cons] at hmax
            refine .inr ⟨?_, by omega⟩
            intro hnil
            rw [hnil, List.length_nil] at hmax
            omega
        obtain ⟨e, he⟩ := ih (number + 1) (count + 1) hrest
        rw [parseLines_object hE ho rest maxItems number count hroom, he]
        exact ⟨e, rfl⟩
    · -- The line is cut at its first break, which no document ends at.
      have hbreak : ∃ c ∈ JsonText.print N .compact o.doc, isBreak c = true := by
        simpa [noBreaks_iff N o] using ho
      obtain ⟨front, c, back, lines, hcut, hc, hlines⟩ :=
        exists_first_line hbreak ('\n' :: jsonlText N rest)
      have hfront : ∃ u, front = '{' :: u := by
        cases front with
        | nil =>
          rw [← (List.cons.inj hcut).1] at hc
          cases hc
        | cons d u =>
          exact ⟨u, by rw [(List.cons.inj hcut).1]⟩
      obtain ⟨u, rfl⟩ := hfront
      obtain ⟨line, column, message, hload⟩ :=
        hE.malformed (JsonText.parse_cut N .compact o.property hcut (List.cons_ne_nil c back))
      rw [jsonlText_cons, hlines, parseLines, if_neg (strip_brace u)]
      split
      · exact ⟨_, rfl⟩
      · rw [hload]
        exact ⟨_, rfl⟩

end

/-! ## Sizes -/

def size (t : List Char) : Nat := (String.ofList t).utf8ByteSize

theorem size_append (t u : List Char) : size (t ++ u) = size t + size u := by
  unfold size
  rw [String.ofList_append, String.utf8ByteSize_append]

theorem size_cons (c : Char) (t : List Char) : size (c :: t) = size [c] + size t := by
  rw [← size_append, List.singleton_append]

theorem size_items (o : Object ν) (rest : List (Object ν)) :
    size (JsonText.printItems N .compact ((o :: rest).map Object.doc)) + 1 =
      size (jsonlText N (o :: rest)) := by
  have hcomma : size [','] = 1 := by decide
  have hnewline : size ['\n'] = 1 := by decide
  have hnil : size [] = 0 := by decide
  induction rest generalizing o with
  | nil =>
    rw [List.map_cons, List.map_nil, JsonText.printItems, jsonlText_cons, size_append, size_cons,
      hnewline]
    simp [jsonlText, hnil]
  | cons p rest ih =>
    have hrest := ih p
    rw [List.map_cons] at hrest
    have hstyle : Style.compact.comma = [','] := rfl
    rw [List.map_cons, List.map_cons, JsonText.printItems_cons_cons, jsonlText_cons, size_append,
      size_append, size_append, size_cons '\n', hnewline, hstyle, hcomma]
    omega

theorem size_jsonlText_le (objects : List (Object ν)) :
    size (jsonlText N objects) ≤ size (arrayText N objects) := by
  cases objects with
  | nil => exact Nat.zero_le _
  | cons o rest =>
    have hopen : size ['['] = 1 := by decide
    rw [← size_items o rest, arrayText, JsonText.print, size_cons, size_append, hopen]
    omega

/-! ## Whole texts -/

theorem boundedText_text {maxInputBytes : Int} (hpos : 1 ≤ maxInputBytes)
    (h : (size t : Int) ≤ maxInputBytes) :
    boundedText E (.text t) maxInputBytes = .ok (dropBom t) := by
  unfold boundedText
  rw [if_neg (by omega)]
  dsimp only
  rw [if_neg (by unfold size at h; omega)]

theorem boundedText_refused {maxInputBytes : Int} (h : ¬ (size t : Int) ≤ maxInputBytes) :
    ∃ e, boundedText E (.text t) maxInputBytes = .error e := by
  unfold boundedText
  split
  · exact ⟨_, rfl⟩
  · dsimp only
    rw [if_pos (by unfold size at h; omega)]
    exact ⟨_, rfl⟩

theorem size_arrayText_pos (objects : List (Object ν)) : 1 ≤ size (arrayText N objects) := by
  have hopen : size ['['] = 1 := by decide
  rw [arrayText, JsonText.print, size_cons, hopen]
  omega

theorem decoded_jsonl (objects : List (Object ν)) (hpos : 1 ≤ limits.maxInputBytes)
    (h : (size (jsonlText N objects) : Int) ≤ limits.maxInputBytes) :
    decoded E (.text (jsonlText N objects)) "jsonl" limits =
      parseLines E limits.maxItems 1 0
        (splitLines (jsonlText N objects)) := by
  have hbom : dropBom (jsonlText N objects) = jsonlText N objects := by
    cases objects <;> rfl
  unfold decoded
  rw [boundedText_text hpos h]
  show parseSource _ (dropBom (jsonlText N objects)) "jsonl" limits.maxItems = _
  rw [hbom, parseSource, if_neg (by decide), if_pos (by decide), parseJsonl]

theorem normalize_refused {ids : Nat → String} (objects : List (Object ν))
    (h : ¬ (objects ≠ [] ∧ (objects.length : Int) ≤ limits.maxItems)) :
    (normalizeGoldenSetItems E ids limits.maxQueryLength
      (objects.map Object.doc) limits.maxItems 0).1.toOption = none := by
  unfold normalizeGoldenSetItems
  split
  · rfl
  · next hne =>
    rw [if_pos]
    · rfl
    · have hlong : ¬ (objects.length : Int) ≤ limits.maxItems := fun hle =>
        h ⟨fun hnil => hne (by rw [hnil]; rfl), hle⟩
      rw [List.length_map]
      omega

theorem parse_refused {ids : Nat → String} {sourceFormat : String}
    (h : ¬ (size t : Int) ≤ limits.maxInputBytes) :
    (parseGoldenSet E ids (.text t) sourceFormat limits).toOption =
      none := by
  obtain ⟨e, he⟩ := boundedText_refused (E := E) h
  refine parseGoldenSet_of_refused (e := e) ?_
  unfold decoded
  rw [he]
  rfl

section

variable (hE : Env.Loads N E)

include hE

theorem decoded_array (objects : List (Object ν))
    (h : (size (arrayText N objects) : Int) ≤ limits.maxInputBytes) :
    decoded E (.text (arrayText N objects)) "json" limits =
      .ok (objects.map Object.doc) := by
  have hvalid : (Doc.arr (objects.map Object.doc)).valid = true := by
    rw [JsonText.Doc.valid]
    clear h
    induction objects with
    | nil => rfl
    | cons o rest ih =>
      rw [List.map_cons, JsonText.validItems, Bool.and_eq_true]
      exact ⟨o.property, ih⟩
  have hload : E.loads (arrayText N objects) = .ok (.arr (objects.map Object.doc)) :=
    hE.document (JsonText.parse_print N .compact hvalid)
  have hpos := size_arrayText_pos (N := N) objects
  unfold decoded
  rw [boundedText_text (by omega) h]
  show parseSource _ (arrayText N objects) "json" limits.maxItems = _
  rw [parseSource, if_pos (by decide), parseJson, hload]

theorem parse_array (ids : Nat → String) (objects : List (Object ν)) :
    (parseGoldenSet E ids (.text (arrayText N objects)) "json"
        limits).toOption =
      if (size (arrayText N objects) : Int) ≤ limits.maxInputBytes then
        (normalizeGoldenSetItems E ids limits.maxQueryLength
          (objects.map Object.doc) limits.maxItems 0).1.toOption
      else none := by
  split
  · next h => exact parseGoldenSet_of_decoded (decoded_array hE objects h)
  · next h => exact parse_refused h

theorem parse_jsonl (ids : Nat → String) (objects : List (Object ν)) :
    (parseGoldenSet E ids (.text (jsonlText N objects)) "jsonl"
        limits).toOption =
      if (size (jsonlText N objects) : Int) ≤ limits.maxInputBytes ∧
          ∀ o ∈ objects, NoBreaks o then
        (normalizeGoldenSetItems E ids limits.maxQueryLength
          (objects.map Object.doc) limits.maxItems 0).1.toOption
      else none := by
  by_cases hfits : (size (jsonlText N objects) : Int) ≤ limits.maxInputBytes
  swap
  · rw [if_neg fun h => hfits h.1]
    exact parse_refused hfits
  by_cases hroom : objects ≠ [] ∧ (objects.length : Int) ≤ limits.maxItems
  · have hpos : 1 ≤ size (jsonlText N objects) := by
      obtain ⟨o, rest, rfl⟩ := List.exists_cons_of_ne_nil hroom.1
      rw [← size_items o rest]
      omega
    have hlines := decoded_jsonl (E := E) objects (by omega) hfits
    by_cases hbreaks : ∀ o ∈ objects, NoBreaks o
    · rw [if_pos ⟨hfits, hbreaks⟩]
      rw [parseLines_objects hE objects hbreaks limits.maxItems 1 0
        (by simpa using hroom.2)] at hlines
      exact parseGoldenSet_of_decoded hlines
    · rw [if_neg fun h => hbreaks h.2]
      obtain ⟨e, he⟩ := parseLines_refused hE objects limits.maxItems 1 0
        (.inl (by simpa using hbreaks))
      exact parseGoldenSet_of_refused (hlines.trans he)
  · -- Too many objects for either text, or none at all.
    rw [normalize_refused objects hroom, ite_self]
    by_cases hpos : 1 ≤ limits.maxInputBytes
    · have hlines := decoded_jsonl (E := E) objects hpos hfits
      by_cases hnil : objects = []
      · subst hnil
        have hempty : decoded E (.text (jsonlText N [])) "jsonl"
            limits = .ok [] := hlines
        rw [parseGoldenSet_of_decoded hempty]
        exact normalize_refused [] hroom
      · obtain ⟨e, he⟩ := parseLines_refused hE objects limits.maxItems
          1 0 (.inr ⟨hnil, by
            have hlong := not_and.mp hroom hnil
            omega⟩)
        exact parseGoldenSet_of_refused (hlines.trans he)
    · refine parseGoldenSet_of_refused (e := .invalid "The input-size limit must be positive") ?_
      unfold decoded boundedText
      rw [if_pos (by omega)]
      rfl

end

end Parsing

/-! ## Generated ids -/

section Ids

variable {E : Env ν} {ids ids' : Nat → String} {maxQueryLength : Int} {index n n' : Nat}
  {seen seen' : List String} {raw : Doc ν}

theorem normalizeItem_of_supplied (h : (supplied raw).isSome = true) :
    normalizeItem E ids maxQueryLength index raw seen n =
      ((normalizeItem E ids' maxQueryLength index raw seen n').1, n) := by
  obtain ⟨s, hs⟩ := Option.isSome_iff_exists.mp h
  have hid : suppliedId raw index = .ok (some s) := by
    rw [eq_ok_iff, suppliedId_index index 0]
    exact Option.join_eq_some_iff.mp hs
  unfold normalizeItem
  split
  · split
    · rfl
    · rw [hid]
      simp only [Option.getD_some, Option.isNone_some, Bool.false_eq_true, if_false]
      split <;> rfl
  · rfl

theorem normalizeLoop_of_supplied (raws : List (Doc ν))
    (h : ∀ raw ∈ raws, (supplied raw).isSome = true) :
    (normalizeLoop E ids maxQueryLength index raws seen n).1 =
      (normalizeLoop E ids' maxQueryLength index raws seen n').1 := by
  induction raws generalizing index seen n n' with
  | nil => rfl
  | cons raw rest ih =>
    have hraw := h raw List.mem_cons_self
    have hitem : ∀ ids n, normalizeItem E ids maxQueryLength index raw seen n =
        ((normalizeItem E ids' maxQueryLength index raw seen n').1, n) :=
      fun _ _ => normalizeItem_of_supplied hraw
    rw [normalizeLoop, normalizeLoop, hitem ids n, hitem ids' n']
    cases (normalizeItem E ids' maxQueryLength index raw seen n').1 with
    | error e => rfl
    | ok item =>
      dsimp only
      rw [ih fun r hr => h r (List.mem_cons_of_mem raw hr)]

/-- Two calls that generate different ids give the same items only if none is generated. -/
theorem supplied_of_same (hne : ∀ m n, ids m ≠ ids' n) (raws : List (Doc ν)) {items : List Item}
    (h : (normalizeLoop E ids maxQueryLength index raws seen n).1 = .ok items)
    (h' : (normalizeLoop E ids' maxQueryLength index raws seen' n').1 = .ok items) :
    ∀ raw ∈ raws, (supplied raw).isSome = true := by
  induction raws generalizing index seen seen' n n' items with
  | nil => exact fun raw hraw => (List.not_mem_nil hraw).elim
  | cons raw rest ih =>
    obtain ⟨item, m, items₁, hitem, hrest, rfl⟩ := normalizeLoop_cons_ok h
    obtain ⟨item', m', items₂, hitem', hrest', heq⟩ := normalizeLoop_cons_ok h'
    obtain ⟨rfl, rfl⟩ := List.cons.inj heq
    have hown : ∀ {ids : Nat → String} {seen : List String} {n m : Nat},
        normalizeItem E ids maxQueryLength index raw seen n = (.ok item, m) →
          item.itemId = idOf ids raw n := by
      intro ids seen n m hok
      obtain ⟨hacc, hfirst⟩ := accepted_of_normalizeItem (congrArg Prod.fst hok)
      obtain ⟨item', hok', hid⟩ := normalizeItem_of_accepted hacc index seen n hfirst
      rw [hok] at hok'
      cases hok'
      exact hid
    have hsame := (hown hitem).symm.trans (hown hitem')
    intro r hr
    rcases List.mem_cons.mp hr with rfl | hr
    · unfold idOf at hsame
      cases hs : supplied r with
      | some s => rfl
      | none =>
        rw [hs] at hsame
        exact absurd hsame (hne _ _)
    · exact ih hrest hrest' r hr

end Ids

/-- What makes a dataset of objects: there is one and there are not too many, each is an item on its
own, and no id is supplied twice. -/
structure IsDataset (limits : Limits) (objects : List (Object ν)) : Prop where
  nonempty : objects ≠ []
  length : (objects.length : Int) ≤ limits.maxItems
  accepted : ∀ o ∈ objects, Accepted limits.maxQueryLength o.doc
  distinct : DistinctFrom [] (objects.map Object.doc)

/-- What `uuid4` gives in one call: distinct ids, none of them supplied. -/
structure Generates (ids : Nat → String) (objects : List (Object ν)) : Prop where
  injective : ∀ m n, ids m = ids n → m = n
  fresh : ∀ o ∈ objects, ∀ k, supplied o.doc ≠ some (ids k)

section

variable {N : Numerals ν} {E : Env ν} {ids ids' : Nat → String} {objects : List (Object ν)}
  {limits : Limits}

theorem IsDataset.normalize (h : IsDataset limits objects) (ids : Nat → String) :
    normalizeGoldenSetItems E ids limits.maxQueryLength (objects.map Object.doc) limits.maxItems 0 =
      normalizeLoop E ids limits.maxQueryLength 0 (objects.map Object.doc) [] 0 := by
  have hlen := h.length
  unfold normalizeGoldenSetItems
  rw [if_neg, if_neg]
  · rw [List.length_map]
    omega
  · exact fun hnil => h.nonempty (List.map_eq_nil_iff.mp hnil)

theorem normalize_isSome_iff (E : Env ν) (limits : Limits) (hids : Generates ids objects) :
    (normalizeGoldenSetItems E ids limits.maxQueryLength
      (objects.map Object.doc) limits.maxItems 0).1.toOption.isSome = true ↔
        IsDataset limits objects := by
  have hfresh : ∀ raw ∈ objects.map Object.doc, ∀ k, supplied raw ≠ some (ids k) := by
    intro raw hraw
    obtain ⟨o, ho, rfl⟩ := List.mem_map.mp hraw
    exact hids.fresh o ho
  rw [Option.isSome_iff_exists]
  simp only [← eq_ok_iff]
  constructor
  · intro hok
    have hroom : objects ≠ [] ∧ (objects.length : Int) ≤ limits.maxItems := by
      by_contra hno
      obtain ⟨items, hitems⟩ := hok
      cases (congrArg Except.toOption hitems).symm.trans (normalize_refused objects hno)
    have hlen := hroom.2
    rw [normalizeGoldenSetItems, if_neg (fun hnil => hroom.1 (List.map_eq_nil_iff.mp hnil)),
      if_neg (by rw [List.length_map]; omega),
      normalizeLoop_ok_iff hids.injective _ hfresh 0 [] 0 fun _ _ => List.not_mem_nil] at hok
    exact ⟨hroom.1, hroom.2, fun o ho => hok.1 _ (List.mem_map_of_mem ho), hok.2⟩
  · intro h
    rw [h.normalize,
      normalizeLoop_ok_iff hids.injective _ hfresh 0 [] 0 fun _ _ => List.not_mem_nil]
    refine ⟨fun raw hraw => ?_, h.distinct⟩
    obtain ⟨o, ho, rfl⟩ := List.mem_map.mp hraw
    exact h.accepted o ho

/-- Two calls give the items of a dataset the same ids exactly if the objects supply them. -/
theorem IsDataset.same_iff (h : IsDataset limits objects) (hne : ∀ m n, ids m ≠ ids' n)
    {items items' : List Item}
    (hitems : (normalizeGoldenSetItems E ids limits.maxQueryLength (objects.map Object.doc)
      limits.maxItems 0).1 = .ok items)
    (hitems' : (normalizeGoldenSetItems E ids' limits.maxQueryLength (objects.map Object.doc)
      limits.maxItems 0).1 = .ok items') :
    items = items' ↔ ∀ o ∈ objects, (supplied o.doc).isSome = true := by
  rw [h.normalize] at hitems hitems'
  constructor
  · rintro rfl o ho
    exact supplied_of_same hne _ hitems hitems' o.doc (List.mem_map_of_mem ho)
  · intro hall
    have hdocs : ∀ raw ∈ objects.map Object.doc, (supplied raw).isSome = true := by
      intro raw hraw
      obtain ⟨o, ho, rfl⟩ := List.mem_map.mp hraw
      exact hall o ho
    have hsame := hitems.symm.trans ((normalizeLoop_of_supplied _ hdocs).trans hitems')
    exact Except.ok.inj hsame

end

/-- JSON Lines give the same items as the array of the same objects exactly in these cases: the
objects are no dataset, so both texts are refused; the array fits the size limit, no string holds a
character that ends a line and every object supplies its id; or the array does not fit, and the
lines do not fit either or hold such a character. -/
theorem jsonl_gives_array_items_iff (N : Numerals ν) (E : Env ν) (hE : Env.Loads N E)
    (ids ids' : Nat → String) (objects : List (Object ν)) (limits : Limits)
    (hids : Generates ids objects) (hids' : Generates ids' objects) (hne : ∀ m n, ids m ≠ ids' n) :
    (parseGoldenSet E ids (.text (jsonlText N objects)) "jsonl" limits).toOption =
      (parseGoldenSet E ids' (.text (arrayText N objects)) "json" limits).toOption ↔
    (IsDataset limits objects →
      if (size (arrayText N objects) : Int) ≤ limits.maxInputBytes then
        ∀ o ∈ objects, NoBreaks o ∧ (supplied o.doc).isSome = true
      else ¬ ((size (jsonlText N objects) : Int) ≤ limits.maxInputBytes ∧
        ∀ o ∈ objects, NoBreaks o)) := by
  rw [parse_jsonl hE, parse_array hE]
  have hsome := normalize_isSome_iff E limits hids
  have hsome' := normalize_isSome_iff E limits hids'
  by_cases hset : IsDataset limits objects
  · obtain ⟨items, hitems⟩ := Option.isSome_iff_exists.mp (hsome.mpr hset)
    obtain ⟨items', hitems'⟩ := Option.isSome_iff_exists.mp (hsome'.mpr hset)
    have hsame := hset.same_iff hne (eq_ok_iff.mpr hitems) (eq_ok_iff.mpr hitems')
    rw [hitems, hitems', forall_prop_of_true hset]
    have hle := size_jsonlText_le (N := N) objects
    by_cases hfits : (size (arrayText N objects) : Int) ≤ limits.maxInputBytes
    · have hlines : (size (jsonlText N objects) : Int) ≤ limits.maxInputBytes := by omega
      rw [if_pos hfits, if_pos hfits, forall₂_and, ← hsame]
      by_cases hbreaks : ∀ o ∈ objects, NoBreaks o
      · rw [if_pos ⟨hlines, hbreaks⟩, Option.some.injEq]
        exact ⟨fun heq => ⟨hbreaks, heq⟩, And.right⟩
      · rw [if_neg fun h => hbreaks h.2]
        exact iff_of_false (fun h => by cases h) fun h => hbreaks h.1
    · rw [if_neg hfits, if_neg hfits]
      split
      · next h => exact iff_of_false (fun hbad => by cases hbad) (not_not_intro h)
      · next h => exact iff_of_true rfl h
  · have hnone : ∀ x : Option (List Item), (x.isSome = true ↔ IsDataset limits objects) →
        x = none := by
      intro x hx
      exact Option.not_isSome_iff_eq_none.mp fun h => hset (hx.mp h)
    rw [hnone _ hsome, hnone _ hsome', ite_self, ite_self]
    exact iff_of_true rfl fun h => absurd h hset

def plainItem : Object Empty :=
  ⟨[("item_id", .str "a"), ("query", .str "x"), ("expected_answer", .str "z")], by decide +kernel⟩

/-- One object with an id of its own. -/
theorem jsonl_gives_array_items_iff_one :
    (parseGoldenSet sampleEnv (fun n => String.ofList (List.replicate n 'u'))
        (.text (jsonlText noNumerals [plainItem])) "jsonl" {}).toOption =
      (parseGoldenSet sampleEnv (fun n => String.ofList ('v' :: List.replicate n 'u'))
        (.text (arrayText noNumerals [plainItem])) "json" {}).toOption := by
  have hsupplied : supplied plainItem.doc = some "a" := by decide +kernel
  have hids : ∀ front : List Char, 'a' ∉ front →
      Generates (fun n => String.ofList (front ++ List.replicate n 'u')) [plainItem] := by
    intro front hfront
    constructor
    · intro m n h
      have hlen := congrArg (fun s => s.toList.length) h
      simpa using hlen
    · intro o ho k heq
      rw [List.mem_singleton.mp ho, hsupplied] at heq
      have hchars : "a".toList = front ++ List.replicate k 'u' := by
        rw [Option.some.inj heq, String.toList_ofList]
      have hmem : 'a' ∈ front ++ List.replicate k 'u' := by
        rw [← hchars]
        decide
      rcases List.mem_append.mp hmem with hmem | hmem
      · exact hfront hmem
      · have hbad := List.eq_of_mem_replicate hmem
        revert hbad
        decide
  have hloads : Env.Loads noNumerals sampleEnv := by
    constructor <;> intro t <;> intros <;> simp_all [sampleEnv, loadsWith]
  refine (jsonl_gives_array_items_iff noNumerals sampleEnv hloads _ _ [plainItem] {}
    (hids [] (by decide)) (hids ['v'] (by decide)) ?_).mpr ?_
  · intro m n h
    have hchars := congrArg String.toList h
    rw [String.toList_ofList, String.toList_ofList, List.nil_append] at hchars
    have hmem : 'v' ∈ List.replicate m 'u' := by
      rw [hchars]
      simp
    have hbad := List.eq_of_mem_replicate hmem
    revert hbad
    decide
  · intro _
    rw [if_pos (by decide +kernel)]
    intro o ho
    rw [List.mem_singleton.mp ho, hsupplied]
    have htexts : ((texts plainItem.doc).all fun s => s.toList.all fun c =>
        !isUnescapedBreak c) = true := by decide +kernel
    simp only [List.all_eq_true, Bool.not_eq_true'] at htexts
    exact ⟨htexts, rfl⟩

def separatorItem : Object Empty :=
  ⟨[("item_id", .str "a"), ("query", .str "x\u2028y"), ("expected_answer", .str "z")],
    by decide +kernel⟩

/-- The array gives the item, the JSON Lines text of it is rejected. -/
theorem jsonl_rejects_array_item :
    (parseGoldenSet sampleEnv (fun _ => "") (.text (jsonlText noNumerals [separatorItem])) "jsonl"
        {}).toOption = none ∧
      ∃ item, (parseGoldenSet sampleEnv (fun _ => "")
        (.text (arrayText noNumerals [separatorItem])) "json" {}).toOption = some [item] := by
  refine ⟨by decide +kernel, ⟨"a", "x\u2028y", [], [], [], some "z", [], [], none, none, [], none⟩,
    by decide +kernel⟩

end RagForge.Golden
