import RagForge.Golden.Parser

/-
Validation agrees with parsing.

Both walk the same items, `parseGoldenSet` with the ids seen so far and `validateGoldenSet` one item
at a time.  An item passes on its own or it does not, whatever its place in the list, and beyond
that only a repeated id can make a difference.  Generated ids repeat none, so both come down to the
same condition: every item passes, and the supplied ids are distinct.
-/

namespace RagForge.Golden

open JsonText (Doc)

variable {ν : Type}

/-! ## Items on their own -/

variable {ε α β : Type}

theorem toOption_map (x : Except ε α) (f : α → β) : (x.map f).toOption = x.toOption.map f := by
  cases x <;> rfl

theorem toOption_bind (x : Except ε α) (f : α → Except ε β) :
    (x >>= f).toOption = x.toOption.bind fun a => (f a).toOption := by
  cases x <;> rfl

theorem toOption_ite (p : Prop) [Decidable p] (x y : Except ε α) :
    (if p then x else y).toOption = if p then x.toOption else y.toOption := by
  split <;> rfl

theorem eq_ok_iff {x : Except ε α} {a : α} : x = .ok a ↔ x.toOption = some a := by
  cases x with
  | error e => constructor <;> intro h <;> cases h
  | ok b => exact ⟨fun h => by cases h; rfl, fun h => by cases h; rfl⟩

section Index

-- The index of an item only shows in the messages.
variable (i j : Nat)

theorem stringElements_index (field : String) (elements : List (Doc ν)) (pos : Nat) :
    (stringElements i field pos elements).toOption =
      (stringElements j field pos elements).toOption := by
  induction elements generalizing pos with
  | nil => rfl
  | cons element rest ih =>
    cases element with
    | str s =>
      simp only [stringElements, toOption_ite, toOption_map, ih (pos + 1)]
      rfl
    | _ => rfl

theorem stringList_index (value : Doc ν) (field : String) :
    (stringList value i field).toOption = (stringList value j field).toOption := by
  cases value with
  | arr elements => exact stringElements_index i j field elements 0
  | _ => rfl

theorem optionalString_index (value : Doc ν) (field : String) :
    (optionalString value i field).toOption = (optionalString value j field).toOption := by
  cases value <;> rfl

theorem expectedClaims_index (raw : Doc ν) :
    (expectedClaims raw i).toOption = (expectedClaims raw j).toOption := by
  simp only [expectedClaims, toOption_bind, stringList_index i j, toOption_ite]
  rfl

theorem answerableOf_index (raw : Doc ν) :
    (answerableOf raw i).toOption = (answerableOf raw j).toOption := by
  unfold answerableOf
  cases get raw "answerable" <;> rfl

theorem queryOf_index (raw : Doc ν) (maxQueryLength : Int) :
    (queryOf raw i maxQueryLength).toOption = (queryOf raw j maxQueryLength).toOption := by
  unfold queryOf
  cases get raw "query" with
  | str s =>
    simp only [toOption_ite]
    rfl
  | _ => rfl

theorem suppliedId_index (raw : Doc ν) :
    (suppliedId raw i).toOption = (suppliedId raw j).toOption := by
  unfold suppliedId
  cases get raw "item_id" with
  | str s =>
    simp only [toOption_ite]
    rfl
  | _ => rfl

end Index

/-- The fields of an item do not depend on its index, and its id is only carried along. -/
theorem fieldsOf_index (i j : Nat) (raw : Doc ν) (query itemId itemId' : String) :
    (fieldsOf raw i query itemId).toOption =
      (fieldsOf raw j query itemId').toOption.map fun item => { item with itemId := itemId } := by
  have hstep : ∀ {α : Type} (x : Option α) (f g : α → Option Item),
      (∀ a, f a = (g a).map fun item => { item with itemId := itemId }) →
        x.bind f = (x.bind g).map fun item => { item with itemId := itemId } := by
    intro α x f g h
    cases x with
    | none => rfl
    | some a => exact h a
  unfold fieldsOf
  simp only [toOption_bind, stringList_index i j, optionalString_index i j,
    expectedClaims_index i j, answerableOf_index i j, toOption_ite]
  iterate 10 refine hstep _ _ _ fun _ => ?_
  split <;> rfl

def supplied (raw : Doc ν) : Option String := (suppliedId raw 0).toOption.join

def Accepted (maxQueryLength : Int) (raw : Doc ν) : Prop :=
  ∃ fields query id item, raw = .obj fields ∧
    (queryOf raw 0 maxQueryLength).toOption = some query ∧
    (suppliedId raw 0).toOption = some id ∧ (fieldsOf raw 0 query "").toOption = some item

variable {E : Env ν} {ids : Nat → String} {index : Nat} {item : Item} {rest : List (Doc ν)}

section Items

variable {maxQueryLength : Int} {seen before : List String} {raw : Doc ν} {n : Nat}

/-- The draws of an item from the generated ids. -/
def draws (raw : Doc ν) : Nat := if (supplied raw).isNone then 1 else 0

def idOf (ids : Nat → String) (raw : Doc ν) (n : Nat) : String := (supplied raw).getD (ids n)

theorem normalizeItem_of_accepted (h : Accepted maxQueryLength raw) (index : Nat)
    (seen : List String) (n : Nat) (hseen : idOf ids raw n ∉ seen) :
    ∃ item, normalizeItem E ids maxQueryLength index raw seen n = (.ok item, n + draws raw) ∧
      item.itemId = idOf ids raw n := by
  obtain ⟨fields, query, id, item, rfl, hquery, hid, hitem⟩ := h
  have hquery' := queryOf_index index 0 (.obj fields : Doc ν) maxQueryLength
  have hid' := suppliedId_index index 0 (.obj fields : Doc ν)
  have hitem' := fieldsOf_index index 0 (.obj fields : Doc ν) query (id.getD (ids n)) ""
  rw [hquery, ← eq_ok_iff] at hquery'
  rw [hid, ← eq_ok_iff] at hid'
  rw [hitem, Option.map_some, ← eq_ok_iff] at hitem'
  have hsup : supplied (.obj fields : Doc ν) = id := by rw [supplied, hid, Option.join_some]
  have hfresh : id.getD (ids n) ∉ seen := by rwa [idOf, hsup] at hseen
  refine ⟨{ item with itemId := id.getD (ids n) }, ?_, ?_⟩
  · simp only [normalizeItem, hquery', hid', if_neg hfresh, hitem', draws, hsup]
    cases id <;> rfl
  · rw [idOf, hsup]

theorem normalizeItem_ok (h : (normalizeItem E ids maxQueryLength index raw seen n).1 = .ok item) :
    ∃ fields query id, raw = .obj fields ∧ queryOf raw index maxQueryLength = .ok query ∧
      suppliedId raw index = .ok id ∧ id.getD (ids n) ∉ seen ∧
      fieldsOf raw index query (id.getD (ids n)) = .ok item := by
  unfold normalizeItem at h
  split at h
  · next fields =>
    split at h
    · cases h
    · next query hquery =>
      split at h
      · cases h
      · next id hid =>
        dsimp only at h
        split at h
        · cases h
        · next hseen => exact ⟨fields, query, id, rfl, hquery, hid, hseen, h⟩
  · cases h

theorem accepted_of_normalizeItem
    (h : (normalizeItem E ids maxQueryLength index raw seen n).1 = .ok item) :
    Accepted maxQueryLength raw ∧ idOf ids raw n ∉ seen := by
  obtain ⟨fields, query, id, rfl, hquery, hid, hseen, h⟩ := normalizeItem_ok h
  have hquery' := queryOf_index index 0 (.obj fields : Doc ν) maxQueryLength
  have hid' := suppliedId_index index 0 (.obj fields : Doc ν)
  have hitem' := fieldsOf_index 0 index (.obj fields : Doc ν) query "" (id.getD (ids n))
  rw [eq_ok_iff.mp hquery] at hquery'
  rw [eq_ok_iff.mp hid] at hid'
  rw [eq_ok_iff.mp h, Option.map_some] at hitem'
  refine ⟨⟨fields, query, id, _, rfl, hquery'.symm, hid'.symm, hitem'⟩, ?_⟩
  rwa [idOf, supplied, ← hid', Option.join_some]

theorem normalizeLoop_cons_ok {items : List Item}
    (h : (normalizeLoop E ids maxQueryLength index (raw :: rest) seen n).1 = .ok items) :
    ∃ item m items', normalizeItem E ids maxQueryLength index raw seen n = (.ok item, m) ∧
      (normalizeLoop E ids maxQueryLength (index + 1) rest (item.itemId :: seen) m).1 =
        .ok items' ∧ items = item :: items' := by
  unfold normalizeLoop at h
  split at h
  · cases h
  · next item m hitem =>
    obtain ⟨items', hrest, rfl⟩ := Py.ok_of_map h
    exact ⟨item, m, items', hitem, hrest, rfl⟩

/-! ## Both loops -/

def DistinctFrom (before : List String) : List (Doc ν) → Prop
  | [] => True
  | raw :: rest =>
    match supplied raw with
    | none => DistinctFrom before rest
    | some s => s ∉ before ∧ DistinctFrom (s :: before) rest

theorem distinctFrom_cons : DistinctFrom before (raw :: rest) ↔
      (∀ s, supplied raw = some s → s ∉ before) ∧
        DistinctFrom ((supplied raw).toList ++ before) rest := by
  conv => lhs; unfold DistinctFrom
  cases supplied raw <;> simp

theorem distinctFrom_congr (raws : List (Doc ν)) (h : ∀ raw ∈ raws, ∀ s, supplied raw = some s →
    (s ∈ before ↔ s ∈ seen)) : DistinctFrom before raws ↔ DistinctFrom seen raws := by
  induction raws generalizing before seen with
  | nil => rfl
  | cons raw rest ih =>
    rw [distinctFrom_cons, distinctFrom_cons]
    refine and_congr ?_ (ih fun r hr s hs => ?_)
    · exact forall₂_congr fun s hs => not_congr (h raw List.mem_cons_self s hs)
    · simp only [List.mem_append, h r (List.mem_cons_of_mem _ hr) s hs]

theorem distinctFrom_seen (hfresh : ∀ raw ∈ rest, ∀ k, supplied raw ≠ some (ids k)) :
    DistinctFrom seen (raw :: rest) ↔ (∀ s, supplied raw = some s → s ∉ seen) ∧
      DistinctFrom (idOf ids raw n :: seen) rest := by
  rw [distinctFrom_cons]
  unfold idOf
  cases supplied raw with
  | some s => rfl
  | none =>
    refine and_congr_right fun _ => distinctFrom_congr rest fun r hr s hs => ?_
    have hne : s ≠ ids n := fun heq => hfresh r hr n (heq ▸ hs)
    simp [hne]

theorem normalizeLoop_ok_iff (hinj : ∀ m n, ids m = ids n → m = n) (raws : List (Doc ν))
    (hfresh : ∀ raw ∈ raws, ∀ k, supplied raw ≠ some (ids k)) (index : Nat) (seen : List String)
    (n : Nat) (hseen : ∀ k, n ≤ k → ids k ∉ seen) :
    (∃ items, (normalizeLoop E ids maxQueryLength index raws seen n).1 = .ok items) ↔
      (∀ raw ∈ raws, Accepted maxQueryLength raw) ∧ DistinctFrom seen raws := by
  induction raws generalizing index seen n with
  | nil => exact ⟨fun _ => ⟨fun _ h => (List.not_mem_nil h).elim, trivial⟩, fun _ => ⟨[], rfl⟩⟩
  | cons raw rest ih =>
    have hrest := fun r hr => hfresh r (List.mem_cons_of_mem raw hr)
    -- A generated id is new, a supplied one is new if it was not seen before.
    have hnew : idOf ids raw n ∉ seen ↔ ∀ s, supplied raw = some s → s ∉ seen := by
      unfold idOf
      cases supplied raw with
      | none => simp [hseen n (Nat.le_refl n)]
      | some s => simp
    have ih' := ih hrest (index + 1) (idOf ids raw n :: seen) (n + draws raw) ?_
    · rw [distinctFrom_seen hrest]
      simp only [List.mem_cons, forall_eq_or_imp]
      constructor
      · intro h
        obtain ⟨items, hitems⟩ := h
        obtain ⟨item, m, items', hitem, hitems', -⟩ := normalizeLoop_cons_ok hitems
        obtain ⟨hacc, hfirst⟩ := accepted_of_normalizeItem (congrArg Prod.fst hitem)
        obtain ⟨item', hitem', hid⟩ := normalizeItem_of_accepted hacc index seen n hfirst
        rw [hitem] at hitem'
        obtain ⟨rfl, rfl⟩ := hitem'
        rw [hid] at hitems'
        obtain ⟨hall, hdist⟩ := ih'.mp ⟨items', hitems'⟩
        exact ⟨⟨hacc, hall⟩, hnew.mp hfirst, hdist⟩
      · intro h
        obtain ⟨⟨hacc, hall⟩, hfirst, hdist⟩ := h
        obtain ⟨item, hitem, hid⟩ :=
          normalizeItem_of_accepted hacc index seen n (hnew.mpr hfirst)
        obtain ⟨items, hitems⟩ := ih'.mpr ⟨hall, hdist⟩
        refine ⟨item :: items, ?_⟩
        unfold normalizeLoop
        rw [hitem]
        dsimp only
        rw [hid, hitems]
        rfl
    · intro k hk hmem
      rcases List.mem_cons.mp hmem with heq | hmem
      · unfold idOf draws at *
        cases hsup : supplied raw with
        | none =>
          rw [hsup] at heq hk
          have := hinj k n heq
          simp at hk
          omega
        | some s =>
          rw [hsup] at heq
          exact hfresh raw List.mem_cons_self k (hsup.trans (congrArg some heq.symm))
      · exact hseen k (Nat.le_trans (Nat.le_add_right n _) hk) hmem

theorem normalize_single (E : Env ν) (ids : Nat → String) (raw : Doc ν) (n : Nat) :
    (∃ item, normalizeGoldenSetItems E ids maxQueryLength [raw] 1 n =
        (.ok [item], n + draws raw) ∧ item.itemId = idOf ids raw n) ∧
        Accepted maxQueryLength raw ∨
      (∃ e m, normalizeGoldenSetItems E ids maxQueryLength [raw] 1 n = (.error e, m)) ∧
        ¬ Accepted maxQueryLength raw := by
  have hsingle : normalizeGoldenSetItems E ids maxQueryLength [raw] 1 n =
      normalizeLoop E ids maxQueryLength 0 [raw] [] n := by
    simp [normalizeGoldenSetItems]
  rw [hsingle]
  by_cases hacc : Accepted maxQueryLength raw
  · obtain ⟨item, hitem, hid⟩ :=
      normalizeItem_of_accepted (E := E) hacc 0 [] n (List.not_mem_nil)
    refine .inl ⟨⟨item, ?_, hid⟩, hacc⟩
    simp only [normalizeLoop, hitem]
    rfl
  · refine .inr ⟨?_, hacc⟩
    cases hitem : normalizeItem E ids maxQueryLength 0 raw [] n with
    | mk result m =>
      cases result with
      | error e => exact ⟨e, m, by simp only [normalizeLoop, hitem]⟩
      | ok item =>
        exact absurd (accepted_of_normalizeItem (congrArg Prod.fst hitem)).1 hacc

theorem suppliesId_of_accepted (h : Accepted maxQueryLength raw) :
    suppliesId raw = (supplied raw).isSome := by
  obtain ⟨_, _, id, _, _, _, hid, _⟩ := h
  unfold supplied
  rw [hid]
  unfold suppliesId
  unfold suppliedId at hid
  revert hid
  cases get raw "item_id" with
  | null => intro hid; cases hid; rfl
  | str s =>
    intro hid
    dsimp only at hid
    split at hid
    · cases hid
    · cases hid; rfl
  | _ => intro hid; cases hid

theorem validateLoop_errors_iff (raws : List (Doc ν))
    (hfresh : ∀ raw ∈ raws, ∀ k, supplied raw ≠ some (ids k)) (index : Nat) (seen : List String)
    (n : Nat) : (validateLoop E ids maxQueryLength index raws seen n).2 = [] ↔
      (∀ raw ∈ raws, Accepted maxQueryLength raw) ∧ DistinctFrom seen raws := by
  induction raws generalizing index seen n with
  | nil => exact ⟨fun _ => ⟨fun _ h => (List.not_mem_nil h).elim, trivial⟩, fun _ => rfl⟩
  | cons raw rest ih =>
    have hrest := fun r hr => hfresh r (List.mem_cons_of_mem raw hr)
    rw [distinctFrom_seen (n := n) hrest]
    simp only [List.mem_cons, forall_eq_or_imp]
    rcases normalize_single E ids raw n with
      ⟨⟨item, hitem, hid⟩, hacc⟩ | ⟨⟨e, m, herror⟩, hacc⟩
    · have hrepeat : (suppliesId raw && decide (idOf ids raw n ∈ seen)) = true ↔
          ¬ ∀ s, supplied raw = some s → s ∉ seen := by
        rw [suppliesId_of_accepted hacc, idOf]
        cases supplied raw <;> simp
      unfold validateLoop
      rw [hitem]
      dsimp only
      rw [hid]
      by_cases hrep : (suppliesId raw && decide (idOf ids raw n ∈ seen)) = true
      · rw [if_pos hrep]
        constructor
        · intro h
          cases h
        · intro h
          exact absurd h.2.1 (hrepeat.mp hrep)
      · have hfirst := not_not.mp (mt hrepeat.mpr hrep)
        rw [if_neg hrep]
        rw [ih hrest]
        constructor
        · intro h
          exact ⟨⟨hacc, h.1⟩, hfirst, h.2⟩
        · intro h
          exact ⟨h.1.2, h.2.2⟩
    · unfold validateLoop
      rw [herror]
      constructor
      · intro h
        cases h
      · intro h
        exact absurd h.1.1 hacc

theorem validateLoop_valid_le (raws : List (Doc ν)) (index : Nat) (seen : List String) (n : Nat) :
    (validateLoop E ids maxQueryLength index raws seen n).1 ≤ raws.length := by
  induction raws generalizing index seen n with
  | nil => exact Nat.le_refl 0
  | cons raw rest ih =>
    unfold validateLoop
    dsimp only
    split
    · exact Nat.le_succ_of_le (ih _ _ _)
    · exact Nat.succ_le_succ (ih _ _ _)

end Items

/-! ## Whole contents -/

def suppliedIds (E : Env ν) (content : Content) (sourceFormat : String) (limits : Limits) :
    List String :=
  match decoded E content sourceFormat limits with
  | .ok raws => raws.filterMap supplied
  | .error _ => []

/-- For a decoded list, a report without errors and a successful parse mean the same. -/
theorem validateItems_valid_iff {ids' : Nat → String} {limits : Limits}
    {raws : List (Doc ν)} (hinj : ∀ m n, ids m = ids n → m = n)
    (hfresh : ∀ raw ∈ raws, ∀ k, supplied raw ≠ some (ids k))
    (hfresh' : ∀ raw ∈ raws, ∀ k, supplied raw ≠ some (ids' k)) :
    (validateItems E ids' limits raws).valid = true ↔
      ∃ items, (normalizeGoldenSetItems E ids limits.maxQueryLength raws limits.maxItems 0).1 =
        .ok items := by
  unfold validateItems normalizeGoldenSetItems
  by_cases hnil : raws = []
  · simp [hnil, validationResult]
  by_cases hmax : limits.maxItems < raws.length
  · simp [hnil, hmax, validationResult]
  · simp only [if_neg hnil, if_neg hmax, validationResult, List.isEmpty_iff]
    rw [validateLoop_errors_iff raws hfresh',
      normalizeLoop_ok_iff hinj raws hfresh 0 [] 0 fun _ _ => List.not_mem_nil]

theorem validateItems_counts (E : Env ν) (ids : Nat → String) (limits : Limits)
    (raws : List (Doc ν)) :
    (validateItems E ids limits raws).validItems + (validateItems E ids limits raws).invalidItems =
      (validateItems E ids limits raws).totalItems := by
  unfold validateItems
  by_cases hnil : raws = []
  · simp [hnil, validationResult]
  by_cases hmax : limits.maxItems < raws.length
  · simp [hnil, hmax, validationResult]
  · have hle : (validateLoop E ids limits.maxQueryLength 0 raws [] 0).1 ≤ raws.length :=
      validateLoop_valid_le raws 0 [] 0
    simp only [if_neg hnil, if_neg hmax, validationResult]
    omega

theorem parseGoldenSet_of_decoded {content : Content} {sourceFormat : String} {limits : Limits}
    {raws : List (Doc ν)} (h : decoded E content sourceFormat limits = .ok raws) :
    (parseGoldenSet E ids content sourceFormat limits).toOption =
      (normalizeGoldenSetItems E ids limits.maxQueryLength raws limits.maxItems 0).1.toOption := by
  unfold parseGoldenSet
  rw [h]
  simp only [bind, Except.bind]
  cases (normalizeGoldenSetItems E ids limits.maxQueryLength raws limits.maxItems 0).1 <;> rfl

theorem parseGoldenSet_of_refused {content : Content} {sourceFormat : String} {limits : Limits}
    {e : Failure} (h : decoded E content sourceFormat limits = .error e) :
    (parseGoldenSet E ids content sourceFormat limits).toOption = none := by
  unfold parseGoldenSet
  rw [h]
  rfl

/-- A golden set is reported valid exactly when it parses, and the counts of a report on a decoded
list add up.  The ids that `uuid4` gives while parsing are distinct, and neither they nor those it
gives while validating are supplied. -/
theorem validateGoldenSet_valid_iff_parse (E : Env ν) (ids ids' : Nat → String) (content : Content)
    (sourceFormat : String) (limits : Limits) (hinj : ∀ m n, ids m = ids n → m = n)
    (hfresh : ∀ n, ids n ∉ suppliedIds E content sourceFormat limits)
    (hfresh' : ∀ n, ids' n ∉ suppliedIds E content sourceFormat limits) :
    ((∃ report, validateGoldenSet E ids' content sourceFormat limits = .ok report ∧
        report.valid = true) ↔
      ∃ items, parseGoldenSet E ids content sourceFormat limits = .ok items) ∧
    ∀ report raws, validateGoldenSet E ids' content sourceFormat limits = .ok report →
      decoded E content sourceFormat limits = .ok raws →
        report.validItems + report.invalidItems = report.totalItems := by
  unfold suppliedIds at hfresh hfresh'
  unfold validateGoldenSet
  simp only [eq_ok_iff (x := parseGoldenSet E ids content sourceFormat limits)]
  cases hdec : decoded E content sourceFormat limits with
  | error failure =>
    refine ⟨?_, fun _ _ _ h => nomatch h⟩
    rw [parseGoldenSet_of_refused hdec]
    cases failure <;> simp [validationResult]
  | ok raws =>
    rw [hdec] at hfresh hfresh'
    have hnot : ∀ f : Nat → String, (∀ n, f n ∉ raws.filterMap supplied) →
        ∀ raw ∈ raws, ∀ k, supplied raw ≠ some (f k) := by
      intro f hf raw hraw k hsup
      exact hf k (List.mem_filterMap.mpr ⟨raw, hraw, hsup⟩)
    constructor
    · simp only [parseGoldenSet_of_decoded hdec, ← eq_ok_iff,
        ← validateItems_valid_iff hinj (hnot ids hfresh) (hnot ids' hfresh')]
      simp
    · intro report raws' hreport _
      cases hreport
      exact validateItems_counts E ids' limits raws

def noNumerals : JsonText.Numerals Empty where
  print n := n.elim
  read _ := none
  read_print n := n.elim
  print_ne_nil n := n.elim
  print_chars n := n.elim

/-- `json.loads`, with a fixed account of every syntax error. -/
def loadsWith (N : JsonText.Numerals ν) (t : List Char) : Except Fault (Doc ν) :=
  match JsonText.parse N t with
  | some doc => .ok doc
  | none => .error (.decode 1 1 "Expecting value")

def sampleEnv : Env Empty where
  loads := loadsWith noNumerals
  decode _ := none
  repr s := s

def sampleSet : Content :=
  .text ("[\x7b\"item_id\": \"a\", \"query\": \"q\", \"expected_answer\": \"x\"\x7d, " ++
    "\x7b\"query\": \"r\", \"answerable\": false\x7d]").toList

/-- A set of two items, one with an id of its own. -/
theorem validateGoldenSet_valid_iff_parse_two :
    ((∃ report, validateGoldenSet sampleEnv (fun n => String.ofList (List.replicate n 'u'))
        sampleSet "json" {} = .ok report ∧ report.valid = true) ↔
      ∃ items, parseGoldenSet sampleEnv (fun n => String.ofList (List.replicate n 'u'))
        sampleSet "json" {} = .ok items) ∧
    ∀ report raws, validateGoldenSet sampleEnv (fun n => String.ofList (List.replicate n 'u'))
        sampleSet "json" {} = .ok report →
      decoded sampleEnv sampleSet "json" {} = .ok raws →
        report.validItems + report.invalidItems = report.totalItems := by
  have hids : suppliedIds sampleEnv sampleSet "json" {} = ["a"] := by decide +kernel
  have hfresh : ∀ n, String.ofList (List.replicate n 'u') ∉
      suppliedIds sampleEnv sampleSet "json" {} := by
    intro n hn
    rw [hids, List.mem_singleton] at hn
    have hchars := congrArg String.toList hn
    rw [String.toList_ofList] at hchars
    have hmem : 'a' ∈ List.replicate n 'u' := by
      rw [hchars]
      decide
    have hbad := List.eq_of_mem_replicate hmem
    revert hbad
    decide
  refine validateGoldenSet_valid_iff_parse sampleEnv _ _ sampleSet "json" {} ?_ hfresh hfresh
  intro m n h
  have hlen := congrArg (fun s => s.toList.length) h
  simpa using hlen

end RagForge.Golden
