import RagForge.Golden.Validation

/-
Canonical items are read back as they are.

Every text of an item is stripped and none is empty, so a second pass finds nothing to strip,
nothing to rename and the same ids, and every limit that held for the raw item holds for it.
-/

namespace RagForge.Golden

open JsonText (Doc)
open Py

variable {ν : Type}

/-- The dictionary that is appended to `normalized`. -/
def Item.doc (item : Item) : Doc ν :=
  let texts (xs : List String) : Doc ν := .arr (xs.map .str)
  let text (o : Option String) : Doc ν := o.elim .null .str
  .obj [("item_id", .str item.itemId), ("query", .str item.query),
    ("relevant_chunk_ids", texts item.relevantChunkIds),
    ("relevant_file_ids", texts item.relevantFileIds),
    ("expected_file_names", texts item.expectedFileNames),
    ("expected_answer", text item.expectedAnswer), ("expected_claims", texts item.expectedClaims),
    ("unresolved_expected_facts", texts item.unresolvedExpectedFacts),
    ("difficulty", text item.difficulty), ("answerable", item.answerable.elim .null .bool),
    ("tags", texts item.tags), ("notes", text item.notes)]

/-! ## Fields -/

variable {raw : Doc ν} {i : Nat} {item : Item} {maxQueryLength : Int}

section Fields

variable {value : Doc ν} {field : String} {xs : List String}

theorem stringElements_again {elements : List (Doc ν)} {pos : Nat}
    (h : stringElements i field pos elements = .ok xs) (j : Nat) (field' : String) (pos' : Nat) :
    stringElements j field' pos' (xs.map .str : List (Doc ν)) = .ok xs := by
  induction elements generalizing pos xs pos' with
  | nil =>
    cases h
    rfl
  | cons element rest ih =>
    cases element with
    | str s =>
      obtain ⟨hs, h⟩ := ok_of_ite h
      obtain ⟨ys, hrest, rfl⟩ := ok_of_map h
      simp [stringElements, hs, ih hrest, Except.map]
    | _ => cases h

theorem stringList_again (h : stringList value i field = .ok xs) (j : Nat) (field' : String) :
    stringList (.arr (xs.map .str) : Doc ν) j field' = .ok xs := by
  cases value with
  | null =>
    cases h
    rfl
  | arr elements => exact stringElements_again h j field' 0
  | _ => cases h

theorem optionalString_again {o : Option String} (h : optionalString value i field = .ok o)
    (j : Nat) (field' : String) :
    optionalString (o.elim .null .str : Doc ν) j field' = .ok o := by
  cases value with
  | null =>
    cases h
    rfl
  | str s =>
    cases h
    by_cases hs : strip s = "" <;> simp [hs, optionalString]
  | _ => cases h

theorem expectedClaims_again (h : expectedClaims raw i = .ok xs) (j : Nat) (field' : String) :
    stringList (.arr (xs.map .str) : Doc ν) j field' = .ok xs := by
  obtain ⟨facts, hfacts, h⟩ := ok_of_bind h
  obtain ⟨claims, hclaims, h⟩ := ok_of_bind h
  obtain rfl := Except.ok.inj (ok_of_ite h).2
  split
  · exact stringList_again hfacts j field'
  · exact stringList_again hclaims j field'

theorem bind_ok {ε α β : Type} {x : Except ε α} {f : α → Except ε β} {a : α} (h : x = .ok a) :
    x >>= f = f a := by
  rw [h]
  rfl

theorem fieldsOf_again {query itemId : String}
    (h : fieldsOf raw i query itemId = .ok item) (j : Nat) :
    item.query = query ∧ item.itemId = itemId ∧
      fieldsOf (item.doc : Doc ν) j query itemId = .ok item := by
  obtain ⟨chunkIds, hchunkIds, h⟩ := ok_of_bind h
  obtain ⟨fileIds, hfileIds, h⟩ := ok_of_bind h
  obtain ⟨fileNames, hfileNames, h⟩ := ok_of_bind h
  obtain ⟨claims, hclaims, h⟩ := ok_of_bind h
  obtain ⟨unresolved, hunresolved, h⟩ := ok_of_bind h
  obtain ⟨tags, htags, h⟩ := ok_of_bind h
  obtain ⟨answer, hanswer, h⟩ := ok_of_bind h
  obtain ⟨difficulty, hdifficulty, h⟩ := ok_of_bind h
  obtain ⟨notes, hnotes, h⟩ := ok_of_bind h
  obtain ⟨answerable, -, h⟩ := ok_of_bind h
  obtain ⟨hlists, h⟩ := ok_of_ite h
  cases h
  refine ⟨rfl, rfl, ?_⟩
  refine (bind_ok (stringList_again hchunkIds j _)).trans ?_
  refine (bind_ok (stringList_again hfileIds j _)).trans ?_
  refine (bind_ok (stringList_again hfileNames j _)).trans ?_
  refine (bind_ok (a := claims) ?_).trans ?_
  · -- no `expected_facts` stand beside the claims
    refine (bind_ok rfl).trans ((bind_ok (expectedClaims_again hclaims j _)).trans ?_)
    simp
  refine (bind_ok (stringList_again hunresolved j _)).trans ?_
  refine (bind_ok (stringList_again htags j _)).trans ?_
  refine (bind_ok (optionalString_again hanswer j _)).trans ?_
  refine (bind_ok (optionalString_again hdifficulty j _)).trans ?_
  refine (bind_ok (optionalString_again hnotes j _)).trans ?_
  refine (bind_ok ?_).trans (if_neg hlists)
  cases answerable <;> rfl

theorem length_strip_le (s : String) : (strip s).length ≤ s.length := by
  simp only [strip, ← String.length_toList, String.toList_ofList]
  exact (List.rdropWhile_prefix _ _).length_le.trans (List.dropWhile_suffix _).length_le

theorem queryOf_again (h : queryOf raw i maxQueryLength = .ok item.query) (j : Nat) :
    queryOf (item.doc : Doc ν) j maxQueryLength = .ok item.query := by
  unfold queryOf at h
  split at h
  · next s _ =>
    obtain ⟨hs, h⟩ := ok_of_ite h
    obtain ⟨hlen, h⟩ := ok_of_ite h
    have hle := length_strip_le s
    show (if strip item.query = "" then _ else if maxQueryLength < item.query.length then _
      else Except.ok (strip item.query)) = _
    rw [← Except.ok.inj h, strip_strip, if_neg hs, if_neg (by omega)]
  · cases h

theorem suppliedId_again {id : Option String} {fresh : String}
    (h : suppliedId raw i = .ok id) (hfresh : strip fresh = fresh ∧ fresh ≠ "")
    (hid : item.itemId = id.getD fresh) (j : Nat) :
    suppliedId (item.doc : Doc ν) j = .ok (some item.itemId) := by
  have hclean : strip item.itemId = item.itemId ∧ item.itemId ≠ "" := by
    rw [hid]
    unfold suppliedId at h
    split at h
    · cases h
      exact hfresh
    · next s _ =>
      obtain ⟨hs, h⟩ := ok_of_ite h
      cases h
      exact ⟨strip_strip s, hs⟩
    · cases h
  show (if strip item.itemId = "" then _ else Except.ok (some (strip item.itemId))) = _
  rw [hclean.1, if_neg hclean.2]

end Fields

/-! ## Items -/

section Items

variable {E : Env ν} {ids : Nat → String} {n : Nat} {seen : List String}
  (hids : ∀ n, strip (ids n) = ids n ∧ ids n ≠ "")

include hids

theorem normalizeItem_again
    (h : (normalizeItem E ids maxQueryLength i raw seen n).1 = .ok item) (j m : Nat) :
    normalizeItem E ids maxQueryLength j (item.doc : Doc ν) seen m = (.ok item, m) := by
  obtain ⟨-, query, id, -, hquery, hid, hseen, h⟩ := normalizeItem_ok h
  obtain ⟨rfl, hitemId, hfields⟩ := fieldsOf_again h j
  have hquery' := queryOf_again hquery j
  have hid' := suppliedId_again hid (hids n) hitemId j
  rw [← hitemId] at hseen hfields
  obtain ⟨fields, hdoc⟩ : ∃ fields, (item.doc : Doc ν) = .obj fields := ⟨_, rfl⟩
  rw [hdoc] at hquery' hid' hfields ⊢
  simp only [normalizeItem, hquery', hid', hfields, Option.getD_some, if_neg hseen,
    Option.isNone_some, Bool.false_eq_true, if_false]

theorem normalizeLoop_again {raws : List (Doc ν)} {items : List Item}
    (h : (normalizeLoop E ids maxQueryLength i raws seen n).1 = .ok items) (j m : Nat) :
    items.length = raws.length ∧
      normalizeLoop E ids maxQueryLength j (items.map Item.doc : List (Doc ν)) seen m =
        (.ok items, m) := by
  induction raws generalizing i seen n items j with
  | nil =>
    cases h
    exact ⟨rfl, rfl⟩
  | cons raw rest ih =>
    obtain ⟨item, k, items', hitem, hrest, rfl⟩ := normalizeLoop_cons_ok h
    obtain ⟨hlen, hloop⟩ := ih hrest (j + 1)
    have hagain := normalizeItem_again hids (congrArg Prod.fst hitem) j m
    refine ⟨congrArg (· + 1) hlen, ?_⟩
    simp only [List.map_cons, normalizeLoop, hagain, hloop, Except.map]

end Items

/-- What is accepted is accepted again and comes out the same, whatever `uuid4` would give next. -/
theorem normalizeGoldenSetItems_again (E : Env ν) (ids : Nat → String)
    (hids : ∀ n, strip (ids n) = ids n ∧ ids n ≠ "") (maxQueryLength maxItems : Int)
    (rawItems : List (Doc ν)) (n m : Nat) (items : List Item)
    (h : (normalizeGoldenSetItems E ids maxQueryLength rawItems maxItems n).1 = .ok items) :
    (normalizeGoldenSetItems E ids maxQueryLength (items.map Item.doc : List (Doc ν)) maxItems
      m).1 = .ok items := by
  unfold normalizeGoldenSetItems at h
  split at h
  · cases h
  · next hne =>
    split at h
    · cases h
    · next hmax =>
      obtain ⟨hlen, hloop⟩ := normalizeLoop_again hids h 0 m
      have hne' : (items.map Item.doc : List (Doc ν)) ≠ [] := by
        rw [ne_eq, ← List.length_eq_zero_iff, List.length_map, hlen]
        exact fun hnil => hne (List.length_eq_zero_iff.mp hnil)
      unfold normalizeGoldenSetItems
      rw [if_neg hne', if_neg (by rwa [List.length_map, hlen]), hloop]

/-- An item without an id, with white space around its texts and its claims under the old name. -/
theorem normalizeGoldenSetItems_again_facts :
    ∃ items, (normalizeGoldenSetItems sampleEnv (fun _ => "u") 3 [.obj [("query", .str " q "),
        ("expected_facts", .arr [.str "f "])]] 1 0).1 = .ok items ∧ items.length = 1 ∧
      (normalizeGoldenSetItems sampleEnv (fun _ => "u") 3 (items.map Item.doc) 1 1).1 =
        .ok items := by
  have h : (normalizeGoldenSetItems sampleEnv (fun _ => "u") 3 [.obj [("query", .str " q "),
      ("expected_facts", .arr [.str "f "])]] 1 0).1 = .ok
        [⟨"u", "q", [], [], [], none, ["f"], [], none, none, [], none⟩] := by
    decide +kernel
  exact ⟨_, h, rfl,
    normalizeGoldenSetItems_again sampleEnv _ (fun _ => by decide +kernel) 3 1 _ 0 1 _ h⟩

end RagForge.Golden
