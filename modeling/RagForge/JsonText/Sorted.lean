import RagForge.JsonText.RoundTrip

/-
Documents with their keys in order.

Printing with sorted keys makes the text of a document independent of the order in which its
dictionaries were filled.  Sorting changes no lookup.
-/

namespace RagForge.JsonText

open Py (Dict)

variable {ν : Type}

def byKey (fields : List (String × Doc ν)) : List (String × Doc ν) :=
  fields.insertionSort fun p q => p.1 ≤ q.1

mutual

/-- The document that `sort_keys=True` prints. -/
def sortKeys : Doc ν → Doc ν
  | .null => .null
  | .bool b => .bool b
  | .num n => .num n
  | .str s => .str s
  | .arr xs => .arr (sortItems xs)
  | .obj fields => .obj (byKey (sortFields fields))

def sortItems : List (Doc ν) → List (Doc ν)
  | [] => []
  | x :: rest => sortKeys x :: sortItems rest

def sortFields : List (String × Doc ν) → List (String × Doc ν)
  | [] => []
  | (k, v) :: rest => (k, sortKeys v) :: sortFields rest

end

theorem sortFields_eq_map (fields : List (String × Doc ν)) :
    sortFields fields = fields.map fun p => (p.1, sortKeys p.2) := by
  induction fields with
  | nil => rfl
  | cons p rest ih => rw [sortFields, ih, List.map_cons]

theorem byKey_perm (fields : List (String × Doc ν)) : (byKey fields).Perm fields :=
  List.perm_insertionSort _ fields

theorem keys_sortFields (fields : List (String × Doc ν)) :
    (sortFields fields).map Prod.fst = fields.map Prod.fst := by
  rw [sortFields_eq_map, List.map_map]
  rfl

theorem nodup_byKey {fields : List (String × Doc ν)} (h : (fields.map Prod.fst).Nodup) :
    ((byKey fields).map Prod.fst).Nodup :=
  ((byKey_perm fields).map Prod.fst).nodup_iff.mpr h

mutual

theorem valid_sortKeys (v : Doc ν) (h : v.valid = true) : (sortKeys v).valid = true := by
  match v with
  | .null | .bool _ | .num _ | .str _ => rfl
  | .arr xs =>
    exact valid_sortItems xs h
  | .obj fields =>
    rw [Doc.valid, Bool.and_eq_true, decide_eq_true_eq] at h
    rw [sortKeys, Doc.valid, Bool.and_eq_true, decide_eq_true_eq]
    refine ⟨nodup_byKey (by rw [keys_sortFields]; exact h.1), ?_⟩
    have hfields := validFields_iff.mp (valid_sortFields fields h.2)
    exact validFields_iff.mpr fun p hp => hfields p ((byKey_perm _).mem_iff.mp hp)

theorem valid_sortItems (xs : List (Doc ν)) (h : validItems xs = true) :
    validItems (sortItems xs) = true := by
  match xs with
  | [] => rfl
  | x :: rest =>
    rw [validItems, Bool.and_eq_true] at h
    rw [sortItems, validItems, Bool.and_eq_true]
    exact ⟨valid_sortKeys x h.1, valid_sortItems rest h.2⟩

theorem valid_sortFields (fields : List (String × Doc ν)) (h : validFields fields = true) :
    validFields (sortFields fields) = true := by
  match fields with
  | [] => rfl
  | (k, v) :: rest =>
    rw [validFields, Bool.and_eq_true] at h
    rw [sortFields, validFields, Bool.and_eq_true]
    exact ⟨valid_sortKeys v h.1, valid_sortFields rest h.2⟩

end

/-! ## Lookups -/

theorem get?_sortFields (fields : Dict String (Doc ν)) (k : String) :
    Dict.get? (sortFields fields) k = (fields.get? k).map sortKeys := by
  induction fields with
  | nil => rfl
  | cons p rest ih =>
    rw [sortFields, Dict.get?, Dict.get?]
    by_cases hk : p.1 = k
    · rw [if_pos hk, if_pos hk, Option.map_some]
    · rw [if_neg hk, if_neg hk, ih]

theorem get?_byKey_sortFields {fields : Dict String (Doc ν)} (h : (fields.map Prod.fst).Nodup)
    (k : String) : Dict.get? (byKey (sortFields fields)) k = (fields.get? k).map sortKeys := by
  rw [← get?_sortFields]
  refine Dict.get?_perm (byKey_perm _) (nodup_byKey ?_) k
  rw [keys_sortFields]
  exact h

end RagForge.JsonText
