import Mathlib.Data.Multiset.Sort
import Mathlib.Data.Prod.Lex
import RagForge.Py.Value

/-
Sparse lexical vectors (`shared/sparse_retrieval.py`).

Nothing is asked of the floats but an order: the operations on them may round as they like.
-/

namespace RagForge.Vector.Sparse

open Py

def maxSparseTerms : Int := 512

def maxSparseTextChars : Nat := 20000

/-- What the module takes from Python's library. -/
structure SparseLib (F : Type) where
  /-- `[^\W_]` of the pattern. -/
  isWord : Char → Bool
  casefold : String → String
  blake2b : String → BitVec 32
  log1p : Nat → F
  sqrt : F → F

structure SparseVector (F : Type) where
  indices : List Nat
  values : List F
  deriving DecidableEq

abbrev ShortText : Type := {text : String // text.toList.length ≤ maxSparseTextChars}

theorem ShortText.clip_eq (text : ShortText) : clip maxSparseTextChars text.1 = text.1 := by
  rw [clip, List.take_of_length_le text.2, String.ofList_toList]

variable {F : Type} (lib : SparseLib F)

namespace SparseLib

/-- The matches of `_TOKEN_RE`; `token` is what is read of the next one. -/
def finditer (token : List Char) : List Char → List String
  | [] => if token = [] then [] else [String.ofList token]
  | c :: rest =>
    if lib.isWord c ∨ token ≠ [] ∧ c ∈ "._:/-".toList ∧ rest.head?.any lib.isWord then
      finditer (token ++ [c]) rest
    else (if token = [] then [] else [String.ofList token]) ++ finditer [] rest

def tokens (text : String) : List String := (lib.finditer [] text.toList).map lib.casefold

def hashed (counts : Dict String Nat) : Dict Nat Nat :=
  Dict.tally (counts.map fun e => ((lib.blake2b e.1 &&& 0x7FFFFFFF).toNat, e.2))

variable [LinearOrder F] [One F] [Add F]

/-- The sort key of a term: the heaviest come first, among equal ones the lowest index. -/
def key (e : Nat × Nat) : Fᵒᵈ ×ₗ Nat := toLex (OrderDual.toDual (1 + lib.log1p e.2), e.1)

/-- The terms that stay, read back from their keys. -/
def heaviest (counts : Dict String Nat) (maxTerms : Nat) : List (Nat × F) :=
  ((((lib.hashed counts).map lib.key).mergeSort (· ≤ ·)).take maxTerms).map fun key =>
    ((ofLex key).2, (ofLex key).1.ofDual)

theorem heaviest_perm {counts counts' : Dict String Nat} (h : counts.Perm counts') :
    lib.heaviest counts = lib.heaviest counts' := by
  funext maxTerms
  have hkeys : ((lib.hashed counts).map lib.key).Perm ((lib.hashed counts').map lib.key) :=
    (Dict.tally_perm (h.map _)).map _
  rw [heaviest, heaviest, ← Multiset.coe_sort, ← Multiset.coe_sort,
    Multiset.coe_eq_coe.mpr hkeys]

theorem nodup_heaviest (counts : Dict String Nat) (maxTerms : Nat) :
    ((lib.heaviest counts maxTerms).map Prod.fst).Nodup := by
  have hkeys : (((lib.hashed counts).map lib.key).map fun key => (ofLex key).2).Nodup := by
    rw [List.map_map]
    exact Dict.nodup_tally _
  rw [heaviest, List.map_map]
  exact (((List.mergeSort_perm _ _).map _).nodup_iff.mpr hkeys).sublist
    ((List.take_sublist _ _).map _)

variable [Zero F] [Mul F] [Div F]

def vector (counts : Dict String Nat) (maxTerms : Nat) : SparseVector F :=
  let weighted := lib.heaviest counts maxTerms
  let length := lib.sqrt (weighted.foldl (fun sum e => sum + e.2 * e.2) 0)
  let norm := if length = 0 then 1 else length
  let weighted := weighted.mergeSort fun e f => e.1 ≤ f.1
  ⟨weighted.map Prod.fst, weighted.map fun e => e.2 / norm⟩

theorem increasing_indices (counts : Dict String Nat) (maxTerms : Nat) :
    (lib.vector counts maxTerms).indices.Pairwise (· < ·) := by
  have hle := (lib.heaviest counts maxTerms).pairwise_mergeSort'
    (Order.Preimage Prod.fst (· ≤ ·))
  have hne : (lib.vector counts maxTerms).indices.Nodup :=
    ((List.mergeSort_perm _ _).map _).nodup_iff.mpr (lib.nodup_heaviest counts maxTerms)
  refine List.pairwise_map.mpr ((hle.and (List.pairwise_map.mp hne)).imp fun h => ?_)
  exact lt_of_le_of_ne h.1 h.2

end SparseLib

variable [LinearOrder F] [One F] [Add F] [Zero F] [Mul F] [Div F]

def sparseLexicalVector (text : String) (maxTerms : Int) : Except String (SparseVector F) :=
  if maxTerms < 1 then .error "max_terms must be positive"
  else
    let counts := Dict.tally ((lib.tokens (clip maxSparseTextChars text)).map (·, 1))
    .ok (if counts = [] then ⟨[], []⟩ else lib.vector counts maxTerms.toNat)

/-- The vector of a text depends on the multiset of its tokens only. -/
theorem sparseLexicalVector_spec (maxTerms : Int) :
    Function.FactorsThrough (fun text : ShortText => sparseLexicalVector lib text.1 maxTerms)
        (fun text => (lib.tokens text.1 : Multiset String)) ∧
      ∀ (text : ShortText) (v : SparseVector F), sparseLexicalVector lib text.1 maxTerms = .ok v →
        v.indices.Pairwise (· < ·) ∧ v.indices.length ≤ maxTerms ∧
          v.values.length = v.indices.length := by
  constructor
  · intro text text' h
    have hcounts := Dict.tally_perm ((Multiset.coe_eq_coe.mp h).map (·, 1))
    have hnone := List.length_eq_zero_iff (l := Dict.tally ((lib.tokens text.1).map (·, 1)))
    rw [hcounts.length_eq, List.length_eq_zero_iff] at hnone
    simp only [sparseLexicalVector, text.clip_eq, text'.clip_eq, SparseLib.vector, hnone,
      lib.heaviest_perm hcounts]
  · intro text v hv
    obtain ⟨hterms, hv⟩ := ok_of_ite hv
    rw [← Except.ok.inj hv]
    split
    · simp
      omega
    · refine ⟨lib.increasing_indices _ _, ?_, by simp [SparseLib.vector]⟩
      simp only [SparseLib.vector, SparseLib.heaviest, List.length_map, List.length_mergeSort,
        List.length_take]
      omega

end RagForge.Vector.Sparse
