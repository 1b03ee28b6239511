import Mathlib.Algebra.Order.Ring.Rat
import Mathlib.Data.Prod.Lex
import Mathlib.Data.String.Basic
import RagForge.Vector.Service

/-
Reciprocal-rank fusion lists the ids of its two arms, best first.

The table of the fusion is followed through the ranks that it shows: one candidate gives its id a
rank in its arm unless the id has one there already.  After both arms an id has its first rank in
each of them, whichever arm came first, and scores and order are functions of these two ranks.
-/

namespace RagForge.Vector

open Py

/-! ## What the result should be -/

/-- The rank of the first candidate with an id.  Candidates without an id are passed over. -/
def rankIn (ranking : List (Candidate × Nat)) (id : String) : Option Nat :=
  if id = "" then none else (ranking.find? fun x => x.1.fusionId = id).map Prod.snd

def firstRank (candidates : List Candidate) (id : String) : Option Nat :=
  rankIn (candidates.zipIdx 1) id

section

variable (dense sparse : List Candidate) (rrfK) (id : String)

def rankGain (rank : Option Nat) : Rat :=
  rank.elim 0 fun r => 1 / (rrfK + r : Rat)

def fusionScore : Rat :=
  rankGain rrfK (firstRank dense id) + rankGain rrfK (firstRank sparse id)

def bestFirstRank : Nat :=
  ((firstRank dense id).merge min (firstRank sparse id)).getD 0

/-- Ids are listed in the order of these keys: score descending, then best rank, then id. -/
def fusionKey : Rat ×ₗ ℕ ×ₗ String :=
  toLex (-fusionScore dense sparse rrfK id, toLex (bestFirstRank dense sparse id, id))

theorem firstRank_isSome_iff (candidates : List Candidate) (id : String) :
    (firstRank candidates id).isSome = true ↔ id ≠ "" ∧ ∃ c ∈ candidates, c.fusionId = id := by
  unfold firstRank rankIn
  by_cases hid : id = ""
  · simp [hid]
  · have hmem : ∀ c, c ∈ candidates ↔ ∃ n, (c, n) ∈ candidates.zipIdx 1 := by
      intro c
      conv_lhs => rw [← List.zipIdx_map_fst 1 candidates, List.mem_map]
      exact ⟨fun ⟨x, hx, heq⟩ => ⟨x.2, heq ▸ hx⟩, fun ⟨n, hn⟩ => ⟨(c, n), hn, rfl⟩⟩
    simp only [hid, if_false, Option.isSome_map, List.find?_isSome, decide_eq_true_eq, ne_eq,
      not_false_eq_true, true_and, Prod.exists, hmem]
    exact ⟨fun ⟨c, n, hc, heq⟩ => ⟨c, ⟨n, hc⟩, heq⟩, fun ⟨c, ⟨n, hc⟩, heq⟩ => ⟨c, n, hc, heq⟩⟩

theorem fusionScore_comm : fusionScore sparse dense rrfK = fusionScore dense sparse rrfK :=
  funext fun _ => add_comm _ _

theorem fusionKey_comm : fusionKey sparse dense rrfK = fusionKey dense sparse rrfK := by
  have hbest : ∀ id, bestFirstRank sparse dense id = bestFirstRank dense sparse id := by
    intro id
    unfold bestFirstRank
    cases firstRank dense id with
    | none => cases firstRank sparse id <;> rfl
    | some d =>
      cases firstRank sparse id with
      | none => rfl
      | some s => exact Nat.min_comm s d
  funext id
  unfold fusionKey
  rw [fusionScore_comm, hbest]

end

/-! ## The fusion table -/

/-- The entry of an id with these ranks in the arms. -/
structure Fused.Shows (rrfK : Int) (ranks : Arm → Option Nat) (id : String) (e : Fused) :
    Prop where
  id : e.candidate.fusionId = id
  rank : ∀ arm, e.rank arm = ranks arm
  score : e.fusedScore = rankGain rrfK (ranks .dense) + rankGain rrfK (ranks .sparse)

/-- The table of ids with these ranks in the arms. -/
structure Tracks (rrfK : Int) (ranks : String → Arm → Option Nat) (table : Dict String Fused) :
    Prop where
  nodup : (table.map Prod.fst).Nodup
  entry : ∀ id e, table.get? id = some e → e.Shows rrfK (ranks id) id
  keys : ∀ id, (table.get? id).isSome = true ↔ ∃ arm, (ranks id arm).isSome = true

variable {rrfK : Int} {id : String} {e : Fused} {arm : Arm}

section

variable {ranks : String → Arm → Option Nat} {table : Dict String Fused}

theorem Fused.Shows.ranked {rs : Arm → Option Nat}
    (h : e.Shows rrfK rs id) (hnone : rs arm = none) (n : Nat) (score : Rat) :
    (e.ranked arm n score rrfK).Shows rrfK (Function.update rs arm (some n)) id := by
  have hdense := h.rank .dense
  have hsparse := h.rank .sparse
  cases arm with
  | dense =>
    refine ⟨h.id, fun arm => ?_, ?_⟩
    · cases arm with
      | dense => rfl
      | sparse => exact hsparse
    · show e.fusedScore + _ = _
      rw [h.score, hnone]
      simp [rankGain, add_comm]
  | sparse =>
    refine ⟨h.id, fun arm => ?_, ?_⟩
    · cases arm with
      | dense => exact hdense
      | sparse => rfl
    · show e.fusedScore + _ = _
      rw [h.score, hnone]
      simp [rankGain]

theorem Tracks.getD (h : Tracks rrfK ranks table) (c : Candidate) :
    ((table.get? c.fusionId).getD (Fused.start c)).Shows rrfK (ranks c.fusionId) c.fusionId := by
  cases hget : table.get? c.fusionId with
  | some e => exact h.entry _ e hget
  | none =>
    have hnone : ∀ arm, ranks c.fusionId arm = none := by
      intro arm
      have hkeys := (h.keys c.fusionId).not.mp (by simp [hget])
      simpa using fun hsome => hkeys ⟨arm, hsome⟩
    refine ⟨rfl, fun arm => ?_, ?_⟩
    · rw [hnone arm]
      cases arm <;> rfl
    · simp [Fused.start, hnone, rankGain]

/-- The ranks once the candidates of a ranking were passed in an arm. -/
def passed (arm : Arm) (ranking : List (Candidate × Nat)) (ranks : String → Arm → Option Nat)
    (id : String) : Arm → Option Nat :=
  Function.update (ranks id) arm ((ranks id arm).or (rankIn ranking id))

theorem passed_eq_self {ranking : List (Candidate × Nat)}
    (h : (ranks id arm).or (rankIn ranking id) = ranks id arm) :
    passed arm ranking ranks id = ranks id := by
  unfold passed
  rw [h, Function.update_eq_self]

theorem rankIn_singleton (x : Candidate × Nat) (id : String) :
    rankIn [x] id = if id ≠ "" ∧ x.1.fusionId = id then some x.2 else none := by
  unfold rankIn
  by_cases hid : id = ""
  · simp [hid]
  · by_cases hx : x.1.fusionId = id
    · simp [hid, hx]
    · simp [hid, hx]

theorem rankIn_cons (x : Candidate × Nat) (rest : List (Candidate × Nat)) (id : String) :
    rankIn (x :: rest) id = (rankIn [x] id).or (rankIn rest id) := by
  unfold rankIn
  by_cases hid : id = ""
  · simp [hid]
  · by_cases hx : x.1.fusionId = id
    · simp [hid, hx]
    · simp [hid, hx]

theorem Tracks.fuseCandidate (h : Tracks rrfK ranks table) (arm : Arm) (x : Candidate × Nat) :
    Tracks rrfK (passed arm [x] ranks) (fuseCandidate arm rrfK table x) := by
  have hshows := h.getD x.1
  have hother : ∀ id, x.1.fusionId ≠ id → passed arm [x] ranks id = ranks id := by
    intro id hne
    refine passed_eq_self ?_
    rw [rankIn_singleton, if_neg fun hx => hne hx.2, Option.or_none]
  -- nothing changes where the id is missing or has its rank
  have hsame : passed arm [x] ranks x.1.fusionId = ranks x.1.fusionId →
      Tracks rrfK (passed arm [x] ranks) table := by
    intro hself
    have heq : passed arm [x] ranks = ranks := by
      funext id
      by_cases hid : x.1.fusionId = id
      · rw [← hid, hself]
      · exact hother id hid
    rw [heq]
    exact h
  unfold Vector.fuseCandidate
  dsimp only
  split
  · next hid =>
    refine hsame (passed_eq_self ?_)
    rw [rankIn_singleton, if_neg fun hx => hx.1 hid, Option.or_none]
  · next hid =>
    split
    · next r hr =>
      rw [hshows.rank] at hr
      refine hsame (passed_eq_self ?_)
      rw [hr, Option.some_or]
    · next hr =>
      rw [hshows.rank] at hr
      have hself : passed arm [x] ranks x.1.fusionId =
          Function.update (ranks x.1.fusionId) arm (some x.2) := by
        unfold passed
        rw [hr, rankIn_singleton, if_pos ⟨hid, rfl⟩, Option.none_or]
      refine ⟨Dict.nodup_set h.nodup _ _, ?_, ?_⟩
      · intro id e hget
        by_cases hne : x.1.fusionId = id
        · subst hne
          rw [Dict.get?_set_self] at hget
          rw [← Option.some.inj hget, hself]
          exact hshows.ranked hr x.2 x.1.score
        · rw [Dict.get?_set_ne _ hne] at hget
          rw [hother id hne]
          exact h.entry id e hget
      · intro id
        by_cases hne : x.1.fusionId = id
        · subst hne
          rw [Dict.get?_set_self, hself]
          exact iff_of_true rfl ⟨arm, by rw [Function.update_self]; rfl⟩
        · rw [Dict.get?_set_ne _ hne, hother id hne]
          exact h.keys id

theorem Tracks.foldl (arm : Arm) (ranking : List (Candidate × Nat)) :
    ∀ {ranks : String → Arm → Option Nat} {table : Dict String Fused}, Tracks rrfK ranks table →
      Tracks rrfK (passed arm ranking ranks)
        (ranking.foldl (Vector.fuseCandidate arm rrfK) table) := by
  induction ranking with
  | nil =>
    intro ranks table h
    have hself : passed arm [] ranks = ranks :=
      funext fun id => passed_eq_self (by simp [rankIn])
    rw [hself]
    exact h
  | cons x rest ih =>
    intro ranks table h
    have hpassed : passed arm (x :: rest) ranks = passed arm rest (passed arm [x] ranks) := by
      funext id
      unfold passed
      rw [Function.update_self, Function.update_idem, rankIn_cons, Option.or_assoc]
    rw [List.foldl_cons, hpassed]
    exact ih (h.fuseCandidate arm x)

end

def armRanks (dense sparse : List Candidate) (id : String) : Arm → Option Nat
  | .dense => firstRank dense id
  | .sparse => firstRank sparse id

theorem tracks_fused (dense sparse : List Candidate) (rrfK : Int) :
    Tracks rrfK (armRanks dense sparse)
      (fuseArm .sparse rrfK (fuseArm .dense rrfK [] dense) sparse) := by
  have hstart : Tracks rrfK (fun _ _ => none) [] :=
    ⟨by simp, fun _ _ h => by simp [Dict.get?] at h, fun _ => by simp [Dict.get?]⟩
  have h := (hstart.foldl .dense (dense.zipIdx 1)).foldl .sparse (sparse.zipIdx 1)
  refine (congrArg (fun ranks => Tracks rrfK ranks _) ?_).mp h
  funext id arm
  cases arm with
  | dense | sparse => rfl

/-! ## The order -/

def Fused.key (x : String × Fused) : Rat ×ₗ ℕ ×ₗ String :=
  toLex (-x.2.fusedScore, toLex (x.2.bestRank, x.1))

theorem fusedBefore_iff (a b : String × Fused) :
    fusedBefore a b = true ↔ Fused.key a ≤ Fused.key b := by
  unfold fusedBefore Fused.key
  simp only [Prod.Lex.toLex_le_toLex, Bool.or_eq_true, Bool.and_eq_true, decide_eq_true_eq,
    neg_lt_neg_iff, neg_inj]

theorem Fused.Shows.key_eq {dense sparse : List Candidate}
    (h : e.Shows rrfK (armRanks dense sparse id) id) :
    Fused.key (id, e) = fusionKey dense sparse rrfK id := by
  have hdense : e.denseRank = firstRank dense id := h.rank .dense
  have hsparse : e.sparseRank = firstRank sparse id := h.rank .sparse
  have hbest : e.bestRank = bestFirstRank dense sparse id := by
    unfold Fused.bestRank bestFirstRank
    rw [hdense, hsparse]
    cases firstRank dense id <;> cases firstRank sparse id <;> rfl
  unfold Fused.key fusionKey
  rw [h.score, hbest]
  rfl

/-- The ids of both arms in order, and what the fusion returns of them. -/
theorem reciprocalRankFusion_eq (dense sparse : List Candidate) {limit : Int}
    (hlimit : 1 ≤ limit) (hk : 1 ≤ rrfK) : ∃ ids : List String,
    (∀ id, id ∈ ids ↔ id ≠ "" ∧ ∃ c ∈ dense ++ sparse, c.fusionId = id) ∧
    ids.Pairwise (fun a b => fusionKey dense sparse rrfK a < fusionKey dense sparse rrfK b) ∧
    ∃ out, reciprocalRankFusion dense sparse limit rrfK = .ok out ∧
      out.map (fun c => (c.fusionId, c.score)) =
        (ids.take limit.toNat).map fun id => (id, fusionScore dense sparse rrfK id) := by
  have htracks := tracks_fused dense sparse rrfK
  unfold reciprocalRankFusion
  rw [if_neg (by omega)]
  dsimp only
  generalize fuseArm .sparse rrfK (fuseArm .dense rrfK [] dense) sparse = table at htracks ⊢
  have htotal : Std.Total fun a b : String × Fused => fusedBefore a b = true :=
    ⟨fun a b => by simpa only [fusedBefore_iff] using le_total (Fused.key a) (Fused.key b)⟩
  have htrans : IsTrans (String × Fused) fun a b => fusedBefore a b = true :=
    ⟨fun a b c hab hbc => by
      rw [fusedBefore_iff] at hab hbc ⊢
      exact hab.trans hbc⟩
  have hsorted := List.pairwise_insertionSort (fun a b => fusedBefore a b = true) table
  have hperm := List.perm_insertionSort (fun a b => fusedBefore a b = true) table
  generalize table.insertionSort (fun a b => fusedBefore a b = true) = sorted at hsorted hperm ⊢
  have hshows : ∀ x ∈ sorted, x.2.Shows rrfK (armRanks dense sparse x.1) x.1 := by
    intro x hx
    exact htracks.entry _ _ ((Dict.get?_eq_some_iff htracks.nodup).mpr (hperm.subset hx))
  have hnodup : (sorted.map Prod.fst).Nodup :=
    (hperm.map Prod.fst).nodup_iff.mpr htracks.nodup
  refine ⟨sorted.map Prod.fst, ?_, ?_, _, rfl, ?_⟩
  · intro id
    have hkey : id ∈ table.map Prod.fst ↔ (table.get? id).isSome = true := by
      simp [Option.isSome_iff_exists, Dict.get?_eq_some_iff htracks.nodup]
    have harms : (∃ arm, (armRanks dense sparse id arm).isSome = true) ↔
        (firstRank dense id).isSome = true ∨ (firstRank sparse id).isSome = true := by
      constructor
      · intro h
        obtain ⟨arm, harm⟩ := h
        cases arm with
        | dense => exact .inl harm
        | sparse => exact .inr harm
      · intro h
        rcases h with h | h
        · exact ⟨.dense, h⟩
        · exact ⟨.sparse, h⟩
    rw [(hperm.map Prod.fst).mem_iff, hkey, htracks.keys, harms, firstRank_isSome_iff,
      firstRank_isSome_iff, ← and_or_left]
    simp only [List.mem_append, or_and_right, exists_or]
  · refine List.pairwise_map.mpr ((hsorted.and (List.pairwise_map.mp hnodup)).imp_of_mem ?_)
    intro a b ha hb hab
    have hle := (fusedBefore_iff a b).mp hab.1
    rw [← (hshows a ha).key_eq, ← (hshows b hb).key_eq]
    exact lt_of_le_of_ne hle fun heq => hab.2 (congrArg (fun k => (ofLex (ofLex k).2).2) heq)
  · have hresult : ∀ x ∈ (sorted.take limit.toNat).zipIdx 1,
        ((x.1.2.result x.2).fusionId, (x.1.2.result x.2).score) =
          (x.1.1, fusionScore dense sparse rrfK x.1.1) := by
      intro x hx
      have hmem : x.1 ∈ sorted := List.mem_of_mem_take (List.fst_mem_of_mem_zipIdx hx)
      exact Prod.ext (hshows x.1 hmem).id (hshows x.1 hmem).score
    rw [List.map_map, ← List.map_take, List.map_map]
    conv_rhs => rw [← List.zipIdx_map_fst 1 (sorted.take limit.toNat), List.map_map]
    exact List.map_congr_left hresult

/-- Fusion returns the first `limit` of the distinct ids of its arms, by score, best rank and id.
The score of an id is what its first rank in each arm adds to it, and neither the ids nor their
scores nor their order depend on which arm is which. -/
theorem reciprocalRankFusion_ranks (dense sparse : List Candidate) (limit rrfK : Int)
    (hlimit : 1 ≤ limit) (hk : 1 ≤ rrfK) : ∃ (ids : List String) (out swapped : List Candidate),
    reciprocalRankFusion dense sparse limit rrfK = .ok out ∧
    reciprocalRankFusion sparse dense limit rrfK = .ok swapped ∧
    (out.map Candidate.fusionId).Nodup ∧
    (∀ c ∈ out, c.score = fusionScore dense sparse rrfK c.fusionId) ∧
    (∀ id, id ∈ ids ↔ id ≠ "" ∧ ∃ c ∈ dense ++ sparse, c.fusionId = id) ∧
    ids.Pairwise (fun a b => fusionKey dense sparse rrfK a < fusionKey dense sparse rrfK b) ∧
    out.map Candidate.fusionId = ids.take limit.toNat ∧
    swapped.map (fun c => (c.fusionId, c.score)) = out.map fun c => (c.fusionId, c.score) := by
  obtain ⟨ids, hmem, hsorted, out, hout, hscores⟩ := reciprocalRankFusion_eq dense sparse hlimit hk
  obtain ⟨ids', hmem', hsorted', swapped, hswapped, hscores'⟩ :=
    reciprocalRankFusion_eq sparse dense hlimit hk
  have hids : out.map Candidate.fusionId = ids.take limit.toNat := by
    have h := congrArg (List.map Prod.fst) hscores
    rw [List.map_map, List.map_map] at h
    exact h.trans (List.map_id _)
  refine ⟨ids, out, swapped, hout, hswapped, ?_, ?_, hmem, hsorted, hids, ?_⟩
  · rw [hids]
    have hnodup : ids.Nodup := hsorted.imp fun hlt heq => ne_of_lt hlt (congrArg _ heq)
    exact hnodup.sublist (List.take_sublist ..)
  · intro c hc
    have hpair : (c.fusionId, c.score) ∈ out.map fun c => (c.fusionId, c.score) :=
      List.mem_map_of_mem hc
    rw [hscores] at hpair
    obtain ⟨id, -, heq⟩ := List.mem_map.mp hpair
    rw [Prod.mk.injEq] at heq
    rw [← heq.1, heq.2]
  · -- both lists of ids have the same members in the same strict order
    rw [fusionKey_comm] at hsorted'
    have hsame : ids' = ids := by
      refine hsorted'.eq_of_mem_iff hsorted fun id => ?_
      rw [hmem, hmem']
      simp only [List.mem_append, or_comm]
    rw [hscores', hscores, hsame, fusionScore_comm]

def idOnly (id : String) : Candidate := ⟨id, 1, none, none, none⟩

/-- The second arm has a candidate without an id, and the first one a candidate twice. -/
theorem reciprocalRankFusion_ranks_two : ∃ out,
    reciprocalRankFusion [idOnly "a", idOnly "b", idOnly "a"] [idOnly "", idOnly "b", idOnly "c"]
      2 60 = .ok out ∧ (out.map Candidate.fusionId).Nodup ∧
    out.map Candidate.fusionId = ["b", "a"] := by
  obtain ⟨_, out, _, hout, _, hnodup, _⟩ := reciprocalRankFusion_ranks
    [idOnly "a", idOnly "b", idOnly "a"] [idOnly "", idOnly "b", idOnly "c"] 2 60 (by decide)
    (by decide)
  refine ⟨out, hout, hnodup, ?_⟩
  have hrun : (reciprocalRankFusion [idOnly "a", idOnly "b", idOnly "a"]
      [idOnly "", idOnly "b", idOnly "c"] 2 60).toOption.map (List.map Candidate.fusionId) =
        some ["b", "a"] := by
    decide +kernel
  rw [hout] at hrun
  exact Option.some.inj hrun

end RagForge.Vector
