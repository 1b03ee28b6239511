import RagForge.Memories.Candidate

/-
What a new candidate does to the memories an owner already holds (`memory_consolidation.py`).

The policy is a function of the candidate and of a bounded list of memories, each with its
similarity.  The merges that follow some of its decisions are functions as well.
-/

namespace RagForge.Memories

open Py

section

variable (lib : Lib)

/-- `_text_similarity`: the Jaccard similarity of two lists of tokens. -/
def textSimilarity (left right : List String) : Rat :=
  let l := firsts left
  let r := firsts right
  if l.isEmpty || r.isEmpty then 0
  else ((l.filter (· ∈ r)).length : Rat) / ((firsts (l ++ r)).length : Rat)

def memoryTokens (m : Memory) : List String :=
  if m.retrieval.keywords.isEmpty then tokenize lib m.text else m.retrieval.keywords

/-- A memory that a candidate is compared with, and how similar the two are. -/
abbrev Scored : Type := Memory × Rat

def orderScored (xs : List Scored) : List Scored :=
  xs.insertionSort fun a b => b.2 < a.2 ∨ (b.2 = a.2 ∧ a.1.id ≤ b.1.id)

/-! ## The comparable memories -/

/-- A declared match: its rank (exact content before the same fact), the memory and its score. -/
structure Forced where
  rank : Nat
  memory : Memory
  score : Rat

section

variable (limit : Nat) (candidate : Memory) (active : List Memory) (scored : List Scored)

/-- The declared matches, which a bounded comparison may not lose. -/
def forcedMatches : List Forced :=
  active.filterMap fun m =>
    if m.scopeKey ≠ candidate.scopeKey then none
    else
      let exact := m.contentHash = candidate.contentHash
      let sameFact := candidate.factKey.isSome ∧ m.factKey = candidate.factKey
      if ¬ exact ∧ ¬ sameFact then none
      else
        let score := match scored.reverse.find? fun p => p.1.id = m.id with
          | some p => p.2
          | none => if exact then 1 else 0
        some ⟨if exact then 0 else 1, m, score⟩

/-- `sorted(forced)`, by rank and id.  Two documents of one rank and one id would be compared as
dictionaries, which have no order. -/
def sortForced (forced : List Forced) : Except Err (List Forced) :=
  if (forced.map fun f => (f.rank, f.memory.id)).Nodup then
    .ok (forced.insertionSort fun a b =>
      a.rank < b.rank ∨ (a.rank = b.rank ∧ a.memory.id ≤ b.memory.id))
  else .error .typeError

/-- Append the memories that are not in the list yet, up to the limit. -/
def appendBounded (bounded : List Scored) (more : List Scored) : List Scored :=
  more.foldl (fun acc p =>
    if p.1.id ∉ acc.map (fun q => q.1.id) ∧ acc.length < limit then acc ++ [p] else acc) bounded

/-- The bounded comparison set: declared matches before similar ones. -/
def boundedMatches : Except Err (List Scored) := do
  let forced ← sortForced (forcedMatches candidate active scored)
  pure (appendBounded limit (appendBounded limit [] (forced.map fun f => (f.memory, f.score)))
    scored)

def lexicalScores : List Scored :=
  (orderScored (active.map fun m =>
    (m, textSimilarity (memoryTokens lib candidate) (memoryTokens lib m)))).take limit

end

/-! ## The policy -/

def policyFactKey (m : Memory) : String := lib.lower (strip (m.factKey.getD ""))

section

variable (cfg : Settings) (existing normalized : Memory) (now : String)

/-- `ConsolidationPolicy.decide`. -/
def decideOutcome (candidate : Memory) (comparable : List Scored)
    (comparison : Comparison) : Decision :=
  let ordered := orderScored comparable
  let scope := scopeKey lib candidate.scope
  let factKey := policyFactKey lib candidate
  let decision (outcome : Outcome) (reason : String) (target : Option Scored) : Decision :=
    { outcome := outcome
      reason := reason
      targetId := target.map fun p => p.1.id
      similarity := target.map Prod.snd
      comparison := comparison
      candidatesConsidered := ordered.length
      relatedIds := ordered.map fun p => p.1.id }
  let target := strip (candidate.supersedes.getD "")
  if target ≠ "" then
    match ordered.find? fun p => p.1.id = target with
    | some p => decision .supersede "candidate explicitly supersedes this memory" (some p)
    | none =>
      { decision .supersede "candidate explicitly supersedes a named memory" none with
        targetId := some target }
  else if candidate.validTo.truthy then
    decision .historical "candidate is written as a closed historical fact" none
  else
    match ordered.find? fun p => scopeKey lib p.1.scope = scope ∧ p.1.contentHash ≠ "" ∧
        p.1.contentHash = candidate.contentHash with
    | some p => decision .duplicateExact "identical active memory already stored" (some (p.1, 1))
    | none =>
    match ordered with
    | [] => decision .create "no comparable memory found" none
    | best :: _ =>
      let inScope := ordered.filter fun p => scopeKey lib p.1.scope = scope
      let outOfScope := ordered.filter fun p => scopeKey lib p.1.scope ≠ scope
      let sameFact := inScope.find? fun p => factKey ≠ "" ∧ factKey = policyFactKey lib p.1
      -- The rules of the candidate's own scope; `none` where none of them applies.
      let ownScope : Option Decision :=
        match inScope, sameFact with
        | [], _ => none
        | _ :: _, some p =>
          if cfg.duplicateSimilarityThreshold ≤ p.2 then
            some (decision .duplicateSemantic
              "near-identical memory already stored in the same scope" (some p))
          else
            some (decision .supersede
              "same fact key in the same scope carries a new value" (some p))
        | p :: _, none =>
          if cfg.duplicateSimilarityThreshold ≤ p.2 then
            some (decision .duplicateSemantic
              "near-identical memory already stored in the same scope" (some p))
          else if cfg.conflictSimilarityThreshold ≤ p.2 then
            some (decision .needsReview
              "related memory found but no fact key declares them the same fact" (some p))
          else none
      match ownScope with
      | some d => d
      | none =>
        match outOfScope with
        | p :: _ =>
          if cfg.conflictSimilarityThreshold ≤ p.2 then
            decision .coexist "related memory belongs to a different scope and stays valid"
              (some p)
          else
            decision .create "no comparable memory passed the conflict threshold" (some best)
        | [] =>
          decision .create "no comparable memory passed the conflict threshold" (some best)

def Decision.asProvenance (d : Decision) : Decision :=
  { d with similarity := d.similarity.map lib.round6 }

/-! ## Merges -/

def mergedRetrievalState : Retrieval :=
  { keywords := stringList lib (existing.retrieval.keywords ++ normalized.retrieval.keywords)
    embeddingStatus := if cfg.qdrantEnabled then .pending else .disabled
    indexedRevision := existing.retrieval.indexedRevision }

/-- The document that `_reinforce_existing_memory` stores. -/
def reinforced : Except Err Memory := do
  let provenance ← mergeProvenance existing.provenance normalized.provenance
  let text := if existing.text.length < normalized.text.length then normalized.text
    else existing.text
  let details := match existing.details, normalized.details with
    | .episodic eventAt expiresAt stability, .episodic eventAt' expiresAt' stability' =>
      Details.episodic (eventAt'.orElse eventAt) (expiresAt'.orElse expiresAt)
        (max stability stability')
    | details, _ => details
  pure { existing with
    text := text
    summary := if existing.summary.length ≤ normalized.summary.length then normalized.summary
      else existing.summary
    confidence := max existing.confidence normalized.confidence
    importance := max existing.importance normalized.importance
    details := details
    tags := stringList lib (existing.tags ++ normalized.tags)
    source := normalized.source.orElse existing.source
    updatedAt := .str now
    provenance := provenance
    retrieval := mergedRetrievalState lib cfg existing normalized
    status := some .active
    revision := existing.revision + 1
    factKey := existing.factKey.or normalized.factKey
    contentHash := contentHash lib existing.ownerId existing.ownerType existing.memoryClass text }

/-- The document that `_upsert_semantic_preference` stores over an existing one. -/
def mergedPreference : Except Err Memory := do
  let provenance ← mergeProvenance existing.provenance normalized.provenance
  let explicitSignal := (field normalized.provenance "explicit_user_signal").truthy
  let text := if explicitSignal then normalized.text else strOr normalized.text existing.text
  let details := match existing.details, normalized.details with
    | .semanticPreference key _ _ strength count,
        .semanticPreference _ value valueType strength' count' =>
        Details.semanticPreference key value valueType
          (min 1 (max strength strength' + 5 / 100)) (max 1 count + max 1 count')
    | details, _ => details
  pure { existing with
    text := text
    summary := if explicitSignal then normalized.summary
      else strOr normalized.summary existing.summary
    details := details
    confidence := max existing.confidence normalized.confidence
    importance := max existing.importance normalized.importance
    tags := stringList lib (existing.tags ++ normalized.tags)
    updatedAt := .str now
    source := normalized.source.orElse existing.source
    provenance := provenance
    retrieval := mergedRetrievalState lib cfg existing normalized
    status := some .active
    revision := existing.revision + 1
    contentHash := contentHash lib existing.ownerId existing.ownerType existing.memoryClass text }

end

end

end RagForge.Memories
