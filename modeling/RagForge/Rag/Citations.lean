import RagForge.Rag.Payload

/-
The citation figures of a turn (`citation_metrics.py` and `_citation_metrics`): what the answer
cited against what the judge confirmed.
-/

namespace RagForge.Rag

open Py

/-- The figures; one that was not measured is `none`. -/
structure CitationMetrics where
  citationCount : Option Nat := none
  citedChunkRatio : Option Rat := none
  citationPrecision : Option Rat := none
  citationRecall : Option Rat := none
  citationF1 : Option Rat := none

def distinct (ids : List String) : List String := (ids.filter fun id => id != "").dedup

def claimPassages (lib : Lib) (claim : Json) : List String :=
  let listed := ((claim.get "supporting_passage_ids").orElse (.arr [])).items
  distinct ((listed.filter fun | .null => false | _ => true).map lib.str)

def supportedClaims (claims : List Json) : List Json :=
  claims.filter fun claim => (claim.get "supported").truthy

def supportingPassageIds (lib : Lib) (claims : List Json) : List String :=
  distinct ((supportedClaims claims).flatMap (claimPassages lib))

def citationPrecision (citedIds supportingIds : List String) : Option Rat :=
  let cited := distinct citedIds
  if cited.isEmpty then none
  else some ((cited.filter fun id => id ∈ supportingIds).length / cited.length)

def citationRecall (lib : Lib) (claims : List Json) (citedIds : List String) : Option Rat :=
  let supportable := (supportedClaims claims).filter fun claim => !(claimPassages lib claim).isEmpty
  let credited := supportable.filter fun claim =>
    (claimPassages lib claim).any fun id => id ∈ distinct citedIds
  if supportable.isEmpty then none else some (credited.length / supportable.length)

def citationF1 (precision found : Option Rat) : Option Rat :=
  match precision, found with
  | some p, some r => some (if p + r = 0 then 0 else 2 * p * r / (p + r))
  | _, _ => none

def citedChunkRatio (citedIds : List String) (retrievedChunkCount : Nat) : Option Rat :=
  if retrievedChunkCount = 0 then none
  else some (min 1 ((distinct citedIds).length / retrievedChunkCount))

/-- `_citation_metrics`, for the citations of an answer, the judge's claims and the number of
passages in the prompt. -/
def citationMetrics (lib : Lib) (citations : Json) (claims : List Json) (passages : Nat) :
    CitationMetrics :=
  match citations with
  | .null => {}
  | citations =>
    let citedIds := (citations.items.filter fun c => (c.get "source_id").truthy).map fun c =>
      lib.str (c.get "source_id")
    let precision := if claims.isEmpty then none
      else citationPrecision citedIds (supportingPassageIds lib claims)
    let found := if claims.isEmpty then none else citationRecall lib claims citedIds
    { citationCount := some citations.items.length
      citedChunkRatio := citedChunkRatio citedIds passages
      citationPrecision := precision
      citationRecall := found
      citationF1 := citationF1 precision found }

end RagForge.Rag
