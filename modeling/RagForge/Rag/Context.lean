import RagForge.Rag.Payload

/-
Final context selection (`context_assembler.py`) and the budget the graph gives it.
-/

namespace RagForge.Rag

open Py

/-- `estimate_tokens`: 3.5 characters a token, rounded up. -/
def estimateTokens (text : String) : Int := ((2 * text.length + 6) / 7 : Nat)

def passageSeparatorTokens : Int := 2

def chunkText (lib : Lib) (chunk : Json) : String :=
  lib.str (firstTrue [chunk.get "text", chunk.get "chunk", chunk.get "content"] (.str ""))

def sourceId (lib : Lib) (chunk : Json) (index : Nat) : String :=
  lib.str (firstTrue [chunk.get "chunk_id", chunk.get "id"]
    (.str ("passage_" ++ toString (index + 1))))

def sourceKey (lib : Lib) (chunk : Json) (index : Nat) : String :=
  lib.str (firstTrue [chunk.get "document_id", chunk.get "file_id", chunk.get "source_name",
    chunk.get "source"] (.str (sourceId lib chunk index)))

/-- The cost of the complete numbered passage with its locator. -/
def passageTokenCost (lib : Lib) (chunk : Json) (passageNumber : Nat) : Int :=
  let locator := match chunk.get "page" with
    | .null => chunk.get "section"
    | page => page
  let header := "[" ++ toString passageNumber ++ "] source=" ++
    sourceId lib chunk (passageNumber - 1)
  let header := match locator with
    | .null => header
    | l => header ++ " locator=" ++ lib.str l
  estimateTokens header + estimateTokens (chunkText lib chunk) + passageSeparatorTokens

/-- `" ".join(text.casefold().split())`. -/
def normalizedText (lib : Lib) (text : String) : String :=
  let words := ((lib.casefold text).toList.splitOnP isSpace).filter fun w => !w.isEmpty
  joinWith " " (words.map String.ofList)

def wordSet (lib : Lib) (text : String) : List String := (lib.words (lib.casefold text)).dedup

/-- `_redundant`: the same text, or at least nine tenths of the words shared. -/
def redundant (lib : Lib) (text : String) (accepted : List (String × List String)) : Bool :=
  let normalized := normalizedText lib text
  let words := wordSet lib text
  accepted.any fun prior =>
    normalized == prior.1 ||
      (5 ≤ words.length && 5 ≤ prior.2.length &&
        9 * (words ∪ prior.2).length ≤ 10 * (words ∩ prior.2).length)

def contextScore (chunk : Json) : Rat :=
  match chunk.get "reranker_score" with
  | .null => (chunk.get "score").number
  | value => value.number

structure Dedup where
  unique : List (Nat × Json) := []
  seenIds : List String := []
  acceptedText : List (String × List String) := []

def deduplicate (lib : Lib) (candidates : List Json) : List (Nat × Json) :=
  (candidates.zipIdx.foldl (fun (acc : Dedup) x =>
    let text := chunkText lib x.1
    let chunkId := sourceId lib x.1 x.2
    if text = "" ∨ chunkId ∈ acc.seenIds ∨ redundant lib text acc.acceptedText then acc
    else
      { unique := acc.unique ++ [(x.2, x.1)]
        seenIds := acc.seenIds ++ [chunkId]
        acceptedText := acc.acceptedText ++ [(normalizedText lib text, wordSet lib text)] })
    {}).unique

def setText (chunk : Json) (key : String) (value : Json) : Json :=
  match chunk with
  | .obj fields => .obj (Dict.set fields key value)
  | other => other

/-- The loop of `_truncate_to_budget`: drop characters until the passage fits. -/
def shrink (lib : Lib) (probe : Json) (budget : Int) (passageNumber : Nat) : Nat → String → String
  | 0, text => text
  | fuel + 1, text =>
    if text ≠ "" ∧ passageTokenCost lib (setText probe "text" (.str text)) passageNumber > budget
    then shrink lib probe budget passageNumber fuel (rstrip (clip (text.length - 1) text))
    else text

/-- `_truncate_to_budget`: a prefix that fits, or `none` when even the metadata does not. -/
def truncateToBudget (lib : Lib) (chunk : Json) (budget : Int) (passageNumber : Nat) :
    Option Json :=
  let original := chunkText lib chunk
  let available := budget - passageTokenCost lib (setText chunk "text" (.str "")) passageNumber
  if available ≤ 0 then none
  else
    let text := rstrip (clip ((available * 7 / 2).toNat) original)
    if text = "" then none
    else
      let probe := setText (setText chunk "text" (.str text)) "context_truncated"
        (.bool (text.length < original.length))
      let text := shrink lib probe budget passageNumber text.length text
      if text = "" then none else some (setText probe "text" (.str text))

structure Selection where
  selected : List Json := []
  selectedSources : List String := []
  usedTokens : Int := 0

/-- The candidate the next round takes: the best one, unless its source was used already and a
candidate of a new source scores within the tolerance. -/
def nextChoice (lib : Lib) (tolerance : Rat) (sources : List String)
    (remaining : List (Nat × Json)) : Option (Nat × Json) :=
  let ranked := remaining.insertionSort fun a b =>
    contextScore b.2 < contextScore a.2 ∨ (contextScore a.2 = contextScore b.2 ∧ a.1 ≤ b.1)
  match ranked with
  | [] => none
  | best :: _ =>
    if sourceKey lib best.2 best.1 ∈ sources then
      let diverse := ranked.filter fun item =>
        sourceKey lib item.2 item.1 ∉ sources ∧
          contextScore best.2 - contextScore item.2 ≤ tolerance
      some (diverse.head?.getD best)
    else some best

/-- The selection loop; every round removes one candidate, so `fuel` is their number. -/
def selectPassages (lib : Lib) (tokenBudget : Int) (maxPassages : Nat) (tolerance : Rat) :
    Nat → List (Nat × Json) → Selection → Selection
  | 0, _, acc => acc
  | fuel + 1, remaining, acc =>
    if maxPassages ≤ acc.selected.length then acc
    else
      match nextChoice lib tolerance acc.selectedSources remaining with
      | none => acc
      | some choice =>
        let rest := remaining.filter fun item => item.1 ≠ choice.1
        let number := acc.selected.length + 1
        let available := tokenBudget - acc.usedTokens
        let next := selectPassages lib tokenBudget maxPassages tolerance fuel rest
        let take (candidate : Json) : Selection :=
          next { selected := acc.selected ++ [candidate]
                 selectedSources := acc.selectedSources ++ [sourceKey lib candidate choice.1]
                 usedTokens := acc.usedTokens + passageTokenCost lib candidate number }
        if passageTokenCost lib choice.2 number ≤ available then take choice.2
        else if acc.selected ≠ [] then next acc
        else
          match truncateToBudget lib choice.2 available number with
          | none => next acc
          | some candidate => take candidate

def assembleContext (lib : Lib) (candidates : List Json) (tokenBudget : Int) (maxPassages : Nat)
    (tolerance : Rat) : List Json :=
  if tokenBudget ≤ 0 ∨ maxPassages = 0 then []
  else
    let remaining := deduplicate lib candidates
    (selectPassages lib tokenBudget maxPassages tolerance remaining.length remaining {}).selected

/-- `_assemble_generation_context`: reserve the prompt, then budget the evidence twice, since the
request carries it in the instructions and in `retrieved_context`. -/
def assembleGenerationContext (cfg : Config) (lib : Lib) (state : ConversationState)
    (request : ConversationRequest) (mode : Mode) : List Json :=
  let instructions :=
    (buildPrompt lib { state with retrievedChunks := [] } mode (.arr [])).instructions
  let historyText := joinWith "\n" (state.recentMessages.filterMap fun message =>
    match message with
    | .obj _ => some (lib.str (firstTrue [message.get "content", message.get "message",
        message.get "text"] (.str "")))
    | _ => none)
  let reserved := cfg.generationSystemPromptReserveTokens + estimateTokens request.userMessage +
    estimateTokens instructions + estimateTokens historyText
  let available := max 0 (cfg.generationInputTokenBudget - reserved)
  assembleContext lib state.retrievedChunks (min cfg.contextTokenBudget (available / 2))
    cfg.topKDocuments cfg.contextDiversityScoreTolerance

end RagForge.Rag
