import RagForge.Rag.Types

/-
Execution and checkpoint order of a conversation turn (`conversation_stages.py`).
-/

namespace RagForge.Rag

inductive NodeName
  | inputGuardrails
  | loadShortTermContext
  | loadMemoryLight
  | retrieveChunksOnce
  | generateAnswer
  | evaluateAnswerLight
  | loadMemoryDeep
  | rewriteOrDecomposeQuery
  | retrievePassOne
  | retrievePassTwoIfNeeded
  | mergeCandidates
  | rerankCandidates
  | generateDraftAnswer
  | evaluateAnswerDeep
  | reviseOnceIfNeeded
  | outputGuardrails
  | persistTurn
  | streamDone
  deriving DecidableEq

def NodeName.text : NodeName → String
  | .inputGuardrails => "input_guardrails"
  | .loadShortTermContext => "load_short_term_context"
  | .loadMemoryLight => "load_memory_light"
  | .retrieveChunksOnce => "retrieve_chunks_once"
  | .generateAnswer => "generate_answer"
  | .evaluateAnswerLight => "evaluate_answer_light"
  | .loadMemoryDeep => "load_memory_deep"
  | .rewriteOrDecomposeQuery => "rewrite_or_decompose_query"
  | .retrievePassOne => "retrieve_pass_one"
  | .retrievePassTwoIfNeeded => "retrieve_pass_two_if_needed"
  | .mergeCandidates => "merge_candidates"
  | .rerankCandidates => "rerank_candidates"
  | .generateDraftAnswer => "generate_draft_answer"
  | .evaluateAnswerDeep => "evaluate_answer_deep"
  | .reviseOnceIfNeeded => "revise_once_if_needed"
  | .outputGuardrails => "output_guardrails"
  | .persistTurn => "persist_turn"
  | .streamDone => "stream_done"

/-- The stages under which the graph stores checkpoints.  The last two are no milestones: the run
stores them when it ends without finishing the turn. -/
inductive Stage
  | graphStart
  | afterContextLoad
  | afterRetrieval
  | afterPassOne
  | afterPassTwo
  | afterFinalRanking
  | afterGeneration
  | afterEvaluation
  | afterPersistence
  | guardrailBlocked
  | error
  deriving DecidableEq

open NodeName

def executionPaths : Mode → List NodeName
  | .regular =>
    [inputGuardrails, loadShortTermContext, loadMemoryLight, retrieveChunksOnce,
      rerankCandidates, generateAnswer, evaluateAnswerLight, outputGuardrails, persistTurn,
      streamDone]
  | .extended =>
    [inputGuardrails, loadShortTermContext, loadMemoryDeep, rewriteOrDecomposeQuery,
      retrievePassOne, retrievePassTwoIfNeeded, mergeCandidates, rerankCandidates,
      generateDraftAnswer, evaluateAnswerDeep, reviseOnceIfNeeded, outputGuardrails,
      persistTurn, streamDone]

def completedNodeByStage : Mode → Stage → Option NodeName
  | _, .afterContextLoad => some loadShortTermContext
  | .regular, .afterRetrieval => some retrieveChunksOnce
  -- Legacy checkpoints of an extended turn: pass two may repeat but is not skipped.
  | .extended, .afterRetrieval => some retrievePassOne
  | .extended, .afterPassOne => some retrievePassOne
  | .extended, .afterPassTwo => some retrievePassTwoIfNeeded
  | _, .afterFinalRanking => some rerankCandidates
  | .regular, .afterGeneration => some generateAnswer
  | .extended, .afterGeneration => some generateDraftAnswer
  | .regular, .afterEvaluation => some evaluateAnswerLight
  | .extended, .afterEvaluation => some evaluateAnswerDeep
  | _, .afterPersistence => some persistTurn
  | _, _ => none

/-- The nodes after the durable milestone, or `none` if the stage is unknown. -/
def remainingNodes (mode : Mode) (stage : Stage) : Option (List NodeName) :=
  let path := executionPaths mode
  if stage = .graphStart then some path
  else
    match completedNodeByStage mode stage with
    | none => none
    | some node => some (path.drop (path.idxOf node + 1))

/-- The nodes a run that starts from a checkpoint executes (`_resume_from_checkpoint`): an unknown
stage falls back to the whole path. -/
def resumeNodes (mode : Mode) (stage : Stage) : List NodeName :=
  (remainingNodes mode stage).getD (executionPaths mode)

/-- The milestones: the stages a checkpoint can be resumed after. -/
def Stage.isMilestone : Stage → Bool
  | .guardrailBlocked => false
  | .error => false
  | _ => true

theorem executionPaths_eq_cons (mode : Mode) :
    ∃ rest, executionPaths mode = inputGuardrails :: rest ∧ inputGuardrails ∉ rest := by
  cases mode
  · exact ⟨_, rfl, by decide⟩
  · exact ⟨_, rfl, by decide⟩

theorem resumeNodes_suffix (mode : Mode) (stage : Stage) :
    resumeNodes mode stage <:+ executionPaths mode := by
  unfold resumeNodes remainingNodes
  split
  · exact List.suffix_rfl
  · split
    · exact List.suffix_rfl
    · exact List.drop_suffix _ _

end RagForge.Rag
