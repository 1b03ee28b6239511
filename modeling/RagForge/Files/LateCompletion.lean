import RagForge.Files.DecisionFailure
import RagForge.Files.Requests

/-
Extraction results that come too late.

The completion handler writes the status and the extraction stage of the file before it checks that
the task still waits for the result.  The check refuses a late or repeated result, but on a
standalone server the write stays.
-/

namespace RagForge.Files

open Effect Store Py

/-- The status and the stages of every file, the tasks and the cases are the same. -/
structure Unmoved (w w' : World) : Prop where
  files : ∀ k, (w'.files.lookup k).map (fun r => (r.doc.status, r.doc.stage)) =
    (w.files.lookup k).map fun r => (r.doc.status, r.doc.stage)
  tasks : w'.tasks = w.tasks
  cases : w'.cases = w.cases

/-- The handler of a result reaches its write of the file, which takes effect. -/
structure Stamped (env : Env) (who : Identity) (w : World) (fileId : String)
    (given : Option String) (file : Row FileDoc) : Prop where
  named : fileId ≠ ""
  reads : Clear (fun k => env.fault k = none) w.tick 4
  findFile : w.files.find who.sees (who.key fileId) = some file
  findTask : (w.tasks.find who.sees (who.key (completedTask who w fileId given))).isSome = true
  applied : ∀ f, env.fault (w.tick + 4) = some f → f.applied = true

inductive LateVerdict (env : Env) (who : Identity) (w : World) (fileId : String)
    (given : Option String) (w' : World) : Prop
  | untouched (hnot : ∀ file, ¬ Stamped env who w fileId given file) (hsame : SameDocuments w w')
  | stamped {file : Row FileDoc} {doc : FileDoc} (hstamped : Stamped env who w fileId given file)
      (hfiles : w'.files = w.files.insert (who.key fileId) { file with doc := doc })
      (hstatus : doc.status = .processing)
      (hstage : doc.stage = file.doc.stage.set "extraction" "done")
      (htasks : w'.tasks = w.tasks) (hcases : w'.cases = w.cases)

section Late

variable {env : Env} {who : Identity} {w : World} {fileId : String} {given : Option String}

theorem LateVerdict.of_same {w₁ w₂ : World} (h : LateVerdict env who w fileId given w₁)
    (hsame : SameDocuments w₁ w₂) : LateVerdict env who w fileId given w₂ := by
  cases h with
  | untouched hnot hsame₁ =>
    exact .untouched hnot ⟨hsame.files.trans hsame₁.files, hsame.tasks.trans hsame₁.tasks,
      hsame.cases.trans hsame₁.cases, hsame.decisions.trans hsame₁.decisions,
      hsame.chunks.trans hsame₁.chunks⟩
  | stamped hstamped hfiles hstatus hstage htasks hcases =>
    exact .stamped hstamped (hsame.files.trans hfiles) hstatus hstage (hsame.tasks.trans htasks)
      (hsame.cases.trans hcases)

/-- The state machine refuses the result, after its write of the file. -/
theorem handleExtractionCompletion_late {cfg : Config} {e : Extraction} {actor : Actor}
    {file : Row FileDoc} {task : Row TaskDoc} (hnamed : fileId ≠ "")
    (hreads : Clear (fun k => env.fault k = none) w.tick 2)
    (hfile : w.files.find who.sees (who.key fileId) = some file)
    (htask : w.tasks.find who.sees (who.key (completedTask who w fileId given)) = some task)
    (hleft : task.doc.currentNode ≠ .loadExtractionResult) :
    (handleExtractionCompletion cfg fileId (completedTask who w fileId given) e actor).wp
      (handler env).logic (fun r who' w' => (∃ err, r = .error err) ∧ who' = who ∧
        LateVerdict env who w fileId given w') who w.tock.tock := by
  have hrefused : ∃ err, transitionIngestionState task.doc.currentNode .detectIssues =
      .error err := by
    refine ⟨_, if_neg ?_⟩
    revert hleft
    cases task.doc.currentNode <;> decide
  obtain ⟨err, hrefused⟩ := hrefused
  refine wp_read_bind (a := w.files.find who.sees (who.key fileId)) rfl rfl ?_
    fun e hfault => ⟨⟨e, rfl⟩, rfl, .untouched (fun _ h => hfault (h.reads 2 (by omega)))
      (by simp)⟩
  intro hread₃
  refine wp_read_bind (a := w.tasks.find who.sees
    (who.key (completedTask who w fileId given))) rfl rfl ?_
    fun e hfault => ⟨⟨e, rfl⟩, rfl, .untouched (fun _ h => hfault (h.reads 3 (by omega)))
      (by simp)⟩
  intro hread₄
  have hclear : Clear (fun k => env.fault k = none) w.tick 4 :=
    (clear_add).mpr ⟨hreads, (clear_add).mpr
      ⟨clear_one.mpr hread₃, clear_one.mpr hread₄⟩⟩
  have hstamped : (∀ f, env.fault (w.tick + 4) = some f → f.applied = true) →
      Stamped env who w fileId given file := fun happlied =>
    ⟨hnamed, hclear, hfile, by rw [htask]; rfl, happlied⟩
  rw [hfile, htask]
  refine wp_call_bind rfl ?_ (fun e e' he => nomatch he) ?_
  · intro _ hnone _
    unfold beginIssueDetection transition
    rw [hrefused]
    refine ⟨⟨err, rfl⟩, rfl, .stamped (hstamped ?_) (Table.update_of_some hfile _) rfl rfl rfl rfl⟩
    intro f hf
    exact absurd (hnone.symm.trans hf) (by simp)
  · intro fault e hfault
    refine ⟨⟨e, rfl⟩, rfl, ?_⟩
    cases happlied : fault.applied with
    | true =>
      refine .stamped (hstamped ?_) (Table.update_of_some hfile _) rfl rfl rfl rfl
      intro f hf
      rw [← Option.some.inj (hfault.symm.trans hf)]
      exact happlied
    | false =>
      refine .untouched (fun _ h => ?_) (by simp)
      exact absurd (h.applied fault hfault) (by rw [happlied]; simp)

theorem handleCompleteExtraction_late (cfg : Config) (e : Extraction)
    (hleft : ∀ row, w.tasks.find who.sees (who.key (completedTask who w fileId given)) =
      some row → row.doc.currentNode ≠ .loadExtractionResult) :
    (handleCompleteExtraction cfg fileId given e).wp (handler env).logic
      (fun _ _ w' => LateVerdict env who w fileId given w') who w := by
  refine (Proc.wp_bind _ _).mpr ?_
  rw [Proc.wp_read]
  dsimp only
  by_cases hnamed : fileId = ""
  · rw [if_pos hnamed]
    exact .untouched (fun _ h => h.named hnamed) (by simp)
  rw [if_neg hnamed]
  refine wp_read_bind (a := w.files.find who.sees (who.key fileId)) rfl rfl ?_ fun e hfault =>
    .untouched (fun _ h => hfault (h.reads 0 (by omega))) (by simp)
  intro hread₁
  refine wp_read_bind (a := w.tasks.find who.sees (who.key (completedTask who w fileId given))) rfl
    rfl ?_ fun e hfault =>
    .untouched (fun _ h => hfault (h.reads 1 (by omega))) (by simp)
  intro hread₂
  have hreads : Clear (fun k => env.fault k = none) w.tick 2 :=
    (clear_add (n := 1)).mpr ⟨clear_one.mpr hread₁, clear_one.mpr hread₂⟩
  cases hfile : w.files.find who.sees (who.key fileId) with
  | none =>
    refine .untouched (fun _ h => ?_) (by simp)
    exact absurd (hfile.symm.trans h.findFile) (by simp)
  | some file =>
  cases htask : w.tasks.find who.sees (who.key (completedTask who w fileId given)) with
  | none =>
    refine .untouched (fun _ h => ?_) (by simp)
    have hsome := h.findTask
    rw [htask] at hsome
    cases hsome
  | some task =>
  have hlate : (handleExtractionCompletion cfg fileId (completedTask who w fileId given) e
      who.actor).wp (handler env).logic _ who w.tock.tock :=
    handleExtractionCompletion_late hnamed hreads hfile htask (hleft task htask)
  unfold completedTask at hlate
  rw [hfile] at hlate
  refine (Proc.wp_bind _ _).mpr ((Proc.wp_handle _ _).mpr (Proc.wp_mono hlate ?_))
  intro r who' w' h
  obtain ⟨⟨err, rfl⟩, rfl, hverdict⟩ := h
  exact wp_failureEvent fun w'' hsame => hverdict.of_same hsame

end Late

/-- A late result leaves the file, the task and the case as they are if and only if its write of
the file does not take effect, or writes what the file has already. -/
theorem lateCompletion_unmoved_iff (cfg : Config) (env : Env) (who : Identity) (w : World)
    (fileId : String) (given : Option String) (e : Extraction)
    (hleft : ∀ row, w.tasks.find who.sees (who.key (completedTask who w fileId given)) =
      some row → row.doc.currentNode ≠ .loadExtractionResult) :
    Unmoved w ((handleCompleteExtraction cfg fileId given e).run (handler env) who w).2.2 ↔
      ∀ file, Stamped env who w fileId given file →
        file.doc.status = .processing ∧ file.doc.stage.get? "extraction" = some "done" := by
  cases (Proc.wp_logic_iff _ _ _ _ _).mp (handleCompleteExtraction_late cfg e hleft) with
  | untouched hnot hsame =>
    refine iff_of_true ⟨?_, hsame.tasks, hsame.cases⟩ fun file h => absurd h (hnot file)
    intro k
    rw [hsame.files]
  | @stamped file doc hstamped hfiles hstatus hstage htasks hcases =>
    have hlookup := (Table.find_eq_some_iff.mp hstamped.findFile).1
    constructor
    · intro hunmoved file' hstamped'
      obtain rfl := Option.some.inj (hstamped.findFile.symm.trans hstamped'.findFile)
      have hsame := hunmoved.files (who.key fileId)
      rw [hfiles, AList.lookup_insert, hlookup] at hsame
      obtain ⟨hs, hg⟩ := Prod.mk.inj (Option.some.inj hsame)
      rw [hstatus] at hs
      rw [hstage] at hg
      exact ⟨hs.symm, (Dict.set_eq_self_iff _ _ _).mp hg⟩
    · intro hdone
      obtain ⟨hs, hg⟩ := hdone file hstamped
      refine ⟨?_, htasks, hcases⟩
      intro k
      rw [hfiles]
      by_cases hk : k = who.key fileId
      · rw [hk, AList.lookup_insert, hlookup, Option.map_some, Option.map_some, hstatus, hstage,
          hs, (Dict.set_eq_self_iff _ _ _).mpr hg]
      · rw [AList.lookup_insert_ne hk]

/-- The file waits for a decision; the same result comes once more. -/
theorem lateCompletion_moves_paused :
    (∀ row, pausedWorld.tasks.find sampleAdmin.sees (sampleAdmin.key (completedTask sampleAdmin
      pausedWorld "file" (some "task"))) = some row →
      row.doc.currentNode ≠ .loadExtractionResult) ∧
    ¬ Unmoved pausedWorld (after (completion "secret text") pausedWorld) := by
  constructor
  · intro row hrow hnode
    have hstored : (pausedWorld.tasks.find sampleAdmin.sees (sampleAdmin.key (completedTask
        sampleAdmin pausedWorld "file" (some "task")))).map (·.doc.currentNode) =
        some .awaitHumanReview := by decide +kernel
    rw [hrow, Option.map_some, hnode] at hstored
    cases hstored
  · intro h
    have hsame := h.files (sampleAdmin.key "file")
    exact absurd (congrArg (Option.map Prod.fst) hsame) (by decide +kernel)

/-- The file was found clean and handed on; the same result comes once more. -/
theorem lateCompletion_unmoved_clean :
    Unmoved (after (completion "fine text") startedWorld)
      (after (completion "fine text") (after (completion "fine text") startedWorld)) := by
  refine (lateCompletion_unmoved_iff sampleConfig (sampleEnv []) sampleAdmin
    (after (completion "fine text") startedWorld) "file" (some "task") _ ?_).mpr ?_
  · intro row hrow hnode
    have hstored : ((after (completion "fine text") startedWorld).tasks.find sampleAdmin.sees
        (sampleAdmin.key "task")).map (·.doc.currentNode) = some .finalize := by decide +kernel
    rw [show completedTask sampleAdmin _ "file" (some "task") = "task" from rfl] at hrow
    rw [hrow, Option.map_some, hnode] at hstored
    cases hstored
  · intro file hstamped
    have hstored : ((after (completion "fine text") startedWorld).files.find sampleAdmin.sees
        (sampleAdmin.key "file")).map (fun r => (r.doc.status, r.doc.stage.get? "extraction")) =
        some (.processing, some "done") := by decide +kernel
    rw [hstamped.findFile, Option.map_some] at hstored
    exact Prod.mk.inj (Option.some.inj hstored)

end RagForge.Files
