import RagForge.Memories.Isolation

/-
The request id of a write.

The unique index of the write log is on the request id alone.  A write whose id somebody else has
used stores its memory and then fails on its log entry, and fails again on the entry that is to
record the failure.  This is the only way in which the data of others reaches a write.
-/

namespace RagForge.Memories

open Effect Py Store

/-! ## Operations that leave the log alone -/

def Op.KeepsLog : Op → Prop
  | .updateLog .. | .insertLog _ => False
  | _ => True

variable {op : Op}

theorem exec_log (hop : op.KeepsLog) (env : Env) (w : World) : (exec env op w).2.log = w.log := by
  cases op with
  | insertMemory m =>
    by_cases hdup : w.memories.any m.sameSlot = true
    · rw [exec_insertMemory_taken hdup]
    · rw [exec_insertMemory_free hdup]
  | updateLog | insertLog => exact absurd hop (by simp [Op.KeepsLog])
  | _ => rfl

theorem handler_log (hop : op.KeepsLog) (env : Env) (w : World) :
    (handler env op w).2.log = w.log := by
  unfold handler
  split
  · exact exec_log hop env w
  · split
    · exact exec_log hop env w
    · rfl

def sameLog : Frame Unit World where
  rel _ w _ w' := w'.log = w.log
  refl _ _ := rfl
  trans h₁ h₂ := h₂.trans h₁

variable {b : Boundary} {s : World}

section

variable {lib : Lib} {cfg : Settings} {env : Env} {α : Type} {ctx : RequestContext} {w : World}

theorem Does.keeps_log {p : MemM α} (h : Does Op.KeepsLog p) (hs : s.log = w.log) :
    Ends (handler env).logic p (fun _ _ s' => s'.log = w.log) (fun _ _ s' => s'.log = w.log)
      () s := by
  have hframe : Ensures (handler env).logic sameLog p (fun _ _ _ => True) () s := by
    refine h.ensures ?_ () s
    intro op hop l s
    exact .perform ⟨handler_log hop env s, fun _ _ => trivial⟩
  exact hframe.ends (fun _ _ _ hrel _ => hrel.trans hs) fun _ _ _ hrel => hrel.trans hs

theorem Op.Reads.keepsLog (h : op.Reads b) : op.KeepsLog := by
  cases op <;> trivial

theorem Op.ReadsOr.keepsLog {more : Op → Prop} (hmore : ∀ op, more op → op.KeepsLog) (op : Op)
    (h : op.ReadsOr b more) : op.KeepsLog :=
  h.elim Op.Reads.keepsLog (hmore op)

theorem Op.Searches.keepsLog (op : Op) (h : op.Searches b) : op.KeepsLog := by
  cases op <;> trivial

theorem Op.Stores.keepsLog (op : Op) (h : op.Stores b) : op.KeepsLog := by
  cases op <;> trivial

theorem Op.Retires.keepsLog (op : Op) (h : op.Retires b) : op.KeepsLog := by
  cases op <;> trivial

theorem Op.Syncs.keepsLog (op : Op) (h : op.Syncs b) : op.KeepsLog := by
  cases op <;> trivial

/-! ## A write ends with its log entry -/

section

variable {Q : Prop} (hlog : ∀ outcome s, s.log = w.log → Ends (handler env).logic (logOutcome b ctx
  outcome) (fun _ _ _ => Q) (fun _ _ s' => s'.log = w.log) () s)

include hlog

/-- The end of every path through a write: the log is as at the start until the outcome is logged.
What is known of logging an outcome is known of the write. -/
theorem storeCandidate_ends {m : Memory} (hm : m.boundary = b) (comparable : Comparable)
    (d : Decision) (hs : s.log = w.log) :
    Ends (handler env).logic (storeCandidate lib cfg b ctx m comparable d) (fun _ _ _ => Q)
      (fun _ _ s' => s'.log = w.log) () s := by
  have hm' : (withDecision lib m d).boundary = b := hm
  refine (Does.keeps_log ((applyDecision_performs hm' _ d).mono
    (Op.ReadsOr.keepsLog Op.Stores.keepsLog)) hs).bind fun applied _ t ht => ?_
  have hretire : Does Op.KeepsLog (retireReplaced lib cfg b m d applied) :=
    .ite (.mono (applySupersession_performs _ _)
      (Op.ReadsOr.keepsLog Op.Retires.keepsLog)) (.pure none)
  refine (hretire.keeps_log ht).bind fun superseded _ t' ht' => ?_
  refine (Does.keeps_log ((syncVectorIndex_performs _ _).mono
    (Op.ReadsOr.keepsLog Op.Syncs.keepsLog)) ht').bind fun synced _ t'' ht'' => ?_
  exact Ends.bind (hlog _ t'' ht'') fun _ _ _ hQ => Ends.pure hQ

theorem writeCandidate_ends (candidate : Dict String Json) (hs : s.log = w.log) :
    Ends (handler env).logic (writeCandidate lib cfg b candidate ctx) (fun _ _ _ => Q)
      (fun _ _ s' => s'.log = w.log) () s := by
  have logged : ∀ {β : Type} (outcome : LoggedOutcome) (result : β) (t : World), t.log = w.log →
      Ends (handler env).logic (logOutcome b ctx outcome >>= fun _ => pure result) (fun _ _ _ => Q)
        (fun _ _ s' => s'.log = w.log) () t :=
    fun outcome result t ht => Ends.bind (hlog outcome t ht) fun _ _ _ hQ => Ends.pure hQ
  refine Ends.bind (Does.keeps_log (Does.op trivial) hs) fun now _ t ht => ?_
  refine (Does.keeps_log ((freshIdFor_reads (b := b) candidate).mono
    fun _ h => h.keepsLog) ht).bind fun freshId _ t ht => ?_
  cases hn : normalizeCandidate lib cfg b candidate ctx now freshId with
  | error e => exact ⟨ht⟩
  | ok m =>
    show Ends _ (writeNormalized lib cfg b ctx m) _ _ () t
    unfold writeNormalized
    split
    · exact logged _ _ t ht
    · refine (Does.keeps_log ((firstTombstone_reads _).mono
        fun _ h => h.keepsLog) ht).bind fun rule _ t ht => ?_
      cases rule with
      | some r => exact logged _ _ t ht
      | none =>
        refine (Does.keeps_log ((comparableMemories_performs m).mono
          (Op.ReadsOr.keepsLog Op.Searches.keepsLog)) ht).bind fun comparable _ t ht => ?_
        dsimp only
        split
        · exact logged _ _ t ht
        · exact storeCandidate_ends hlog (normalizeCandidate_boundary lib cfg b hn) comparable _ ht

end

/-! ## The request id decides -/

theorem findLog_ends (hup : env.MongoUp) (request : String) (w : World) :
    Ends (handler env).logic (perform (.findLog b request))
      (fun found _ w' => w'.log = w.log ∧ (found.isSome ↔ OwnUsed b (some request) w))
      (fun _ _ _ => False) () w := by
  have hrun := handler_of_mongoUp hup (.findLog b request) (by simp [Op.service]) w
  refine .perform_handler (fun found hfound => ?_) fun e he => ?_
  · rw [hrun] at hfound ⊢
    refine ⟨rfl, ?_⟩
    rw [← Except.ok.inj hfound, List.find?_isSome]
    constructor
    · intro ⟨e, he, hmatch⟩
      simp only [Bool.and_eq_true, decide_eq_true_eq] at hmatch
      exact ⟨e, he, hmatch.1, by rw [hmatch.2]; rfl, hmatch.2⟩
    · intro ⟨e, he, hb, _, hr⟩
      exact ⟨e, he, by simp [hb, hr]⟩
  · rw [hrun] at he
    exact nomatch he

theorem newId_ends (w : World) :
    Ends (handler env).logic (perform .newId) (fun _ _ w' => w'.log = w.log)
      (fun _ _ _ => False) () w :=
  .perform_handler (fun _ _ => rfl) fun _ he => nomatch he

section

variable (hup : env.MongoUp) (hown : ¬ OwnUsed b ctx.request w)

include hup hown

theorem logOutcome_ends (hs : s.log = w.log) (outcome : LoggedOutcome) :
    Ends (handler env).logic (logOutcome b ctx outcome)
      (fun _ _ _ => ¬ w.requestTaken ctx.request = true)
      (fun e _ s' => (e = .duplicateKey ∧ w.requestTaken ctx.request = true) ∧ s'.log = w.log)
      () s := by
  have insert : ∀ t, t.log = w.log → Ends (handler env).logic (do
      let id ← perform .newId
      perform (.insertLog ⟨b, id, ctx.request, outcome⟩) : MemM Unit)
      (fun _ _ _ => ¬ w.requestTaken ctx.request = true)
      (fun e _ s' => (e = .duplicateKey ∧ w.requestTaken ctx.request = true) ∧ s'.log = w.log)
      () t := by
    intro t ht
    refine ((newId_ends t).mono (fun _ _ _ h => h) fun _ _ _ h => h.elim).bind
      fun id _ t' ht' => ?_
    have hsame : t'.requestTaken ctx.request = w.requestTaken ctx.request := by
      rw [World.requestTaken, ht', ht, World.requestTaken]
    have hrun := handler_of_mongoUp hup (.insertLog ⟨b, id, ctx.request, outcome⟩)
      (by simp [Op.service]) t'
    by_cases htaken : t'.requestTaken ctx.request = true
    · rw [exec_insertLog_taken htaken] at hrun
      refine .perform_handler (fun _ hok => ?_) fun e he => ?_
      · rw [hrun] at hok
        cases hok
      · rw [hrun] at he ⊢
        exact ⟨⟨(Except.error.inj he).symm, hsame ▸ htaken⟩, ht'.trans ht⟩
    · rw [exec_insertLog_free htaken] at hrun
      refine .perform_handler (fun _ _ => hsame ▸ htaken) fun e he => ?_
      rw [hrun] at he
      cases he
  unfold logOutcome
  split
  · exact insert s hs
  · rename_i request hrequest
    rw [hrequest, OwnUsed, ← hs] at hown
    refine ((findLog_ends hup request s).mono (fun _ _ _ h => h) fun _ _ _ h => h.elim).bind
      fun found _ t ht => ?_
    cases found with
    | some entry => exact absurd (ht.2.mp rfl) hown
    | none => exact insert t (ht.1.trans hs)

/-- A write fails on its log entry exactly if somebody else has used its request id. -/
theorem writeMemory_duplicateKey_iff (candidate : Dict String Json) :
    ((writeMemory lib cfg b candidate ctx).run (handler env) () w).1 = .error .duplicateKey ↔
      w.requestTaken ctx.request = true := by
  have hlogged : Ends (handler env).logic (findLogged b ctx)
      (fun found _ s => found = none ∧ s.log = w.log) (fun _ _ _ => False) () w := by
    unfold findLogged
    split
    · rename_i request hrequest
      rw [hrequest] at hown
      refine (findLog_ends hup request w).mono (fun found _ s hs => ⟨?_, hs.1⟩) fun _ _ _ h => h
      cases found with
      | some entry => exact absurd (hs.2.mp rfl) hown
      | none => rfl
    · exact .pure ⟨rfl, rfl⟩
  have hwrite : Ends (handler env).logic (writeMemory lib cfg b candidate ctx)
      (fun _ _ _ => ¬ w.requestTaken ctx.request = true)
      (fun e _ _ => e = .duplicateKey ↔ w.requestTaken ctx.request = true) () w := by
    refine .bind (hlogged.mono (fun _ _ _ h => h) fun _ _ _ h => h.elim)
      fun found _ s hs => ?_
    obtain ⟨rfl, hs⟩ := hs
    refine .handle (writeCandidate_ends (fun outcome t ht =>
      (logOutcome_ends hup hown ht outcome).mono (fun _ _ _ h => h) fun _ _ _ h => h.2) candidate
      hs) fun e _ t ht => ?_
    refine .bind ((logOutcome_ends hup hown ht _).mono (fun _ _ _ h => h) fun _ _ _ h =>
      iff_of_true h.1.1 h.1.2) fun _ _ _ hfree => ?_
    exact ⟨iff_of_false (fun h => nomatch h) hfree⟩
  have hend := (Proc.wp_logic_iff (handler env) _ _ () w).mp hwrite.wp
  split at hend
  · rename_i result hok
    rw [hok]
    exact iff_of_false (fun h => nomatch h) hend
  · rename_i e he
    rw [he]
    exact ⟨fun h => hend.mp (Except.error.inj h), fun h => congrArg Except.error (hend.mpr h)⟩

end

end

/-! ## Independence of others -/

/-- Somebody else has used the request id and the caller has not. -/
def Collides (b : Boundary) (ctx : RequestContext) (w : World) : Prop :=
  OthersUsed b ctx.request w ∧ ¬ OwnUsed b ctx.request w

theorem requestTaken_iff (b : Boundary) (request : Option String) (w : World) :
    w.requestTaken request = true ↔ OwnUsed b request w ∨ OthersUsed b request w := by
  simp only [World.requestTaken, List.any_eq_true, Bool.and_eq_true, decide_eq_true_eq]
  constructor
  · intro htaken
    obtain ⟨e, he, hs, hr⟩ := htaken
    by_cases hb : e.boundary = b
    · exact .inl ⟨e, he, hb, hs, hr⟩
    · exact .inr ⟨e, he, hb, hs, hr⟩
  · intro hused
    rcases hused with ⟨e, he, -, hs, hr⟩ | ⟨e, he, -, hs, hr⟩
    · exact ⟨e, he, hs, hr⟩
    · exact ⟨e, he, hs, hr⟩

theorem SameDocuments.ownUsed {w' : World} (h : SameDocuments b w w')
    (request : Option String) : OwnUsed b request w ↔ OwnUsed b request w' := by
  have hfilter : ∀ v, OwnUsed b request v ↔
      ∃ e ∈ v.log.filter (LogEntry.ownedBy b), e.requestId.isSome ∧ e.requestId = request := by
    intro v
    simp only [OwnUsed, List.mem_filter, LogEntry.ownedBy, decide_eq_true_eq, and_assoc]
  rw [hfilter, hfilter, h.log]

def SameWrite (lib : Lib) (cfg : Settings) (env : Env) (b : Boundary)
    (candidate : Dict String Json) (ctx : RequestContext) (w w' : World) : Prop :=
  ((writeMemory lib cfg b candidate ctx).run (handler env) () w).1 =
      ((writeMemory lib cfg b candidate ctx).run (handler env) () w').1 ∧
    SameDocuments b ((writeMemory lib cfg b candidate ctx).run (handler env) () w).2.2
      ((writeMemory lib cfg b candidate ctx).run (handler env) () w').2.2

def benWrote : World :=
  { World.empty with log := [⟨ben, "log", some "r", ⟨.accepted, some "m", none, "", none⟩⟩] }

/-- Anna uses the request id that Ben has used: the memory is stored and the write fails, where
without Ben's entry it is accepted. -/
theorem foreign_requestId_fails :
    SameOwn anna benWrote World.empty ∧
    ((writeMemory plainLib plainSettings anna homeTown { requestId := some "r" }).run
      (handler calmEnv) () benWrote).1 = .error .duplicateKey ∧
    ((writeMemory plainLib plainSettings anna homeTown { requestId := some "r" }).run
      (handler calmEnv) () benWrote).2.2.memories.map Memory.text = ["Lives in Paris"] ∧
    ((writeMemory plainLib plainSettings anna homeTown { requestId := some "r" }).run
      (handler calmEnv) () World.empty).1.toOption.map WriteResult.status = some .accepted := by
  refine ⟨⟨⟨rfl, rfl, by decide, rfl⟩, rfl⟩, ?_, ?_, ?_⟩
  · refine (writeMemory_duplicateKey_iff (fun _ => rfl) ?_ homeTown).mpr (by decide)
    simp [OwnUsed, benWrote, anna, ben]
  · decide +kernel
  · decide +kernel

/-- A write in two states that agree on what the caller owns: it is the same in both when the
request id collides in both or in neither, and where MongoDB answers only then. -/
theorem writeMemory_independent_iff (lib : Lib) (cfg : Settings) (env : Env) (b : Boundary)
    (candidate : Dict String Json) (ctx : RequestContext) {w w' : World} (hown : SameOwn b w w') :
    ((Collides b ctx w ↔ Collides b ctx w') → SameWrite lib cfg env b candidate ctx w w') ∧
    (env.MongoUp → (SameWrite lib cfg env b candidate ctx w w' ↔
      (Collides b ctx w ↔ Collides b ctx w'))) := by
  have hsame := hown.documents.ownUsed ctx.request
  have sufficient : (Collides b ctx w ↔ Collides b ctx w') →
      SameWrite lib cfg env b candidate ctx w w' := by
    intro hcollides
    have htaken : w.requestTaken ctx.request = w'.requestTaken ctx.request := by
      rw [Bool.eq_iff_iff, requestTaken_iff b, requestTaken_iff b, ← hsame]
      unfold Collides at hcollides
      tauto
    have htwin : Twin (handler env) (SameStart b ctx.request) (Alike b ctx.request)
        (writeMemory lib cfg b candidate ctx) := writeMemory_twin env candidate ctx
    exact ⟨htwin.result_eq () ⟨hown, htaken⟩, (htwin.state_related () ⟨hown, htaken⟩).documents⟩
  refine ⟨sufficient, fun hup => ⟨?_, sufficient⟩⟩
  -- A state in which the id collides and one in which it does not are told apart by the result.
  have apart : ∀ v v' : World, Collides b ctx v → ¬ OwnUsed b ctx.request v' →
      ¬ Collides b ctx v' →
      ((writeMemory lib cfg b candidate ctx).run (handler env) () v).1 ≠
        ((writeMemory lib cfg b candidate ctx).run (handler env) () v').1 := by
    intro v v' hv hfree hv' heq
    have htaken : v.requestTaken ctx.request = true := (requestTaken_iff b _ v).mpr (.inr hv.1)
    have hnot : ¬ v'.requestTaken ctx.request = true := by
      rw [requestTaken_iff b]
      exact fun h => h.elim hfree fun hothers => hv' ⟨hothers, hfree⟩
    rw [(writeMemory_duplicateKey_iff hup hv.2 candidate).mpr htaken] at heq
    exact hnot ((writeMemory_duplicateKey_iff hup hfree candidate).mp heq.symm)
  intro hwrite
  constructor
  · intro hv
    by_contra hv'
    exact apart w w' hv (fun h => hv.2 (hsame.mpr h)) hv' hwrite.1
  · intro hv'
    by_contra hv
    exact apart w' w hv' (fun h => hv'.2 (hsame.mp h)) hv hwrite.1.symm

theorem writeMemory_independent_of_ben :
    SameOwn anna benWrote World.empty ∧
    SameWrite plainLib plainSettings calmEnv anna homeTown {} benWrote World.empty := by
  have hown : SameOwn anna benWrote World.empty := ⟨⟨rfl, rfl, by decide, rfl⟩, rfl⟩
  refine ⟨hown, (writeMemory_independent_iff plainLib plainSettings calmEnv anna homeTown {}
    hown).1 ?_⟩
  simp [Collides, OthersUsed, benWrote, World.empty, RequestContext.request]

end RagForge.Memories
