import RagForge.Embedding.Job
import RagForge.Embedding.Scheduler

/-
From texts to upserts.

The scheduler regroups the texts of all callers into its own batches, and a job regroups its chunks
into the upserts it publishes.  Alignment survives both: an encode call returns the vector of each
of its own texts, and an attempt that completes a job has published each eligible chunk with its own
vector.
-/

namespace RagForge.Embedding

open Py Effect Batching

/-! ## Encode calls -/

abbrev Callers : Type := System Item InferenceError Vec Unit

section

variable (embed : String → Vec)

/-- The model embeds each text by itself: whatever the batch, vectors of the right number are the
vectors of its texts. -/
def Independent (s : SchedulerState) (a : SchedulerAction) : Prop :=
  ∀ x ∈ a.output.toList, ∀ batch ∈ (s.workers[x.1]?.bind Worker.batch).toList,
    x.2.length = batch.length → x.2 = batch.map fun t => embed t.item.text

instance (s : SchedulerState) (a : SchedulerAction) : Decidable (Independent embed s a) :=
  inferInstanceAs (Decidable (∀ _ ∈ _, ∀ _ ∈ _, _))

/-- `encode` on the texts returned the vectors.  On no texts it does not ask the scheduler. -/
def Encodes (sys : Callers) (cls : SchedulingClass) (texts : List String) (vectors : List Vec) :
    Prop :=
  texts = [] ∧ vectors = [] ∨
    ∃ c : Nat, sys.calls[c]? = some (.returned (texts.map fun text => ⟨text, cls⟩) vectors)

variable {embed} {cfg : SchedulerConfig}

theorem soundOutput_of_independent {s : SchedulerState} {a : SchedulerAction}
    (h : Independent embed s a) :
    SoundOutput (fun x => embed x.text) (discipline cfg) s a := by
  intro w vectors ha batch hw rs hrs
  have hbatch : batch ∈ (s.workers[w]?.bind Worker.batch).toList := by
    rw [hw]
    exact List.mem_singleton.mpr rfl
  simp only [discipline, distribute] at hrs
  split at hrs
  · cases hrs
  · next hlen =>
    cases hrs
    rw [List.length_map] at hlen
    exact h (w, vectors) (by rw [ha]; exact List.mem_singleton.mpr rfl) batch hbatch
      (not_not.mp hlen)

theorem encodes_eq {sys : Callers}
    (hs : System.Reachable (discipline cfg) (Independent embed) sys) {cls : SchedulingClass}
    {texts : List String} {vectors : List Vec} (h : Encodes sys cls texts vectors) :
    vectors = texts.map embed := by
  have hsound : System.Reachable (discipline cfg)
      (SoundOutput (fun x => embed x.text) (discipline cfg)) sys :=
    hs.mono fun _ _ => soundOutput_of_independent
  rcases h with ⟨rfl, rfl⟩ | ⟨c, hc⟩
  · rfl
  · have hvectors : vectors = (texts.map fun text => (⟨text, cls⟩ : Item)).map
        fun x => embed x.text := hsound.calls_sound _ (List.mem_of_getElem? hc)
    rw [hvectors, List.map_map]
    rfl

end

/-! ## Groups of a job -/

variable {α : Type}

theorem flatten_groups (size : Nat) (xs : List α) (n : Nat) :
    ((List.range n).map fun i => (xs.drop (i * size)).take size).flatten = xs.take (n * size) := by
  induction n with
  | zero => simp
  | succ n ih =>
    rw [List.range_succ, List.map_append, List.flatten_append, ih, Nat.succ_mul, List.take_add]
    simp

theorem flatten_batches {size : Nat} (hsize : 1 ≤ size) (xs : List α) :
    (batches size xs).flatten = xs := by
  unfold batches
  rw [flatten_groups, List.take_of_length_le]
  have hdiv := Nat.div_add_mod (xs.length + size - 1) size
  have hmod := Nat.mod_lt (xs.length + size - 1) hsize
  rw [Nat.mul_comm] at hdiv
  omega

/-! ## What a job publishes -/

/-- The upserts and completion events that were handed to the producer. -/
structure Published where
  upserts : List Upsert
  completed : List Completed

def Published.note (p : Published) : (op : Op) → sig.Result op → Published
  | .publishUpsertRequested u, .ok _ => { p with upserts := p.upserts ++ [u] }
  | .publishJobCompleted c, .ok _ => { p with completed := p.completed ++ [c] }
  | _, _ => p

def watch {σ : Type} (h : Handler sig σ) : Handler sig (σ × Published) := fun op x =>
  let out := h op x.1
  (out.1, out.2, x.2.note op out.1)

def JobConfig.embedded (cfg : JobConfig) (embed : String → Vec) (c : JobChunk) : EmbeddedChunk :=
  { toJobChunk := c, embedding := embed (cfg.modelInput c) }

def JobEnvelope.delivery (cfg : JobConfig) (embed : String → Vec) (env : JobEnvelope) :
    List EmbeddedChunk :=
  env.eligibleChunks.map (cfg.embedded embed)

/-- Encode operations are answered by calls to a scheduler whose model embeds each text by
itself. -/
def ServedBy {σ : Type} (scheduler : SchedulerConfig) (embed : String → Vec)
    (h : Handler sig σ) : Prop :=
  ∀ (texts : List String) (st : σ) (vectors : List Vec),
    (h (.encode texts) st).1 = .ok vectors →
      ∃ sys : Callers, System.Reachable (discipline scheduler) (Independent embed) sys ∧
        Encodes sys .background texts vectors

section

variable {σ : Type} {h : Handler sig σ} {scheduler : SchedulerConfig} {embed : String → Vec}
  {cfg : JobConfig} {env : JobEnvelope} {st : σ} {p : Published} {succeeded : Prop}
  {target : List EmbeddedChunk} {p' : Published} {raw : Json} {op : Op}
  {Q : Except Exc Unit → Unit → σ × Published → Prop} {p₁ : Published}

def Op.quiet : Op → Bool
  | .publishUpsertRequested _ => false
  | .publishJobCompleted _ => false
  | _ => true

theorem note_quiet (hop : op.quiet = true) (r : sig.Result op) : p.note op r = p := by
  cases op with
  | publishUpsertRequested | publishJobCompleted => cases hop
  | _ => rfl

theorem wp_watch {Q : sig.Result op → Unit → σ × Published → Prop}
    (hQ : ∀ r st', r = (h op st).1 → Q r () (st', p.note op r)) :
    (call op).wp (watch h).logic Q () (st, p) :=
  hQ (h op st).1 (h op st).2 rfl

theorem wp_quiet (hop : op.quiet = true) {Q : sig.Result op → Unit → σ × Published → Prop}
    (hQ : ∀ r st', r = (h op st).1 → Q r () (st', p)) :
    (call op).wp (watch h).logic Q () (st, p) := by
  refine wp_watch fun r st' hr => ?_
  rw [note_quiet hop]
  exact hQ r st' hr

theorem wp_quiet_then {β : Type} {f : op.Reply → JobM β} (hop : op.quiet = true)
    {Q : Except Exc β → Unit → σ × Published → Prop} (herror : ∀ e st', Q (.error e) () (st', p))
    (hnext : ∀ a st', (f a).wp (watch h).logic Q () (st', p)) :
    (call op >>= f).wp (watch h).logic Q () (st, p) := by
  refine (Proc.wp_bind _ _).mpr (wp_quiet hop fun r st' _ => ?_)
  cases r with
  | error e => exact herror e st'
  | ok a => exact hnext a st'

theorem wp_embedBatch (hserved : ServedBy scheduler embed h) (index : Nat)
    (chunks : List JobChunk) {Q : Except Exc (List Vec) → Unit → σ × Published → Prop}
    (hQ : ∀ r st', (∀ vectors, r = .ok vectors →
      vectors = chunks.map fun c => embed (cfg.modelInput c)) → Q r () (st', p)) :
    (embedBatch cfg index chunks).wp (watch h).logic Q () (st, p) := by
  have herror : ∀ e st', Q (.error e) () (st', p) := fun e st' => hQ _ st' fun _ hv => nomatch hv
  refine wp_quiet_then rfl herror fun _ st₁ => ?_
  refine (Proc.wp_bind _ _).mpr ((Proc.wp_handle _ _).mpr (wp_quiet rfl fun r st₂ hr => ?_))
  cases r with
  | error e => exact herror _ st₂
  | ok vectors =>
    obtain ⟨sys, hs, hencodes⟩ := hserved _ st₁ vectors hr.symm
    have hvectors := encodes_eq hs hencodes
    rw [List.map_map] at hvectors
    refine (Proc.wp_ite _ _ _).mpr ?_
    split
    · exact herror _ st₂
    · refine hQ _ st₂ fun _ hv => ?_
      rw [← Except.ok.inj hv, hvectors]
      rfl

theorem wp_publishUpsert (u : Upsert) (index : Nat) (hnone : ∀ e st', Q (.error e) () (st', p))
    (hsent : ∀ r st', Q r () (st', { p with upserts := p.upserts ++ [u] })) :
    (publishUpsert u index).wp (watch h).logic Q () (st, p) := by
  refine wp_quiet_then rfl hnone fun _ st₁ => ?_
  refine (Proc.wp_handle _ _).mpr ((Proc.wp_bind _ _).mpr (wp_watch fun r st₂ _ => ?_))
  cases r with
  | error e => exact hnone _ st₂
  | ok _ =>
    refine wp_quiet rfl fun r st₃ _ => ?_
    cases r with
    | error | ok => exact hsent _ st₃

theorem wp_publishCompletedEvent (c : Completed) (hnone : ∀ e st', Q (.error e) () (st', p))
    (hsent : ∀ r st', Q r () (st', { p with completed := p.completed ++ [c] })) :
    (publishCompletedEvent c).wp (watch h).logic Q () (st, p) := by
  refine wp_quiet_then rfl hnone fun _ st₁ => ?_
  refine (Proc.wp_handle _ _).mpr ((Proc.wp_bind _ _).mpr (wp_watch fun r st₂ _ => ?_))
  cases r with
  | error e => exact hnone _ st₂
  | ok _ =>
    refine wp_quiet_then rfl (fun _ st₃ => hsent _ st₃) fun _ st₃ => ?_
    refine wp_quiet rfl fun r st₄ _ => ?_
    cases r with
    | error | ok => exact hsent _ st₄

/-- The upserts that were added carry a first part of `target`, and all of it on success. -/
structure Delivered (target : List EmbeddedChunk) (p : Published) (succeeded : Prop)
    (p' : Published) : Prop where
  upserts : ∃ new, p'.upserts = p.upserts ++ new ∧ new.flatMap Upsert.chunks <+: target ∧
    (succeeded → new.flatMap Upsert.chunks = target)
  completed : p'.completed = p.completed

theorem Delivered.raised (e : Exc) :
    Delivered target p ((Except.error e : Except Exc Nat).toBool = true) p :=
  ⟨⟨[], by simp, by simp, nofun⟩, rfl⟩

theorem Delivered.cons {rest : List EmbeddedChunk} {u : Upsert}
    (htarget : target = u.chunks ++ rest)
    (h : Delivered rest { p with upserts := p.upserts ++ [u] } succeeded p') :
    Delivered target p succeeded p' := by
  obtain ⟨new, hnew, hle, hall⟩ := h.upserts
  refine ⟨⟨u :: new, ?_, ?_, ?_⟩, h.completed⟩
  · rw [hnew, List.append_assoc]
    rfl
  · rw [htarget, List.flatMap_cons]
    exact (List.prefix_append_right_inj _).mpr hle
  · intro hs
    rw [htarget, List.flatMap_cons, hall hs]

theorem chunks_buildUpsertEnvelope (chunks : List JobChunk) :
    (buildUpsertEnvelope cfg env chunks (chunks.map fun c => embed (cfg.modelInput c))).chunks =
      chunks.map (cfg.embedded embed) := by
  simp only [buildUpsertEnvelope]
  rw [← List.map_prod_left_eq_zip, List.map_map]
  rfl

theorem wp_embedBatches (hserved : ServedBy scheduler embed h) (groups : List (List JobChunk)) :
    ∀ (index dimensions : Nat) (st : σ) (p : Published),
      (embedBatches cfg env groups index dimensions).wp (watch h).logic
        (fun r _ x => Delivered (groups.flatten.map (cfg.embedded embed)) p (r.toBool = true) x.2)
        () (st, p) := by
  induction groups with
  | nil =>
    intro index dimensions st p
    exact ⟨⟨[], by simp, by simp, fun _ => rfl⟩, rfl⟩
  | cons chunks rest ih =>
    intro index dimensions st p
    refine (Proc.wp_bind _ _).mpr (wp_embedBatch hserved index chunks fun r st₁ hr => ?_)
    cases r with
    | error e => exact .raised e
    | ok vectors =>
      obtain rfl := hr vectors rfl
      refine wp_quiet_then rfl (fun e st₂ => .raised e) fun _ st₂ => ?_
      have htarget : (chunks :: rest).flatten.map (cfg.embedded embed) =
          (buildUpsertEnvelope cfg env chunks
            (chunks.map fun c => embed (cfg.modelInput c))).chunks ++
          rest.flatten.map (cfg.embedded embed) := by
        rw [chunks_buildUpsertEnvelope, List.flatten_cons, List.map_append]
      refine (Proc.wp_bind _ _).mpr (wp_publishUpsert _ index ?_ ?_)
      · exact fun e st₃ => .raised e
      · intro r st₃
        cases r with
        | error e => exact .cons htarget (.raised e)
        | ok _ => exact Proc.wp_mono (ih _ _ st₃ _) fun _ _ _ hx => .cons htarget hx

/-! ## Attempts -/

def Completed.Balanced (env : JobEnvelope) (c : Completed) : Prop :=
  c.embeddedChunks + c.skippedChunks = c.requestedChunks ∧
    c.requestedChunks = env.chunks.length

theorem length_eligible_add_skipped (env : JobEnvelope) :
    env.eligibleChunks.length + env.skippedChunks.length = env.chunks.length :=
  (List.length_eq_length_filter_add _).symm

theorem balanced_buildCompletedEnvelope {embedded batchesProcessed dimensions : Nat}
    (h : embedded = env.eligibleChunks.length) :
    (buildCompletedEnvelope cfg env embedded env.skippedChunks.length batchesProcessed
      dimensions).Balanced env := by
  refine ⟨?_, rfl⟩
  simp only [buildCompletedEnvelope]
  rw [h]
  exact length_eligible_add_skipped env

/-- What one attempt adds: a first part of the delivery, all of it if the attempt succeeds, and
completion events that cover the job. -/
structure Attempted (env : JobEnvelope) (target : List EmbeddedChunk) (p : Published)
    (succeeded : Prop) (p' : Published) : Prop where
  upserts : ∃ new, p'.upserts = p.upserts ++ new ∧ new.flatMap Upsert.chunks <+: target ∧
    (succeeded → new.flatMap Upsert.chunks = target)
  completed : ∃ done, p'.completed = p.completed ++ done ∧ ∀ c ∈ done, c.Balanced env

theorem Attempted.raised {target : List EmbeddedChunk} {p : Published} (e : Exc) (st : σ) :
    Attempted env target p ((Except.error e : Except Exc Unit).toBool = true) (st, p).2 :=
  ⟨⟨[], by simp, by simp, nofun⟩, ⟨[], by simp, by simp⟩⟩

theorem Delivered.attempted (h : Delivered target p True p₁) (done : List Completed)
    (hp : p' = { p₁ with completed := p₁.completed ++ done }) (hdone : ∀ c ∈ done, c.Balanced env) :
    Attempted env target p succeeded p' := by
  obtain ⟨new, hnew, hle, hall⟩ := h.upserts
  subst hp
  exact ⟨⟨new, hnew, hle, fun _ => hall trivial⟩, ⟨done, by rw [h.completed], hdone⟩⟩

theorem wp_publishCompletedEvent_attempted {c : Completed} {p₀ : Published}
    (hdelivered : Delivered target p₀ True p) (hc : c.Balanced env) :
    (publishCompletedEvent c).wp (watch h).logic
      (fun r _ x => Attempted env target p₀ (r.toBool = true) x.2) () (st, p) := by
  refine wp_publishCompletedEvent c ?_ ?_
  · intro e st'
    exact hdelivered.attempted [] (by simp) (by simp)
  · intro r st'
    refine hdelivered.attempted [c] rfl ?_
    intro d hd
    rw [List.mem_singleton.mp hd]
    exact hc

theorem wp_processJob (hserved : ServedBy scheduler embed h) :
    (processJob cfg env).wp (watch h).logic
      (fun r _ x => Attempted env (env.delivery cfg embed) p (r.toBool = true) x.2) () (st, p) := by
  refine wp_quiet_then rfl Attempted.raised fun _ st₁ => ?_
  refine wp_quiet_then rfl Attempted.raised fun _ st₂ => ?_
  refine wp_quiet_then rfl Attempted.raised fun _ st₃ => ?_
  refine (Proc.wp_ite _ _ _).mpr ?_
  split
  · next hnone =>
    refine wp_publishCompletedEvent_attempted ?_
      (balanced_buildCompletedEnvelope (by rw [hnone]; rfl))
    refine ⟨⟨[], by simp, by simp, fun _ => ?_⟩, rfl⟩
    simp [JobEnvelope.delivery, hnone]
  · refine (Proc.wp_bind _ _).mpr ?_
    refine Proc.wp_mono (wp_embedBatches hserved _ 0 0 st₃ p) fun r _ x hx => ?_
    have hsize : 1 ≤ cfg.batchSize := Nat.le_max_left 1 _
    rw [flatten_batches hsize] at hx
    obtain ⟨st₄, p₄⟩ := x
    cases r with
    | error e => exact ⟨hx.upserts, [], by rw [hx.completed]; simp, by simp⟩
    | ok dimensions =>
      have hdelivered : Delivered (env.delivery cfg embed) p True p₄ := by
        obtain ⟨new, hnew, hle, hall⟩ := hx.upserts
        exact ⟨⟨new, hnew, hle, fun _ => hall rfl⟩, hx.completed⟩
      exact wp_publishCompletedEvent_attempted hdelivered (balanced_buildCompletedEnvelope rfl)

theorem wp_processJobOnce (hserved : ServedBy scheduler embed h)
    (hparse : parseAndValidateJob cfg raw = .ok env) (st : σ) (p : Published) :
    (processJobOnce cfg raw).wp (watch h).logic
      (fun r _ x => Attempted env (env.delivery cfg embed) p (r.toBool = true) x.2) () (st, p) := by
  refine wp_quiet_then rfl Attempted.raised fun available st₁ => (Proc.wp_ite _ _ _).mpr ?_
  split
  · exact Attempted.raised _ st₁
  · refine (Proc.wp_bind _ _).mpr ((Proc.wp_ofExcept _).mpr ?_)
    rw [hparse]
    exact wp_processJob hserved

/-! ## The whole job -/

/-- What the attempts of a job add: each a first part of the delivery, and the last one all of it if
the job was processed. -/
structure Retried (env : JobEnvelope) (target : List EmbeddedChunk) (p : Published)
    (succeeded : Prop) (p' : Published) : Prop where
  upserts : ∃ attempts : List (List Upsert), p'.upserts = p.upserts ++ attempts.flatten ∧
    (∀ a ∈ attempts, a.flatMap Upsert.chunks <+: target) ∧
    (succeeded → ∃ last, attempts.getLast? = some last ∧ last.flatMap Upsert.chunks = target)
  completed : ∃ done, p'.completed = p.completed ++ done ∧ ∀ c ∈ done, c.Balanced env

theorem Retried.none (env : JobEnvelope) (target : List EmbeddedChunk) (p : Published)
    (hs : ¬ succeeded) : Retried env target p succeeded p :=
  ⟨⟨[], by simp, by simp, fun h => absurd h hs⟩, ⟨[], by simp, by simp⟩⟩

theorem Retried.mono {a b : Prop} (hab : b → a) (h : Retried env target p a p') :
    Retried env target p b p' := by
  obtain ⟨attempts, hnew, hle, hall⟩ := h.upserts
  exact ⟨⟨attempts, hnew, hle, fun hb => hall (hab hb)⟩, h.completed⟩

theorem Attempted.retried (h : Attempted env target p succeeded p') :
    Retried env target p succeeded p' := by
  obtain ⟨new, hnew, hle, hall⟩ := h.upserts
  refine ⟨⟨[new], by simpa using hnew, ?_, fun hs => ⟨new, rfl, hall hs⟩⟩, h.completed⟩
  intro a ha
  rw [List.mem_singleton.mp ha]
  exact hle

theorem Retried.cons {failed : Prop} (h : Attempted env target p failed p₁)
    (hrest : Retried env target p₁ succeeded p') : Retried env target p succeeded p' := by
  obtain ⟨new, hnew, hle, -⟩ := h.upserts
  obtain ⟨attempts, hattempts, hall, hlast⟩ := hrest.upserts
  obtain ⟨done, hdone, hbalanced⟩ := h.completed
  obtain ⟨done', hdone', hbalanced'⟩ := hrest.completed
  refine ⟨⟨new :: attempts, ?_, ?_, ?_⟩, ⟨done ++ done', ?_, ?_⟩⟩
  · rw [hattempts, hnew, List.flatten_cons, List.append_assoc]
  · intro a ha
    rcases List.mem_cons.mp ha with rfl | ha
    · exact hle
    · exact hall a ha
  · intro hs
    obtain ⟨last, hlast, hchunks⟩ := hlast hs
    refine ⟨last, ?_, hchunks⟩
    rw [List.getLast?_cons, hlast]
    rfl
  · rw [hdone', hdone, List.append_assoc]
  · intro c hc
    rcases List.mem_append.mp hc with hc | hc
    · exact hbalanced c hc
    · exact hbalanced' c hc

theorem wp_execute (hserved : ServedBy scheduler embed h)
    (hparse : parseAndValidateJob cfg raw = .ok env) (remaining : Nat) :
    ∀ (attempt : Nat) (last : Option Exc) (st : σ) (p : Published),
      (execute (processJobOnce cfg raw) remaining attempt last).wp (watch h).logic
        (fun r _ x => Retried env (env.delivery cfg embed) p (r = .ok .done) x.2) () (st, p) := by
  induction remaining with
  | zero => exact fun attempt last st p => .none env _ p fun hr => nomatch hr
  | succ remaining ih =>
    intro attempt last st p
    refine (Proc.wp_handle _ _).mpr ((Proc.wp_bind _ _).mpr ?_)
    refine Proc.wp_mono (wp_processJobOnce hserved hparse st p) fun r _ x hx => ?_
    obtain ⟨st₁, p₁⟩ := x
    cases r with
    | ok _ => exact hx.retried.mono fun _ => rfl
    | error e =>
      have hfailed : ∀ {r : Except Exc Attempts}, r ≠ .ok .done →
          Retried env (env.delivery cfg embed) p (r = .ok .done) p₁ :=
        fun hr => hx.retried.mono fun hdone => absurd hdone hr
      cases e with
      | retryable m =>
        refine wp_quiet_then rfl (fun e st₂ => hfailed fun hr => nomatch hr) fun _ st₂ => ?_
        exact Proc.wp_mono (ih _ _ st₂ p₁) fun r _ x hr => .cons hx hr
      | nonRetryable | resultMismatch | overloaded | other => exact hfailed fun hr => nomatch hr

theorem wp_sendToDlq {e : Exc} {retryCount : Nat}
    {Q : Except Exc Settlement → Unit → σ × Published → Prop}
    (hQ : ∀ r st', r ≠ .ok .processed → Q r () (st', p)) :
    (sendToDlq raw e retryCount).wp (watch h).logic Q () (st, p) := by
  have hraised : ∀ e st', Q (.error e) () (st', p) := fun e st' => hQ _ st' fun hr => nomatch hr
  have hflush : ∀ (written : Bool) (st' : σ),
      (do call .flush
          return .deadLettered written : JobM Settlement).wp (watch h).logic Q () (st', p) :=
    fun written st' => wp_quiet_then rfl hraised fun _ st'' => hQ _ _ fun hr => nomatch hr
  refine wp_quiet_then rfl hraised fun _ st₁ => ?_
  refine (Proc.wp_bind _ _).mpr ((Proc.wp_handle _ _).mpr ?_)
  refine wp_quiet_then rfl (fun e st₂ => hflush false st₂) fun _ st₂ => ?_
  refine wp_quiet_then rfl (fun e st₃ => hflush false st₃) fun _ st₃ => ?_
  exact hflush true st₃

theorem wp_processMessage (hserved : ServedBy scheduler embed h)
    (hparse : parseAndValidateJob cfg raw = .ok env) :
    (processMessage cfg raw).wp (watch h).logic
      (fun r _ x => Retried env (env.delivery cfg embed) p (r = .ok .processed) x.2) ()
      (st, p) := by
  refine (Proc.wp_bind _ _).mpr (Proc.wp_mono
    (wp_execute hserved hparse _ 0 none st p) fun r _ x hx => ?_)
  obtain ⟨st₁, p₁⟩ := x
  have hother : ∀ {r' : Except Exc Settlement}, r' ≠ .ok .processed →
      Retried env (env.delivery cfg embed) p (r' = .ok .processed) p₁ :=
    fun hr => hx.mono fun hdone => absurd hdone hr
  cases r with
  | error e => exact hother fun hr => nomatch hr
  | ok ended =>
    cases ended with
    | done => exact hx.mono fun _ => rfl
    | rejected | exhausted => exact wp_sendToDlq fun r st' hr => hother hr

end

/-- An encode call that returns gives the vector of each of its texts, whatever the scheduler does
with the texts of others.  Each attempt at a job publishes a first part of its delivery, the attempt
that completes the job publishes all of it, and every completion event covers the job. -/
theorem delivery_aligned (scheduler : SchedulerConfig) (embed : String → Vec) :
    (∀ sys : Callers, System.Reachable (discipline scheduler) (Independent embed) sys →
      ∀ cls texts vectors, Encodes sys cls texts vectors →
        vectors.length = texts.length ∧
        ∀ i : Nat, vectors[i]? = texts[i]?.map embed) ∧
    ∀ (cfg : JobConfig) (raw : Json) (env : JobEnvelope) {σ : Type} (h : Handler sig σ) (st : σ),
      ServedBy scheduler embed h → parseAndValidateJob cfg raw = .ok env →
        ∀ r l st' p', (processMessage cfg raw).run (watch h) () (st, ⟨[], []⟩) = (r, l, st', p') →
          (∃ attempts : List (List Upsert), p'.upserts = attempts.flatten ∧
            (∀ a ∈ attempts, a.flatMap Upsert.chunks <+: env.delivery cfg embed) ∧
            (r = .ok .processed → ∃ last, attempts.getLast? = some last ∧
              last.flatMap Upsert.chunks = env.delivery cfg embed)) ∧
          ∀ c ∈ p'.completed, c.embeddedChunks + c.skippedChunks = c.requestedChunks ∧
            c.requestedChunks = env.chunks.length := by
  refine ⟨?_, ?_⟩
  · intro sys hs cls texts vectors hencodes
    rw [encodes_eq hs hencodes]
    exact ⟨List.length_map .., fun i => List.getElem?_map ..⟩
  · intro cfg raw env σ h st hserved hparse r l st' p' hrun
    have hretried := (Proc.wp_logic_iff (watch h) (processMessage cfg raw) _ () (st, ⟨[], []⟩)).mp
      (wp_processMessage hserved hparse)
    rw [hrun] at hretried
    obtain ⟨attempts, hattempts, hle, hall⟩ := hretried.upserts
    obtain ⟨done, hdone, hbalanced⟩ := hretried.completed
    refine ⟨⟨attempts, by simpa using hattempts, hle, hall⟩, ?_⟩
    intro c hc
    rw [show p'.completed = done by simpa using hdone] at hc
    exact hbalanced c hc

/-! ## A job in two groups -/

def twoGroupsChunk (chunkId : String) (index : Int) : JobChunk :=
  ⟨"file", "document", chunkId, index, 1, chunkId, chunkId, "source", none, none, true, .clean, [],
    "now", some "tenant", some "user", some "admin"⟩

def twoGroupsEnvelope : JobEnvelope :=
  ⟨"message", "request", "trace", "correlation", "job", "file", "document",
    [twoGroupsChunk "c0" 0, twoGroupsChunk "c1" 1]⟩

def twoGroupsConfig : JobConfig where
  embeddingMaxBatchSize := 1
  passagePrefix := "passage: "
  collectionName := "rag_chunks_v1"
  modelName := "model"
  kafkaMaxRetries := 3
  parseModel _ := .ok twoGroupsEnvelope

def lengthVec (text : String) : Vec := [text.length]

def encodeHandler (encode : List String → Nat → Except Exc (List Vec)) : Handler sig Nat
  | .isAvailable, n => (.ok true, n)
  | .encode texts, n => (encode texts n, n + 1)
  | .publishUpsertRequested _, n => (.ok (), n)
  | .publishJobCompleted _, n => (.ok (), n)
  | .sendStageUpdate _, n => (.ok (), n)
  | .sendDeadLetter _, n => (.ok (), n)
  | .flush, n => (.ok (), n)
  | .span _, n => (.ok (), n)
  | .log _, n => (.ok (), n)
  | .verifyTicket _, n => (.ok (), n)
  | .commit, n => (.ok (), n)

def encodeTwo (texts : List String) (_ : Nat) : Except Exc (List Vec) :=
  if texts = ["passage: c0"] ∨ texts = ["passage: c1"] then .ok (texts.map lengthVec)
  else .error (.overloaded "saturated")

def encodeAlone (text : String) : List (Batching.Event Item (List Vec) InferenceError) :=
  [.call [⟨text, .background⟩], .act .start, .act (.wake 0), .act (.compose 0),
    .act (.infer 0 (.ok [lengthVec text])), .act (.settle 0), .read 0, .read 0]

theorem servedBy_encodeTwo : ServedBy smallConfig lengthVec (encodeHandler encodeTwo) := by
  have hserved : ∀ text ∈ ["passage: c0", "passage: c1"], ∃ sys : Callers,
      System.Reachable (discipline smallConfig) (Independent lengthVec) sys ∧
        Encodes sys .background [text] [lengthVec text] := by
    intro text htext
    have hrun : ((Sequence.follow (System.step (discipline smallConfig))
        (System.allowed (Independent lengthVec)) (encodeAlone text)
        (System.initial (discipline smallConfig))).any fun sys =>
          sys.calls[0]? = some (.returned [⟨text, .background⟩] [lengthVec text])) = true := by
      rcases List.mem_cons.mp htext with rfl | htext
      · decide +kernel
      · rw [List.mem_singleton.mp htext]
        decide +kernel
    obtain ⟨sys, hs, hp⟩ := System.exists_reachable _ _ _ _ hrun
    exact ⟨sys, hs, .inr ⟨0, of_decide_eq_true hp⟩⟩
  intro texts n vectors hvectors
  simp only [encodeHandler, encodeTwo] at hvectors
  split at hvectors
  · next htexts =>
    cases hvectors
    rcases htexts with rfl | rfl
    · exact hserved _ (by simp)
    · exact hserved _ (by simp)
  · cases hvectors

/-- The two chunks are published once each, in two upserts of one attempt. -/
theorem delivery_aligned_two :
    let run := (processMessage twoGroupsConfig .null).run (watch (encodeHandler encodeTwo)) ()
      (0, ⟨[], []⟩)
    run.1.toOption = some .processed ∧
      ∃ attempts : List (List Upsert), run.2.2.2.upserts = attempts.flatten ∧
        (∀ a ∈ attempts, a.flatMap Upsert.chunks <+:
          twoGroupsEnvelope.delivery twoGroupsConfig lengthVec) ∧
        (run.1 = .ok .processed → ∃ last, attempts.getLast? = some last ∧
          last.flatMap Upsert.chunks = twoGroupsEnvelope.delivery twoGroupsConfig lengthVec) :=
  ⟨by decide +kernel, ((delivery_aligned smallConfig lengthVec).2 twoGroupsConfig .null
    twoGroupsEnvelope (encodeHandler encodeTwo) 0 servedBy_encodeTwo rfl _ _ _ _ rfl).1⟩

def refuseSecond (texts : List String) (n : Nat) : Except Exc (List Vec) :=
  if n = 1 then .error (.overloaded "saturated") else .ok (texts.map lengthVec)

/-- When the second encode call is refused once, the retried job publishes its first chunk twice. -/
theorem retried_job_repeats_chunk :
    let run := (processMessage twoGroupsConfig .null).run (watch (encodeHandler refuseSecond)) ()
      (0, ⟨[], []⟩)
    run.1.toOption = some .processed ∧
      run.2.2.2.upserts.flatMap Upsert.chunks ≠
        twoGroupsEnvelope.delivery twoGroupsConfig lengthVec := by
  decide +kernel

end RagForge.Embedding
