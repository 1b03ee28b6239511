import RagForge.Files.DecisionOnce
import RagForge.Pipeline.Workers

/-
When a file is complete, which chunks are in the vector store.

The embedding service cuts the eligible chunks of a job into upserts, and the vector service reports
the vector stage of the file as done after each one of them.  The files service completes a file
whose stages are done.  So a complete file has all its chunks stored as long as they go into one
upsert, and with two of them the first one completes the file.
-/

namespace RagForge.Pipeline

open Py Files RagForge.Embedding RagForge.Vector Effect
open Messaging

/-! ## Stored chunks -/

def carries (y : EmbeddedChunk) (c : JobChunk) : Bool :=
  y.toJobChunk = { c with
    tenantId := y.tenantId, ownerUserId := y.ownerUserId, ownerAdminId := y.ownerAdminId }

def ofTenant (tenant : String) (who : Option Identity) : Bool :=
  who.any fun a => a.tenantId == tenant

def storesChunk (tenant : String) (c : JobChunk) : Event sig → Bool
  | ⟨.vector ⟨who, .upsertChunks chunks⟩, r⟩ =>
    ofTenant tenant who && (reply r).toBool && chunks.any fun y => carries y c
  | _ => false

def Upserted (tenant : String) (tr : List (Nat × Event sig)) (c : JobChunk) : Prop :=
  ∃ x ∈ tr, storesChunk tenant c x.2 = true

instance (tenant : String) (tr : List (Nat × Event sig)) (c : JobChunk) :
    Decidable (Upserted tenant tr c) :=
  inferInstanceAs (Decidable (∃ x ∈ tr, storesChunk tenant c x.2 = true))

def AllUpserted (tenant : String) (job : JobEnvelope) (tr : List (Nat × Event sig)) : Prop :=
  ∀ c ∈ job.eligibleChunks, Upserted tenant tr c

def CompleteAt (w : World) (k : DocKey) : Prop :=
  ∃ row, w.files.files.lookup k = some row ∧ row.doc.status = .complete

variable {tenant : String} {job : JobEnvelope}

theorem AllUpserted.append {tr : List (Nat × Event sig)}
    (h : AllUpserted tenant job tr) (x : Nat × Event sig) : AllUpserted tenant job (tr ++ [x]) := by
  intro c hc
  obtain ⟨y, hy, hstores⟩ := h c hc
  exact ⟨y, List.mem_append_left [x] hy, hstores⟩

variable {p : Prog sig Bool} {jcfg : JobConfig} {who : Identity} {c : JobChunk} {α : Type}
  {r : Record} {size : Nat} {raw : Json}

theorem carries_of_ownedChunk {c y : EmbeddedChunk} (h : ownedChunk who c = .ok y) :
    carries y c.toJobChunk = true := by
  obtain ⟨⟨_, _, _, rfl⟩, -⟩ := ownedChunk_restamps h
  simp [carries]

theorem carries_of_ownedChunks {chunks prepared : List EmbeddedChunk}
    (h : ownedChunks (some who) chunks = .ok prepared)
    (hc : c ∈ chunks.map EmbeddedChunk.toJobChunk) : ∃ y ∈ prepared, carries y c = true := by
  obtain ⟨x, hx, rfl⟩ := List.mem_map.mp hc
  obtain ⟨y, hy, howned⟩ := exists_image_of_mapM h x hx
  exact ⟨y, hy, carries_of_ownedChunk howned⟩

/-! ## Upserts of a job -/

variable {xs b : List α}

theorem exists_of_mem_batches (hb : b ∈ batches size xs) :
    ∃ i, i * size < xs.length ∧ b = (xs.drop (i * size)).take size ∧ 0 < size := by
  obtain ⟨i, hi, rfl⟩ := List.mem_map.mp hb
  have hlt : i < (xs.length + size - 1) / size := List.mem_range.mp hi
  have hsize : 0 < size := by
    by_contra hzero
    obtain rfl : size = 0 := by omega
    simp at hlt
  have hmul := (Nat.le_div_iff_mul_le hsize).mp hlt
  rw [Nat.succ_mul] at hmul
  exact ⟨i, by omega, rfl, hsize⟩

theorem eq_of_mem_batches (hfit : xs.length ≤ size) (hb : b ∈ batches size xs) : b = xs := by
  obtain ⟨i, hstart, rfl, hsize⟩ := exists_of_mem_batches hb
  obtain rfl : i = 0 := by
    by_contra hne
    have := Nat.le_mul_of_pos_left size (Nat.pos_of_ne_zero hne)
    omega
  rw [Nat.zero_mul, List.drop_zero, List.take_of_length_le hfit]

theorem ne_nil_of_mem_batches (hb : b ∈ batches size xs) : b ≠ [] := by
  obtain ⟨i, hstart, rfl, hsize⟩ := exists_of_mem_batches hb
  intro hnil
  have hlen := congrArg List.length hnil
  rw [List.length_take, List.length_drop, List.length_nil] at hlen
  omega

theorem mem_of_mem_batches {x : α} (hb : b ∈ batches size xs) (hx : x ∈ b) : x ∈ xs := by
  obtain ⟨i, -, rfl⟩ := List.mem_map.mp hb
  exact List.mem_of_mem_drop (List.mem_of_mem_take hx)

variable {env : JobEnvelope}

theorem chunk_fileId (h : parseAndValidateJob jcfg raw = .ok env)
    (hc : c ∈ env.chunks) : c.fileId = env.fileId := by
  unfold parseAndValidateJob at h
  split at h
  · cases h
  · next env' _ =>
    split at h
    · cases h
    · next units hvalid =>
      split at h
      · cases h
      · cases h
        obtain ⟨_, -, hchunk⟩ := exists_image_of_mapM hvalid c hc
        unfold validateChunk at hchunk
        split at hchunk
        · cases hchunk
        · next heq => exact not_not.mp heq

theorem fileOf_of_batch {u : Upsert} (h : parseAndValidateJob jcfg raw = .ok env)
    (hu : u.chunks.map EmbeddedChunk.toJobChunk ∈ batches jcfg.batchSize env.eligibleChunks) :
    View.fileOf u = env.fileId := by
  have hne := ne_nil_of_mem_batches hu
  cases hchunks : u.chunks with
  | nil =>
    rw [hchunks] at hne
    exact absurd rfl hne
  | cons c rest =>
    have hmem : c.toJobChunk ∈ env.eligibleChunks := by
      refine mem_of_mem_batches hu ?_
      rw [hchunks]
      exact List.mem_cons_self
    have hfile := chunk_fileId h (List.mem_of_mem_filter hmem)
    unfold View.fileOf
    rw [hchunks]
    exact hfile

/-! ## The invariant -/

section

variable (cfg : Config) (tenant : String) (job : JobEnvelope)

/-- A job for the file has the eligible chunks of `job`, and they go into one upsert. -/
def fitsOneUpsert (who : Option Identity) (raw : Json) : Bool :=
  !ofTenant tenant who ||
    match parseAndValidateJob cfg.job raw with
    | .error _ => true
    | .ok env => env.fileId ≠ job.fileId ||
        (env.eligibleChunks = job.eligibleChunks &&
          job.eligibleChunks.length ≤ cfg.job.batchSize)

/-- Every job that the embedding service takes for the file has the eligible chunks of `job`, and
they go into one upsert. -/
def OneUpsert (w : World) (op : sig.Op) : Prop :=
  (match (op : Op) with
    | .poll p =>
      match w.broker.next p with
      | some (.job who raw) => fitsOneUpsert cfg tenant job who raw
      | _ => true
    | _ => true) = true

instance (w : World) : DecidablePred (OneUpsert cfg tenant job w) :=
  fun _ => inferInstanceAs (Decidable (_ = true))

/-- What a record that a worker took, or that stands in a log, says about the file. -/
def Sound (tr : List (Nat × Event sig)) : Record → Prop
  | .job who raw => fitsOneUpsert cfg tenant job who raw = true
  | .upsert who u => ofTenant tenant who = true → View.fileOf u = job.fileId →
      u.chunks.map EmbeddedChunk.toJobChunk = job.eligibleChunks
  | .stage who s => ofTenant tenant who = true → s = ⟨job.fileId, "vector", "done"⟩ →
      AllUpserted tenant job tr
  | .delete .. => True

structure SoundView (tr : List (Nat × Event sig)) (v : View) : Prop where
  took : ∀ r, v.took = some r → Sound cfg tenant job tr r
  fresh : v.took = none → v.stored = false
  stored : ∀ who u, v.took = some (.upsert who u) → v.stored = true → ofTenant tenant who = true →
    View.fileOf u = job.fileId → AllUpserted tenant job tr
  read : ∀ doc, ((⟨tenant, job.fileId⟩ : DocKey), doc) ∈ v.read → VectorDone doc →
    AllUpserted tenant job tr

structure Inv (w : World) (tr : List (Nat × Event sig)) (vs : List View) : Prop where
  log : ∀ p r, r ∈ w.broker.log p → r.topic ≠ .jobs → Sound cfg tenant job tr r
  row : ∀ row, w.files.files.lookup ⟨tenant, job.fileId⟩ = some row →
    VectorDone row.doc ∨ row.doc.status = .complete → AllUpserted tenant job tr
  views : ∀ v ∈ vs, SoundView cfg tenant job tr v

end

variable {cfg : Config} {env : Env} {w : World} {tr : List (Nat × Event sig)} {v : View}
  {vs : List View} {op : Op}

theorem Sound.append (h : Sound cfg tenant job tr r) (x : Nat × Event sig) :
    Sound cfg tenant job (tr ++ [x]) r := by
  cases r with
  | stage who s => exact fun hwho hs => (h hwho hs).append x
  | _ => exact h

theorem SoundView.append (h : SoundView cfg tenant job tr v) (x : Nat × Event sig) :
    SoundView cfg tenant job (tr ++ [x]) v where
  took r hr := (h.took r hr).append x
  fresh := h.fresh
  stored who u htook hstored hwho hfile := (h.stored who u htook hstored hwho hfile).append x
  read doc hread hdone := (h.read doc hread hdone).append x

theorem soundView_initial : SoundView cfg tenant job tr View.initial where
  took _ hr := nomatch hr
  fresh _ := rfl
  stored _ _ htook := nomatch htook
  read := nofun

theorem sound_published (hv : SoundView cfg tenant job tr v) (hallow : v.allow cfg op)
    (hr : Publishes cfg op r) (hjobs : r.topic ≠ .jobs) : Sound cfg tenant job tr r := by
  cases hr with
  | job => exact absurd rfl hjobs
  | delete => trivial
  | @upsert who u =>
    obtain ⟨raw, parsed, htook, hparse, hbatch⟩ := hallow
    intro hwho hfile
    have hfits : fitsOneUpsert cfg tenant job who raw = true := hv.took _ htook
    have hparsed : parsed.fileId = job.fileId := (fileOf_of_batch hparse hbatch).symm.trans hfile
    simp [fitsOneUpsert, hwho, hparse, hparsed] at hfits
    rw [hfits.1] at hbatch
    exact eq_of_mem_batches hfits.2 hbatch
  | @embedded who s =>
    have hstage : s.stage = "embedding" := hallow
    intro _ hs
    rw [hs] at hstage
    exact absurd hstage (by simp)
  | @stored who s =>
    obtain ⟨u, htook, hstored, hfile⟩ := hallow
    intro hwho hs
    rw [hs] at hfile
    exact hv.stored who u htook hstored hwho hfile.symm

theorem upserted_of_written (hinv : Inv cfg tenant job w tr vs) (hv : SoundView cfg tenant job tr v)
    {c : Files.Call} (hallow : v.allowFiles c) {doc : FileDoc}
    (hwritten : FileWritten c w.files.files ⟨tenant, job.fileId⟩ doc)
    (hdone : VectorDone doc ∨ doc.status = .complete) : AllUpserted tenant job tr := by
  obtain ⟨who, op⟩ := c
  generalize hk : (⟨tenant, job.fileId⟩ : DocKey) = k at hwritten
  cases hwritten with
  | created hc =>
    obtain rfl := hc
    rcases hdone with hdone | hdone
    · exact absurd hdone hallow.1
    · exact absurd hdone hallow.2
  | @updated id set row time hc hrow =>
    obtain rfl := hc
    rw [← hk] at hrow
    rcases hallow with hmodest | ⟨⟨read, hread, hvector⟩, -⟩
    · refine hinv.row row hrow ?_
      rcases hdone with hdone | hdone
      · exact .inl ((hmodest row.doc).1 hdone)
      · exact .inr ((hmodest row.doc).2 hdone)
    · refine hv.read read ?_ hvector
      rw [hk]
      exact hread
  | @staged id stageName status row time hc hrow =>
    obtain rfl := hc
    rw [← hk] at hrow
    by_cases hreport : stageName = "vector" ∧ status = "done"
    · obtain ⟨rfl, rfl⟩ := hreport
      obtain ⟨rfl, rfl⟩ := DocKey.mk.inj hk
      have hsound := hv.took _ (hallow rfl rfl)
      exact hsound (by simp [ofTenant]) rfl
    · refine hinv.row row hrow ?_
      rcases hdone with hdone | hdone
      · refine .inl ?_
        by_cases hname : stageName = "vector"
        · subst hname
          have hstatus : (row.doc.setStage "vector" status).stage.get? "vector" = some "done" :=
            hdone
          have hset : (row.doc.setStage "vector" status).stage.get? "vector" = some status :=
            Dict.get?_set_self row.doc.stage "vector" status
          exact absurd ⟨rfl, Option.some.inj (hset.symm.trans hstatus)⟩ hreport
        · exact (setStage_vector row.doc hname status).symm.trans hdone
      · exact .inr hdone

theorem next_files (v : View) (c : Files.Call) (w : World) :
    v.next (.files c) (handler cfg env (.files c) w).1 = v ∨
      ∃ id row, w.files.files.lookup (c.who.key id) = some row ∧
        v.next (.files c) (handler cfg env (.files c) w).1 =
          { v with read := (c.who.key id, row.doc) :: v.read } := by
  obtain ⟨who, op⟩ := c
  cases op with
  | getFile id =>
    have hnext : v.next (.files ⟨who, .getFile id⟩)
        (handler cfg env (.files ⟨who, .getFile id⟩) w).1 =
        v.nextFiles ⟨who, .getFile id⟩ (Files.handler env.files ⟨who, .getFile id⟩ w.files).1 :=
      rfl
    rw [hnext]
    cases hreply : (Files.handler env.files ⟨who, .getFile id⟩ w.files).1 with
    | error e => exact .inl rfl
    | ok found =>
      cases found with
      | none => exact .inl rfl
      | some row =>
        have heffect := Except.ok.inj (Files.handler_ok hreply).1
        exact .inr ⟨id, row, (Store.Table.find_eq_some_iff.mp heffect).1, rfl⟩
  | _ => exact .inl rfl

theorem soundView_next (hinv : Inv cfg tenant job w tr vs) (hv : SoundView cfg tenant job tr v)
    (hallow : v.allow cfg op) (hguard : OneUpsert cfg tenant job w op) (i : Nat) :
    SoundView cfg tenant job (tr ++ [(i, ⟨op, (handler cfg env op w).1⟩)])
      (v.next op (handler cfg env op w).1) := by
  have hsame := hv.append (i, ⟨op, (handler cfg env op w).1⟩)
  cases op with
  | rewind | embedding => exact hsame
  | verify r => exact ⟨hsame.took, hsame.fresh, hsame.stored, hsame.read⟩
  | poll p =>
    have hfresh : v.stored = false := hv.fresh hallow
    have htook : ∀ r, (w.broker.poll p).1 = some r → Sound cfg tenant job tr r := by
      intro r hr
      rw [Broker.poll_fst] at hr
      by_cases hjobs : r.topic = .jobs
      · cases r with
        | job who raw =>
          unfold OneUpsert at hguard
          simp only [hr] at hguard
          exact hguard
        | _ => exact nomatch hjobs
      · exact hinv.log p r (Broker.mem_log_of_next hr) hjobs
    refine ⟨fun r hr => (htook r hr).append _, fun _ => hfresh, ?_, hsame.read⟩
    intro who u _ hstored
    exact absurd (hfresh.symm.trans hstored) (by simp)
  | files c =>
    rcases next_files v c w with hnext | ⟨id, row, hlookup, hnext⟩
    · rw [hnext]
      exact hsame
    · rw [hnext]
      refine ⟨hsame.took, hsame.fresh, hsame.stored, ?_⟩
      intro doc hread hdone
      rcases List.mem_cons.mp hread with heq | hread
      · obtain ⟨hk, rfl⟩ := Prod.mk.inj heq
        rw [← hk] at hlookup
        exact (hinv.row row hlookup (.inl hdone)).append _
      · exact hsame.read doc hread hdone
  | vector c =>
    obtain ⟨who, op⟩ := c
    cases op with
    | upsertChunks chunks =>
      obtain ⟨u, hu, howned⟩ := hallow
      have hnone : v.took ≠ none := by
        rw [hu]
        exact fun h => nomatch h
      refine ⟨hsame.took, fun h => absurd h hnone, ?_, hsame.read⟩
      intro who' u' htook hstored hwho hfile
      obtain ⟨rfl, rfl⟩ : who = who' ∧ u = u' := by
        have heq := Option.some.inj (hu.symm.trans htook)
        exact Record.upsert.inj heq
      rcases Bool.or_eq_true_iff.mp hstored with hstored | hreply
      · exact hsame.stored who u hu hstored hwho hfile
      -- The chunks of this upsert are all the eligible ones, and the store has just replied.
      · intro c hc
        obtain ⟨a, rfl⟩ : ∃ a, who = some a := by
          cases who with
          | none => exact absurd hwho (by simp [ofTenant])
          | some a => exact ⟨a, rfl⟩
        have hall : u.chunks.map EmbeddedChunk.toJobChunk = job.eligibleChunks :=
          hv.took _ hu hwho hfile
        rw [← hall] at hc
        obtain ⟨y, hy, hcarries⟩ := carries_of_ownedChunks howned hc
        refine ⟨_, List.mem_append_right tr (List.mem_singleton_self _), ?_⟩
        have hany : (chunks.any fun y => carries y c) = true :=
          List.any_eq_true.mpr ⟨y, hy, hcarries⟩
        exact Bool.and_eq_true_iff.mpr ⟨Bool.and_eq_true_iff.mpr ⟨hwho, hreply⟩, hany⟩
    | deleteChunks filters => exact ⟨hsame.took, hsame.fresh, hsame.stored, hsame.read⟩
    | _ => exact hsame

theorem inv_act (hinv : Inv cfg tenant job w tr vs) {i : Nat} (hi : vs[i]? = some v)
    (hallow : v.allow cfg op) (hguard : OneUpsert cfg tenant job w op) :
    Inv cfg tenant job (handler cfg env op w).2 (tr ++ [(i, ⟨op, (handler cfg env op w).1⟩)])
      (vs.set i (v.next op (handler cfg env op w).1)) := by
  have hv := hinv.views v (List.mem_of_getElem? hi)
  refine ⟨?_, ?_, ?_⟩
  · intro p r hr hjobs
    rcases mem_log_handler hr with hr | ⟨hpublished, -⟩
    · exact (hinv.log p r hr hjobs).append _
    · exact (sound_published hv hallow hpublished hjobs).append _
  · intro row hrow hdone
    rcases handler_file hrow with hrow | ⟨c, rfl, hwritten⟩
    · exact (hinv.row row hrow hdone).append _
    · exact (upserted_of_written hinv hv hallow hwritten hdone).append _
  · intro v' hv'
    rcases List.mem_or_eq_of_mem_set hv' with hv' | rfl
    · exact (hinv.views v' hv').append _
    · exact soundView_next hinv hv hallow hguard i

/-- A file is complete only when the eligible chunks of its job are stored, in every run in which
the jobs taken for the file have those chunks and put them into one upsert. -/
theorem complete_file_upserted (cfg : Config) (env : Env) (tenant : String) (job : JobEnvelope)
    {P : Pool sig Bool World}
    (hP : P.Reachable (handler cfg env) (Starts cfg) (OneUpsert cfg tenant job) World.empty)
    (hcomplete : CompleteAt P.state ⟨tenant, job.fileId⟩) :
    ∀ c ∈ job.eligibleChunks, Upserted tenant P.trace c := by
  have hprog : ∀ p, Starts cfg p → ∃ v, v = View.initial ∧ Accepted cfg p v :=
    fun p hp => ⟨_, rfl, starts_accepted hp⟩
  have hinv : ∃ vs, Inv cfg tenant job P.state P.trace vs := by
    refine hP.monitored (protocol cfg) hprog ?_ ?_ ?_
    · refine ⟨nofun, ?_, nofun⟩
      intro row hrow
      cases hrow
    · intro w tr vs v hinv hv
      refine ⟨hinv.log, hinv.row, ?_⟩
      intro v' hv'
      rcases List.mem_append.mp hv' with hv' | hv'
      · exact hinv.views v' hv'
      · rw [List.mem_singleton.mp hv', hv]
        exact soundView_initial
    · intro w tr vs i v op hinv hi hallow hguard
      exact inv_act hinv hi hallow hguard
  obtain ⟨vs, hinv⟩ := hinv
  obtain ⟨row, hrow, hstatus⟩ := hcomplete
  exact hinv.row row hrow (.inr hstatus)

/-! ## A file with one chunk and a file with two -/

def sampleChunkJson (who : Identity) (c : Chunk) : Json :=
  .obj [("chunk_id", .str c.chunkId), ("chunk_index", .num c.chunkIndex), ("text", .str c.text),
    ("source_name", .str c.sourceName), ("owner_user_id", .str who.userId)]

def sampleCommand (who : Identity) (j : EmbeddingJob) : Json :=
  .obj [("job_id", .str j.jobId), ("file_id", .str j.fileId), ("document_id", .str j.documentId),
    ("chunks", .arr (j.chunks.map (sampleChunkJson who)))]

def sampleChunk (fileId documentId : String) : Json → Option JobChunk
  | .obj [(_, .str chunkId), (_, .num index), (_, .str text), (_, .str source), (_, .str owner)] =>
    some ⟨fileId, documentId, chunkId, index.num, 1, text, text, source, none, none, true, .clean,
      [], "now", none, some owner, none⟩
  | _ => none

def sampleParse : Json → Except String JobEnvelope
  | .obj [(_, .str jobId), (_, .str fileId), (_, .str documentId), (_, .arr chunks)] =>
    .ok ⟨"message", "request", "trace", "correlation", jobId, fileId, documentId,
      chunks.filterMap (sampleChunk fileId documentId)⟩
  | _ => .error "not a job"

def sampleJobConfig : JobConfig where
  embeddingMaxBatchSize := 1
  passagePrefix := "passage: "
  collectionName := "rag_chunks_v1"
  modelName := "model"
  kafkaMaxRetries := 3
  parseModel := sampleParse

def sampleEngine : Engine where
  queryDense _ _ _ := .ok []
  querySparse _ _ _ := .ok []
  scroll _ := .ok []
  pointId := id
  sparseLib := ⟨fun _ => false, id, fun _ => 0, fun _ => 0, id⟩

def samplePipeline : Config where
  files := sampleConfig
  job := sampleJobConfig
  engine := sampleEngine
  store := ⟨"rag_chunks_v1", 1⟩
  partitioner _ _ := 0
  jobCommand := sampleCommand
  jobCommand_fileId := by
    intro who j env h
    cases h
    rfl

def sampleEmbedding : Nat → (op : Embedding.Op) → Except Embedding.Exc op.Reply
  | _, .isAvailable => .ok true
  | _, .encode texts => .ok (texts.map fun text => [(text.length : Rat)])
  | _, .publishUpsertRequested _ | _, .publishJobCompleted _ | _, .sendStageUpdate _
  | _, .sendDeadLetter _ | _, .flush | _, .span _ | _, .log _ | _, .verifyTicket _
  | _, .commit => .ok ()

def calmEnv : Env where
  files := sampleEnv []
  embedding := sampleEmbedding
  vector _ _ := none
  verify _ _ := true
  delivered _ := true

def runThrough (i : Nat) (p : Prog sig Bool) : List (Pool.Choice sig Bool) :=
  .spawn p :: List.replicate 40 (.act i)

def oneByOne : Nat → List (Prog sig Bool) → List (Pool.Choice sig Bool)
  | _, [] => []
  | i, p :: rest => runThrough i p ++ oneByOne (i + 1) rest

/-- Upload a file with the text and let everything happen but the upserts after the first. -/
def ingestion (text : String) : List (Prog sig Bool) :=
  [request samplePipeline sampleAdmin (.startFileIngestion
      ⟨some "a.txt", some "file", none, some "task", some (.bytes 3), noContext⟩),
    request samplePipeline sampleAdmin (.completeExtraction "file" (some "task")
      ⟨text, .null, noContext⟩),
    request samplePipeline sampleAdmin (.updateSummary "file" "A text."),
    request samplePipeline sampleAdmin (.updateMetadata "file" []),
    worker samplePipeline (.jobs, 0), worker samplePipeline (.upserts, 0),
    worker samplePipeline (.files, 0), worker samplePipeline (.files, 0),
    worker samplePipeline (.files, 0)]

def ingested (text : String) : Pool sig Bool World :=
  Pool.exec (handler samplePipeline calmEnv) (oneByOne 0 (ingestion text)) (.initial World.empty)

def sampleJobChunk (chunkId : String) (index : Int) (text : String) : JobChunk :=
  ⟨"file", "file", chunkId, index, 1, text, text, "a.txt", none, none, true, .clean, [], "now",
    none,
    some "ann", none⟩

def sampleJob (chunks : List JobChunk) : JobEnvelope :=
  ⟨"message", "request", "trace", "correlation", "job", "file", "file", chunks⟩

theorem mem_oneByOne {ps : List (Prog sig Bool)} :
    ∀ {i : Nat}, .spawn p ∈ oneByOne i ps → p ∈ ps := by
  induction ps with
  | nil => exact nofun
  | cons q rest ih =>
    intro i h
    rcases List.mem_append.mp h with h | h
    · have hpq : p = q := by simpa [runThrough] using h
      rw [hpq]
      exact List.mem_cons_self
    · exact List.mem_cons_of_mem q (ih h)

theorem starts_ingestion {text : String} (hp : p ∈ ingestion text) : Starts samplePipeline p := by
  simp only [ingestion, List.mem_cons, List.not_mem_nil, or_false] at hp
  rcases hp with rfl | rfl | rfl | rfl | rfl | rfl | rfl | rfl | rfl
  · exact .request _ _ rfl
  · exact .request _ _ rfl
  · exact .request _ _ rfl
  · exact .request _ _ rfl
  all_goals exact .worker _

def completeAt (w : World) (k : DocKey) : Bool :=
  (w.files.files.lookup k).any fun row => row.doc.status == .complete

theorem completeAt_iff {k : DocKey} : completeAt w k = true ↔ CompleteAt w k := by
  simp [completeAt, CompleteAt, Option.any_eq_true]

/-- The file with one chunk is complete, and its chunk is stored. -/
theorem complete_file_upserted_one :
    CompleteAt (ingested "text").state ⟨"acme", "file"⟩ ∧
      ∀ c ∈ (sampleJob [sampleJobChunk "file__v1__c0" 0 "text"]).eligibleChunks,
        Upserted "acme" (ingested "text").trace c := by
  have hcomplete : CompleteAt (ingested "text").state ⟨"acme", "file"⟩ :=
    completeAt_iff.mp (by decide +kernel)
  refine ⟨hcomplete, complete_file_upserted samplePipeline calmEnv "acme" _ ?_ hcomplete⟩
  refine Pool.reachable_exec _ (fun p hp => starts_ingestion (mem_oneByOne hp)) ?_ .initial
  decide +kernel

def jobsIn (cfg : Config) (w : World) (p : Partition) : List JobEnvelope :=
  (w.broker.log p).filterMap fun r =>
    match r with
    | .job _ raw => (parseAndValidateJob cfg.job raw).toOption
    | _ => none

/-- The file has one job with two eligible chunks.  The first of its two upserts completes the file,
and the second one is still outstanding. -/
theorem complete_file_lacks_chunk :
    (ingested "two text").Reachable (handler samplePipeline calmEnv) (Starts samplePipeline)
        (fun _ _ => True) World.empty ∧
      CompleteAt (ingested "two text").state ⟨"acme", "file"⟩ ∧
      (jobsIn samplePipeline (ingested "two text").state (.jobs, 0)).map
          (fun job => (job.fileId, job.eligibleChunks)) =
        [("file", [sampleJobChunk "file__v1__c0" 0 "two ",
          sampleJobChunk "file__v1__c1" 1 "text"])] ∧
      ¬ Upserted "acme" (ingested "two text").trace (sampleJobChunk "file__v1__c1" 1 "text") := by
  refine ⟨?_, completeAt_iff.mp (by decide +kernel), by decide +kernel, by decide +kernel⟩
  exact Pool.reachable_exec _ (fun p hp => starts_ingestion (mem_oneByOne hp))
    (Pool.guarded_true _ _) .initial

end RagForge.Pipeline
