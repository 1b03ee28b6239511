import RagForge.Pipeline.Completion
import RagForge.Vector.Isolation

/-
What is left in the vector store of a file that was deleted.

The deletion removes the file and publishes a cleanup event, which the vector service turns into a
deletion of the stored points.  Upserts and deletes are on topics of their own, so nothing orders an
upsert that is on its way before the cleanup, and no service asks again whether the file is there.
Nothing is left if no job and no upsert of the file is on its way, and a job that is still to be
taken brings the points of the file back.
-/

namespace RagForge.Pipeline

open Py Files RagForge.Embedding RagForge.Vector Effect
open Messaging

/-! ## The filter of a cleanup -/

variable {P : Pool sig Bool World} {row : Row FileDoc} {filters : Filters} {key : String}
  {cfg : Config} {env : Env} {who : Identity} {fileId documentId : String} {k : DocKey} {w : World}
  {p : Payload}

theorem deleteValue_holds {c : FieldCondition}
    (h : ∀ s, Dict.get? filters key = some (.one (.str s)) → p.field key = some (.str s))
    (hc : deleteValue filters key = some c) : c.holds p = true := by
  unfold deleteValue at hc
  split at hc
  · next s hget =>
    split at hc
    · cases hc
    · cases hc
      simp [FieldCondition.holds, h s hget]
  · cases hc

theorem get?_scopedFilters (htenant : "tenant_id" ≠ key)
    (huser : "owner_user_id" ≠ key) (hadmin : "owner_admin_id" ≠ key) :
    Dict.get? (scopedFilters (some who) filters) key = Dict.get? filters key := by
  cases hrole : who.role with
  | admin =>
    simp only [scopedFilters, hrole]
    rw [Dict.get?_erase_ne _ huser, Dict.get?_set_ne _ hadmin, Dict.get?_set_ne _ htenant]
  | user =>
    simp only [scopedFilters, hrole]
    rw [Dict.get?_erase_ne _ hadmin, Dict.get?_set_ne _ huser, Dict.get?_set_ne _ htenant]
  | service =>
    simp only [scopedFilters, hrole]
    exact Dict.get?_set_ne _ htenant _

/-- The deletion covers a point: it has the identifiers of the cleanup and, for an administrator,
belongs to them. -/
def Covered (who : Identity) (documentId : String) (p : Payload) : Prop :=
  p.documentId = documentId ∧ (who.role = .admin → p.ownerAdminId = who.userId)

instance (who : Identity) (documentId : String) : DecidablePred (Covered who documentId) :=
  fun _ => inferInstanceAs (Decidable (_ ∧ _))

def Asked (p : Payload) (e : String × FilterValue) : Prop :=
  ∀ s, e.2 = .one (.str s) → p.field e.1 = some (.str s)

theorem asked_set (h : ∀ e ∈ filters, Asked p e) {s : String} (hs : p.field key = some (.str s)) :
    ∀ e ∈ Dict.set filters key (.one (.str s)), Asked p e := by
  have hnew : Asked p (key, .one (.str s)) := by
    intro t ht
    cases ht
    exact hs
  induction filters with
  | nil => simpa [Dict.set] using hnew
  | cons e rest ih =>
    rw [List.forall_mem_cons] at h
    unfold Dict.set
    split
    · next heq => exact List.forall_mem_cons.mpr ⟨heq ▸ hnew, h.2⟩
    · exact List.forall_mem_cons.mpr ⟨h.1, ih h.2⟩

theorem asked_cleanup (hrole : who.role ≠ .user)
    (htenant : p.tenantId = who.tenantId) (hfile : p.fileId = fileId)
    (hcovered : Covered who documentId p) :
    ∀ e ∈ scopedFilters (some who) (cleanupFilters fileId documentId), Asked p e := by
  have hclean : ∀ e ∈ cleanupFilters fileId documentId, Asked p e := by
    intro e he s hs
    simp only [cleanupFilters, List.mem_filterMap, List.mem_cons, List.not_mem_nil, or_false] at he
    obtain ⟨x, rfl | rfl, hx⟩ := he
    · split at hx <;> cases hx
      cases hs
      simp [Payload.field, hfile]
    · split at hx <;> cases hx
      cases hs
      simp [Payload.field, hcovered.1]
  have htenant' : p.field "tenant_id" = some (.str who.tenantId) := by
    simp [Payload.field, htenant]
  have hscoped := asked_set hclean htenant'
  cases hwho : who.role with
  | user => exact absurd hwho hrole
  | admin =>
    simp only [scopedFilters, hwho]
    intro e he
    have hadmin : p.field "owner_admin_id" = some (.str who.userId) := by
      simp [Payload.field, hcovered.2 hwho]
    exact asked_set hscoped hadmin e (List.mem_of_mem_filter he)
  | service =>
    simp only [scopedFilters, hwho]
    exact hscoped

/-- The filter of a cleanup admits every point that the deletion covers. -/
theorem cleanup_filter (hrole : who.role ≠ .user)
    (hfile : fileId ≠ "") (documentId : String) :
    ∃ f, buildDeleteFilter (scopedFilters (some who) (cleanupFilters fileId documentId)) = .ok f ∧
      ∀ p : Payload, p.tenantId = who.tenantId → p.fileId = fileId → Covered who documentId p →
        f.admits p = true := by
  have hget : Dict.get? (scopedFilters (some who) (cleanupFilters fileId documentId)) "file_id" =
      some (.one (.str fileId)) := by
    rw [get?_scopedFilters (by decide) (by decide) (by decide)]
    simp [cleanupFilters, hfile, Dict.get?]
  refine ⟨_, if_neg ?_, ?_⟩
  · rw [List.filterMap_cons, deleteValue, hget]
    simp [hfile]
  · intro p htenant hpfile hcovered
    unfold Filter.admits
    rw [← List.filterMap_append, Bool.and_eq_true]
    refine ⟨List.all_eq_true.mpr fun c hc => ?_, rfl⟩
    obtain ⟨key, -, hvalue⟩ := List.mem_filterMap.mp hc
    exact deleteValue_holds (fun s hs => asked_cleanup hrole htenant hpfile hcovered (key, _)
      (Dict.mem_of_get? _ hs) s rfl) hvalue

/-! ## The request -/

/-- What the pool of requests and workers finds after the deletion. -/
structure Erased (cfg : Config) (who : Identity) (fileId : String) (row : Row FileDoc)
    (before after : World) : Prop where
  named : fileId ≠ ""
  role : who.role ≠ .user
  gone : after.files.files.lookup (who.key fileId) = none
  points : after.points = before.points
  broker : ∃ key, after.broker = cfg.publish before.broker key
    (.delete who fileId (row.doc.document fileId))

section

variable {op : StoreOp} {Q : World → Prop} {α β : Type} {w₁ w' : World}

/-- If the code returns, the world it leaves satisfies `Q`. -/
def Yields (cfg : Config) (env : Env) (p : FilesM α) (Q : World → Prop) (who : Identity)
    (w : World) : Prop :=
  p.wp ((handler cfg env).logic.along filesOps) (fun r _ w' => r.toBool = true → Q w') who w

theorem wp_filesCall {Q : Except Files.Err op.Reply → Identity → World → Prop} :
    (Files.call op).wp ((handler cfg env).logic.along filesOps) Q who w ↔
      Q (Files.handler env.files ⟨who, op⟩ w.files).1 who (cfg.filesCall env w ⟨who, op⟩).2 :=
  Iff.rfl

theorem Yields.call_bind {f : op.Reply → FilesM β}
    (h : ∀ a, (Files.handler env.files ⟨who, op⟩ w.files).1 = .ok a →
      Yields cfg env (f a) Q who (cfg.filesCall env w ⟨who, op⟩).2) :
    Yields cfg env (Files.call op >>= f) Q who w := by
  refine (Proc.wp_bind _ _).mpr (wp_filesCall.mpr ?_)
  cases hreply : (Files.handler env.files ⟨who, op⟩ w.files).1 with
  | error e => exact fun hfalse => nomatch hfalse
  | ok a => exact h a hreply

theorem Yields.check_bind {x : Except Files.Err α} {f : α → FilesM β}
    (h : ∀ a, x = .ok a → Yields cfg env (f a) Q who w) :
    Yields cfg env (check x >>= f) Q who w := by
  refine (Proc.wp_bind _ _).mpr ((Proc.wp_ofExcept _).mpr ?_)
  cases x with
  | error e => exact fun hfalse => nomatch hfalse
  | ok a => exact h a rfl

theorem Yields.read_bind {f : Identity → FilesM β} (h : Yields cfg env (f who) Q who w) :
    Yields cfg env (Proc.read (S := Files.sig) >>= f) Q who w :=
  (Proc.wp_bind _ _).mpr h

theorem Yields.bind_pure {p : FilesM α} {f : α → β} (h : Yields cfg env p Q who w) :
    Yields cfg env (p >>= fun a => pure (f a)) Q who w := by
  refine (Proc.wp_bind _ _).mpr (Proc.wp_mono h ?_)
  intro r _ w' h
  cases r with
  | error e => exact fun hfalse => nomatch hfalse
  | ok _ => exact h

theorem filesCall_broker (h : ∀ m, op ≠ .send m) :
    (cfg.filesCall env w ⟨who, op⟩).2.broker = w.broker := by
  rcases sent_handler env.files ⟨who, op⟩ w.files with hsent | ⟨m, hop, -⟩
  · exact publishSent_eq_of_sent hsent
  · exact absurd hop (h m)

theorem filesCall_files {a : op.Reply}
    (h : (Files.handler env.files ⟨who, op⟩ w.files).1 = .ok a) :
    (cfg.filesCall env w ⟨who, op⟩).2.files.files = (op.effect env.files who w.files).2.files := by
  obtain ⟨t, hstate⟩ := (Files.handler_ok h).2
  show (Files.handler env.files ⟨who, op⟩ w.files).2.files = _
  rw [hstate]

structure Quieted (w w₁ : World) : Prop where
  files : w₁.files.files = w.files.files
  points : w₁.points = w.points
  broker : w₁.broker = w.broker

theorem Quieted.call (cfg : Config) {a : op.Reply} (h : Quieted w w₁)
    (hreply : (Files.handler env.files ⟨who, op⟩ w₁.files).1 = .ok a) (hop : ∀ m, op ≠ .send m)
    (heffect : (op.effect env.files who w₁.files).2.files = w₁.files.files) :
    Quieted w (cfg.filesCall env w₁ ⟨who, op⟩).2 :=
  ⟨(filesCall_files hreply).trans (heffect.trans h.files), h.points,
    (filesCall_broker hop).trans h.broker⟩

theorem Yields.removeStored {path : Option (List String)} {f : Unit → FilesM β}
    (h : ∀ w₁, Quieted w w₁ → Yields cfg env (f ()) Q who w₁) :
    Yields cfg env (removeStored path >>= f) Q who w := by
  cases path with
  | none => exact (Proc.wp_bind _ _).mpr (h w ⟨rfl, rfl, rfl⟩)
  | some path =>
    refine .call_bind fun _ hreply => h _ ?_
    exact .call cfg ⟨rfl, rfl, rfl⟩ hreply (fun _ hop => nomatch hop) rfl

theorem Yields.deletionEvent {actor : Actor} {eventType : AuditType} {details : Json}
    {reason : String} {f : Unit → FilesM β} (hw : Quieted w w₁)
    (h : ∀ w₂, Quieted w w₂ → Yields cfg env (f ()) Q who w₂) :
    Yields cfg env (deletionEvent fileId row actor eventType reason details >>= f) Q who w₁ := by
  refine .call_bind fun _ hreply => h _ (hw.call cfg hreply (fun _ hop => nomatch hop) ?_)
  simp only [StoreOp.effect]
  split <;> rfl

theorem Yields.publish {m : Message}
    (h : ∀ w', w'.files.files = w.files.files → w'.points = w.points →
      w'.broker = cfg.publishMessage who w.broker m → Q w') :
    Yields cfg env (publishMessages [m]) Q who w := by
  refine (Proc.wp_bind _ _).mpr ((Proc.wp_bind _ _).mpr (wp_filesCall.mpr ?_))
  cases hsend : (Files.handler env.files ⟨who, .send m⟩ w.files).1 with
  | error e => exact fun hfalse => nomatch hfalse
  | ok _ =>
    refine (Proc.wp_pure ()).mpr (wp_filesCall.mpr fun hok => ?_)
    cases hflush : (Files.handler env.files ⟨who, .flush⟩
        (cfg.filesCall env w ⟨who, .send m⟩).2.files).1 with
    | error e =>
      rw [hflush] at hok
      cases hok
    | ok _ =>
      have hflushed := Quieted.call cfg ⟨rfl, rfl, rfl⟩ hflush (fun _ hop => nomatch hop) rfl
      refine h _ (hflushed.files.trans (filesCall_files hsend)) rfl (hflushed.broker.trans ?_)
      obtain ⟨t, hstate⟩ := (Files.handler_ok hsend).2
      have hsent : (Files.handler env.files ⟨who, .send m⟩ w.files).2.sent =
          w.files.sent ++ [(who.tenantId, m)] := by
        rw [hstate]
        rfl
      exact publishSent_append hsent

theorem deleteFile_yields (hnamed : fileId ≠ "") (hrole : who.role ≠ .user)
    (hrow : w₁.files.files.find who.sees (who.key fileId) = some row)
    (hpoints : w₁.points = w.points) (hbroker : w₁.broker = w.broker) :
    Yields cfg env (deleteFile cfg.files fileId row) (Erased cfg who fileId row w) who w₁ := by
  refine (Yields.check_bind fun path _ => ?_).read_bind
  refine .removeStored fun w₂ hquiet₂ => ?_
  refine .call_bind fun deleted hchunks => ?_
  have hquiet₃ := hquiet₂.call cfg hchunks (fun _ hop => by cases hop) rfl
  generalize (cfg.filesCall env w₂ ⟨who, .deleteChunksForFile fileId⟩).2 = w₃ at hquiet₃ ⊢
  refine .call_bind fun _ hdelete => ?_
  have hgone : (cfg.filesCall env w₃ ⟨who, .deleteFile fileId⟩).2.files.files.lookup
      (who.key fileId) = none := by
    rw [filesCall_files hdelete]
    simp only [StoreOp.effect]
    rw [hquiet₃.files, hrow]
    exact AList.lookup_erase _ _
  have hbroker₄ : (cfg.filesCall env w₃ ⟨who, .deleteFile fileId⟩).2.broker = w₃.broker :=
    filesCall_broker fun _ hop => by cases hop
  refine .deletionEvent ⟨rfl, rfl, rfl⟩ fun w₅ hquiet₅ => ?_
  refine .deletionEvent hquiet₅ fun w₆ hquiet₆ => ?_
  refine .bind_pure (.publish fun w₇ hfiles₇ hpoints₇ hbroker₇ => ?_)
  refine ⟨hnamed, hrole, ?_, ?_, documentKey (row.doc.document fileId) fileId, ?_⟩
  · rw [hfiles₇, hquiet₆.files]
    exact hgone
  · exact hpoints₇.trans (hquiet₆.points.trans (hquiet₃.points.trans hpoints))
  · rw [hbroker₇, hquiet₆.broker, hbroker₄, hquiet₃.broker, hbroker]
    rfl

theorem request_delete (hnamed : fileId ≠ "")
    (hrow : w.files.files.find who.sees (who.key fileId) = some row)
    (hrun : (request cfg who (.delete fileId)).run (handler cfg env) w = (true, w')) :
    Erased cfg who fileId row w w' := by
  have hyields : Yields cfg env (processRequest cfg.files (.delete fileId))
      (Erased cfg who fileId row w) who w := by
    refine (Yields.check_bind fun _ hauth => .bind_pure ?_).read_bind
    have hrole : who.role ≠ .user := by
      intro huser
      simp [authorizeAction, Action.administrative, huser] at hauth
    unfold handleDelete
    rw [if_neg hnamed]
    refine .call_bind fun found hfound => ?_
    obtain rfl : found = some row := (Except.ok.inj (Files.handler_ok hfound).1).symm.trans hrow
    have hquiet := Quieted.call cfg ⟨rfl, rfl, rfl⟩ hfound (fun _ hop => nomatch hop) rfl
    exact deleteFile_yields hnamed hrole (by rw [hquiet.files]; exact hrow) hquiet.points
      hquiet.broker
  have hwp : (request cfg who (.delete fileId)).wp (handler cfg env).logic
      (fun b w' => b = true → Erased cfg who fileId row w w') w := wp_lift.mpr hyields
  rw [Prog.wp_logic_iff, hrun] at hwp
  exact hwp rfl

end

/-! ## What is on its way -/

def ofFile (k : DocKey) (x : Point) : Prop :=
  x.payload.tenantId = k.tenantId ∧ x.payload.fileId = k.id

def MayWrite (k : DocKey) (who : Option Identity) : Prop :=
  ∀ a, who = some a → a.tenantId = k.tenantId

def Concerns (cfg : Config) (k : DocKey) : Record → Prop
  | .job who raw => MayWrite k who ∧
      ∃ job, parseAndValidateJob cfg.job raw = .ok job ∧ job.fileId = k.id ∧ job.eligibleChunks ≠ []
  | .upsert who u => MayWrite k who ∧ ∃ c ∈ u.chunks, c.fileId = k.id
  | .delete .. | .stage .. => False

/-- The operation brings the file no closer to a point of its own. -/
structure Harmless (cfg : Config) (k : DocKey) (op : Op) : Prop where
  publishes : ∀ r, Publishes cfg op r → ¬ Concerns cfg k r
  stores : ∀ who chunks, op = .vector ⟨who, .upsertChunks chunks⟩ →
    ∀ y ∈ chunks, ¬ (y.tenantId = some k.tenantId ∧ y.fileId = k.id)

/-- Watch a program that has begun before the deletion as `none`, and every other one as the
protocol does. -/
def watch (cfg : Config) (k : DocKey) : Monitor sig (Option View) where
  allow v op :=
    match v with
    | none => (∀ p, op ≠ Op.poll p) ∧ Harmless cfg k op
    | some v => v.allow cfg op
  next v op r := v.map fun v => v.next op r

def Ended : Bool → Option View → Prop
  | _, none => True
  | _, some v => v.Settled

def Idle (cfg : Config) (k : DocKey) (p : Prog sig Bool) : Prop :=
  p.wp (watch cfg k).logic Ended none

theorem wp_watch {p : Prog sig Bool} :
    ∀ {v : View}, Accepted cfg p v → p.wp (watch cfg k).logic Ended (some v) := by
  induction p with
  | ret b => exact fun h => h
  | call op f ih => exact fun h => ⟨h.1, fun r => ih r (h.2 r)⟩

/-- No partition goes back to an older position, and no file is created under the key. -/
def NoReturn (k : DocKey) (_ : World) (op : sig.Op) : Prop :=
  (match (op : Op) with
    | .rewind .. => false
    | .files ⟨who, .createFile id _ _⟩ => who.key id ≠ k
    | _ => true) = true

instance (k : DocKey) (w : World) : DecidablePred (NoReturn k w) :=
  fun _ => inferInstanceAs (Decidable (_ = true))

/-! ## The invariant -/

section

variable (cfg : Config) (who : Identity) (fileId documentId : String)

/-- What a worker knows after the deletion. -/
structure Unconcerned (k : DocKey) (v : View) : Prop where
  took : ∀ r, v.took = some r → ¬ Concerns cfg k r
  read : ∀ doc, (k, doc) ∉ v.read
  fresh : v.took = none → v.deleted = false ∧ v.failed = false

inductive Pending (w : World) (vs : List (Option View)) : Prop
  | queued (p : Partition) (h : .delete who fileId documentId ∈ w.broker.outstanding p)
  | held (j : Nat) (v : View) (hj : vs[j]? = some (some v))
      (htook : v.took = some (.delete who fileId documentId)) (hdeleted : v.deleted = false)
      (hfailed : v.failed = false)

def Cleared (k : DocKey) (w : World) : Prop := ∀ x ∈ w.points, ¬ ofFile k x

structure After (w : World) (vs : List (Option View)) : Prop where
  gone : w.files.files.lookup (who.key fileId) = none
  outstanding : ∀ p r, r ∈ w.broker.outstanding p → ¬ Concerns cfg (who.key fileId) r
  views : ∀ v, some v ∈ vs → Unconcerned cfg (who.key fileId) v
  covered : ∀ x ∈ w.points, ofFile (who.key fileId) x → Covered who documentId x.payload
  progress : Pending who fileId documentId w vs ∨ Cleared (who.key fileId) w

/-- The ticket of the cleanup is accepted and the store carries it out. -/
structure Served (env : Env) : Prop where
  verified : ∀ n, env.verify n (.delete who fileId documentId) = true
  carried : ∀ n, env.vector n
    (.deleteChunks (scopedFilters (some who) (cleanupFilters fileId documentId))) = none

end

variable {vs : List (Option View)}

section

variable {v : View} {op : Op} {p : Partition} {r : Record} {x : Point}

theorem harmless_of_allow (hv : Unconcerned cfg k v) (hallow : v.allow cfg op) :
    Harmless cfg k op := by
  refine ⟨?_, ?_⟩
  · intro r hr
    cases hr with
    | delete | embedded | stored => exact fun h => h
    | @job a j =>
      obtain ⟨doc, hread⟩ := hallow
      intro hconcerns
      obtain ⟨hwrite, job, hparse, hfile, -⟩ := hconcerns
      have hmodel : cfg.job.parseModel (cfg.jobCommand a j) = .ok job := by
        unfold parseAndValidateJob at hparse
        split at hparse
        · cases hparse
        · next hmodel =>
          split at hparse
          · cases hparse
          · split at hparse
            · cases hparse
            · rw [hmodel, Except.ok.inj hparse]
      have hid : job.fileId = j.fileId := cfg.jobCommand_fileId a j job hmodel
      have hkey : a.key j.fileId = k := by
        unfold Identity.key
        rw [← hid, hfile, hwrite a rfl]
      rw [hkey] at hread
      exact hv.read doc hread
    | @upsert a u =>
      obtain ⟨raw, job, htook, hparse, hbatch⟩ := hallow
      intro hconcerns
      obtain ⟨hwrite, c, hc, hfile⟩ := hconcerns
      have hmem : c.toJobChunk ∈ job.eligibleChunks :=
        mem_of_mem_batches hbatch (List.mem_map_of_mem hc)
      have hjob : c.fileId = job.fileId := chunk_fileId hparse (List.mem_of_mem_filter hmem)
      exact hv.took _ htook ⟨hwrite, job, hparse, hjob.symm.trans hfile, List.ne_nil_of_mem hmem⟩
  · intro a chunks hop y hy hown
    subst hop
    obtain ⟨u, htook, howned⟩ := hallow
    obtain ⟨htenant, hfile⟩ := hown
    refine hv.took _ htook ?_
    cases a with
    | none =>
      cases howned
      refine ⟨?_, y, hy, hfile⟩
      intro b hb
      cases hb
    | some a =>
      obtain ⟨c, hc, hstamped⟩ := exists_source_of_mapM howned y hy
      obtain ⟨⟨_, _, _, rfl⟩, hyTenant⟩ := ownedChunk_restamps hstamped
      refine ⟨?_, c, hc, hfile⟩
      intro b hb
      cases hb
      exact Option.some.inj (hyTenant.symm.trans htenant)

/-! ## Points -/

theorem mem_foldl_put {points : List Point} :
    ∀ {s : Vector.Collection}, x ∈ points.foldl Vector.put s → x ∈ s ∨ x ∈ points := by
  induction points with
  | nil => exact fun h => .inl h
  | cons y rest ih =>
    intro s h
    rcases ih h with h | h
    · rcases Finset.mem_insert.mp h with rfl | h
      · exact .inr List.mem_cons_self
      · exact .inl (Finset.mem_of_mem_filter x h)
    · exact .inr (List.mem_cons_of_mem y h)

theorem mem_points_handler (hharm : Harmless cfg k op) (hx : x ∈ (handler cfg env op w).2.points)
    (hk : ofFile k x) : x ∈ w.points := by
  cases op with
  | vector c =>
    obtain ⟨a, op⟩ := c
    have heffect : x ∈ (cfg.vectorEffect w a op).2.points → x ∈ w.points := by
      intro hx
      cases op with
      | upsertChunks chunks =>
        simp only [Config.vectorEffect] at hx
        split at hx
        · exact hx
        · next count points hupsert =>
          obtain ⟨written, hwritten, hpoints⟩ := ok_of_bind hupsert
          obtain ⟨-, rfl⟩ := Prod.mk.inj (Except.ok.inj hpoints)
          rcases mem_foldl_put hx with hx | hx
          · exact hx
          · obtain ⟨y, hy, hbuilt⟩ := exists_source_of_mapM hwritten x hx
            obtain ⟨htenant, hfile, -, -⟩ := buildPoint_fields hbuilt
            refine absurd ⟨?_, ?_⟩ (hharm.stores a chunks rfl y hy)
            · rw [htenant, hk.1]
            · rw [hfile, hk.2]
      | deleteChunks filters =>
        simp only [Config.vectorEffect] at hx
        split at hx
        · exact hx
        · next count points hdelete =>
          obtain ⟨f, -, hpoints⟩ := ok_of_bind hdelete
          obtain ⟨-, rfl⟩ := Prod.mk.inj (Except.ok.inj hpoints)
          exact Finset.mem_of_mem_filter x hx
      | _ => exact hx
    have hcall : x ∈ (cfg.vectorCall env w ⟨a, op⟩).2.points := hx
    unfold Config.vectorCall at hcall
    split at hcall
    · exact heffect hcall
    · split at hcall
      · exact heffect hcall
      · exact hcall
  | _ => exact hx

/-! ## One step -/

theorem outstanding_handler (hrewind : ∀ p offset, op ≠ .rewind p offset)
    (hr : r ∈ (handler cfg env op w).2.broker.outstanding p) :
    r ∈ w.broker.outstanding p ∨ Publishes cfg op r := by
  rcases handler_published op w with ⟨q, rfl⟩ | ⟨q, offset, hop⟩ | hpublished
  · exact .inl (Broker.mem_of_mem_outstanding_poll hr)
  · exact absurd hop (hrewind q offset)
  · generalize (handler cfg env op w).2.broker = b at hr hpublished
    cases hpublished with
    | same => exact .inl hr
    | one key hpub =>
      rcases Broker.mem_outstanding_publish.mp hr with hr | ⟨-, rfl⟩
      · exact .inl hr
      · exact .inr hpub

theorem outstanding_kept (hrewind : ∀ p offset, op ≠ .rewind p offset)
    (hr : r ∈ w.broker.outstanding p) :
    r ∈ (handler cfg env op w).2.broker.outstanding p ∨
      ∃ q, op = .poll q ∧ w.broker.next q = some r := by
  rcases handler_published op w with ⟨q, rfl⟩ | ⟨q, offset, hop⟩ | hpublished
  · rcases Broker.mem_outstanding_poll hr with hr | hnext
    · exact .inl hr
    · exact .inr ⟨q, rfl, hnext⟩
  · exact absurd hop (hrewind q offset)
  · refine .inl ?_
    generalize (handler cfg env op w).2.broker = b at hpublished
    cases hpublished with
    | same => exact hr
    | one key hpub => exact Broker.mem_outstanding_publish.mpr (.inl hr)

theorem unconcerned_next (hgone : w.files.files.lookup k = none)
    (houtstanding : ∀ p r, r ∈ w.broker.outstanding p → ¬ Concerns cfg k r)
    (hv : Unconcerned cfg k v) (hallow : v.allow cfg op) :
    Unconcerned cfg k (v.next op (handler cfg env op w).1) := by
  cases op with
  | rewind | embedding => exact hv
  | verify r =>
    have htook : v.took = some r := hallow
    refine ⟨hv.took, hv.read, ?_⟩
    intro hnone
    exact absurd (htook.symm.trans hnone) (by simp)
  | poll p =>
    refine ⟨?_, hv.read, fun _ => hv.fresh hallow⟩
    intro r hr
    have hnext : w.broker.next p = some r := Broker.poll_fst.symm.trans hr
    refine houtstanding p r ?_
    rw [Broker.outstanding_of_next hnext]
    exact List.mem_cons_self
  | files c =>
    rcases next_files v c w with hnext | ⟨id, row, hlookup, hnext⟩
    · rw [hnext]
      exact hv
    · rw [hnext]
      refine ⟨hv.took, ?_, hv.fresh⟩
      intro doc hread
      rcases List.mem_cons.mp hread with heq | hread
      · rw [← (Prod.mk.inj heq).1, hgone] at hlookup
        cases hlookup
      · exact hv.read doc hread
  | vector c =>
    obtain ⟨a, op⟩ := c
    cases op with
    | upsertChunks chunks => exact ⟨hv.took, hv.read, hv.fresh⟩
    | deleteChunks filters =>
      obtain ⟨admin, id, document, htook, -⟩ := hallow
      refine ⟨hv.took, hv.read, ?_⟩
      intro hnone
      exact absurd (htook.symm.trans hnone) (by simp)
    | _ => exact hv

theorem held_next (hserved : Served who fileId documentId env) (hrole : who.role ≠ .user)
    (hnamed : fileId ≠ "") (hcovered : ∀ x ∈ w.points, ofFile (who.key fileId) x →
      Covered who documentId x.payload)
    (htook : v.took = some (.delete who fileId documentId)) (hdeleted : v.deleted = false)
    (hfailed : v.failed = false) (hallow : v.allow cfg op) :
    ((v.next op (handler cfg env op w).1).took = some (.delete who fileId documentId) ∧
        (v.next op (handler cfg env op w).1).deleted = false ∧
        (v.next op (handler cfg env op w).1).failed = false) ∨
      Cleared (who.key fileId) (handler cfg env op w).2 := by
  cases op with
  | rewind | embedding => exact .inl ⟨htook, hdeleted, hfailed⟩
  | poll p => exact absurd (htook.symm.trans hallow) (by simp)
  | verify r =>
    have heq : r = .delete who fileId documentId :=
      Option.some.inj (Eq.trans (Eq.symm hallow) htook)
    refine .inl ⟨htook, hdeleted, ?_⟩
    show (v.failed || !(env.verify w.tick r)) = false
    rw [heq, hserved.verified w.tick, hfailed]
    rfl
  | files c =>
    rcases next_files v c w with hnext | ⟨id, row, -, hnext⟩
    · rw [hnext]
      exact .inl ⟨htook, hdeleted, hfailed⟩
    · rw [hnext]
      exact .inl ⟨htook, hdeleted, hfailed⟩
  | vector c =>
    obtain ⟨a, op⟩ := c
    cases op with
    | deleteChunks filters =>
      obtain ⟨admin, id, document, htook', ha, hfilters⟩ := hallow
      obtain ⟨rfl, rfl, rfl⟩ := Record.delete.inj (Option.some.inj (htook.symm.trans htook'))
      subst ha
      obtain ⟨f, hf, hadmits⟩ := cleanup_filter hrole hnamed documentId
      refine .inr ?_
      intro x hx hk
      have hpoints : (handler cfg env (.vector ⟨some who, .deleteChunks filters⟩) w).2.points =
          w.points.filter fun x => !f.admits x.payload := by
        show (cfg.vectorCall env w ⟨some who, .deleteChunks filters⟩).2.points = _
        unfold Config.vectorCall
        rw [hfilters, hserved.carried w.tick]
        simp only [Config.vectorEffect, deletePoints, hf]
        rfl
      rw [hpoints, Finset.mem_filter] at hx
      rw [hadmits x.payload hk.1 hk.2 (hcovered x hx.1 hk)] at hx
      exact absurd hx.2 (by simp)
    | upsertChunks | _ => exact .inl ⟨htook, hdeleted, hfailed⟩

theorem after_act (hserved : Served who fileId documentId env) (hrole : who.role ≠ .user)
    (hnamed : fileId ≠ "") (hafter : After cfg who fileId documentId w vs) {i : Nat}
    {m : Option View} (hi : vs[i]? = some m) (hallow : (watch cfg (who.key fileId)).allow m op)
    (hguard : NoReturn (who.key fileId) w op) :
    After cfg who fileId documentId (handler cfg env op w).2
      (vs.set i ((watch cfg (who.key fileId)).next m op (handler cfg env op w).1)) := by
  have hrewind : ∀ p offset, op ≠ .rewind p offset := by
    intro p offset hop
    subst hop
    exact absurd hguard (by simp [NoReturn])
  have hharm : Harmless cfg (who.key fileId) op := by
    cases m with
    | none => exact hallow.2
    | some v => exact harmless_of_allow (hafter.views v (List.mem_of_getElem? hi)) hallow
  refine ⟨?_, ?_, ?_, ?_, ?_⟩
  · cases hlookup : (handler cfg env op w).2.files.files.lookup (who.key fileId) with
    | none => rfl
    | some row =>
      rcases handler_file hlookup with hold | ⟨c, rfl, hwritten⟩
      · exact hold.symm.trans hafter.gone
      · obtain ⟨a, op⟩ := c
        generalize hk : who.key fileId = k at hwritten
        generalize row.doc = doc at hwritten
        cases hwritten with
        | @created id owner doc hc =>
          obtain rfl := hc
          exact absurd hguard (by simp [NoReturn, hk])
        | updated time hc hrow | staged time hc hrow =>
          rw [← hk, hafter.gone] at hrow
          cases hrow
  · intro p r hr
    rcases outstanding_handler hrewind hr with hr | hpublished
    · exact hafter.outstanding p r hr
    · exact hharm.publishes r hpublished
  · intro v' hv'
    rcases List.mem_or_eq_of_mem_set hv' with hv' | heq
    · exact hafter.views v' hv'
    · cases m with
      | none => cases heq
      | some v =>
        cases heq
        exact unconcerned_next hafter.gone hafter.outstanding
          (hafter.views v (List.mem_of_getElem? hi)) hallow
  · intro x hx hk
    exact hafter.covered x (mem_points_handler hharm hx hk) hk
  · have hcleared : Cleared (who.key fileId) w → Cleared (who.key fileId)
      (handler cfg env op w).2 :=
      fun h x hx hk => h x (mem_points_handler hharm hx hk) hk
    have hlt : i < vs.length := (List.getElem?_eq_some_iff.mp hi).1
    rcases hafter.progress with hpending | hclear
    · cases hpending with
      | queued p hqueued =>
        rcases outstanding_kept hrewind hqueued with hkept | ⟨q, rfl, hnext⟩
        · exact .inl (.queued p hkept)
        -- The poll hands the cleanup to the worker, which has done nothing so far.
        · cases m with
          | none => exact absurd rfl (hallow.1 q)
          | some v =>
            have hfresh := (hafter.views v (List.mem_of_getElem? hi)).fresh hallow
            refine .inl (.held i (v.next (.poll q) (handler cfg env (.poll q) w).1) ?_ ?_
              hfresh.1 hfresh.2)
            · rw [List.getElem?_set_self hlt]
              rfl
            · exact Broker.poll_fst.trans hnext
      | held j v hj htook hdeleted hfailed =>
        by_cases hij : i = j
        · subst hij
          obtain rfl := Option.some.inj (hi.symm.trans hj)
          rcases held_next hserved hrole hnamed hafter.covered htook hdeleted hfailed hallow with
            ⟨htook, hdeleted, hfailed⟩ | hclear
          · refine .inl (.held i _ ?_ htook hdeleted hfailed)
            rw [List.getElem?_set_self hlt]
            rfl
          · exact .inr hclear
        · refine .inl (.held j v ?_ htook hdeleted hfailed)
          rw [List.getElem?_set_ne hij]
          exact hj
    · exact .inr (hcleared hclear)

end

/-! ## The whole run -/

/-- When a file can be deleted: no job and no upsert of it is on its way, the programs that have
begun work on none, and the deletion covers its stored points. -/
structure Deletable (cfg : Config) (who : Identity) (fileId : String) (row : Row FileDoc)
    (P : Pool sig Bool World) : Prop where
  outstanding : ∀ p r, r ∈ P.state.broker.outstanding p → ¬ Concerns cfg (who.key fileId) r
  threads : ∀ p ∈ P.threads, Starts cfg p ∨ Idle cfg (who.key fileId) p
  covered : ∀ x ∈ P.state.points, ofFile (who.key fileId) x →
    Covered who (row.doc.document fileId) x.payload

/-- A file whose points the deletion covers can be deleted when the pipeline is at rest. -/
theorem Deletable.at_rest
    (hdrained : P.state.broker.Drained) (hended : ∀ p ∈ P.threads, ∃ b, p = .ret b)
    (hcovered : ∀ x ∈ P.state.points, Covered who (row.doc.document fileId) x.payload) :
    Deletable cfg who fileId row P := by
  refine ⟨?_, ?_, fun x hx _ => hcovered x hx⟩
  · intro p r hr
    rw [hdrained p] at hr
    exact absurd hr List.not_mem_nil
  · intro p hp
    obtain ⟨b, rfl⟩ := hended p hp
    exact .inr trivial

/-- The threads of a pool in which the file can be deleted are watched from its deletion on. -/
theorem exists_followed (ps : List (Prog sig Bool))
    (hps : ∀ p ∈ ps, Starts cfg p ∨ Idle cfg k p) :
    ∃ vs : List (Option View), (∀ v, some v ∈ vs → v = View.initial) ∧
      List.Forall₂ (fun p v => p.wp (watch cfg k).logic Ended v) ps vs := by
  induction ps with
  | nil => exact ⟨[], nofun, .nil⟩
  | cons p rest ih =>
    obtain ⟨vs, hinitial, hall⟩ := ih fun q hq => hps q (List.mem_cons_of_mem p hq)
    obtain ⟨v, hv, hp⟩ : ∃ v, (∀ u, some u = v → u = View.initial) ∧
        p.wp (watch cfg k).logic Ended v := by
      rcases hps p List.mem_cons_self with hstarts | hidle
      · exact ⟨_, fun _ => Option.some.inj, wp_watch (starts_accepted hstarts)⟩
      · exact ⟨none, nofun, hidle⟩
    exact ⟨v :: vs, fun u hu => (List.mem_cons.mp hu).elim (hv u) (hinitial u), .cons hp hall⟩

theorem followed_of_forall₂
    (h : List.Forall₂ (fun p v => p.wp (watch cfg k).logic Ended v) P.threads vs) :
    Pool.Followed (watch cfg k) (fun _ _ => True) Ended P vs := by
  refine ⟨h.length_eq.symm, ?_⟩
  intro i p v hp hv
  obtain ⟨hi, hp⟩ := List.getElem?_eq_some_iff.mp hp
  obtain ⟨hi', hv⟩ := List.getElem?_eq_some_iff.mp hv
  have hget := h.get hi hi'
  rw [← hp, ← hv]
  exact Prog.wp_logicOn _ _ _ hget

theorem unconcerned_initial : Unconcerned cfg k View.initial where
  took _ hr := nomatch hr
  read := nofun
  fresh _ := ⟨rfl, rfl⟩

theorem after_spawn (hafter : After cfg who fileId documentId w vs) :
    After cfg who fileId documentId w (vs ++ [some View.initial]) := by
  refine ⟨hafter.gone, hafter.outstanding, ?_, hafter.covered, ?_⟩
  · intro v hv
    rcases List.mem_append.mp hv with hv | hv
    · exact hafter.views v hv
    · rw [Option.some.inj (List.mem_singleton.mp hv)]
      exact unconcerned_initial
  · rcases hafter.progress with hpending | hclear
    · cases hpending with
      | queued p hqueued => exact .inl (.queued p hqueued)
      | held j v hj htook hdeleted hfailed =>
        exact .inl (.held j v (Sequence.getElem?_append_of hj) htook hdeleted hfailed)
    · exact .inr hclear

/-- A file that is deleted while nothing of it is on its way leaves no point, in whatever order the
messages are consumed. -/
theorem deleted_file_leaves_no_vector (cfg : Config) (env : Env) (who : Identity) (fileId : String)
    (row : Row FileDoc) (P P' : Pool sig Bool World) (w : World) (hnamed : fileId ≠ "")
    (hrow : P.state.files.files.find who.sees (who.key fileId) = some row)
    (hdelete : (request cfg who (.delete fileId)).run (handler cfg env) P.state = (true, w))
    (hdeletable : Deletable cfg who fileId row P)
    (hserved : Served who fileId (row.doc.document fileId) env)
    (hrun : Relation.ReflTransGen (Pool.Step (handler cfg env) (Starts cfg)
      (NoReturn (who.key fileId))) { P with state := w } P')
    (hdrained : P'.state.broker.Drained) (hended : ∀ p ∈ P'.threads, ∃ b, p = .ret b) :
    ∀ x ∈ P'.state.points, ¬ ofFile (who.key fileId) x := by
  have herased := request_delete hnamed hrow hdelete
  obtain ⟨vs, hinitial, hall⟩ := exists_followed P.threads hdeletable.threads
  have hprog : ∀ p, Starts cfg p → ∃ v, v = some View.initial ∧
      p.wp (watch cfg (who.key fileId)).logic Ended v :=
    fun p hp => ⟨_, rfl, wp_watch (starts_accepted hp)⟩
  have hafter : After cfg who fileId (row.doc.document fileId) w vs := by
    obtain ⟨key, hbroker⟩ := herased.broker
    refine ⟨herased.gone, ?_, ?_, ?_, .inl (.queued (.deletes, cfg.partitioner .deletes key) ?_)⟩
    · intro p r hr
      rw [hbroker] at hr
      rcases Broker.mem_outstanding_publish.mp hr with hr | ⟨-, rfl⟩
      · exact hdeletable.outstanding p r hr
      · exact fun h => h
    · intro v hv
      rw [hinitial v hv]
      exact unconcerned_initial
    · rw [herased.points]
      exact hdeletable.covered
    · rw [hbroker]
      exact Broker.mem_outstanding_publish.mpr (.inr ⟨rfl, rfl⟩)
  have hfollowed : Pool.Followed (watch cfg (who.key fileId)) (fun _ _ => True) Ended
      ({ P with state := w } : Pool sig Bool World) vs := followed_of_forall₂ hall
  obtain ⟨vs', hafter', hfollowed'⟩ := Pool.steps_monitored (watch cfg (who.key fileId)) hprog
    (J := fun w _ vs => After cfg who fileId (row.doc.document fileId) w vs)
    (fun _ _ _ _ hafter hv => by rw [hv]; exact after_spawn hafter)
    (fun _ _ _ _ _ _ hafter hi hallow hguard =>
      after_act hserved herased.role hnamed hafter hi hallow hguard) hrun hafter hfollowed
  rcases hafter'.progress with hpending | hclear
  · cases hpending with
    | queued p hqueued =>
      rw [hdrained p] at hqueued
      exact absurd hqueued List.not_mem_nil
    | held j v hj htook hdeleted hfailed =>
      -- The worker that holds the cleanup has ended, so it carried the cleanup out.
      have hlt : j < P'.threads.length := by
        rw [← hfollowed'.length]
        exact (List.getElem?_eq_some_iff.mp hj).1
      have hthread : P'.threads[j]? = some P'.threads[j] := List.getElem?_eq_getElem hlt
      obtain ⟨b, hb⟩ := hended P'.threads[j] (List.getElem_mem hlt)
      have hsettled := hfollowed'.accepted j _ _ hthread hj
      rw [hb] at hsettled
      rcases hsettled who fileId _ htook herased.role hnamed with hdone | hfail
      · exact absurd (hdeleted.symm.trans hdone) (by simp)
      · exact absurd (hfailed.symm.trans hfail) (by simp)
  · exact hclear

/-! ## A deletion after the ingestion and one before the job is taken -/

/-- Every record is in a partition that the producer chose for it. -/
def Placed (cfg : Config) (w : World) : Prop :=
  ∀ p r, r ∈ w.broker.log p → ∃ key, p = (r.topic, cfg.partitioner r.topic key)

theorem placed_handler (op : sig.Op) (w : World) (h : Placed cfg w) :
    Placed cfg (handler cfg env op w).2 := by
  intro p r hr
  rcases mem_log_handler hr with hr | ⟨-, hkey⟩
  · exact h p r hr
  · exact hkey

theorem placed_empty : Placed cfg World.empty :=
  nofun

theorem drained_of_placed (h : Placed samplePipeline w)
    (hnil : ∀ t ∈ [Topic.jobs, .upserts, .deletes, .files], w.broker.outstanding (t, 0) = []) :
    w.broker.Drained := by
  intro p
  obtain ⟨t, n⟩ := p
  cases n with
  | zero =>
    refine hnil t ?_
    cases t <;> decide
  | succ n =>
    have hlog : w.broker.log (t, n + 1) = [] := by
      refine List.eq_nil_iff_forall_not_mem.mpr ?_
      intro r hr
      obtain ⟨key, hp⟩ := h _ r hr
      exact absurd (Prod.mk.inj hp).2 (Nat.succ_ne_zero n)
    unfold Broker.outstanding
    rw [hlog, List.drop_nil]

def ended (p : Prog sig Bool) : Bool :=
  match p with
  | .ret _ => true
  | .call .. => false

theorem exists_of_ended (h : P.threads.all ended = true) : ∀ p ∈ P.threads, ∃ b, p = .ret b := by
  intro p hp
  have hp := List.all_eq_true.mp h p hp
  cases p with
  | ret b => exact ⟨b, rfl⟩
  | call op k => cases hp

def deletedWorld : World :=
  ((request samplePipeline sampleAdmin (.delete "file")).run (handler samplePipeline calmEnv)
    (ingested "text").state).2

def deletedPool : Pool sig Bool World :=
  ⟨(ingested "text").threads, deletedWorld, (ingested "text").trace⟩

def cleanedUp : Pool sig Bool World :=
  Pool.exec (handler samplePipeline calmEnv) (runThrough 9 (worker samplePipeline (.deletes, 0)))
    deletedPool

theorem run_deletedWorld :
    (request samplePipeline sampleAdmin (.delete "file")).run (handler samplePipeline calmEnv)
      (ingested "text").state = (true, deletedWorld) := by
  have hreturned : ((request samplePipeline sampleAdmin (.delete "file")).run
      (handler samplePipeline calmEnv) (ingested "text").state).1 = true := by decide +kernel
  unfold deletedWorld
  rw [← hreturned]

theorem placed_exec (cs : List (Pool.Choice sig Bool))
    (h : Placed cfg P.state) : Placed cfg (Pool.exec (handler cfg env) cs P).state :=
  Pool.exec_inv placed_handler cs P h

theorem placed_ingested (text : String) : Placed samplePipeline (ingested text).state :=
  placed_exec _ placed_empty

theorem placed_deletedWorld : Placed samplePipeline deletedWorld := by
  exact Prog.run_inv placed_handler _ _ (placed_ingested "text")

theorem placed_cleanedUp : Placed samplePipeline cleanedUp.state := by
  have hstate : deletedPool.state = deletedWorld := by rw [deletedPool]
  refine placed_exec _ ?_
  rw [hstate]
  exact placed_deletedWorld

theorem steps_cleanedUp :
    Relation.ReflTransGen (Pool.Step (handler samplePipeline calmEnv) (Starts samplePipeline)
      (NoReturn (sampleAdmin.key "file")))
      ⟨(ingested "text").threads, deletedWorld, (ingested "text").trace⟩ cleanedUp := by
  refine Pool.steps_exec _ ?_ ?_
  · intro p hp
    obtain rfl : p = worker samplePipeline (.deletes, 0) := by simpa [runThrough] using hp
    exact .worker _
  · decide +kernel

theorem covered_ingested :
    ∀ x ∈ (ingested "text").state.points, Covered sampleAdmin "file" x.payload := by
  decide +kernel

theorem deleted_file_leaves_no_vector_ingested :
    (ingested "text").state.points.card = 1 ∧
      ∀ x ∈ cleanedUp.state.points, ¬ ofFile (sampleAdmin.key "file") x := by
  refine ⟨by decide +kernel, ?_⟩
  have hfound : ((ingested "text").state.files.files.find sampleAdmin.sees
      (sampleAdmin.key "file")).map (fun row => row.doc.document "file") = some "file" := by
    decide +kernel
  obtain ⟨row, hrow, hdocument⟩ := Option.map_eq_some_iff.mp hfound
  refine deleted_file_leaves_no_vector samplePipeline calmEnv sampleAdmin "file" row
    (ingested "text")
    cleanedUp deletedWorld (by decide) hrow run_deletedWorld ?_ ?_ steps_cleanedUp ?_ ?_
  · refine Deletable.at_rest (drained_of_placed (placed_ingested "text") (by decide +kernel))
      (exists_of_ended (by decide +kernel)) ?_
    rw [hdocument]
    exact covered_ingested
  · exact ⟨fun _ => rfl, fun _ => rfl⟩
  · exact drained_of_placed placed_cleanedUp (by decide +kernel)
  · exact exists_of_ended (by decide +kernel)

/-- The file is deleted while its job waits, and the cleanup is consumed before the job. -/
def overtaking : List (Prog sig Bool) :=
  (ingestion "text").take 2 ++
    [request samplePipeline sampleAdmin (.delete "file"), worker samplePipeline (.deletes, 0),
      worker samplePipeline (.jobs, 0), worker samplePipeline (.upserts, 0),
      worker samplePipeline (.files, 0), worker samplePipeline (.files, 0),
      worker samplePipeline (.files, 0)]

def overtaken : Pool sig Bool World :=
  Pool.exec (handler samplePipeline calmEnv) (oneByOne 0 overtaking) (.initial World.empty)

/-- Every message is consumed and every program has ended.  The file is gone, and its point is in
the vector store. -/
theorem deleted_file_leaves_vector :
    overtaken.Reachable (handler samplePipeline calmEnv) (Starts samplePipeline) (fun _ _ => True)
        World.empty ∧
      overtaken.state.broker.Drained ∧ (∀ p ∈ overtaken.threads, ∃ b, p = .ret b) ∧
      overtaken.state.files.files.lookup (sampleAdmin.key "file") = none ∧
      ∃ x ∈ overtaken.state.points, ofFile (sampleAdmin.key "file") x := by
  refine ⟨?_, ?_, ?_, ?_, ?_⟩
  · refine Pool.reachable_exec _ ?_ (Pool.guarded_true _ _) .initial
    intro p hp
    rcases List.mem_append.mp (mem_oneByOne hp) with hp | hp
    · exact starts_ingestion (List.mem_of_mem_take hp)
    · simp only [List.mem_cons, List.not_mem_nil, or_false] at hp
      rcases hp with rfl | rfl | rfl | rfl | rfl | rfl | rfl
      · exact .request _ _ rfl
      all_goals exact .worker _
  · exact drained_of_placed (placed_exec _ placed_empty) (by decide +kernel)
  · exact exists_of_ended (by decide +kernel)
  · have hnone : (overtaken.state.files.files.lookup (sampleAdmin.key "file")).isNone = true := by
      decide +kernel
    exact Option.isNone_iff_eq_none.mp hnone
  · have hpoint : ∃ x ∈ overtaken.state.points,
        x.payload.tenantId = "acme" ∧ x.payload.fileId = "file" := by decide +kernel
    exact hpoint

end RagForge.Pipeline
