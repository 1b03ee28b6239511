import RagForge.Memories.Parts

/-
What the memory service does for one user does not depend on the data of others.

Two states are compared that agree on everything inside a boundary.  Every operation of retrieval
stays inside it, so retrieval answers alike.  A write also inserts a log entry, and the unique index
on the request id looks at the entries of everybody: the write is independent of others exactly when
the id of the request is not one that somebody else has used.
-/

namespace RagForge.Memories

open Effect Py Store

/-! ## States that agree -/

def Memory.ownedBy (b : Boundary) (m : Memory) : Bool := decide (m.boundary = b)

def Tombstone.ownedBy (b : Boundary) (t : Tombstone) : Bool := decide (t.boundary = b)

def LogEntry.ownedBy (b : Boundary) (e : LogEntry) : Bool := decide (e.boundary = b)

def Point.ownedBy (b : Boundary) (p : Point) : Bool := decide (p.boundary = b)

structure SameDocuments (b : Boundary) (w w' : World) : Prop where
  memories : w.memories.filter (Memory.ownedBy b) = w'.memories.filter (Memory.ownedBy b)
  tombstones : w.tombstones.filter (Tombstone.ownedBy b) =
    w'.tombstones.filter (Tombstone.ownedBy b)
  log : w.log.filter (LogEntry.ownedBy b) = w'.log.filter (LogEntry.ownedBy b)
  tick : w.tick = w'.tick

def SamePoints (b : Boundary) (w w' : World) : Prop :=
  w.points.filter (Point.ownedBy b) = w'.points.filter (Point.ownedBy b)

def OwnUsed (b : Boundary) (request : Option String) (w : World) : Prop :=
  ∃ e ∈ w.log, e.boundary = b ∧ e.requestId.isSome ∧ e.requestId = request

def OthersUsed (b : Boundary) (request : Option String) (w : World) : Prop :=
  ∃ e ∈ w.log, e.boundary ≠ b ∧ e.requestId.isSome ∧ e.requestId = request

variable {m : Memory} {w w' : World} {request : Option String}

section

variable {b : Boundary} {entry : LogEntry} {op : Op}

theorem SameDocuments.points (h : SameDocuments b w w') (ps ps' : List Point) :
    SameDocuments b { w with points := ps } { w' with points := ps' } :=
  ⟨h.memories, h.tombstones, h.log, h.tick⟩

/-! ## Reading -/

theorem isIn_owned {c : MemoryClass} (h : m.isIn b c = true) : m.ownedBy b = true := by
  simp only [Memory.isIn, Bool.and_eq_true] at h
  exact h.1

theorem exec_reads_state (hop : op.Reads b ∨ op.Searches b) (env : Env) (w : World) :
    (exec env op w).2 = w := by
  cases op <;> first | rfl | exact absurd hop (by simp [Op.Reads, Op.Searches])

theorem exec_reads_same (hop : op.Reads b) (h : SameDocuments b w w') (env : Env) :
    (exec env op w).1 = (exec env op w').1 := by
  cases op with
  | now => exact congrArg (fun t => Except.ok (env.now t)) h.tick
  | newId => exact congrArg (fun t => Except.ok (env.newId t)) h.tick
  | utcNow => exact congrArg (fun t => Except.ok (env.utcNow t)) h.tick
  | embedMemory text | embedQuery text =>
    exact congrArg (fun t => embedding (env.embed t text)) h.tick
  | findMemories b' c =>
    cases (show b' = b from hop)
    exact congrArg Except.ok (filter_eq_of_view (fun m hm => isIn_owned hm) h.memories)
  | findMemory b' c id =>
    cases (show b' = b from hop)
    refine congrArg Except.ok (find?_eq_of_view (fun m hm => ?_) h.memories)
    exact isIn_owned (Bool.and_eq_true_iff.mp hm).1
  | findPreference b' ownerId ownerType key =>
    cases (show b' = b from hop)
    refine congrArg Except.ok (find?_eq_of_view (fun m hm => ?_) h.memories)
    simp only [Bool.and_eq_true] at hm
    exact isIn_owned hm.1.1.1.1
  | findTombstone b' q =>
    cases (show b' = b from hop)
    exact congrArg Except.ok
      (find?_eq_of_view (fun t ht => (Bool.and_eq_true_iff.mp ht).1) h.tombstones)
  | findLog b' requestId =>
    cases (show b' = b from hop)
    exact congrArg Except.ok (find?_eq_of_view (fun e he => (Bool.and_eq_true_iff.mp he).1) h.log)
  | _ => exact absurd hop (by simp [Op.Reads])

theorem exec_searches_same (hop : op.Searches b) (h : SamePoints b w w') (env : Env) :
    (exec env op w).1 = (exec env op w').1 := by
  cases op with
  | search b' vector ownerId ownerType limit =>
    cases (show b' = b from hop)
    have himp : ∀ p : Point, p.searchable b ownerId ownerType = true → p.ownedBy b = true := by
      intro p hp
      simp only [Point.searchable, Bool.and_eq_true] at hp
      exact hp.1.1.1.1
    exact congrArg (fun ps => Except.ok ((env.nearest vector ps limit).map
      fun hit => (⟨strOr hit.1.memoryId hit.1.pointId, hit.2⟩ : Hit))) (filter_eq_of_view himp h)
  | _ => exact absurd hop (by simp [Op.Searches])

/-! ## Writing -/

@[simp] theorem Change.apply_boundary (c : Change) (m : Memory) :
    (c.apply m).boundary = m.boundary := by
  cases c <;> rfl

theorem updateFirst_owned (xs : List Memory) (c : MemoryClass) (id : String) (change : Change) :
    (updateFirst (fun m => m.isIn b c && decide (m.id = id)) change.apply xs).filter
      (Memory.ownedBy b) =
    updateFirst (fun m => m.isIn b c && decide (m.id = id)) change.apply
      (xs.filter (Memory.ownedBy b)) := by
  refine updateFirst_view (fun m hm => isIn_owned (Bool.and_eq_true_iff.mp hm).1) ?_ xs
  intro m hm
  have hb := isIn_owned (Bool.and_eq_true_iff.mp hm).1
  rw [Memory.ownedBy, Change.apply_boundary]
  exact hb

theorem exec_update_same (c : MemoryClass) (id : String) (change : Change)
    (h : SameDocuments b w w') (env : Env) :
    SameDocuments b (exec env (.updateMemory b c id change) w).2
      (exec env (.updateMemory b c id change) w').2 := by
  refine ⟨?_, h.tombstones, h.log, h.tick⟩
  show (updateFirst _ _ w.memories).filter _ = (updateFirst _ _ w'.memories).filter _
  rw [updateFirst_owned, updateFirst_owned, h.memories]

theorem exec_insert_same (hm : m.boundary = b) (h : SameDocuments b w w') (env : Env) :
    (exec env (.insertMemory m) w).1 = (exec env (.insertMemory m) w').1 ∧
    SameDocuments b (exec env (.insertMemory m) w).2 (exec env (.insertMemory m) w').2 := by
  have hslot : w.memories.any m.sameSlot = w'.memories.any m.sameSlot := by
    refine any_eq_of_view (fun n hn => ?_) h.memories
    simp only [Memory.sameSlot, Bool.and_eq_true, decide_eq_true_eq] at hn
    simp [Memory.ownedBy, ← hn.1.1.1.2, hm]
  by_cases hdup : w.memories.any m.sameSlot = true
  · rw [exec_insertMemory_taken hdup, exec_insertMemory_taken (hslot ▸ hdup)]
    exact ⟨rfl, h⟩
  · rw [exec_insertMemory_free hdup, exec_insertMemory_free (hslot ▸ hdup)]
    refine ⟨rfl, ?_, h.tombstones, h.log, h.tick⟩
    rw [List.filter_append, List.filter_append, h.memories]

/-- A log entry with a request id that is taken in both states or in neither. -/
theorem exec_log_same (h : SameDocuments b w w')
    (htaken : w.requestTaken entry.requestId = w'.requestTaken entry.requestId) (env : Env) :
    (exec env (.insertLog entry) w).1 = (exec env (.insertLog entry) w').1 ∧
    SameDocuments b (exec env (.insertLog entry) w).2 (exec env (.insertLog entry) w').2 := by
  by_cases hdup : w.requestTaken entry.requestId = true
  · rw [exec_insertLog_taken hdup, exec_insertLog_taken (htaken ▸ hdup)]
    exact ⟨rfl, h⟩
  · rw [exec_insertLog_free hdup, exec_insertLog_free (htaken ▸ hdup)]
    refine ⟨rfl, h.memories, h.tombstones, ?_, h.tick⟩
    rw [List.filter_append, List.filter_append, h.log]

theorem requestTaken_updateLog (id : String) (outcome : LoggedOutcome) (request : Option String)
    (env : Env) (w : World) :
    ((exec env (.updateLog b id outcome) w).2).requestTaken request = w.requestTaken request := by
  have hmap : ∀ log : List LogEntry,
      (log.any fun e => e.requestId.isSome && decide (e.requestId = request)) =
      (log.map LogEntry.requestId).any fun r => r.isSome && decide (r = request) := by
    intro log
    rw [List.any_map]
    rfl
  have hsame := map_updateFirst_of_same (g := LogEntry.requestId)
    (q := fun e => decide (e.boundary = b) && decide (e.id = id))
    (f := fun e => { e with outcome := outcome }) (fun _ => rfl) w.log
  show List.any (updateFirst _ _ w.log) _ = List.any w.log _
  rw [hmap, hmap, hsame]

theorem requestTaken_insertLog (hr : entry.requestId = request) (env : Env) (w : World) :
    ((exec env (.insertLog entry) w).2).requestTaken request =
      (w.requestTaken request || request.isSome) := by
  by_cases hdup : w.requestTaken entry.requestId = true
  · rw [exec_insertLog_taken hdup, ← hr, hdup]
    rfl
  · rw [exec_insertLog_free hdup]
    simp [World.requestTaken, hr]

/-! ## Whole calls -/

/-- Operations that write inside the boundary, the log only for the given request. -/
def Op.Writes (b : Boundary) (request : Option String) : Op → Prop
  | .insertMemory m => m.boundary = b
  | .updateMemory b' _ _ _ | .updateLog b' _ _ | .deletePoints b' _ => b' = b
  | .upsertPoint p => p.boundary = b
  | .insertLog entry => entry.boundary = b ∧ entry.requestId = request
  | _ => False

/-- The documents inside the boundary are the same, and the request id is free in both states or in
neither. -/
structure Alike (b : Boundary) (request : Option String) (w w' : World) : Prop where
  documents : SameDocuments b w w'
  taken : w.requestTaken request = w'.requestTaken request

theorem exec_alike (hop : op.ReadsOr b (Op.Writes b request))
    (h : Alike b request w w') (env : Env) :
    (exec env op w).1 = (exec env op w').1 ∧
      Alike b request (exec env op w).2 (exec env op w').2 := by
  rcases hop with hread | hwrite
  · refine ⟨exec_reads_same hread h.documents env, ?_⟩
    rw [exec_reads_state (.inl hread), exec_reads_state (.inl hread)]
    exact h
  · cases op with
    | insertMemory m =>
      obtain ⟨hreply, hdocs⟩ := exec_insert_same (show m.boundary = b from hwrite) h.documents env
      refine ⟨hreply, hdocs, ?_⟩
      have hlog : ∀ v, (exec env (.insertMemory m) v).2.log = v.log := by
        intro v
        by_cases hdup : v.memories.any m.sameSlot = true
        · rw [exec_insertMemory_taken hdup]
        · rw [exec_insertMemory_free hdup]
      simpa only [World.requestTaken, hlog] using h.taken
    | updateMemory b' c id change =>
      cases hwrite
      exact ⟨rfl, exec_update_same c id change h.documents env, h.taken⟩
    | updateLog b' id outcome =>
      cases (show b' = b from hwrite)
      refine ⟨rfl, ⟨h.documents.memories, h.documents.tombstones, ?_, h.documents.tick⟩, ?_⟩
      · have hview : ∀ log : List LogEntry,
            (updateFirst (fun e => decide (e.boundary = b) && decide (e.id = id))
              (fun e => { e with outcome := outcome }) log).filter (LogEntry.ownedBy b) =
            updateFirst (fun e => decide (e.boundary = b) && decide (e.id = id))
              (fun e => { e with outcome := outcome }) (log.filter (LogEntry.ownedBy b)) :=
          updateFirst_view (fun e he => (Bool.and_eq_true_iff.mp he).1)
            fun e he => (Bool.and_eq_true_iff.mp he).1
        show (updateFirst _ _ w.log).filter _ = (updateFirst _ _ w'.log).filter _
        rw [hview, hview, h.documents.log]
      · rw [requestTaken_updateLog, requestTaken_updateLog, h.taken]
    | deletePoints | upsertPoint => exact ⟨rfl, h.documents.points _ _, h.taken⟩
    | insertLog entry =>
      obtain ⟨-, hrequest⟩ : entry.boundary = b ∧ entry.requestId = request := hwrite
      obtain ⟨hreply, hdocs⟩ := exec_log_same h.documents (hrequest ▸ h.taken) env
      refine ⟨hreply, hdocs, ?_⟩
      rw [requestTaken_insertLog hrequest, requestTaken_insertLog hrequest, h.taken]
    | _ => exact absurd hwrite (by simp [Op.Writes])

theorem handler_same {R : World → World → Prop} {env : Env}
    (hnext : ∀ v v', R v v' → R v.next v'.next) (hw : R w w') (htick : w.tick = w'.tick)
    (hexec : (exec env op w).1 = (exec env op w').1 ∧ R (exec env op w).2 (exec env op w').2) :
    (handler env op w).1 = (handler env op w').1 ∧ R (handler env op w).2
    (handler env op w').2 := by
  unfold handler
  rw [← htick]
  cases env.fault op w.tick with
  | none => exact ⟨hexec.1, hnext _ _ hexec.2⟩
  | some fault =>
    obtain ⟨e, applied⟩ := fault
    refine ⟨rfl, ?_⟩
    cases applied with
    | false => exact hnext _ _ hw
    | true => exact hnext _ _ hexec.2

theorem handler_alike (env : Env) (op : Op)
    (hop : op.ReadsOr b (Op.Writes b request)) (w w' : World) (h : Alike b request w w') :
    (handler env op w).1 = (handler env op w').1 ∧
      Alike b request (handler env op w).2 (handler env op w').2 := by
  refine handler_same (fun v v' hv => ⟨⟨hv.documents.memories, hv.documents.tombstones,
    hv.documents.log, congrArg (· + 1) hv.documents.tick⟩, hv.taken⟩) h h.documents.tick ?_
  exact exec_alike hop h env

structure SameOwn (b : Boundary) (w w' : World) : Prop where
  documents : SameDocuments b w w'
  points : SamePoints b w w'

theorem SameOwn.next (h : SameOwn b w w') : SameOwn b w.next w'.next :=
  ⟨⟨h.documents.memories, h.documents.tombstones, h.documents.log,
    congrArg (· + 1) h.documents.tick⟩, h.points⟩

theorem handler_sameOwn (env : Env) (op : Op)
    (hop : op.ReadsOr b fun op => op.Searches b ∨ op.Touches b) (w w' : World)
    (h : SameOwn b w w') :
    (handler env op w).1 = (handler env op w').1 ∧
      SameOwn b (handler env op w).2 (handler env op w').2 := by
  refine handler_same (fun v v' hv => hv.next) h h.documents.tick ?_
  rcases hop with hread | hsearch | htouch
  · refine ⟨exec_reads_same hread h.documents env, ?_⟩
    rw [exec_reads_state (.inl hread), exec_reads_state (.inl hread)]
    exact h
  · refine ⟨exec_searches_same hsearch h.points env, ?_⟩
    rw [exec_reads_state (.inr hsearch), exec_reads_state (.inr hsearch)]
    exact h
  · cases op with
    | updateMemory b' c id change =>
      cases change with
      | lastAccessed time =>
        cases (show b' = b from htouch)
        exact ⟨rfl, exec_update_same c id _ h.documents env, h.points⟩
      | _ => exact absurd htouch (by simp [Op.Touches])
    | _ => exact absurd htouch (by simp [Op.Touches])

end

/-! ## Retrieval -/

section

variable (lib : Lib) (cfg : Settings) (env : Env) (b : Boundary)

/-- Retrieval answers alike in states that agree on what the caller owns. -/
theorem getRelevantMemories_isolated (query : Dict String Json) {w w' : World}
    (hdocs : SameDocuments b w w') (hpoints : SamePoints b w w') :
    ((getRelevantMemories lib cfg b query).run (handler env) () w).1 =
      ((getRelevantMemories lib cfg b query).run (handler env) () w').1 := by
  have htwin : Twin (handler env) (SameOwn b) (SameOwn b) (getRelevantMemories lib cfg b query) :=
    (getRelevantMemories_performs query).twin (handler_sameOwn env)
  exact htwin.result_eq () ⟨hdocs, hpoints⟩

def anna : Boundary := ⟨"acme", "anna"⟩

def ben : Boundary := ⟨"acme", "ben"⟩

def homeTown : Dict String Json := [("text", .str "Lives in Paris")]

def benRemembers : World :=
  { World.empty with
    memories := [normalizedMemory plainLib plainSettings ben homeTown
      {} "2024-05-01T00:00:00Z" "m" 1 1
      (.episodic .null .null 1)] }

/-- Ben's memory does not show in what Anna asks for. -/
theorem getRelevantMemories_foreign_memory :
    ((getRelevantMemories plainLib plainSettings anna [("text", .str "Paris")]).run
      (handler calmEnv) () benRemembers).1 =
    ((getRelevantMemories plainLib plainSettings anna [("text", .str "Paris")]).run
      (handler calmEnv) () World.empty).1 := by
  refine getRelevantMemories_isolated plainLib plainSettings calmEnv anna _ ⟨?_, rfl, rfl, rfl⟩ rfl
  simp [benRemembers, normalizedMemory, World.empty, Memory.ownedBy, anna, ben]

/-! ## Writes -/

theorem normalizeCandidate_boundary {candidate : Dict String Json} {ctx : RequestContext}
    {now freshId : String} (h : normalizeCandidate lib cfg b candidate ctx now freshId = .ok m) :
    m.boundary = b := by
  obtain ⟨_, _, hm⟩ := normalizeCandidate_ok h
  rcases hm with ⟨-, _, hm⟩ | ⟨-, _, _, hm⟩
  · rw [hm]
    rfl
  · rw [hm, describedPreference_boundary]
    rfl

variable {lib cfg b}

section

theorem Op.Stores.writes (op : Op) (hop : op.Stores b) : op.Writes b request := by
  cases op with
  | insertMemory n => exact hop
  | updateMemory b' c id change =>
    cases change with
    | replace n => exact hop
    | _ => exact absurd hop (by simp [Op.Stores])
  | _ => exact absurd hop (by simp [Op.Stores])

theorem Op.Retires.writes (op : Op) (hop : op.Retires b) : op.Writes b request := by
  cases op with
  | updateMemory b' c id change =>
    cases change with
    | supersede | embeddingStatus => exact hop
    | _ => exact absurd hop (by simp [Op.Retires])
  | deletePoints b' id => exact hop
  | _ => exact absurd hop (by simp [Op.Retires])

theorem Op.Syncs.writes (op : Op) (hop : op.Syncs b) : op.Writes b request := by
  cases op with
  | updateMemory b' c id change =>
    cases change with
    | retrieval _ _ => exact hop
    | _ => exact absurd hop (by simp [Op.Syncs])
  | upsertPoint p => exact hop
  | _ => exact absurd hop (by simp [Op.Syncs])

theorem Op.Logs.writes (op : Op) (hop : op.Logs b request) : op.Writes b request := by
  cases op with
  | updateLog | insertLog => exact hop
  | _ => exact absurd hop (by simp [Op.Logs])

end

theorem storeCandidate_performs (hm : m.boundary = b) (ctx : RequestContext)
    (comparable : Comparable) (d : Decision) :
    Does (Op.ReadsOr b (Op.Writes b ctx.request)) (storeCandidate lib cfg b ctx m comparable
      d) := by
  have hm' : (withDecision lib m d).boundary = b := hm
  refine ((applyDecision_performs hm' _ d).mono
    fun op => Or.imp_right (Op.Stores.writes op)).bind fun applied => ?_
  refine .bind (p := retireReplaced lib cfg b m d applied) ?_ fun superseded => ?_
  · exact ((applySupersession_performs _ _).mono
      fun op => Or.imp_right (Op.Retires.writes op)).ite (.pure none)
  refine ((syncVectorIndex_performs _ _).mono
    fun op => Or.imp_right (Op.Syncs.writes op)).bind fun synced => ?_
  exact ((logOutcome_performs ctx _).mono
    fun op => Or.imp_right (Op.Logs.writes op)).bind fun _ => .pure _

/-- What a write starts from: everything inside the boundary is the same, and so is whether the
request id is taken. -/
structure SameStart (b : Boundary) (request : Option String) (w w' : World) : Prop where
  own : SameOwn b w w'
  taken : w.requestTaken request = w'.requestTaken request

theorem SameStart.alike (h : SameStart b request w w') :
    Alike b request w w' := ⟨h.own.documents, h.taken⟩

theorem handler_sameStart (env : Env) (op : Op)
    (hop : op.ReadsOr b (Op.Searches b)) (w w' : World) (h : SameStart b request w w') :
    (handler env op w).1 = (handler env op w').1 ∧
      SameStart b request (handler env op w).2 (handler env op w').2 := by
  refine handler_same (fun v v' hv => ⟨hv.own.next, hv.taken⟩) h h.own.documents.tick ?_
  have hstate : ∀ v, (exec env op v).2 = v := exec_reads_state hop env
  rw [hstate, hstate]
  refine ⟨?_, h⟩
  rcases hop with hread | hsearch
  · exact exec_reads_same hread h.own.documents env
  · exact exec_searches_same hsearch h.own.points env

section

variable {α : Type}

theorem Does.twin_start {p : MemM α} (h : Does (Op.ReadsOr b (Op.Searches b)) p) (env : Env) :
    Twin (handler env) (SameStart b request) (SameStart b request) p :=
  h.twin (handler_sameStart env)

theorem Does.twin_alike {p : MemM α} (h : Does (Op.ReadsOr b (Op.Writes b request)) p) (env : Env) :
    Twin (handler env) (Alike b request) (Alike b request) p :=
  h.twin (handler_alike env)

end

theorem logOutcome_writes (ctx : RequestContext) (outcome : LoggedOutcome) :
    Does (Op.ReadsOr b (Op.Writes b ctx.request)) (logOutcome b ctx outcome) :=
  .mono (logOutcome_performs ctx outcome) fun op => Or.imp_right (Op.Logs.writes op)

theorem writeNormalized_twin (hm : m.boundary = b) (ctx : RequestContext) :
    Twin (handler env) (SameStart b ctx.request) (Alike b ctx.request)
      (writeNormalized lib cfg b ctx m) := by
  have later : ∀ {α : Type} {p : MemM α}, Does (Op.ReadsOr b (Op.Writes b ctx.request)) p →
      Twin (handler env) (SameStart b ctx.request) (Alike b ctx.request) p := fun h =>
    (h.twin_alike env).mono (fun _ _ hs => hs.alike) fun _ _ ha => ha
  have reject : ∀ reason rule, Twin (handler env) (SameStart b ctx.request) (Alike b ctx.request)
      (rejectCandidate b ctx m reason rule) := fun reason rule =>
    later (.bind (logOutcome_writes ctx _) fun _ => .pure _)
  unfold writeNormalized
  split
  · exact reject _ none
  · refine (((firstTombstone_reads _).andMore _).twin_start env).bind (fun rule => ?_)
      fun _ _ hs => hs.alike
    cases rule with
    | some r => exact reject _ (some r)
    | none =>
      refine ((comparableMemories_performs m).twin_start env).bind (fun comparable => ?_)
        fun _ _ hs => hs.alike
      dsimp only
      split
      · exact later (.bind (logOutcome_writes ctx _) fun _ => .pure _)
      · exact later (storeCandidate_performs hm ctx comparable _)

theorem freshIdFor_reads (candidate : Dict String Json) :
    Does (Op.Reads b) (freshIdFor lib candidate) :=
  (Does.op trivial).ite (.pure "")

/-- A write runs alike in states that agree on what the caller owns and on whether the request id is
taken. -/
theorem writeMemory_twin (candidate : Dict String Json) (ctx : RequestContext) :
    Twin (handler env) (SameStart b ctx.request) (Alike b ctx.request)
      (writeMemory lib cfg b candidate ctx) := by
  have hle : ∀ w w', SameStart b ctx.request w w' → Alike b ctx.request w w' :=
    fun _ _ hs => hs.alike
  have first : ∀ {α : Type} {p : MemM α}, Does (Op.Reads b) p →
      Twin (handler env) (SameStart b ctx.request) (SameStart b ctx.request) p := fun h =>
    (h.andMore _).twin_start env
  refine (first (findLogged_reads ctx)).bind (fun logged => ?_) hle
  cases logged with
  | some entry => exact (first (resultFromLog_reads entry)).mono (fun _ _ h => h) hle
  | none =>
    refine .handle ?_ (fun e => ?_)
      (fun _ _ h => h : ∀ w w', Alike b ctx.request w w' → Alike b ctx.request w w')
    · refine .bind (first (.op trivial)) (fun now => ?_) hle
      refine (first (freshIdFor_reads candidate)).bind (fun freshId => ?_) hle
      refine .ofExcept_bind (fun m hm => ?_) hle
      exact writeNormalized_twin env (normalizeCandidate_boundary lib cfg b hm) ctx
    · exact .bind ((logOutcome_writes ctx _).twin_alike env) (fun _ => .raise _)
        fun _ _ h => h

end

end RagForge.Memories
