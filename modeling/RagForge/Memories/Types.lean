import Mathlib.Data.List.Sort
import RagForge.Py.Value

/-
The documents of the long-term memory service (`memory_service.py`).

A memory is stored once in MongoDB and, when the vector index is on, once more as a point of the
index.  Values that the service normalises have their own types; what a caller sends and the service
stores as it is stays `Json`.  Numbers are exact.  Every call acts for an identity, as it must where
internal authentication is required.
-/

namespace RagForge.Memories

open Py

/-- The tenant and the user that every query is limited to (`scope_filter`). -/
structure Boundary where
  tenantId : String
  userId : String
  deriving DecidableEq

/-- A point in time, in microseconds.  A naive one carries no offset from UTC. -/
structure DateTime where
  aware : Bool
  micros : Int

/-- What the service takes from its language and its libraries. -/
structure Lib where
  /-- `str` of a value. -/
  str : Json → String
  lower : String → String
  /-- `re.findall(r"[\w+-]+", s)`. -/
  words : String → List String
  sha256 : String → String
  /-- `datetime.fromisoformat`, where the text is a time. -/
  fromIsoFormat : String → Option DateTime
  /-- `float` of a text, where it is one. -/
  parseFloat : String → Option Rat
  /-- `float` of a number; a number out of range has none. -/
  toFloat : Rat → Option Rat
  /-- `int` of a text, where it is one. -/
  parseInt : String → Option Int
  casefold : String → String
  /-- `uuid5` of a name. -/
  uuid5 : String → String
  /-- `round(x, 6)`. -/
  round6 : Rat → Rat

def plainLib : Lib :=
  let lower (s : String) : String := String.ofList (s.toList.map Char.toLower)
  { str := fun
      | .null => "None"
      | .bool b => if b then "True" else "False"
      | .str s => s
      | _ => "?"
    lower := lower
    words := fun s => ((s.toList.splitOnP fun c => !(c.isAlphanum || c = '_' || c = '-')).map
      String.ofList).filter (· ≠ "")
    sha256 := fun s => "sha256:" ++ s
    fromIsoFormat := fun s =>
      if s = "2024-05-01T00:00:00" then some ⟨false, 1714521600000000⟩
      else if s = "2024-05-01T00:00:00+00:00" then some ⟨true, 1714521600000000⟩
      else none
    parseFloat := fun _ => none
    toFloat := some
    parseInt := fun _ => none
    casefold := lower
    uuid5 := id
    round6 := id }

structure Settings where
  retrievalDefaultLimit : Nat
  dedupeCandidateLimit : Nat
  duplicateSimilarityThreshold : Rat
  conflictSimilarityThreshold : Rat
  qdrantEnabled : Bool

/-- The exceptions of the service and of what it calls. -/
inductive Err
  | database (message : String)
  | value (message : String)
  | typeError
  | overflow
  | duplicateKey
  | mongo (message : String)
  | embedding (message : String)
  | vectorIndex (message : String)

def Err.text : Err → String
  | .database m | .value m | .mongo m | .embedding m | .vectorIndex m => m
  | .typeError => "TypeError"
  | .overflow => "OverflowError"
  | .duplicateKey => "E11000 duplicate key error"

/-! ## Memories -/

inductive MemoryClass
  | episodic
  | semanticPreference
  deriving DecidableEq

inductive Status
  | active
  | superseded
  | archived
  | deleted
  deriving DecidableEq

/-- The state of a memory's point; `other` is any other value that a candidate brought along. -/
inductive EmbeddingStatus
  | disabled
  | indexed
  | pending
  | failed
  | deletePending
  | other
  deriving DecidableEq

/-- `RECONCILIATION_STATUSES`. -/
def EmbeddingStatus.owesRepair : EmbeddingStatus → Bool
  | .pending | .failed | .deletePending => true
  | _ => false

/-- The parts of `retrieval` that the service reads. -/
structure Retrieval where
  keywords : List String
  embeddingStatus : EmbeddingStatus
  indexedRevision : Option Nat

inductive Comparison
  | semantic
  | lexical

inductive Outcome
  | create
  | duplicateExact
  | duplicateSemantic
  | supersede
  | coexist
  | historical
  | needsReview
  deriving DecidableEq

structure Decision where
  outcome : Outcome
  reason : String
  targetId : Option String
  similarity : Option Rat
  comparison : Comparison
  candidatesConsidered : Nat
  relatedIds : List String

structure Conflict where
  relatedId : Option String
  similarity : Option Rat
  detectedAt : Json

/-- What the two classes of memories have each for themselves. -/
inductive Details
  | episodic (eventAt expiresAt : Json) (stability : Rat)
  | semanticPreference (preferenceKey : String) (value valueType : Json) (strength : Rat)
      (evidenceCount : Nat)

structure Memory where
  boundary : Boundary
  id : String
  ownerId : String
  ownerType : String
  text : String
  summary : String
  source : Json
  confidence : Rat
  importance : Rat
  tags : List String
  createdAt : Json
  updatedAt : Json
  lastAccessedAt : Json
  archivedAt : Json
  /-- Documents from before the field existed have none. -/
  status : Option Status
  revision : Nat
  supersedes : Option String
  supersededBy : Option String
  contentHash : String
  validFrom : Json
  validTo : Json
  scope : Dict String Json
  scopeKey : String
  factKey : Option String
  consolidation : Option Decision
  conflict : Option Conflict
  provenance : Dict String Json
  retrieval : Retrieval
  details : Details

namespace Memory

def memoryClass (m : Memory) : MemoryClass :=
  match m.details with
  | .episodic .. => .episodic
  | .semanticPreference .. => .semanticPreference

def preferenceKey (m : Memory) : Option String :=
  match m.details with
  | .episodic .. => none
  | .semanticPreference key .. => some key

def memoryStatus (m : Memory) : Status :=
  m.status.getD (if m.archivedAt.truthy then .archived else .active)

end Memory

/-! ## Other documents -/

structure Tombstone where
  boundary : Boundary
  memoryId : String
  ownerId : String
  ownerType : String
  memoryClass : MemoryClass
  contentHash : String
  factKey : Option String
  preferenceKey : Option String
  scopeKey : String

inductive WriteStatus
  | accepted
  | merged
  | duplicate
  | rejected
  | failed
  deriving DecidableEq

/-- What the write log keeps of an outcome and a repeated request reads back. -/
structure LoggedOutcome where
  status : WriteStatus
  memoryId : Option String
  memoryClass : Option MemoryClass
  reason : String
  qdrantIndexed : Option Bool
  deriving DecidableEq

structure LogEntry where
  boundary : Boundary
  id : String
  requestId : Option String
  outcome : LoggedOutcome
  deriving DecidableEq

/-- A point of the index with the parts of its payload that are read. -/
structure Point where
  pointId : String
  boundary : Boundary
  memoryId : String
  ownerId : String
  ownerType : String
  status : Status
  archived : Bool
  revision : Nat
  vector : List Rat

/-- Which rule matched a candidate with a deletion. -/
inductive TombstoneMatch
  | canonicalMemoryId
  | supersedesDeletedMemory
  | preferenceKeySameOwner
  | exactContentSameScope
  | factKeySameScope

structure WriteResult where
  status : WriteStatus
  memoryId : Option String
  memoryClass : Option MemoryClass
  reason : String
  qdrantIndexed : Option Bool
  embeddingStatus : Option EmbeddingStatus
  reconciliationRequired : Bool
  tombstoneMatch : Option TombstoneMatch := none
  supersededMemoryId : Option String := none
  consolidation : Option Decision := none
  isCurrent : Option Bool := none

/-! ## Texts, numbers and times -/

section

variable (lib : Lib)

def normalizeText (value : Json) : String := collapse (if value.truthy then lib.str value else "")

def parseDatetime (value : Json) : Option DateTime :=
  if value.truthy then
    lib.fromIsoFormat (String.ofList ((lib.str value).toList.flatMap fun c =>
      if c = 'Z' then "+00:00".toList else [c]))
  else none

/-- `a > b`, which Python refuses between an aware and a naive time. -/
def DateTime.after (a b : DateTime) : Except Err Bool :=
  if a.aware = b.aware then .ok (decide (b.micros < a.micros)) else .error .typeError

/-- `_coerce_float`: numbers and texts that are numbers, within 0 and 1. -/
def coerceFloat (value : Json) (default : Rat) : Except Err Rat :=
  let clamp (q : Rat) : Rat := max 0 (min 1 q)
  match value with
  | .num q =>
    match lib.toFloat q with
    | some r => .ok (clamp r)
    | none => .error .overflow
  | .bool b => .ok (if b then 1 else 0)
  | .str s => .ok (((lib.parseFloat s).map clamp).getD default)
  | _ => .ok default

def coerceInt (value : Json) (default : Nat) : Nat :=
  match value with
  | .num q => (Int.tdiv q.num q.den).toNat
  | .bool b => if b then 1 else 0
  | .str s => ((lib.parseInt s).map Int.toNat).getD default
  | _ => default

def asStringList (value : Json) : List String :=
  let parts : List Json :=
    match value with
    | .null => []
    | .str s => (s.toList.splitOnP fun c => c = ',' || c = '|').map fun cs =>
      .str (String.ofList cs)
    | .arr xs => xs
    | other => [other]
  firsts ((parts.map fun x => lib.lower (normalizeText lib x)).filter fun s => s != "")

def stringList (xs : List String) : List String := asStringList lib (.arr (xs.map Json.str))

def tokenize (text : String) : List String := firsts (lib.words (lib.lower text))

def contentHash (ownerId ownerType : String) (memoryClass : MemoryClass) (text : String) : String :=
  let name := match memoryClass with
    | .episodic => "episodic"
    | .semanticPreference => "semantic_preference"
  lib.sha256 ("|".intercalate [ownerId, ownerType, name, lib.lower (strip text)])

def buildSummary (text : String) : String :=
  if text.length ≤ 160 then text else rstrip (clip 157 text) ++ "..."

/-- `scope_key`: the scope as a sorted text. -/
def scopeKey (scope : Dict String Json) : String :=
  let normalized := scope.foldl (fun (d : Dict String String) entry =>
    let key := strip entry.1
    let value := strip (lib.str entry.2)
    if key = "" ∨ value = "" then d else d.set (lib.lower key) (lib.lower value)) []
  "&".intercalate ((normalized.insertionSort fun a b => a.1 ≤ b.1).map fun e => e.1 ++ "=" ++ e.2)

end

end RagForge.Memories
