import RagForge.JsonText.Parse

/-
Golden sets, as `golden_set_parser.py` reads them.

A golden set arrives as JSON or JSON Lines.  `parseGoldenSet` turns it into canonical items or
rejects it with the first reason it finds; `validateGoldenSet` looks at every item and reports what
is wrong with each.  Item ids that the author left out are generated.
-/

namespace RagForge.Golden

open JsonText (Doc)
open Py (strip)

/-- Why `json.loads` gives no document: a syntax error, or any other exception. -/
inductive Fault
  | decode (line column : Nat) (message : String)
  | other (message : String)

/-- What the parser takes from Python: `json.loads`, `bytes.decode("utf-8-sig")` and `repr`. -/
structure Env (ν : Type) where
  loads : List Char → Except Fault (Doc ν)
  decode : List UInt8 → Option (List Char)
  repr : String → String

/-- A `GoldenSetValidationError`, or an exception of another kind. -/
inductive Failure
  | invalid (message : String)
  | other (message : String)

inductive Content
  | text (t : List Char)
  | bytes (bs : List UInt8)
  | other

structure Limits where
  maxInputBytes : Int := 5 * 1024 * 1024
  maxItems : Int := 1000
  maxQueryLength : Int := 2000

structure Item where
  itemId : String
  query : String
  relevantChunkIds : List String
  relevantFileIds : List String
  expectedFileNames : List String
  expectedAnswer : Option String
  expectedClaims : List String
  unresolvedExpectedFacts : List String
  difficulty : Option String
  answerable : Option Bool
  tags : List String
  notes : Option String
  deriving DecidableEq

variable {ν : Type}

/-- `raw.get(key)`. -/
def get (raw : Doc ν) (key : String) : Doc ν :=
  match raw with
  | .obj fields => (Py.Dict.get? fields key).getD .null
  | _ => .null

/-! ## Fields of an item -/

def stringElements (index : Nat) (field : String) :
    Nat → List (Doc ν) → Except String (List String)
  | _, [] => .ok []
  | pos, element :: rest =>
    match element with
    | .str s =>
      if strip s = "" then
        .error s!"Item {index}: {field}[{pos}] must be a non-empty string"
      else (stringElements index field (pos + 1) rest).map (strip s :: ·)
    | _ => .error s!"Item {index}: {field}[{pos}] must be a non-empty string"

def stringList (value : Doc ν) (index : Nat) (field : String) : Except String (List String) :=
  match value with
  | .null => .ok []
  | .arr elements => stringElements index field 0 elements
  | _ => .error s!"Item {index}: {field} must be a list"

def optionalString (value : Doc ν) (index : Nat) (field : String) :
    Except String (Option String) :=
  match value with
  | .null => .ok none
  | .str s => .ok (if strip s = "" then none else some (strip s))
  | _ => .error s!"Item {index}: {field} must be a string or null"

def expectedClaims (raw : Doc ν) (index : Nat) : Except String (List String) := do
  let facts ← stringList (get raw "expected_facts") index "expected_facts"
  let claims ← stringList (get raw "expected_claims") index "expected_claims"
  if facts ≠ [] ∧ claims ≠ [] ∧ facts ≠ claims then
    .error s!"Item {index}: expected_facts and expected_claims disagree"
  else .ok (if facts ≠ [] then facts else claims)

def answerableOf (raw : Doc ν) (index : Nat) : Except String (Option Bool) :=
  match get raw "answerable" with
  | .null => .ok none
  | .bool b => .ok (some b)
  | _ => .error s!"Item {index}: answerable must be a boolean or null"

def queryOf (raw : Doc ν) (index : Nat) (maxQueryLength : Int) : Except String String :=
  match get raw "query" with
  | .str query =>
    if strip query = "" then .error s!"Item {index} has no query"
    else if maxQueryLength < query.length then
      .error (s!"Item {index} has a {query.length}-character query; " ++
        s!"the limit is {maxQueryLength}")
    else .ok (strip query)
  | _ => .error s!"Item {index} has no query"

/-- The id that the author gave, `none` where one has to be generated. -/
def suppliedId (raw : Doc ν) (index : Nat) : Except String (Option String) :=
  match get raw "item_id" with
  | .null => .ok none
  | .str s =>
    if strip s = "" then .error s!"Item {index}: item_id must be a non-empty string"
    else .ok (some (strip s))
  | _ => .error s!"Item {index}: item_id must be a non-empty string"

/-- The rest of an item, once its query and its id are known. -/
def fieldsOf (raw : Doc ν) (index : Nat) (query itemId : String) : Except String Item := do
  let chunkIds ← stringList (get raw "relevant_chunk_ids") index "relevant_chunk_ids"
  let fileIds ← stringList (get raw "relevant_file_ids") index "relevant_file_ids"
  let fileNames ← stringList (get raw "expected_file_names") index "expected_file_names"
  let claims ← expectedClaims raw index
  let unresolvedFacts ←
    stringList (get raw "unresolved_expected_facts") index "unresolved_expected_facts"
  let tags ← stringList (get raw "tags") index "tags"
  let expectedAnswer ← optionalString (get raw "expected_answer") index "expected_answer"
  let difficulty ← optionalString (get raw "difficulty") index "difficulty"
  let notes ← optionalString (get raw "notes") index "notes"
  let answerable ← answerableOf raw index
  if chunkIds = [] ∧ fileIds = [] ∧ fileNames = [] ∧ claims = [] ∧ expectedAnswer = none ∧
      answerable ≠ some false then
    .error (s!"Item {index} lists no relevant_chunk_ids or relevant_file_ids, " ++
      "expected_file_names, expected facts, or expected_answer")
  else
    .ok {
      itemId := itemId
      query := query
      relevantChunkIds := chunkIds
      relevantFileIds := fileIds
      expectedFileNames := fileNames
      expectedAnswer := expectedAnswer
      expectedClaims := claims
      unresolvedExpectedFacts := unresolvedFacts
      difficulty := difficulty
      answerable := answerable
      tags := tags
      notes := notes }

/-! ## Lists of items -/

section Normalize

-- Ids are drawn from `uuid4` in turn: a run that has drawn `n` of them takes `ids n` next.
variable (E : Env ν) (ids : Nat → String) (maxQueryLength : Int)

/-- One turn of the loop of `normalize_golden_set_items`. -/
def normalizeItem (index : Nat) (raw : Doc ν) (seen : List String) (n : Nat) :
    Except String Item × Nat :=
  match raw with
  | .obj _ =>
    match queryOf raw index maxQueryLength with
    | .error e => (.error e, n)
    | .ok query =>
      match suppliedId raw index with
      | .error e => (.error e, n)
      | .ok supplied =>
        let itemId := supplied.getD (ids n)
        let next := if supplied.isNone then n + 1 else n
        if itemId ∈ seen then
          (.error s!"Item {index} repeats item_id {E.repr itemId}", next)
        else (fieldsOf raw index query itemId, next)
  | _ => (.error s!"Item {index} is not an object", n)

def normalizeLoop : Nat → List (Doc ν) → List String → Nat → Except String (List Item) × Nat
  | _, [], _, n => (.ok [], n)
  | index, raw :: rest, seen, n =>
    match normalizeItem E ids maxQueryLength index raw seen n with
    | (.error e, n) => (.error e, n)
    | (.ok item, n) =>
      let (items, n) := normalizeLoop (index + 1) rest (item.itemId :: seen) n
      (items.map (item :: ·), n)

def normalizeGoldenSetItems (rawItems : List (Doc ν)) (maxItems : Int) (n : Nat) :
    Except String (List Item) × Nat :=
  if rawItems = [] then (.error "A dataset must contain at least one item", n)
  else if maxItems < rawItems.length then
    (.error s!"Dataset has {rawItems.length} items; the limit is {maxItems}", n)
  else normalizeLoop E ids maxQueryLength 0 rawItems [] n

end Normalize

/-! ## Texts -/

/-- The characters at which `str.splitlines` ends a line. -/
def isBreak (c : Char) : Bool :=
  [0x0a, 0x0b, 0x0c, 0x0d, 0x1c, 0x1d, 0x1e, 0x85, 0x2028, 0x2029].contains c.toNat

/-- `text.splitlines()`: a carriage return and the newline after it are one break. -/
def splitLines : List Char → List (List Char)
  | [] => []
  | '\r' :: '\n' :: rest => [] :: splitLines rest
  | c :: rest =>
    if isBreak c then [] :: splitLines rest
    else
      match splitLines rest with
      | [] => [[c]]
      | line :: lines => (c :: line) :: lines

def dropBom : List Char → List Char
  | '\ufeff' :: rest => rest
  | t => t

section Source

variable (E : Env ν)

def boundedText (content : Content) (maxInputBytes : Int) : Except Failure (List Char) :=
  if maxInputBytes < 1 then .error (.invalid "The input-size limit must be positive")
  else
    match content with
    | .other => .error (.invalid "Golden Set content must be text or UTF-8 bytes")
    | .text t =>
      let size := (String.ofList t).utf8ByteSize
      if maxInputBytes < size then
        .error (.invalid s!"Golden Set input is {size} bytes; the limit is {maxInputBytes}")
      else .ok (dropBom t)
    | .bytes bs =>
      if maxInputBytes < bs.length then
        .error (.invalid s!"Golden Set input is {bs.length} bytes; the limit is {maxInputBytes}")
      else
        match E.decode bs with
        | some t => .ok t
        | none => .error (.invalid "Golden Set input must be valid UTF-8")

def parseJson (text : List Char) : Except Failure (List (Doc ν)) :=
  match E.loads text with
  | .error (.decode line column message) =>
    .error (.invalid s!"Malformed JSON at line {line}, column {column}: {message}")
  | .error (.other message) => .error (.other message)
  | .ok (.arr document) => .ok document
  | .ok (.obj fields) =>
    match Py.Dict.get? fields "items" with
    | some (.arr items) => .ok items
    | some _ => .error (.invalid "JSON field 'items' must be an array")
    | none => .ok [.obj fields]
  | .ok _ =>
    .error (.invalid "JSON must contain an item, an item array, or an object with 'items'")

/-- The loop of `_parse_jsonl` over the lines from number `line` on, with `count` items read. -/
def parseLines (maxItems : Int) : Nat → Nat → List (List Char) → Except Failure (List (Doc ν))
  | _, _, [] => .ok []
  | number, count, line :: lines =>
    if strip (String.ofList line) = "" then parseLines maxItems (number + 1) count lines
    else if maxItems ≤ count then
      .error (.invalid s!"Dataset has more than {maxItems} items; the limit is {maxItems}")
    else
      match E.loads line with
      | .error (.decode _ column message) =>
        .error (.invalid s!"Malformed JSONL at line {number}, column {column}: {message}")
      | .error (.other message) => .error (.other message)
      | .ok (.obj fields) =>
        (parseLines maxItems (number + 1) (count + 1) lines).map (.obj fields :: ·)
      | .ok _ => .error (.invalid s!"JSONL line {number} is not an object")

def parseJsonl (text : List Char) (maxItems : Int) : Except Failure (List (Doc ν)) :=
  parseLines E maxItems 1 0 (splitLines text)

/-- `str(source_format or "").strip().lower().lstrip(".")`, for the letters of the formats. -/
def normalizedFormat (sourceFormat : String) : String :=
  String.ofList (((strip sourceFormat).toList.map Char.toLower).dropWhile (· = '.'))

def parseSource (text : List Char) (sourceFormat : String) (maxItems : Int) :
    Except Failure (List (Doc ν)) :=
  if normalizedFormat sourceFormat = "json" then parseJson E text
  else if normalizedFormat sourceFormat ∈ ["jsonl", "ndjson"] then parseJsonl E text maxItems
  else
    .error (.invalid (s!"Unsupported Golden Set format {E.repr sourceFormat}; " ++
      "use 'json' or 'jsonl'"))

def decoded (content : Content) (sourceFormat : String) (limits : Limits) :
    Except Failure (List (Doc ν)) := do
  let text ← boundedText E content limits.maxInputBytes
  parseSource E text sourceFormat limits.maxItems

/-- `parse_golden_set`, with the ids that `uuid4` gives from now on. -/
def parseGoldenSet (ids : Nat → String) (content : Content) (sourceFormat : String)
    (limits : Limits) : Except Failure (List Item) := do
  let rawItems ← decoded E content sourceFormat limits
  match (normalizeGoldenSetItems E ids limits.maxQueryLength rawItems limits.maxItems 0).1 with
  | .error message => .error (.invalid message)
  | .ok items => .ok items

/-! ## Validation -/

structure ItemError where
  itemIndex : Option Nat
  message : String

structure Report where
  valid : Bool
  totalItems : Nat
  validItems : Nat
  invalidItems : Nat
  errors : List ItemError

def validationResult (total valid invalid : Nat) (errors : List ItemError) : Report where
  valid := errors.isEmpty
  totalItems := total
  validItems := valid
  invalidItems := invalid
  errors := errors

/-- An error of a list of one item names the item by its own index. -/
def reindexed (index : Nat) (message : String) : String :=
  if "Item 0".toList.isPrefixOf message.toList then
    s!"Item {index}" ++ String.ofList (message.toList.drop 6)
  else message

/-- `raw.get("item_id") is not None`. -/
def suppliesId (raw : Doc ν) : Bool :=
  match get raw "item_id" with
  | .null => false
  | _ => true

/-- The loop of `validate_golden_set`: the valid items counted, and the errors in order. -/
def validateLoop (ids : Nat → String) (maxQueryLength : Int) :
    Nat → List (Doc ν) → List String → Nat → Nat × List ItemError
  | _, [], _, _ => (0, [])
  | index, raw :: rest, seen, n =>
    let (result, n) := normalizeGoldenSetItems E ids maxQueryLength [raw] 1 n
    let outcome : Except String String :=
      match result with
      | .error message => .error message
      | .ok [] => .error ""
      | .ok (item :: _) =>
        if suppliesId raw && item.itemId ∈ seen then
          .error s!"Item {index} repeats item_id {E.repr item.itemId}"
        else .ok item.itemId
    match outcome with
    | .error message =>
      let (valid, errors) := validateLoop ids maxQueryLength (index + 1) rest seen n
      (valid, ⟨some index, reindexed index message⟩ :: errors)
    | .ok itemId =>
      let (valid, errors) := validateLoop ids maxQueryLength (index + 1) rest (itemId :: seen) n
      (valid + 1, errors)

def validateItems (ids : Nat → String) (limits : Limits) (rawItems : List (Doc ν)) : Report :=
  let total := rawItems.length
  if rawItems = [] then
    validationResult 0 0 0 [⟨none, "A dataset must contain at least one item"⟩]
  else if limits.maxItems < total then
    validationResult total 0 total
      [⟨none, s!"Dataset has {total} items; the limit is {limits.maxItems}"⟩]
  else
    let (valid, errors) := validateLoop E ids limits.maxQueryLength 0 rawItems [] 0
    validationResult total valid (total - valid) errors

def validateGoldenSet (ids : Nat → String) (content : Content) (sourceFormat : String)
    (limits : Limits) : Except Failure Report :=
  match decoded E content sourceFormat limits with
  | .error (.invalid message) => .ok (validationResult 0 0 0 [⟨none, message⟩])
  | .error (.other message) => .error (.other message)
  | .ok rawItems => .ok (validateItems E ids limits rawItems)

end Source

end RagForge.Golden
