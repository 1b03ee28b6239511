import RagForge.Py.Value

/-
Structured model output in the LLM agent (`llm/prompts/_base.py`, `llm_service.py` and
`llm_handler.py`).

A model answers with text.  The agent takes the last JSON document it finds in it, normalises and
validates it, and replies with the document or with the first error.
-/

namespace RagForge.Llm

open Py

/-- Why `json.loads` gives no value: a syntax error, or any other exception. -/
inductive LoadsFault
  | decode
  | other (message : String)

/-- What the agent takes from its language, its libraries and its settings. -/
structure Lang where
  loads : String → Except LoadsFault Json
  /-- `str` of a value. -/
  str : Json → String
  lower : String → String
  /-- `float` of a text, where it is one. -/
  parseFloat : String → Option Rat
  /-- `float` of a number; a number out of range has none. -/
  toFloat : Rat → Option Rat
  /-- What a failed validation of a payload says. -/
  validationText : Json → String
  redactSecrets : String → String
  debugMaxFieldLength : Int
  str_str : ∀ s, str (.str s) = s
  /-- White space has no case. -/
  lower_head : ∀ {s : String} {c : Char}, isSpace c = true → s.toList.head? = some c →
    (lower s).toList.head? = some c
  lower_last : ∀ {s : String} {c : Char}, isSpace c = true → s.toList.getLast? = some c →
    (lower s).toList.getLast? = some c

/-! ## Extraction -/

/-- What is left of a fenced block, `^```(?:json)?\s*(.*?)\s*```$` with its group stripped. -/
def unfence (candidate : String) : String :=
  let fence := ['`', '`', '`']
  let cs := candidate.toList
  if fence.isPrefixOf cs && fence.isSuffixOf cs && decide (6 ≤ cs.length) then
    let inner := (cs.drop 3).dropLast.dropLast.dropLast
    -- Without regard to case, an `s` also matches the long s.
    let fold (c : Char) : Char := if c = 'ſ' then 's' else c.toLower
    let tagged := (inner.take 4).map fold == ['j', 's', 'o', 'n']
    strip (String.ofList (if tagged then inner.drop 4 else inner))
  else candidate

/-- The variables of `_scan_top_level_json_fragments`; `current` holds the characters since
`start_index`, the newest first. -/
structure Scan where
  fragments : List String := []
  current : Option (List Char) := none
  stack : List Char := []
  inString : Bool := false
  escaped : Bool := false

def closerOf (c : Char) : Option Char :=
  if c = '{' then some '}' else if c = '[' then some ']' else none

def Scan.step (s : Scan) (c : Char) : Scan :=
  let s := { s with current := s.current.map (c :: ·) }
  if s.inString then
    if s.escaped then { s with escaped := false }
    else if c = '\\' then { s with escaped := true }
    else if c = '"' then { s with inString := false }
    else s
  else if c = '"' then { s with inString := true }
  else
    match closerOf c with
    | some closer =>
      { s with
        current := if s.stack.isEmpty then some [c] else s.current
        stack := closer :: s.stack }
    | none =>
      if c = '}' ∨ c = ']' then
        match s.stack with
        | [] => s
        | expected :: rest =>
          if c ≠ expected then { s with stack := [], current := none }
          else if rest.isEmpty then
            { s with
              fragments := s.fragments ++
                (s.current.map fun cs => String.ofList cs.reverse).toList
              stack := []
              current := none }
          else { s with stack := rest }
      else s

def scanFragments (candidate : String) : List String :=
  (candidate.toList.foldl Scan.step {}).fragments

def loadFragments (lang : Lang) : List String → Except String (List Json)
  | [] => .ok []
  | fragment :: rest =>
    match lang.loads fragment with
    | .error (.other message) => .error message
    | .error .decode => loadFragments lang rest
    | .ok value =>
      match loadFragments lang rest with
      | .error message => .error message
      | .ok values => .ok (value :: values)

/-- `_extract_json_payload_with_metadata` with the policy `last_valid`: the selected payload. -/
def extractJsonPayload (lang : Lang) (rawOutput : String) : Except String Json :=
  let candidate := strip rawOutput
  if candidate = "" then .error "Model returned an empty response"
  else
    let candidate := unfence candidate
    match lang.loads candidate with
    | .ok value => .ok value
    | .error (.other message) => .error message
    | .error .decode =>
      match loadFragments lang (scanFragments candidate) with
      | .error message => .error message
      | .ok values =>
        match values.getLast? with
        | none => .error "No valid JSON object found in model output"
        | some value => .ok value

/-! ## Coercions -/

def coerceNumber (lang : Lang) : Json → Json
  | .str text =>
    if strip text = "" then .str text
    else
      match lang.parseFloat (strip text) with
      | some q => .num q
      | none => .str text
  | value => value

def coerceBool (lang : Lang) : Json → Json
  | .str text =>
    if lang.lower (strip text) = "true" then .bool true
    else if lang.lower (strip text) = "false" then .bool false
    else .str text
  | value => value

def normalizeStringList (lang : Lang) : Json → Except String (List String)
  | .null => .ok []
  | .str text => .ok (if strip text = "" then [] else [strip text])
  | .arr items => .ok ((items.map fun item => strip (lang.str item)).filter fun text => text != "")
  | _ => .error "Expected a string or list of strings"

/-! ## Replies -/

def truncateText (maxChars : Int) (text : String) : String :=
  if maxChars ≤ 0 ∨ (text.length : Int) ≤ maxChars then text
  else
    let omitted := text.length - maxChars.toNat
    clip maxChars.toNat text ++ "...[TRUNCATED " ++ toString omitted ++ " chars]"

def sanitizeDebugText (lang : Lang) (text : String) : String :=
  truncateText lang.debugMaxFieldLength (lang.redactSecrets text)

def errorEntry (lang : Lang) (code message : String) : Json :=
  .obj [("code", .str code),
    ("message", .str (sanitizeDebugText lang (lang.redactSecrets message)))]

def applicationStatuses : List String :=
  ["success", "provider_error", "provider_protocol_error", "provider_http_error",
    "provider_timeout", "structured_output_invalid", "validation_error", "timeout",
    "execution_error", "streaming_not_supported", "invalid_request"]

structure Failure where
  code : String
  message : String

/-- The fields of `ModelExecutionResponsePayload` that readers of a reply use. -/
def responsePayload (lang : Lang) (requestType model rawOutput : String) :
    Except Failure Json → Json
  | .ok parsed =>
    .obj [("request_type", .str requestType), ("status", .str "success"),
      ("raw_output", .str (sanitizeDebugText lang rawOutput)), ("parsed_output", parsed),
      ("model", .str model), ("errors", .arr [])]
  | .error failure =>
    .obj [("request_type", .str requestType), ("status", .str "error"),
      ("raw_output", .str (sanitizeDebugText lang rawOutput)), ("parsed_output", .null),
      ("model", .str model), ("errors", .arr [errorEntry lang failure.code failure.message])]

def replyMessage (lang : Lang) (requestType model rawOutput : String)
    (result : Except Failure Json) : Json :=
  .obj [("message_type", .str "reply"), ("action", .str requestType),
    ("source_service", .str "llm_agent"), ("success", .bool result.toBool),
    ("payload", responsePayload lang requestType model rawOutput result),
    ("error",
      match result with
      | .ok _ => .null
      | .error failure => errorEntry lang failure.code failure.message)]

/-- What became of a request: the model answered, the call failed before or in the provider, the
service refused the request without running it, or nothing was sent back. -/
inductive Exchange
  | answered (rawOutput : String)
  | failed (failure : Failure)
  | refused (source code message : String)
  | silent

/-- The reply to a request whose output `decode` reads.  A code that `ApplicationStatus` lacks makes
the payload of the reply invalid, and then no reply is sent. -/
def agentReply (lang : Lang) (requestType model : String)
    (decode : String → Except Failure Json) : Exchange → Option Json
  | .answered rawOutput => some (replyMessage lang requestType model rawOutput (decode rawOutput))
  | .failed failure =>
    if failure.code ∈ applicationStatuses then
      some (replyMessage lang requestType model "" (.error failure))
    else none
  | .refused source code message =>
    some (.obj [("message_type", .str "reply"), ("source_service", .str source),
      ("success", .bool false), ("payload", .obj []),
      ("error", .obj [("code", .str code), ("message", .str message)])])
  | .silent => none

end RagForge.Llm
