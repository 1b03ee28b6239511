import RagForge.JsonText.Decimal
import RagForge.Llm.Window

/-
The content risk scan of the LLM agent (`prompts/content_risk.py`): the prompt it is asked with and
what is made of the model's output.
-/

namespace RagForge.Llm

open Py

/-- `ContentRiskScanInput` as the conversation service fills it. -/
structure RiskScanInput where
  content : String
  policyHints : List String
  contentType : String

/-! ## The prompt -/

def dumpTexts (texts : List String) : List Char :=
  JsonText.print JsonText.intNumerals ⟨true, true⟩ (.arr (texts.map .str))

def riskSystemPrompt : String :=
  "You perform content risk classification. Return exactly one JSON object and nothing else. " ++
    "Do not use markdown, code fences, or commentary."

def riskPromptFront (input : RiskScanInput) : List Char :=
  ("Content Type: " ++ strOr input.contentType "unknown" ++ "\nPolicy Hints: ").toList ++
    dumpTexts input.policyHints ++ "\n\nContent:\n".toList

def riskPromptBack : List Char :=
  ("\n\nReturn exactly one JSON object with these keys and value types:\n" ++
    "- \"risk_level\": string\n" ++
    "- \"categories\": array of strings\n" ++
    "- \"flags\": array of objects with keys \"code\" (string), \"span\" (string or null), " ++
    "\"rationale\" (string)\n" ++
    "- \"summary\": string\n\n" ++
    "Do not include extra keys, markdown, surrounding prose, or alternative JSON objects.\n" ++
    "If you revise your answer internally, output only the final JSON object once.\n" ++
    "Minimal valid example:\n" ++
    "\x7b\"risk_level\":\"low\",\"categories\":[\"none\"],\"flags\":[]," ++
    "\"summary\":\"No material policy issues detected.\"\x7d").toList

/-- `build_prompt_v2`: the raw prompt. -/
def riskPrompt (input : RiskScanInput) : String :=
  String.ofList (riskPromptFront input ++ input.content.toList ++ riskPromptBack)

def riskBudget (w : Window) : Except String Nat :=
  w.inputBudgetChars (estimateTokens riskSystemPrompt)

/-- `render` for a risk scan: the prompt that is given to the model. -/
def renderRiskScan (w : Window) (input : RiskScanInput) : Except String String :=
  match riskBudget w with
  | .error message => .error message
  | .ok budget => truncateMiddle (riskPrompt input) budget

-- Kernel evaluation of a long text is slow, so its pieces become lists of characters first.
theorem riskPromptBack_shape : riskPromptBack.length = 531 ∧ 'Z' ∉ riskPromptBack := by
  unfold riskPromptBack
  simp only [String.toList_append, String.reduceToList]
  decide +kernel

/-! ## The output -/

def normalizeFlagItem (lang : Lang) : Json → Except String Json
  | .str text =>
    if strip text = "" then .error "Risk flag strings must not be empty"
    else .ok (.obj [("code", .str (strip text)), ("span", .null),
      ("rationale", .str (strip text))])
  | .obj fields =>
    let item := Json.obj fields
    let rawCode := item.get "code"
    let rawRationale := (item.get? "rationale").getD (item.get "reason")
    let code := strip (lang.str ((rawCode.orElse rawRationale).orElse (.str "")))
    let rationale := strip (lang.str ((rawRationale.orElse rawCode).orElse (.str "")))
    let span :=
      match item.get "span" with
      | .null => Json.null
      | value => if strip (lang.str value) = "" then .null else .str (strip (lang.str value))
    if code = "" ∨ rationale = "" then
      .error "Risk flag objects must include a code or rationale"
    else .ok (.obj [("code", .str code), ("span", span), ("rationale", .str rationale)])
  | _ => .error "Risk flags must be strings or objects"

/-- The flags of a payload as a list. -/
def riskFlags (payload : Json) : Except String (List Json) :=
  match (payload.get "flags").orElse (.arr []) with
  | .str text => .ok [.str text]
  | .arr items => .ok items
  | _ => .error "Risk scan flags must be a string or list"

def normalizeRiskPayload (lang : Lang) : Json → Except String (Dict String Json)
  | .obj fields => do
      let payload := Json.obj fields
      let categories ← normalizeStringList lang (payload.get "categories")
      let flags ← riskFlags payload
      let items ← flags.mapM (normalizeFlagItem lang)
      return Dict.set (Dict.set fields "categories" (.arr (categories.map .str))) "flags"
        (.arr items)
  | _ => .error "Content risk scan output must be a JSON object"

/-- The keys of `ContentRiskScanParsedOutput`, which allows no others. -/
def riskOutputKeys : List String := ["risk_level", "categories", "flags", "summary"]

/-- Validation as `ContentRiskScanParsedOutput`.  The normalised lists are valid as they are. -/
def validateRiskOutput (lang : Lang) (fields : Dict String Json) : Except String Json :=
  let payload := Json.obj fields
  match payload.get? "risk_level", payload.get? "summary" with
  | some (.str level), some (.str summary) =>
    if fields.all fun field => riskOutputKeys.contains field.1 then
      .ok (.obj [("risk_level", .str level), ("categories", payload.get "categories"),
        ("flags", payload.get "flags"), ("summary", .str summary)])
    else .error (lang.validationText payload)
  | _, _ => .error (lang.validationText payload)

/-- The parse and validation stages of `execute`. -/
def decodeRiskOutput (lang : Lang) (rawOutput : String) : Except Failure Json :=
  match extractJsonPayload lang rawOutput >>= normalizeRiskPayload lang with
  | .error detail =>
    .error ⟨"structured_output_invalid", "Structured output parse failed: " ++ detail⟩
  | .ok normalized =>
    match validateRiskOutput lang normalized with
    | .error detail =>
      .error ⟨"validation_error", "Structured output validation failed: " ++ detail⟩
    | .ok parsed => .ok parsed

theorem normalizeRiskPayload_level {lang : Lang} {payload : Json} {normalized : Dict String Json}
    (h : normalizeRiskPayload lang payload = .ok normalized) :
    ∃ fields, payload = .obj fields ∧
      Dict.get? normalized "risk_level" = Dict.get? fields "risk_level" := by
  cases payload with
  | obj fields =>
    refine ⟨fields, rfl, ?_⟩
    obtain ⟨_, -, h⟩ := ok_of_bind h
    obtain ⟨_, -, h⟩ := ok_of_bind h
    obtain ⟨_, -, h⟩ := ok_of_bind h
    rw [← Except.ok.inj h, Dict.get?_set_ne _ (by decide), Dict.get?_set_ne _ (by decide)]
  | _ => cases h

theorem validateRiskOutput_level {lang : Lang} {fields : Dict String Json} {parsed : Json}
    (h : validateRiskOutput lang fields = .ok parsed) :
    ∃ level, Dict.get? fields "risk_level" = some (.str level) ∧
      ∃ output, parsed = .obj output ∧ Dict.get? output "risk_level" = some (.str level) := by
  unfold validateRiskOutput at h
  dsimp only at h
  split at h
  · next level summary hlevel hsummary =>
    split at h
    · exact ⟨level, hlevel, _, (Except.ok.inj h).symm, by simp [Dict.get?]⟩
    · cases h
  · cases h

theorem decodeRiskOutput_ok {lang : Lang} {rawOutput : String} {parsed : Json}
    (h : decodeRiskOutput lang rawOutput = .ok parsed) :
    ∃ payload level, extractJsonPayload lang rawOutput = .ok payload ∧
      payload.get? "risk_level" = some (.str level) ∧
      ∃ fields, parsed = .obj fields ∧ Dict.get? fields "risk_level" = some (.str level) := by
  unfold decodeRiskOutput at h
  split at h
  · cases h
  · next normalized hparsed =>
    obtain ⟨payload, hextract, hnormalized⟩ := ok_of_bind hparsed
    split at h
    · cases h
    · next output hvalid =>
      cases h
      obtain ⟨fields, rfl, hsame⟩ := normalizeRiskPayload_level hnormalized
      obtain ⟨level, hlevel, houtput⟩ := validateRiskOutput_level hvalid
      exact ⟨_, level, hextract, hsame.symm.trans hlevel, houtput⟩

end RagForge.Llm
