import RagForge.JsonText.RoundTrip
import RagForge.Llm.Risk
import RagForge.Rag.InputGate
import RagForge.Rag.Replies

/-
Risk scans end to end: the text that the conversation service has scanned, the prompt that the risk
model is given, its output, and the verdict that the guardrail nodes act on.
-/

namespace RagForge.Rag

open Effect Py Llm

/-- `_llm_risk_scan_payload`: the input of the request. -/
def riskScanInput (text : String) : ScanStage → RiskScanInput
  | .input => ⟨text, ["prompt_injection"], "user_input"⟩
  | .output => ⟨text, ["prompt_injection", "unsafe_output"], "assistant_output"⟩

/-- What became of a scan, when `provider` tells what becomes of a rendered prompt. -/
def scanExchange (w : Window) (provider : String → Exchange) (input : RiskScanInput) : Exchange :=
  match renderRiskScan w input with
  | .error message => .failed ⟨"execution_error", message⟩
  | .ok prompt => provider prompt

/-- What `risk_scan` returns or raises. -/
def riskScanReply (lang : Lang) (model : String) (x : Exchange) : Except Err Json :=
  receiveReply lang (agentReply lang "content_risk_scan" model (decodeRiskOutput lang) x)

/-! ## Verdicts -/

variable {stage : ScanStage} {doc : JsonText.Doc Int} {level model text : String} {w : Window}
  {lang : Lang} {c : Char} {budget n : Nat}

theorem riskScanReply_accepted {rawOutput : String} {fields : List (String × Json)} (model : String)
    (hdecode : decodeRiskOutput lang rawOutput = .ok (.obj fields))
    (hlevel : Dict.get? fields "risk_level" = some (.str level)) :
    ∃ verdict, riskScanReply lang model (.answered rawOutput) = .ok verdict ∧
      (verdict.get "blocked").truthy = decide (lang.lower level ∈ blockedLevels) := by
  obtain ⟨payload, hreply, hparsed, htype, -⟩ :=
    receiveReply_ok lang "content_risk_scan" model rawOutput fields
  refine ⟨normalizeLlmAgentResponse lang payload, ?_, ?_⟩
  · rw [riskScanReply, agentReply, hdecode, hreply]
  · have hfield : (Json.obj fields).get? "risk_level" = some (.str level) := hlevel
    simp only [normalizeLlmAgentResponse, hparsed, htype, Json.text, hfield, Option.getD_some,
      lang.str_str]
    simp [Json.get, Json.get?, Dict.get?_set_ne, Json.truthy]

/-! ## The text in the prompt -/

/-- The text of a scan: the message without the white space around it, the answer as it is. -/
def scannedText (text : String) : ScanStage → String
  | .input => strip text
  | .output => text

def frontLength (stage : ScanStage) : Nat := (riskPromptFront (riskScanInput "" stage)).length

theorem riskPromptFront_shape (stage : ScanStage) :
    (frontLength stage = match stage with | .input => 70 | .output => 93) ∧
      'Z' ∉ riskPromptFront (riskScanInput "" stage) := by
  cases stage with
  | input | output => decide +kernel

def riskExample : String :=
  "\x7b\"risk_level\":\"low\",\"categories\":[\"none\"],\"flags\":[]," ++
    "\"summary\":\"No material policy issues detected.\"\x7d"

def riskExampleValue : Json :=
  .obj [("risk_level", .str "low"), ("categories", .arr [.str "none"]), ("flags", .arr []),
    ("summary", .str "No material policy issues detected.")]

/-- A scan whose model answers with the example has a verdict. -/
theorem riskScanReply_example (hloads : lang.loads riskExample = .ok riskExampleValue)
    (model : String) :
    ∃ verdict, riskScanReply lang model (.answered riskExample) = .ok verdict := by
  have hextract : extractJsonPayload lang riskExample = .ok riskExampleValue := by
    have hstrip : strip riskExample = riskExample := by decide +kernel
    have hne : riskExample ≠ "" := by decide +kernel
    have hfence : unfence riskExample = riskExample := by decide +kernel
    simp only [extractJsonPayload, hstrip, if_neg hne, hfence, hloads]
  have hdecode : ∃ fields, decodeRiskOutput lang riskExample = .ok (.obj fields) ∧
      Dict.get? fields "risk_level" = some (.str "low") := by
    refine ⟨[("risk_level", .str "low"), ("categories", .arr [.str "none"]), ("flags", .arr []),
      ("summary", .str "No material policy issues detected.")], ?_, by simp [Dict.get?]⟩
    have hnone : strip "none" = "none" := by decide +kernel
    unfold decodeRiskOutput
    rw [hextract]
    simp [riskExampleValue, bind, Except.bind, normalizeRiskPayload, normalizeStringList, riskFlags,
      Json.get, Json.get?, Dict.get?, Json.orElse, Json.truthy, lang.str_str, hnone, pure,
      Except.pure, validateRiskOutput, Dict.set, riskOutputKeys]
  obtain ⟨fields, hdecode, hlevel⟩ := hdecode
  obtain ⟨verdict, hreply, -⟩ := riskScanReply_accepted model hdecode hlevel
  exact ⟨verdict, hreply⟩

theorem riskPrompt_riskScanInput (text : String) (stage : ScanStage) :
    riskPrompt (riskScanInput text stage) = String.ofList
      (riskPromptFront (riskScanInput "" stage) ++ text.toList ++ riskPromptBack) := by
  cases stage <;> rfl

/-- The whole text is in the prompt of every scan that returns a verdict. -/
def ScansWhole (lang : Lang) (w : Window) (model text : String) (stage : ScanStage) : Prop :=
  ∀ provider verdict,
    riskScanReply lang model (scanExchange w provider (riskScanInput text stage)) = .ok verdict →
      ∃ prompt, renderRiskScan w (riskScanInput text stage) = .ok prompt ∧
        text.toList <:+: prompt.toList

theorem renderRiskScan_eq (hbudget : riskBudget w = .ok budget) (text : String)
    (stage : ScanStage) :
    renderRiskScan w (riskScanInput text stage) = truncateMiddle (String.ofList
      (riskPromptFront (riskScanInput "" stage) ++ text.toList ++ riskPromptBack)) budget := by
  rw [renderRiskScan, hbudget, riskPrompt_riskScanInput]

theorem scansWhole_of_fits (hfits : text = "" ∨ ∀ budget, riskBudget w = .ok budget →
      Fits budget (frontLength stage) text.length riskPromptBack.length) :
    ScansWhole lang w model text stage := by
  intro provider verdict hverdict
  cases hbudget : riskBudget w with
  | error message =>
    -- Without a prompt there is no verdict.
    rw [scanExchange, renderRiskScan, hbudget] at hverdict
    obtain ⟨rawOutput, parsed, hanswered, -⟩ := receiveReply_agentReply_ok hverdict
    cases hanswered
  | ok budget =>
    obtain ⟨prompt, hprompt⟩ := truncateMiddle_isOk (String.ofList
      (riskPromptFront (riskScanInput "" stage) ++ text.toList ++ riskPromptBack))
      (Window.inputBudgetChars_pos hbudget)
    refine ⟨prompt, (renderRiskScan_eq hbudget text stage).trans hprompt, ?_⟩
    rcases hfits with rfl | hfits
    · exact List.nil_infix
    · have hfits := hfits budget hbudget
      exact infix_truncateMiddle hprompt hfits

/-- A text of one character that the rest of the prompt lacks is not whole in a prompt it does not
fit in. -/
theorem not_scansWhole_replicate (hloads : lang.loads riskExample = .ok riskExampleValue)
    (hn : n ≠ 0) (hbudget : riskBudget w = .ok budget)
    (hfits : ¬ Fits budget (frontLength stage) n riskPromptBack.length) :
    ¬ ScansWhole lang w model (String.ofList (List.replicate n 'Z')) stage := by
  intro hwhole
  have hrender := renderRiskScan_eq hbudget (String.ofList (List.replicate n 'Z')) stage
  rw [String.toList_ofList] at hrender
  obtain ⟨prompt, hprompt⟩ := truncateMiddle_isOk (String.ofList
    (riskPromptFront (riskScanInput "" stage) ++ List.replicate n 'Z' ++ riskPromptBack))
    (Window.inputBudgetChars_pos hbudget)
  obtain ⟨verdict, hverdict⟩ := riskScanReply_example hloads model
  obtain ⟨prompt', hprompt', hinfix⟩ := hwhole (fun _ => .answered riskExample) verdict (by
    rw [scanExchange, hrender, hprompt]
    exact hverdict)
  obtain rfl : prompt = prompt' :=
    Except.ok.inj (hprompt.symm.trans (hrender.symm.trans hprompt'))
  have hlt := count_truncateMiddle hprompt (riskPromptFront_shape stage).2
    riskPromptBack_shape.2 hn hfits
  have hle := hinfix.sublist.count_le 'Z'
  rw [String.toList_ofList, List.count_replicate_self] at hle
  omega

theorem scannedText_replicate (n : Nat) (stage : ScanStage) :
    scannedText (String.ofList (List.replicate n 'Z')) stage =
      String.ofList (List.replicate n 'Z') := by
  have hdrop : (List.replicate n 'Z').dropWhile isSpace = List.replicate n 'Z' := by
    cases n <;> rfl
  cases stage with
  | output => rfl
  | input =>
    rw [scannedText, strip, String.toList_ofList, hdrop, List.rdropWhile, List.reverse_replicate,
      hdrop, List.reverse_replicate]

/-- Whether scans see their whole text is a matter of its length: it must fit into the prompt before
or after the cut. -/
theorem scansWhole_iff (lang : Lang) (w : Window) (model : String) (stage : ScanStage) (n : Nat)
    (hloads : lang.loads riskExample = .ok riskExampleValue) :
    (∀ text, (scannedText text stage).length = n →
        ScansWhole lang w model (scannedText text stage) stage) ↔
      n = 0 ∨ ∀ budget, riskBudget w = .ok budget →
        Fits budget (frontLength stage) n riskPromptBack.length := by
  constructor
  · intro hwhole
    by_cases hn : n = 0
    · exact .inl hn
    · refine .inr fun budget hbudget => ?_
      by_contra hfits
      have hlength : (String.ofList (List.replicate n 'Z')).length = n := by
        rw [← String.length_toList, String.toList_ofList, List.length_replicate]
      have hscan := hwhole (String.ofList (List.replicate n 'Z'))
      rw [scannedText_replicate] at hscan
      exact not_scansWhole_replicate hloads hn hbudget hfits (hscan hlength)
  · intro hcond text hlength
    refine scansWhole_of_fits ?_
    rcases hcond with hzero | hfits
    · left
      rw [hzero] at hlength
      exact String.length_eq_zero_iff.mp hlength
    · right
      rw [hlength]
      exact hfits

mutual

def jsonOf : JsonText.Doc Int → Json
  | .null => .null
  | .bool b => .bool b
  | .num n => .num n
  | .str s => .str s
  | .arr xs => .arr (jsonsOf xs)
  | .obj fields => .obj (fieldsOf fields)

def jsonsOf : List (JsonText.Doc Int) → List Json
  | [] => []
  | x :: rest => jsonOf x :: jsonsOf rest

def fieldsOf : List (String × JsonText.Doc Int) → List (String × Json)
  | [] => []
  | (key, x) :: rest => (key, jsonOf x) :: fieldsOf rest

end

def sampleLower (s : String) : String := String.ofList (s.toList.map Char.toLower)

theorem toLower_of_isSpace (h : isSpace c = true) : c.toLower = c := by
  have hcode : ¬ (65 ≤ c.toNat ∧ c.toNat ≤ 90) := by
    intro hc
    simp only [isSpace, Bool.or_eq_true, Bool.and_eq_true, decide_eq_true_eq, beq_iff_eq] at h
    omega
  unfold Char.toLower
  rw [dif_neg]
  exact hcode

def sampleLang : Lang where
  loads s :=
    match JsonText.parse JsonText.intNumerals s.toList with
    | some doc => .ok (jsonOf doc)
    | none => .error .decode
  str := Json.text
  lower := sampleLower
  parseFloat _ := none
  toFloat := some
  validationText _ := ""
  redactSecrets s := s
  debugMaxFieldLength := 2000
  str_str _ := rfl
  lower_head hc hs := by
    rw [sampleLower, String.toList_ofList, List.head?_map, hs, Option.map_some,
      toLower_of_isSpace hc]
  lower_last hc hs := by
    rw [sampleLower, String.toList_ofList, List.getLast?_map, hs, Option.map_some,
      toLower_of_isSpace hc]

theorem sampleLang_loads (hvalid : doc.valid = true)
    (htext : text.toList = JsonText.print JsonText.intNumerals ⟨true, false⟩ doc) :
    sampleLang.loads text = .ok (jsonOf doc) := by
  show (match JsonText.parse JsonText.intNumerals text.toList with
    | some doc => Except.ok (jsonOf doc)
    | none => .error LoadsFault.decode) = _
  rw [htext, JsonText.parse_print _ _ hvalid]

def compactText (doc : JsonText.Doc Int) : String :=
  String.ofList (JsonText.print JsonText.intNumerals ⟨true, false⟩ doc)

theorem sampleLang_extract (hvalid : doc.valid = true)
    (htext : strip (compactText doc) = compactText doc ∧ compactText doc ≠ "" ∧
      unfence (compactText doc) = compactText doc) :
    extractJsonPayload sampleLang (compactText doc) = .ok (jsonOf doc) := by
  have hloads : sampleLang.loads (compactText doc) = .ok (jsonOf doc) :=
    sampleLang_loads hvalid (String.toList_ofList ..)
  obtain ⟨hstrip, hne, hfence⟩ := htext
  simp only [extractJsonPayload, hstrip, if_neg hne, hfence, hloads]

theorem sampleLang_example : sampleLang.loads riskExample = .ok riskExampleValue := by
  have hdoc : riskExample.toList = JsonText.print JsonText.intNumerals ⟨true, false⟩
      (.obj [("risk_level", .str "low"), ("categories", .arr [.str "none"]), ("flags", .arr []),
        ("summary", .str "No material policy issues detected.")]) := by decide +kernel
  exact sampleLang_loads (by decide +kernel) hdoc

/-- The default settings, with a provider that does not report its window. -/
def defaultWindow : Window := ⟨none, 6144, 128⟩

theorem riskBudget_defaultWindow : riskBudget defaultWindow = .ok 20464 := by
  decide +kernel

theorem fits_defaultWindow_iff (stage : ScanStage) (n : Nat) :
    (∀ budget, riskBudget defaultWindow = .ok budget →
      Fits budget (frontLength stage) n riskPromptBack.length) ↔
        Fits 20464 (match stage with | .input => 70 | .output => 93) n 531 := by
  rw [riskBudget_defaultWindow, (riskPromptFront_shape stage).1, riskPromptBack_shape.1]
  constructor
  · intro h
    exact h 20464 rfl
  · intro h budget hbudget
    cases hbudget
    exact h

/-- A short message is scanned whole. -/
theorem scansWhole_iff_short : ScansWhole sampleLang defaultWindow "" "Hello" .input :=
  (scansWhole_iff sampleLang defaultWindow "" .input 5 sampleLang_example).mpr
    (.inr ((fits_defaultWindow_iff .input 5).mpr (by decide))) "Hello" (by decide +kernel)

theorem not_fits_of_long (h : 20464 < n) :
    ¬ Fits 20464 (frontLength stage) n riskPromptBack.length := by
  unfold Fits
  omega

/-- A message of 30,000 characters, in the default window, is judged by a prompt without all of it,
and so is an answer of that length. -/
theorem long_text_not_scanned_whole :
    ¬ ScansWhole sampleLang defaultWindow "" (String.ofList (List.replicate 30000 'Z')) .input ∧
      ¬ ScansWhole sampleLang defaultWindow "" (String.ofList (List.replicate 30000 'Z'))
        .output := by
  constructor
  · exact not_scansWhole_replicate sampleLang_example (by decide) riskBudget_defaultWindow
      (not_fits_of_long (by decide))
  · exact not_scansWhole_replicate sampleLang_example (by decide) riskBudget_defaultWindow
      (not_fits_of_long (by decide))

/-! ## Guardrails -/

section

variable {σ : Type}

def Answers (h : Handler sig σ) (stage : ScanStage) (reply : Except Err Json) : Prop :=
  ∀ request text s, (h (.riskScan request text stage) s).1 = reply

def guardrail (cfg : Config) (lib : Lib) : ScanStage → Node
  | .input => inputGuardrails cfg lib
  | .output => outputGuardrails cfg lib

/-- The turn goes on as not blocked: the node returns, and after the output scan with the outcome of
a turn that is not blocked. -/
def GoesOn (stage : ScanStage) (result : Except Err (ConversationState × Meta)) : Prop :=
  ∃ x, result = .ok x ∧ (stage = .output → x.1.outcome ≠ "guardrail_blocked")

/-- The verdict of the stage lets the turn go on. -/
def Clears (reply : Except Err Json) : Prop :=
  ∃ verdict, reply = .ok verdict ∧ (verdict.get "blocked").truthy = false

variable {cfg : Config} {lib : Lib} {h : Handler sig σ} {reply : Except Err Json}
  {state : ConversationState} {rt : Runtime} {s : σ}

theorem riskScan_ends (hanswers : Answers h stage reply) (text : String) :
    Ends h.logic (riskScan text stage) (fun scan _ _ => reply = .ok scan) (fun _ _ _ => True)
      rt s := by
  refine .bind (.read_bind (.pure (P := fun _ _ _ => True) trivial)) ?_
  intro request rt s _
  exact .perform_handler (fun scan hr => (hanswers request text s).symm.trans hr)
    fun _ _ => trivial

theorem inputGuardrails_ends (hanswers : Answers h .input reply) :
    Ends h.logic (inputGuardrails cfg lib state) (fun _ _ _ => Clears reply) (fun _ _ _ => True)
      rt s := by
  refine (Ends.read_bind (.pure (P := fun _ _ _ => True) trivial)).bind ?_
  intro request rt s _
  split
  · exact ⟨trivial⟩
  · refine (riskScan_ends hanswers _).bind ?_
    intro scan rt s hscan
    split
    · exact ⟨trivial⟩
    · next hblocked =>
      refine (Ends.of_handler h _).bind ?_
      intro _ rt s _
      exact .pure ⟨scan, hscan, by simpa using hblocked⟩

theorem outputGuardrails_ends (hanswers : Answers h .output reply) :
    Ends h.logic (outputGuardrails cfg lib state)
      (fun x _ _ => x.1.outcome ≠ "guardrail_blocked" → Clears reply) (fun _ _ _ => True) rt s := by
  refine (riskScan_ends hanswers _).bind ?_
  intro scan rt s hscan
  refine (Ends.of_handler h _).bind ?_
  intro draftAnswer rt s _
  refine .pure fun houtcome => ⟨scan, hscan, ?_⟩
  by_contra hblocked
  simp [hblocked] at houtcome

theorem clears_of_goesOn (hanswers : Answers h stage reply)
    (hgoes : GoesOn stage ((guardrail cfg lib stage state).run h rt s).1) : Clears reply := by
  obtain ⟨x, hx, houtcome⟩ := hgoes
  cases stage with
  | input => exact (inputGuardrails_ends hanswers).run_ok hx
  | output => exact (outputGuardrails_ends hanswers).run_ok hx (houtcome rfl)

end

/-- The scan succeeded, and the risk level of the selected payload is, without regard to case and to
the white space around it, none that blocks. -/
def ScannedSafe (lang : Lang) (x : Exchange) : Prop :=
  ∃ rawOutput parsed payload level, x = .answered rawOutput ∧
    decodeRiskOutput lang rawOutput = .ok parsed ∧
    extractJsonPayload lang rawOutput = .ok payload ∧
    payload.get? "risk_level" = some (.str level) ∧ lang.lower (strip level) ∉ blockedLevels

/-- The risk level of an accepted output has no white space around it, or is none that blocks. -/
def Trimmed (lang : Lang) (x : Exchange) : Prop :=
  ∀ rawOutput parsed payload level, x = .answered rawOutput →
    decodeRiskOutput lang rawOutput = .ok parsed → extractJsonPayload lang rawOutput = .ok payload →
    payload.get? "risk_level" = some (.str level) →
    strip level = level ∨ lang.lower (strip level) ∉ blockedLevels

theorem blockedLevels_ends (h : level ∈ blockedLevels)
    (hc : level.toList.head? = some c ∨ level.toList.getLast? = some c) : isSpace c = false := by
  have hall : (blockedLevels.all fun level =>
      level.toList.head?.all (fun c => !isSpace c) &&
        level.toList.getLast?.all fun c => !isSpace c) = true := by decide +kernel
  have hlevel := List.all_eq_true.mp hall level h
  rw [Bool.and_eq_true] at hlevel
  rcases hc with hc | hc
  · simpa [hc] using hlevel.1
  · simpa [hc] using hlevel.2

/-- A text with white space around it is no blocking level, whatever its case. -/
theorem lower_not_mem_of_strip_ne (lang : Lang) (h : strip level ≠ level) :
    lang.lower level ∉ blockedLevels := by
  intro hmem
  obtain ⟨c, hspace, hend⟩ := isSpace_end_of_strip_ne h
  have hlower : (lang.lower level).toList.head? = some c ∨
      (lang.lower level).toList.getLast? = some c :=
    hend.imp (lang.lower_head hspace) (lang.lower_last hspace)
  rw [blockedLevels_ends hmem hlower] at hspace
  cases hspace

def onlyScans (reply : Except Err Json) : Handler sig Unit
  | .riskScan .., s => (reply, s)
  | _, s => (.error .timeout, s)

theorem answers_onlyScans (reply : Except Err Json) (stage : ScanStage) :
    Answers (onlyScans reply) stage reply := fun _ _ _ => rfl

theorem goesOn_onlyScans {reply : Except Err Json} (hclears : Clears reply) (cfg : Config)
    (lib : Lib) (request : ConversationRequest) (owner : Owner) :
    GoesOn .output ((guardrail cfg lib .output (buildInitialState request)).run (onlyScans reply)
      ⟨owner, request, false, {}, "", none⟩ ()).1 := by
  obtain ⟨verdict, rfl, hblocked⟩ := hclears
  have hscan : (riskScan "" .output).run (onlyScans (.ok verdict))
      ⟨owner, request, false, {}, "", none⟩ () =
        (.ok verdict, ⟨owner, request, false, {}, "", none⟩, ()) := rfl
  show GoesOn .output ((riskScan "" .output >>= _).run _ _ _).1
  rw [Proc.run_bind_ok hscan]
  rw [hblocked]
  exact ⟨_, rfl, fun _ => by simp⟩

/-- Turns go on past a guardrail only after a safe scan exactly if blocking levels come without
white space around them. -/
theorem goesOn_safe_iff (lang : Lang) (model : String) (x : Exchange) :
    (∀ (σ : Type) (cfg : Config) (lib : Lib) (h : Handler sig σ) (state : ConversationState)
        (rt : Runtime) (s : σ) (stage : ScanStage),
      Answers h stage (riskScanReply lang model x) →
      GoesOn stage ((guardrail cfg lib stage state).run h rt s).1 → ScannedSafe lang x) ↔
      Trimmed lang x := by
  constructor
  · intro hsafe rawOutput parsed payload level hx hdecode hextract hlevel
    by_cases hstrip : strip level = level
    · exact .inl hstrip
    · right
      subst hx
      obtain ⟨payload', level', hextract', hlevel', fields, rfl, hfield⟩ :=
        decodeRiskOutput_ok hdecode
      obtain rfl : payload = payload' := Except.ok.inj (hextract.symm.trans hextract')
      obtain rfl : level = level' := by
        rw [hlevel] at hlevel'
        exact Json.str.inj (Option.some.inj hlevel')
      obtain ⟨verdict, hreply, hblocked⟩ := riskScanReply_accepted model hdecode hfield
      rw [decide_eq_false (lower_not_mem_of_strip_ne lang hstrip)] at hblocked
      obtain ⟨request⟩ : Nonempty ConversationRequest :=
        ⟨buildRequest sampleIdentity ⟨"", "", "", "", ""⟩ (sampleData "" false) none none⟩
      have hclears : Clears (riskScanReply lang model (.answered rawOutput)) :=
        ⟨verdict, hreply, hblocked⟩
      obtain ⟨raw, out, selected, found, hraw, -, hselected, hfound, hfine⟩ :=
        hsafe Unit sampleConfig sampleLib (onlyScans (riskScanReply lang model
          (.answered rawOutput)))
          (buildInitialState request) ⟨sampleIdentity.owner, request, false, {}, "", none⟩
          () .output
          (answers_onlyScans _ _) (goesOn_onlyScans hclears _ _ _ _)
      obtain rfl := Exchange.answered.inj hraw
      rw [hextract] at hselected
      cases hselected
      rw [hlevel] at hfound
      obtain rfl := Json.str.inj (Option.some.inj hfound)
      exact hfine
  · intro htrimmed σ cfg lib h state rt s stage hanswers hgoes
    obtain ⟨verdict, hreply, hblocked⟩ := clears_of_goesOn hanswers hgoes
    obtain ⟨rawOutput, parsed, rfl, hdecode⟩ := receiveReply_agentReply_ok hreply
    obtain ⟨payload, level, hextract, hlevel, fields, rfl, hfield⟩ := decodeRiskOutput_ok hdecode
    refine ⟨rawOutput, _, payload, level, rfl, hdecode, hextract, hlevel, ?_⟩
    rcases htrimmed rawOutput _ payload level rfl hdecode hextract hlevel with hstrip | hfine
    · obtain ⟨verdict', hreply', hblocked'⟩ := riskScanReply_accepted model hdecode hfield
      obtain rfl := Except.ok.inj (hreply.symm.trans hreply')
      rw [hstrip]
      exact of_decide_eq_false (hblocked'.symm.trans hblocked)
    · exact hfine

def spacedHigh : JsonText.Doc Int :=
  .obj [("risk_level", .str " high"), ("categories", .arr []), ("flags", .arr []),
    ("summary", .str "")]

/-- A risk level with a space in front of it is selected and does not stop the turn. -/
theorem spaced_level_goes_on :
    extractJsonPayload sampleLang (compactText spacedHigh) = .ok (jsonOf spacedHigh) ∧
      sampleLang.lower (strip ((jsonOf spacedHigh).get "risk_level").text) ∈ blockedLevels ∧
      ∀ request owner, GoesOn .output
        ((guardrail sampleConfig sampleLib .output (buildInitialState request)).run
          (onlyScans (riskScanReply sampleLang "" (.answered (compactText spacedHigh))))
          ⟨owner, request, false, {}, "", none⟩ ()).1 := by
  have hextract : extractJsonPayload sampleLang (compactText spacedHigh) =
      .ok (jsonOf spacedHigh) := sampleLang_extract (by decide +kernel) (by decide +kernel)
  have hlevel : sampleLang.lower (strip ((jsonOf spacedHigh).get "risk_level").text) ∈
      blockedLevels := by decide +kernel
  refine ⟨hextract, hlevel, fun request owner => goesOn_onlyScans ?_ _ _ _ _⟩
  have hdecode : decodeRiskOutput sampleLang (compactText spacedHigh) =
      .ok (.obj [("risk_level", .str " high"), ("categories", .arr []), ("flags", .arr []),
        ("summary", .str "")]) := by
    unfold decodeRiskOutput
    rw [hextract]
    simp [spacedHigh, jsonOf, jsonsOf, fieldsOf, bind, Except.bind, normalizeRiskPayload,
      normalizeStringList, riskFlags, Json.get, Json.get?, Dict.get?, Json.orElse, Json.truthy,
      pure, Except.pure, validateRiskOutput, Dict.set, riskOutputKeys]
  have hfield : Dict.get? [("risk_level", Json.str " high"), ("categories", .arr []),
      ("flags", .arr []), ("summary", .str "")] "risk_level" = some (.str " high") := by
    simp [Dict.get?]
  obtain ⟨verdict, hreply, hblocked⟩ := riskScanReply_accepted "" hdecode hfield
  exact ⟨verdict, hreply, hblocked.trans (by decide +kernel)⟩

end RagForge.Rag
