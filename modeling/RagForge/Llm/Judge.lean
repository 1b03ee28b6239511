import RagForge.Llm.Structured

/-
The answer evaluation of the LLM agent (`prompts/answer_evaluation.py` and
`execution_pipeline.py`): from the judge's output to the review that the reply carries.
-/

namespace RagForge.Llm

open Py

inductive Score
  | groundedness
  | completeness
  | safety

def Score.field : Score → String
  | .groundedness => "groundedness_score"
  | .completeness => "completeness_score"
  | .safety => "safety_score"

/-- The names that are read when the score's own name gives nothing true. -/
def Score.aliases : Score → List String
  | .groundedness => ["grounding_score", "groundedness", "relevance_score"]
  | .completeness => ["completeness", "coverage_score"]
  | .safety => ["safety", "harmlessness_score"]

/-- `a or b or c`, over the keys of a payload. -/
def orChain (payload : Json) (first : Json) (names : List String) : Json :=
  names.foldl (fun value name => value.orElse (payload.get name)) first

def chosenScore (payload : Json) (s : Score) : Json :=
  orChain payload (payload.get s.field) s.aliases

/-! ## Claims -/

def normalizeClaim (lang : Lang) : Json → Option Json
  | .str text =>
    if strip text = "" then none
    else some (.obj [("claim", .str (strip text)), ("supported", .bool false),
      ("supporting_passage_ids", .arr [])])
  | .obj fields =>
    let item := Json.obj fields
    let orNull (a b : Json) : Json :=
      match a with
      | .null => b
      | value => value
    let text := strip (lang.str
      ((orChain item (item.get "claim") ["text", "statement"]).orElse (.str "")))
    let supported := coerceBool lang (orNull (item.get "supported") (item.get "is_supported"))
    let rawIds := orNull (item.get "supporting_passage_ids")
      (orNull (item.get "supporting_passages") (item.get "passage_ids"))
    let passageIds := (normalizeStringList lang rawIds).toOption.getD []
    if text = "" then none
    else some (.obj [("claim", .str text),
      ("supported", .bool (match supported with | .bool b => b | _ => false)),
      ("supporting_passage_ids", .arr (passageIds.map .str))])
  | _ => none

def normalizeClaims (lang : Lang) (value : Json) : List Json :=
  value.items.filterMap (normalizeClaim lang)

/-- `int` of a value, where it gives one. -/
def intOf (lang : Lang) (value : Json) : Option Int :=
  match coerceNumber lang value with
  | .num q => some (q.num.tdiv q.den)
  | .bool b => some (if b then 1 else 0)
  | _ => none

def normalizeUnsupportedCount (lang : Lang) (value : Json) (claims : List Json) : Json :=
  if claims.isEmpty then
    match intOf lang value with
    | some count => if 0 ≤ count then .num count else .null
    | none => .null
  else .num (claims.filter fun claim => !(claim.get "supported").truthy).length

def hallucinationVerdicts : List String := ["none", "minor", "severe"]

def hallucinationAliases : List (String × String) :=
  [("no", "none"), ("false", "none"), ("not_hallucinated", "none"), ("low", "minor"),
    ("moderate", "minor"), ("medium", "minor"), ("major", "severe"), ("high", "severe"),
    ("critical", "severe")]

def normalizeHallucinationVerdict (lang : Lang) : Json → Json
  | .null => .null
  | value =>
    let normalized := lang.lower (strip (lang.str value))
    if normalized ∈ hallucinationVerdicts then .str normalized
    else
      match Dict.get? hallucinationAliases normalized with
      | some verdict => .str verdict
      | none => .null

/-! ## The review -/

/-- What `_normalize_payload` makes of an accepted object, as far as `finalize_payload` reads it. -/
structure JudgePayload where
  reviewId : Json
  verdict : Json
  score : Score → Json
  issues : List String
  claims : List Json
  unsupportedClaimCount : Json
  hallucinationVerdict : Json
  revisionApplied : Json

def normalizeJudgePayload (lang : Lang) : Json → Except String JudgePayload
  | .obj fields =>
    let payload := Json.obj fields
    match normalizeStringList lang (payload.get "issues") with
    | .error message => .error message
    | .ok issues =>
      let verdict := orChain payload (payload.get "verdict") ["result", "assessment"]
      let claims := normalizeClaims lang
        (orChain payload (payload.get "claims") ["atomic_claims", "claim_analysis"])
      let count :=
        match payload.get "unsupported_claim_count" with
        | .null => payload.get "unsupported_claims"
        | value => value
      .ok
        { reviewId := payload.get "review_id"
          verdict :=
            match verdict with
            | .null => payload.get "verdict"
            | value => .str (strip (lang.str value))
          score := fun s => coerceNumber lang (chosenScore payload s)
          issues := issues
          claims := claims
          unsupportedClaimCount := normalizeUnsupportedCount lang count claims
          hallucinationVerdict := normalizeHallucinationVerdict lang
            (orChain payload (payload.get "hallucination_verdict")
              ["hallucination", "hallucination_level"])
          revisionApplied := coerceBool lang
            ((payload.get? "revision_applied").getD (.bool false)) }
  | _ => .error "Answer evaluation output must be a JSON object"

/-- `float_or_none`.  A number that is too large for a float is an exception. -/
def floatOrNone (lang : Lang) : Json → Except String Json
  | .num q =>
    match lang.toFloat q with
    | some r => .ok (.num r)
    | none => .error "int too large to convert to float"
  | .bool b => .ok (.num (if b then 1 else 0))
  | .str text =>
    match lang.parseFloat (strip text) with
    | some r => .ok (.num r)
    | none => .ok .null
  | _ => .ok .null

/-- `finalize_payload` and the validation as `AnswerReviewParsedOutput`. -/
def finalizeJudgePayload (lang : Lang) (requestId model : String) (now : Nat) (p : JudgePayload) :
    Except String Json := do
  let groundedness ← floatOrNone lang (p.score .groundedness)
  let completeness ← floatOrNone lang (p.score .completeness)
  let safety ← floatOrNone lang (p.score .safety)
  let review := Json.obj
    [("review_id", .str (lang.str (p.reviewId.orElse (.str ("review_" ++ requestId))))),
      ("verdict", .str (strip (lang.str (p.verdict.orElse (.str "unknown"))))),
      ("groundedness_score", groundedness), ("completeness_score", completeness),
      ("safety_score", safety), ("issues", .arr (p.issues.map .str)), ("claims", .arr p.claims),
      ("unsupported_claim_count", p.unsupportedClaimCount),
      ("hallucination_verdict", p.hallucinationVerdict),
      ("revision_applied", .bool p.revisionApplied.truthy), ("model_name", .str model),
      ("created_at", .num now)]
  if 4 < p.claims.length then throw (lang.validationText review) else return review

/-- The parse and validation stages of `execute`. -/
def decodeJudgeOutput (lang : Lang) (requestId model : String) (now : Nat) (rawOutput : String) :
    Except Failure Json :=
  match extractJsonPayload lang rawOutput >>= normalizeJudgePayload lang with
  | .error detail =>
    .error ⟨"structured_output_invalid", "Structured output parse failed: " ++ detail⟩
  | .ok normalized =>
    match finalizeJudgePayload lang requestId model now normalized with
    | .error detail =>
      .error ⟨"validation_error", "Structured output validation failed: " ++ detail⟩
    | .ok review => .ok review

/-! ## The scores of an accepted output -/

variable {p : JudgePayload} {lang : Lang} {review : Json} {now : Nat}

theorem normalizeJudgePayload_score {payload : Json}
    (h : normalizeJudgePayload lang payload = .ok p) (s : Score) :
    p.score s = coerceNumber lang (chosenScore payload s) := by
  cases payload with
  | obj fields =>
    simp only [normalizeJudgePayload] at h
    split at h
    · cases h
    · rw [← Except.ok.inj h]
  | _ => cases h

theorem finalizeJudgePayload_score {requestId model : String}
    (h : finalizeJudgePayload lang requestId model now p = .ok review) (s : Score) :
    ∃ fields, review = .obj fields ∧
      floatOrNone lang (p.score s) = .ok ((Json.obj fields).get s.field) := by
  obtain ⟨g, hg, h⟩ := ok_of_bind h
  obtain ⟨c, hc, h⟩ := ok_of_bind h
  obtain ⟨f, hs, h⟩ := ok_of_bind h
  refine ⟨_, (Except.ok.inj (ok_of_ite h).2).symm, ?_⟩
  cases s with
  | groundedness => rw [hg]; rfl
  | completeness => rw [hc]; rfl
  | safety => rw [hs]; rfl

theorem decodeJudgeOutput_score {requestId model rawOutput : String}
    (h : decodeJudgeOutput lang requestId model now rawOutput = .ok review) (s : Score) :
    ∃ payload fields, extractJsonPayload lang rawOutput = .ok payload ∧ review = .obj fields ∧
      floatOrNone lang (coerceNumber lang (chosenScore payload s)) =
        .ok ((Json.obj fields).get s.field) := by
  unfold decodeJudgeOutput at h
  split at h
  · cases h
  · next p hparsed =>
    obtain ⟨payload, hextract, hnormalized⟩ := ok_of_bind hparsed
    split at h
    · cases h
    · next out hfinal =>
      cases h
      obtain ⟨fields, hfields, hscore⟩ := finalizeJudgePayload_score hfinal s
      rw [normalizeJudgePayload_score hnormalized] at hscore
      exact ⟨payload, fields, hextract, hfields, hscore⟩

end RagForge.Llm
