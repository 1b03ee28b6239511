import RagForge.Llm.Judge
import RagForge.Rag.RiskScan

/-
The scores of a review, from the judge's output to what is kept with the turn.

Facts and eval rows read a score with `_optional_float`, which keeps a number and leaves `None` out.
The record of a review has a number for every score, so there is never a `None` to leave out.
-/

namespace RagForge.Rag

open Py Llm

def judgeReply (lang : Lang) (requestId model : String) (now : Nat) (x : Exchange) :
    Except Err Json :=
  receiveReply lang
    (agentReply lang "answer_evaluation" model (decodeJudgeOutput lang requestId model now) x)

def Review.score (review : Review) : Score → Rat
  | .groundedness => review.groundednessScore
  | .completeness => review.completenessScore
  | .safety => review.safetyScore

/-- What a fact or an eval row counts for a score, `none` where it counts nothing. -/
def countedScore (review : Review) (s : Score) : Option Rat := some (review.score s)

/-- The number that a judge's payload gives under the name of a score, also as the text of one. -/
def givenScore (lang : Lang) (payload : Json) (s : Score) : Option Rat :=
  match coerceNumber lang (payload.get s.field) with
  | .num q => some q
  | _ => none

def readScore (lang : Lang) (value : Json) : Option Rat :=
  match floatOrNone lang (coerceNumber lang value) with
  | .ok (.num q) => some q
  | _ => none

/-! ## Replies -/

variable {lang : Lang} {s : Score} {payload : Json} {now : Nat} {q : Rat}

theorem judgeReply_accepted {requestId model rawOutput : String} {fields : List (String × Json)}
    (h : decodeJudgeOutput lang requestId model now rawOutput = .ok (.obj fields)) :
    ∃ reply, judgeReply lang requestId model now (.answered rawOutput) = .ok reply ∧
      ∀ s : Score, reply.get s.field = (Json.obj fields).get s.field := by
  obtain ⟨payload, hreply, hparsed, htype, -⟩ :=
    receiveReply_ok lang "answer_evaluation" model rawOutput fields
  refine ⟨normalizeLlmAgentResponse lang payload, ?_, fun s => ?_⟩
  · rw [judgeReply, agentReply, h, hreply]
  · simp only [normalizeLlmAgentResponse, hparsed, htype, Json.text]
    cases s <;> simp [Json.get, Json.get?, Score.field, Dict.get?_set_ne]

theorem countedScore_accepted {requestId model : String} {x : Exchange} {reply : Json}
    (h : judgeReply lang requestId model now x = .ok reply) (lib : Lib)
    (request : ConversationRequest) (passages : List Passage) (newId created : String) (s : Score) :
    ∃ rawOutput payload, x = .answered rawOutput ∧ extractJsonPayload lang rawOutput = .ok payload ∧
      (∃ value, floatOrNone lang (coerceNumber lang (chosenScore payload s)) = .ok value) ∧
      countedScore (buildReview lib reply request passages newId created) s =
        some ((readScore lang (chosenScore payload s)).getD 0) := by
  obtain ⟨rawOutput, review, rfl, hdecode⟩ := receiveReply_agentReply_ok h
  obtain ⟨payload, fields, hextract, rfl, hscore⟩ := decodeJudgeOutput_score hdecode s
  obtain ⟨reply', hreply, hfields⟩ := judgeReply_accepted hdecode
  obtain rfl := Except.ok.inj (h.symm.trans hreply)
  refine ⟨rawOutput, payload, rfl, hextract, ⟨_, hscore⟩, ?_⟩
  have hread : ((reply.get s.field).number : Rat) =
      (readScore lang (chosenScore payload s)).getD 0 := by
    rw [hfields s, readScore, hscore]
    cases (Json.obj fields).get s.field <;> rfl
  rw [countedScore, ← hread]
  cases s <;> rfl

theorem orChain_of_truthy {first : Json} (h : first.truthy = true) (names : List String) :
    orChain payload first names = first := by
  induction names with
  | nil => rfl
  | cons name rest ih =>
    rw [orChain, List.foldl_cons, Json.orElse, if_pos h]
    exact ih

/-- Where the first value is not true, the chain gives that of the first key with a true one. -/
theorem orChain_cases {first : Json} (h : first.truthy = false) (names : List String) :
    (∃ name, names.find? (fun name => (payload.get name).truthy) = some name ∧
        orChain payload first names = payload.get name) ∨
      names.find? (fun name => (payload.get name).truthy) = none ∧
        (orChain payload first names).truthy = false := by
  induction names generalizing first with
  | nil => exact .inr ⟨rfl, h⟩
  | cons name rest ih =>
    have hcons : orChain payload first (name :: rest) =
        orChain payload (payload.get name) rest := by
      rw [orChain, List.foldl_cons, Json.orElse, if_neg (Bool.eq_false_iff.mp h)]
      rfl
    rw [hcons]
    cases hname : (payload.get name).truthy with
    | true => exact .inl ⟨name, by simp [hname], orChain_of_truthy hname rest⟩
    | false =>
      rw [List.find?_cons_of_neg (by simp [hname])]
      exact ih hname

/-- What Python's `float` does with zero and with an empty text. -/
structure FloatLaws (lang : Lang) : Prop where
  zero : lang.toFloat 0 = some 0
  empty : lang.parseFloat "" = none

theorem readScore_of_not_truthy (hlaws : FloatLaws lang) {value : Json}
    (h : value.truthy = false) : (readScore lang value).getD 0 = 0 := by
  cases value with
  | null | arr | obj => rfl
  | bool b =>
    obtain rfl : b = false := h
    rfl
  | num r =>
    obtain rfl : r = 0 := by simpa [Json.truthy] using h
    simp [readScore, coerceNumber, floatOrNone, hlaws.zero]
  | str text =>
    obtain rfl : text = "" := by simpa [Json.truthy] using h
    have hstrip : strip "" = "" := by decide
    simp [readScore, coerceNumber, floatOrNone, hstrip, hlaws.empty]

/-- The judge gave a number that is a float; or it gave zero, and the first of the other keys with a
true value, if there is one, is read as no number other than zero. -/
def ScoreKept (lang : Lang) (payload : Json) (s : Score) : Prop :=
  ∃ q, givenScore lang payload s = some q ∧
    if (payload.get s.field).truthy then lang.toFloat q = some q
    else ∀ name, s.aliases.find? (fun name => (payload.get name).truthy) = some name →
      ∀ r, readScore lang (payload.get name) = some r → r = 0

/-- A score whose own key has no true value is read as zero exactly if no other key replaces it. -/
theorem chosenScore_zero_iff (hlaws : FloatLaws lang) (h : (payload.get s.field).truthy = false) :
    (readScore lang (chosenScore payload s)).getD 0 = 0 ↔
      ∀ name, s.aliases.find? (fun name => (payload.get name).truthy) = some name →
        ∀ r, readScore lang (payload.get name) = some r → r = 0 := by
  rcases orChain_cases h s.aliases with ⟨name, hfind, hchain⟩ | ⟨hfind, hchain⟩
  · rw [chosenScore, hchain, hfind]
    constructor
    · intro hzero name' heq r hread
      rw [← Option.some.inj heq] at hread
      rwa [hread] at hzero
    · intro hall
      cases hread : readScore lang (payload.get name) with
      | none => rfl
      | some r => exact hall name rfl r hread
  · rw [chosenScore, hfind]
    exact iff_of_true (readScore_of_not_truthy hlaws hchain) nofun

theorem givenScore_of_not_truthy (hfalse : (payload.get s.field).truthy = false)
    (hgiven : givenScore lang payload s = some q) : q = 0 := by
  unfold givenScore at hgiven
  cases hvalue : payload.get s.field with
  | num r =>
    rw [hvalue] at hfalse hgiven
    rw [← Option.some.inj hgiven]
    simpa [Json.truthy] using hfalse
  | str text =>
    rw [hvalue] at hfalse hgiven
    have htext : text = "" := by simpa [Json.truthy] using hfalse
    have hstrip : strip "" = "" := by decide
    simp [coerceNumber, htext, hstrip] at hgiven
  | null | bool | arr | obj =>
    rw [hvalue] at hgiven
    cases hgiven

theorem readScore_of_given {value : Json} (hgiven : givenScore lang payload s = some q)
    (hvalue : floatOrNone lang (coerceNumber lang (payload.get s.field)) = .ok value) :
    ∃ r, lang.toFloat q = some r ∧ readScore lang (payload.get s.field) = some r := by
  unfold givenScore at hgiven
  unfold readScore
  split at hgiven
  · next r hnum =>
    obtain rfl := Option.some.inj hgiven
    rw [hnum] at hvalue ⊢
    simp only [floatOrNone] at hvalue ⊢
    cases hfloat : lang.toFloat r with
    | none => rw [hfloat] at hvalue; cases hvalue
    | some f => exact ⟨f, rfl, rfl⟩
  · cases hgiven

/-- What is counted for a score is the number the judge gave under its name exactly if the judge
gave one, and no other key replaces it. -/
theorem countedScore_eq_given_iff (lang : Lang) (hlaws : FloatLaws lang) (requestId model : String)
    (now : Nat) (x : Exchange) (reply payload : Json) (rawOutput : String)
    (haccepted : judgeReply lang requestId model now x = .ok reply)
    (hanswer : x = .answered rawOutput) (hpayload : extractJsonPayload lang rawOutput = .ok payload)
    (lib : Lib) (request : ConversationRequest) (passages : List Passage)
    (newId created : String) (s : Score) :
    countedScore (buildReview lib reply request passages newId created) s =
        givenScore lang payload s ↔
      ScoreKept lang payload s := by
  obtain ⟨raw, selected, hraw, hselected, ⟨value, hvalue⟩, hcounted⟩ :=
    countedScore_accepted haccepted lib request passages newId created s
  obtain rfl : rawOutput = raw := Exchange.answered.inj (hanswer.symm.trans hraw)
  obtain rfl : payload = selected := Except.ok.inj (hpayload.symm.trans hselected)
  rw [hcounted]
  unfold ScoreKept
  by_cases htrue : (payload.get s.field).truthy = true
  · rw [chosenScore, orChain_of_truthy htrue] at hvalue ⊢
    simp only [htrue, if_true]
    constructor
    · intro h
      obtain ⟨r, hfloat, hread⟩ := readScore_of_given h.symm hvalue
      rw [hread] at h hfloat
      exact ⟨r, h.symm, hfloat⟩
    · intro ⟨q, hgiven, hfloat⟩
      obtain ⟨r, hfloat', hread⟩ := readScore_of_given hgiven hvalue
      rw [hgiven, hread]
      exact hfloat'.symm.trans hfloat
  · rw [Bool.not_eq_true] at htrue
    simp only [htrue, Bool.false_eq_true, if_false]
    rw [← chosenScore_zero_iff hlaws htrue]
    constructor
    · intro h
      exact ⟨_, h.symm, givenScore_of_not_truthy htrue h.symm⟩
    · intro ⟨q, hgiven, hzero⟩
      rw [hgiven, hzero, givenScore_of_not_truthy htrue hgiven]

def zeroJudgement : JsonText.Doc Int :=
  .obj [("groundedness_score", .num 0), ("grounding_score", .num 1), ("completeness_score", .num 1)]

def sampleRequest : ConversationRequest :=
  buildRequest sampleIdentity ⟨"", "", "", "", ""⟩ (sampleData "" false) none none

theorem zeroJudgement_extract :
    extractJsonPayload sampleLang (compactText zeroJudgement) = .ok (jsonOf zeroJudgement) :=
  sampleLang_extract (by decide +kernel) (by decide +kernel)

theorem zeroJudgement_accepted :
    ∃ reply, judgeReply sampleLang "" "" 0 (.answered (compactText zeroJudgement)) = .ok reply := by
  have hdecode : ∃ fields, decodeJudgeOutput sampleLang "" "" 0 (compactText zeroJudgement) =
      .ok (.obj fields) := by
    unfold decodeJudgeOutput
    rw [zeroJudgement_extract]
    exact ⟨_, rfl⟩
  obtain ⟨fields, hdecode⟩ := hdecode
  obtain ⟨reply, hreply, -⟩ := judgeReply_accepted hdecode
  exact ⟨reply, hreply⟩

/-- A score given under its own name is counted. -/
theorem countedScore_eq_given_iff_one :
    ∃ reply, judgeReply sampleLang "" "" 0 (.answered (compactText zeroJudgement)) = .ok reply ∧
      countedScore (buildReview sampleLib reply sampleRequest [] "" "") .completeness =
        givenScore sampleLang (jsonOf zeroJudgement) .completeness := by
  obtain ⟨reply, hreply⟩ := zeroJudgement_accepted
  refine ⟨reply, hreply, (countedScore_eq_given_iff sampleLang ⟨rfl, rfl⟩ "" "" 0 _ reply _ _ hreply
    rfl zeroJudgement_extract sampleLib sampleRequest [] "" "" .completeness).mpr ?_⟩
  exact ⟨1, rfl, rfl⟩

/-- A zero is replaced by the number of another key, and a score that the judge did not give is
counted as zero. -/
theorem zero_replaced_and_missing_counted :
    ∃ reply, judgeReply sampleLang "" "" 0 (.answered (compactText zeroJudgement)) = .ok reply ∧
      givenScore sampleLang (jsonOf zeroJudgement) .groundedness = some 0 ∧
      countedScore (buildReview sampleLib reply sampleRequest [] "" "") .groundedness = some 1 ∧
      givenScore sampleLang (jsonOf zeroJudgement) .safety = none ∧
      countedScore (buildReview sampleLib reply sampleRequest [] "" "") .safety = some 0 := by
  obtain ⟨reply, hreply⟩ := zeroJudgement_accepted
  have hcounted : ∀ s, countedScore (buildReview sampleLib reply sampleRequest [] "" "") s =
      some ((readScore sampleLang (chosenScore (jsonOf zeroJudgement) s)).getD 0) := by
    intro s
    obtain ⟨raw, payload, hraw, hpayload, -, hs⟩ :=
      countedScore_accepted hreply sampleLib sampleRequest [] "" "" s
    obtain rfl := Exchange.answered.inj hraw
    obtain rfl := Except.ok.inj (zeroJudgement_extract.symm.trans hpayload)
    exact hs
  refine ⟨reply, hreply, rfl, ?_, rfl, ?_⟩
  · rw [hcounted]
    rfl
  · rw [hcounted]
    rfl

end RagForge.Rag
