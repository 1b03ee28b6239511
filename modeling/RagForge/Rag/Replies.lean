import RagForge.Llm.Structured
import RagForge.Rag.Effects

/-
Replies of other services, as the conversation service reads them (`conversation_kafka_utils.py`).

The evidence of a model call and the notes on the extraction of its output, which only metrics and
debug payloads read, are left out.
-/

namespace RagForge.Rag

open Py

/-- The transport fields that `extract_message_payload` copies into a payload. -/
def transportKeys : List String :=
  ["request_id", "trace_id", "correlation_id", "reply_to", "stream_to", "action", "source_service",
    "target_service", "message_type", "message_id", "timestamp"]

def messageTypes : List String := ["command", "query", "reply", "event", "stream_event"]

def extractMessagePayload (message : Json) : Json :=
  match message with
  | .obj fields =>
    match message.get "payload" with
    | .obj payload =>
      if (message.get "message_type").text ∈ messageTypes then
        .obj (transportKeys.foldl (fun (payload : List (String × Json)) key =>
          match message.get key, Dict.get? payload key with
          | .null, _ => payload
          | _, some _ => payload
          | value, none => Dict.set payload key value) payload)
      else .obj fields
    | _ => .obj fields
  | _ => .obj []

/-- The risk levels that block a turn. -/
def blockedLevels : List String := ["high", "critical", "blocked"]

def normalizeLlmAgentResponse (lang : Llm.Lang) (payload : Json) : Json :=
  match payload.get "parsed_output" with
  | .obj parsed =>
    let output := Json.obj parsed
    let base := [("status", payload.get "status"),
      ("errors", (payload.get? "errors").getD (.arr [])),
      ("trace", (payload.get? "trace").getD (.obj [])),
      ("prompt_version", payload.get "prompt_version"),
      ("raw_output", (payload.get? "raw_output").getD (.str ""))]
    let normalized : List (String × Json) := base.foldl (fun d x => Dict.set d x.1 x.2) parsed
    let set (fields : List (String × Json)) : Json :=
      .obj (fields.foldl (fun d x => Dict.set d x.1 x.2) normalized)
    match (payload.get "request_type").text with
    | "answer_generation" =>
      let answer := (output.get? "answer").getD ((payload.get? "raw_output").getD (.str ""))
      set [("answer", answer), ("raw_output", (payload.get? "raw_output").getD answer),
        ("model_name", payload.get "model"), ("usage", payload.get "usage"),
        ("raw_prompt", (payload.get? "raw_prompt").getD (.str "")),
        ("system_prompt", (payload.get? "system_prompt").getD (.str ""))]
    | "answer_evaluation" =>
      set [("model_name", (output.get "model_name").orElse (payload.get "model")),
        ("should_revise", .bool ((output.get "verdict").text == "revise"))]
    | "query_rewrite" =>
      let withDefault (fields : List (String × Json)) (key : String) (value : Json) :
          List (String × Json) :=
        if (Dict.get? fields key).isSome then fields else Dict.set fields key value
      .obj (withDefault (withDefault (withDefault normalized "subqueries" (.arr []))
        "pass_two_hints" (.arr [])) "decision" (.str "rewrite"))
    | "content_risk_scan" =>
      let level := lang.lower (lang.str ((output.get? "risk_level").getD (.str "")))
      set [("blocked", .bool (level ∈ blockedLevels)),
        ("message", (output.get? "summary").getD (.str ""))]
    | _ => .obj normalized
  | _ => payload

def extractReplyPayload (lang : Llm.Lang) (message : Json) : Except Err Json :=
  match message with
  | .obj _ =>
    if (message.get "message_type").text = "reply" then
      if ((message.get? "success").getD (.bool true)).truthy then
        let payload := extractMessagePayload message
        if (message.get "source_service").text = "llm_agent" then
          .ok (normalizeLlmAgentResponse lang payload)
        else .ok payload
      else
        match message.get "error" with
        | .obj error =>
          .error (.downstream
            (lang.str (((Json.obj error).get "code").orElse (.str "downstream_error")))
            (lang.str (((Json.obj error).get "message").orElse (.str "Service request failed"))))
        | error =>
          .error (.downstream "downstream_error"
            (lang.str (error.orElse (.str "Service request failed"))))
    else
      match message.get "data" with
      | .obj data => .ok (.obj data)
      | _ => .ok (extractMessagePayload message)
  | _ => .ok (.obj [])

/-- `_send_request`: a request without a reply runs into its timeout. -/
def receiveReply (lang : Llm.Lang) : Option Json → Except Err Json
  | none => .error .timeout
  | some message => extractReplyPayload lang message

/-! ## Replies of the LLM agent -/

theorem receiveReply_error (lang : Llm.Lang) (requestType model rawOutput : String)
    (failure : Llm.Failure) :
    ∃ e, receiveReply lang
      (some (Llm.replyMessage lang requestType model rawOutput (.error failure))) = .error e := by
  exact ⟨_, rfl⟩

theorem receiveReply_ok (lang : Llm.Lang) (requestType model rawOutput : String)
    (fields : List (String × Json)) :
    ∃ payload, receiveReply lang
        (some (Llm.replyMessage lang requestType model rawOutput (.ok (.obj fields)))) =
          .ok (normalizeLlmAgentResponse lang payload) ∧
      payload.get "parsed_output" = .obj fields ∧
      payload.get "request_type" = .str requestType ∧ payload.get "model" = .str model := by
  refine ⟨_, rfl, ?_, ?_, ?_⟩
  all_goals rfl

theorem receiveReply_agentReply_ok {lang : Llm.Lang} {requestType model : String}
    {decode : String → Except Llm.Failure Json} {x : Llm.Exchange} {value : Json}
    (h : receiveReply lang (Llm.agentReply lang requestType model decode x) = .ok value) :
    ∃ rawOutput parsed, x = .answered rawOutput ∧ decode rawOutput = .ok parsed := by
  cases x with
  | answered rawOutput =>
    cases hdecode : decode rawOutput with
    | ok parsed => exact ⟨rawOutput, parsed, rfl, hdecode⟩
    | error failure =>
      obtain ⟨e, he⟩ := receiveReply_error lang requestType model rawOutput failure
      rw [Llm.agentReply, hdecode, he] at h
      cases h
  | failed failure =>
    rw [Llm.agentReply] at h
    split at h
    · obtain ⟨e, he⟩ := receiveReply_error lang requestType model "" failure
      cases h
    · cases h
  | refused | silent => cases h

end RagForge.Rag
