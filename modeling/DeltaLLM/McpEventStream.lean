import DeltaLLM.JsonValues
import DeltaLLM.PythonText

/-! # The response in an event stream of an MCP server

A server answers a request with a stream of events, each of which may carry a JSON-RPC message. The
client reads line by line and takes the first message with the id of its request. The ids of the two
directions are independent, so a request of the server can have the same id.
-/
namespace McpEventStream

open JsonValues
open PythonText

inductive RequestId where
  | int (n : ℤ)
  | str (s : String)
  deriving DecidableEq, Repr

/-- `value == request_id`: Python compares integers, floats and booleans as numbers. -/
def RequestId.equals : RequestId → JsonValue → Bool
  | .int n, .int m => m = n
  | .int n, .float (.finite q) => q = n
  | .int n, .bool b => (if b then 1 else 0) = n
  | .str s, .str t => t = s
  | _, _ => false

/-- `MCPInvalidResponseError` and `MCPTransportError`. -/
inductive McpError where
  | invalidResponse (message : String)
  | transport (message : String)
  deriving DecidableEq, Repr

/-- `text.partition(":")`. -/
def partitionColon (text : String) : String × Bool × String :=
  let field := text.toList.takeWhile (· ≠ ':')
  let rest := text.toList.dropWhile (· ≠ ':')
  (String.ofList field, rest ≠ [], String.ofList rest.tail)

/-- `line.rstrip("\r")`. -/
def stripReturns (line : String) : String :=
  String.ofList (line.toList.rdropWhile (· = '\r'))

/-- What a line adds to the data of its event. -/
def dataOfLine (line : String) : Option String :=
  if startsWith line ":" then none
  else
    let (field, separator, value) := partitionColon line
    if separator ∧ field = "data" then
      some (if startsWith value " " then String.ofList value.toList.tail else value)
    else none

def eventText (dataLines : List String) : String := strip ("\n".intercalate dataLines)

section Decoding

variable (loads : String → Option JsonValue) (requestId : Option RequestId)

/-- The part of `_decode_sse_data` behind the checks for blank data. -/
def decodeMessage (text : String) : Except McpError (Option JsonObject) :=
  match loads text with
  | none => .error (.invalidResponse "MCP server returned invalid JSON in event-stream")
  | some (.dict payload) =>
      if requestId.all (·.equals (JsonObject.get payload "id")) then .ok (some payload)
        else .ok none
  | some _ => .error (.invalidResponse "MCP server returned unexpected event-stream payload")

/-- `_decode_sse_data`. -/
def decodeSseData (dataLines : List String) : Except McpError (Option JsonObject) :=
  if dataLines = [] then .ok none
  else if eventText dataLines = "" then .ok none
  else decodeMessage loads requestId (eventText dataLines)

/-- `_maybe_decode_sse_line`: the payload, and the data lines kept for the next line. -/
def maybeDecodeSseLine (line : String) (dataLines : List String) :
    Except McpError (Option JsonObject × List String) :=
  if line = "" then (decodeSseData loads requestId dataLines).map fun payload => (payload, [])
  else
    match dataOfLine line with
    | some value => .ok (none, dataLines ++ [value])
    | none => .ok (none, dataLines)

/-- The loop of `_decode_sse_payload`, and the last event, which no blank line ends. -/
def decodeLines : List String → List String → Except McpError JsonObject
  | dataLines, [] =>
      match maybeDecodeSseLine loads requestId "" dataLines with
      | .error e => .error e
      | .ok (some payload, _) => .ok payload
      | .ok (none, _) =>
          .error (.invalidResponse
            "MCP server event-stream ended before a matching JSON-RPC response")
  | dataLines, rawLine :: rawLines =>
      match maybeDecodeSseLine loads requestId (stripReturns rawLine) dataLines with
      | .error e => .error e
      | .ok (some payload, _) => .ok payload
      | .ok (none, kept) => decodeLines kept rawLines

/-- `_decode_sse_payload`. -/
def decodeSsePayload (rawLines : List String) : Except McpError JsonObject :=
  decodeLines loads requestId [] rawLines

end Decoding

/-- `_result_from_payload`; the parameter is `str` of a truthy value. -/
def resultFromPayload (str : JsonValue → String) (payload : JsonObject) :
    Except McpError JsonObject :=
  match JsonObject.get payload "error", JsonObject.get payload "result" with
  | .dict error, _ =>
      let message := JsonObject.get error "message"
      .error (.transport
        (if message.truthy then str message else "MCP server returned an error"))
  | _, .dict result => .ok result
  | _, _ => .error (.invalidResponse "MCP server response missing result payload")

/-! ## The messages of a stream -/

/-- Blank lines end events; an event without data, or with blank data, carries no message. -/
def messages (rawLines : List String) : List String :=
  (((rawLines.map stripReturns).splitOn "").map fun event => eventText (event.filterMap dataOfLine))
    |>.filter (· ≠ "")

/-- The same number, or the same text. -/
def SameId : RequestId → JsonValue → Prop
  | .int n, .int m => m = n
  | .int n, .float x => x = .finite n
  | .str s, .str t => t = s
  | _, _ => False

instance (requestId : RequestId) (value : JsonValue) : Decidable (SameId requestId value) := by
  cases requestId <;> cases value <;> unfold SameId <;> infer_instance

/-- A message which answers the request: it has its id, and carries a result or an error. -/
def Answers (requestId : RequestId) (payload : JsonObject) : Prop :=
  SameId requestId (JsonObject.get payload "id") ∧
    ((JsonObject.get? payload "result").isSome ∨ (JsonObject.get? payload "error").isSome)

instance (requestId : RequestId) (payload : JsonObject) : Decidable (Answers requestId payload) :=
  inferInstanceAs (Decidable (_ ∧ _))

section Messages

variable (loads : String → Option JsonValue) (requestId : RequestId)

def response? (text : String) : Option JsonObject :=
  match loads text with
  | some (.dict payload) => if Answers requestId payload then some payload else none
  | _ => none

def firstResponse (texts : List String) : Option JsonObject :=
  texts.findSome? (response? loads requestId)

/-- The payload of the first response, and a failure where the stream has none. -/
def IsFirstResponse (texts : List String) (result : Except McpError JsonObject) : Prop :=
  match firstResponse loads requestId texts with
  | some payload => result = .ok payload
  | none => ∃ e, result = .error e

def isObject (text : String) : Bool :=
  match loads text with
  | some (.dict _) => true
  | _ => false

/-- An object with the id of the request, by Python's equality, that does not answer it. -/
def isForeign (text : String) : Bool :=
  match loads text with
  | some (.dict payload) =>
      requestId.equals (JsonObject.get payload "id") ∧ ¬Answers requestId payload
  | _ => false

def beforeResponse (texts : List String) : List String :=
  texts.takeWhile fun text => (response? loads requestId text).isNone

/-- No request or notification with the id comes before the first response, unless the reader has
failed before it, and a stream with a response has only objects before it. -/
structure FirstMatchAnswers (texts : List String) : Prop where
  noForeign : ∀ text ∈ (beforeResponse loads requestId texts).takeWhile (isObject loads),
    isForeign loads requestId text = false
  readable : (firstResponse loads requestId texts).isSome →
    ∀ text ∈ beforeResponse loads requestId texts, isObject loads text = true

/-! ## Reading the messages in order -/

/-- The first message that stops the reader decides. -/
def search (id : Option RequestId) : List String → Except McpError JsonObject
  | [] => .error (.invalidResponse
      "MCP server event-stream ended before a matching JSON-RPC response")
  | text :: texts =>
      match decodeMessage loads id text with
      | .error e => .error e
      | .ok (some payload) => .ok payload
      | .ok none => search id texts

end Messages

def dataOfEvents (rawLines : List String) : List (List String) :=
  ((rawLines.map stripReturns).splitOn "").map (List.filterMap dataOfLine)

def textsOf (events : List (List String)) : List String := (events.map eventText).filter (· ≠ "")

example : messages [": keep-alive", "id: 7", "data: [1,", "data:  2]\r", "", "event: message"] =
    ["[1,\n 2]"] := by decide +kernel

theorem modifyHead_nil_append (events : List (List String)) :
    events.modifyHead (([] : List String) ++ ·) = events := by
  cases events <;> simp

theorem messages_eq (rawLines : List String) :
    messages rawLines = textsOf (dataOfEvents rawLines) := by
  rw [messages, textsOf, dataOfEvents, List.map_map]
  rfl

@[simp] theorem dataOfEvents_nil : dataOfEvents [] = [[]] := rfl

/-- A blank line starts a new event; any other line belongs to the first event. -/
theorem dataOfEvents_cons (rawLine : String) (rawLines : List String) :
    dataOfEvents (rawLine :: rawLines) =
      if stripReturns rawLine = "" then [] :: dataOfEvents rawLines
      else (dataOfEvents rawLines).modifyHead
        ((dataOfLine (stripReturns rawLine)).toList ++ ·) := by
  rw [dataOfEvents, List.map_cons, List.splitOn_cons_eq_if_modifyHead]
  by_cases hblank : stripReturns rawLine = ""
  · simp [hblank, dataOfEvents]
  · rw [if_neg (by simpa using hblank), if_neg hblank, dataOfEvents]
    cases (rawLines.map stripReturns).splitOn "" with
    | nil => rfl
    | cons event events =>
        cases hdata : dataOfLine (stripReturns rawLine) <;> simp [hdata]

section Reader

variable (loads : String → Option JsonValue) (id : Option RequestId)

theorem decodeSseData_eq (event : List String) :
    decodeSseData loads id event =
      if eventText event = "" then .ok none else decodeMessage loads id (eventText event) := by
  by_cases hnil : event = []
  · subst hnil
    rfl
  · rw [decodeSseData, if_neg hnil]

/-- One event: it stops the reader, or the reader goes on with the next one. -/
theorem search_textsOf_cons (event : List String) (events : List (List String)) :
    search loads id (textsOf (event :: events)) =
      match decodeSseData loads id event with
      | .error e => .error e
      | .ok (some payload) => .ok payload
      | .ok none => search loads id (textsOf events) := by
  rw [decodeSseData_eq]
  by_cases hblank : eventText event = ""
  · simp [textsOf, hblank]
  · have htexts : textsOf (event :: events) = eventText event :: textsOf events := by
      simp [textsOf, hblank]
    rw [htexts, search, if_neg hblank]

/-- The kept data lines are the start of the first event of the lines still to come. -/
theorem decodeLines_eq (kept rawLines : List String) :
    decodeLines loads id kept rawLines =
      search loads id (textsOf ((dataOfEvents rawLines).modifyHead (kept ++ ·))) := by
  induction rawLines generalizing kept with
  | nil =>
      have hevents : (dataOfEvents []).modifyHead (kept ++ ·) = [kept] := by simp
      rw [hevents, search_textsOf_cons, decodeLines, maybeDecodeSseLine, if_pos rfl]
      cases decodeSseData loads id kept with
      | error e => rfl
      | ok payload => cases payload <;> rfl
  | cons rawLine rawLines ih =>
      rw [decodeLines, maybeDecodeSseLine, dataOfEvents_cons]
      by_cases hblank : stripReturns rawLine = ""
      · rw [if_pos hblank, if_pos hblank]
        have hhead : ([] :: dataOfEvents rawLines).modifyHead (kept ++ ·) =
            kept :: dataOfEvents rawLines := by simp
        have hrest := ih []
        rw [modifyHead_nil_append] at hrest
        rw [hhead, search_textsOf_cons]
        cases decodeSseData loads id kept with
        | error e => rfl
        | ok payload =>
            cases payload with
            | none => exact hrest
            | some payload => rfl
      · rw [if_neg hblank, if_neg hblank, List.modifyHead_modifyHead]
        cases dataOfLine (stripReturns rawLine) with
        | none => simpa [Function.comp_def] using ih kept
        | some value => simpa [Function.comp_def] using ih (kept ++ [value])

theorem decodeSsePayload_eq (rawLines : List String) :
    decodeSsePayload loads id rawLines = search loads id (messages rawLines) := by
  rw [decodeSsePayload, decodeLines_eq, modifyHead_nil_append, messages_eq]

end Reader

theorem SameId.equals {requestId : RequestId} {value : JsonValue} (h : SameId requestId value) :
    requestId.equals value = true := by
  cases requestId with
  | int n =>
      cases value with
      | int m => simpa [RequestId.equals, SameId] using h
      | float x =>
          have hx : x = .finite n := h
          subst hx
          simp [RequestId.equals]
      | _ => exact absurd h (by simp [SameId])
  | str s =>
      cases value with
      | str t => simpa [RequestId.equals, SameId] using h
      | _ => exact absurd h (by simp [SameId])

section Answered

variable (loads : String → Option JsonValue) (requestId : RequestId)

/-- What the reader does at a message, and what the message is. -/
inductive Verdict (text : String) : Except McpError (Option JsonObject) → Prop where
  | unreadable (e : McpError) (hobject : isObject loads text = false)
      (hresponse : response? loads requestId text = none) : Verdict text (.error e)
  | response (payload : JsonObject) (hresponse : response? loads requestId text = some payload) :
      Verdict text (.ok (some payload))
  | foreign (payload : JsonObject) (hobject : isObject loads text = true)
      (hforeign : isForeign loads requestId text = true) (hanswers : ¬Answers requestId payload)
      (hresponse : response? loads requestId text = none) : Verdict text (.ok (some payload))
  | other (hobject : isObject loads text = true)
      (hforeign : isForeign loads requestId text = false)
      (hresponse : response? loads requestId text = none) : Verdict text (.ok none)

theorem verdict (text : String) :
    Verdict loads requestId text (decodeMessage loads (some requestId) text) := by
  cases hloads : loads text with
  | none =>
      rw [decodeMessage, hloads]
      exact .unreadable _ (by simp [isObject, hloads]) (by simp [response?, hloads])
  | some value =>
      cases value with
      | dict payload =>
          rw [decodeMessage, hloads]
          have hobject : isObject loads text = true := by simp [isObject, hloads]
          by_cases hanswers : Answers requestId payload
          · have hmatch : requestId.equals (JsonObject.get payload "id") = true := hanswers.1.equals
            simp only [Option.all_some, hmatch, if_true]
            exact .response payload (by simp [response?, hloads, hanswers])
          · have hresponse : response? loads requestId text = none := by
              simp [response?, hloads, hanswers]
            cases hmatch : requestId.equals (JsonObject.get payload "id") with
            | true =>
                simp only [Option.all_some, hmatch, if_true]
                exact .foreign payload hobject (by simp [isForeign, hloads, hmatch, hanswers])
                  hanswers hresponse
            | false =>
                simp only [Option.all_some, hmatch, Bool.false_eq_true, if_false]
                exact .other hobject (by simp [isForeign, hloads, hmatch]) hresponse
      | _ =>
          rw [decodeMessage, hloads]
          exact .unreadable _ (by simp [isObject, hloads]) (by simp [response?, hloads])

theorem answers_of_response? {text : String} {payload : JsonObject}
    (h : response? loads requestId text = some payload) : Answers requestId payload := by
  unfold response? at h
  split at h
  · split_ifs at h with hanswers
    cases h
    exact hanswers
  · cases h

theorem answers_of_firstResponse {texts : List String} {payload : JsonObject}
    (h : firstResponse loads requestId texts = some payload) : Answers requestId payload := by
  obtain ⟨text, _, hresponse⟩ := List.exists_of_findSome?_eq_some h
  exact answers_of_response? loads requestId hresponse

/-- By induction on the messages: the first one that stops the reader decides both sides. -/
theorem isFirstResponse_search_iff (texts : List String) :
    IsFirstResponse loads requestId texts (search loads (some requestId) texts) ↔
      FirstMatchAnswers loads requestId texts := by
  induction texts with
  | nil =>
      refine iff_of_true ⟨_, rfl⟩ ⟨?_, ?_⟩
      · intro text htext
        cases htext
      · intro _ text htext
        cases htext
  | cons text texts ih =>
      have hverdict := verdict loads requestId text
      generalize hdecode : decodeMessage loads (some requestId) text = decoded at hverdict
      cases hverdict with
      | unreadable e hobject hresponse =>
          have hbefore : beforeResponse loads requestId (text :: texts) =
              text :: beforeResponse loads requestId texts := by simp [beforeResponse, hresponse]
          have hfirst : firstResponse loads requestId (text :: texts) =
              firstResponse loads requestId texts := by simp [firstResponse, hresponse]
          rw [search, hdecode, IsFirstResponse, hfirst]
          constructor
          · intro h
            refine ⟨?_, fun hsome => ?_⟩
            · rw [hbefore]
              simp [hobject]
            · obtain ⟨payload, hpayload⟩ := Option.isSome_iff_exists.mp (hfirst ▸ hsome)
              rw [hpayload] at h
              cases h
          · intro h
            cases hpayload : firstResponse loads requestId texts with
            | none => exact ⟨e, rfl⟩
            | some payload =>
                have hreadable := h.readable (by simp [hfirst, hpayload]) text (by simp [hbefore])
                rw [hobject] at hreadable
                cases hreadable
      | response payload hresponse =>
          have hbefore : beforeResponse loads requestId (text :: texts) = [] := by
            simp [beforeResponse, hresponse]
          rw [search, hdecode]
          refine iff_of_true ?_ ⟨?_, ?_⟩
          · simp [IsFirstResponse, firstResponse, hresponse]
          · simp [hbefore]
          · simp [hbefore]
      | foreign payload hobject hforeign hanswers hresponse =>
          have hbefore : beforeResponse loads requestId (text :: texts) =
              text :: beforeResponse loads requestId texts := by simp [beforeResponse, hresponse]
          rw [search, hdecode]
          refine iff_of_false ?_ ?_
          · intro h
            unfold IsFirstResponse at h
            cases hpayload : firstResponse loads requestId (text :: texts) with
            | none =>
                rw [hpayload] at h
                obtain ⟨e, he⟩ := h
                cases he
            | some answer =>
                rw [hpayload] at h
                cases h
                exact hanswers (answers_of_firstResponse loads requestId hpayload)
          · intro h
            have hnone := h.noForeign text (by simp [hbefore, hobject])
            rw [hforeign] at hnone
            cases hnone
      | other hobject hforeign hresponse =>
          have hbefore : beforeResponse loads requestId (text :: texts) =
              text :: beforeResponse loads requestId texts := by simp [beforeResponse, hresponse]
          have hfirst : firstResponse loads requestId (text :: texts) =
              firstResponse loads requestId texts := by simp [firstResponse, hresponse]
          rw [search, hdecode, IsFirstResponse, hfirst]
          refine ih.trans ⟨fun h => ⟨?_, ?_⟩, fun h => ⟨?_, ?_⟩⟩
          · simpa [hbefore, hobject, hforeign] using h.noForeign
          · simpa [hbefore, hfirst, hobject] using h.readable
          · simpa [hbefore, hobject, hforeign] using h.noForeign
          · simpa [hbefore, hfirst, hobject] using h.readable

/-- The payload of the first response is returned, and the call fails without one, exactly for the
streams where no other message with the id comes before. -/
theorem first_response_returned_iff (rawLines : List String) :
    IsFirstResponse loads requestId (messages rawLines)
        (decodeSsePayload loads (some requestId) rawLines) ↔
      FirstMatchAnswers loads requestId (messages rawLines) := by
  rw [decodeSsePayload_eq]
  exact isFirstResponse_search_iff loads requestId (messages rawLines)

end Answered

/-- The result of a request of the server, had it been taken for the response, is missing. -/
theorem resultFromPayload_of_not_answers {requestId : RequestId} {payload : JsonObject}
    (hid : SameId requestId (JsonObject.get payload "id")) (h : ¬Answers requestId payload)
    (str : JsonValue → String) :
    resultFromPayload str payload =
      .error (.invalidResponse "MCP server response missing result payload") := by
  obtain ⟨hresult, herror⟩ := not_or.mp fun hcarries => h ⟨hid, hcarries⟩
  rw [Option.isSome_iff_ne_none, ne_eq, not_not] at hresult herror
  simp [resultFromPayload, JsonObject.get, hresult, herror]

def pingText : String := "\x7b\"id\":1,\"method\":\"ping\"\x7d"

def resultText : String := "\x7b\"id\":1,\"result\":\x7b\x7d\x7d"

def ping : JsonObject := [("id", .int 1), ("method", .str "ping")]

def loadsPing (text : String) : Option JsonValue :=
  if text = pingText then some (.dict ping)
  else if text = resultText then some (.dict [("id", .int 1), ("result", .dict [])])
  else none

/-- A server asks with its own first id while it works on the client's first request. -/
def pingStream : List String := ["data: " ++ pingText, "", "data: " ++ resultText, ""]

theorem messages_pingStream : messages pingStream = [pingText, resultText] := by
  decide +kernel

theorem request_of_server_returned :
    decodeSsePayload loadsPing (some (.int 1)) pingStream = .ok ping ∧
      ¬IsFirstResponse loadsPing (.int 1) (messages pingStream)
        (decodeSsePayload loadsPing (some (.int 1)) pingStream) := by
  have hdecode : decodeSsePayload loadsPing (some (.int 1)) pingStream = .ok ping := by
    rw [decodeSsePayload_eq, messages_pingStream]
    rfl
  have hfirst : firstResponse loadsPing (.int 1) (messages pingStream) =
      some [("id", .int 1), ("result", .dict [])] := by
    rw [messages_pingStream]
    rfl
  refine ⟨hdecode, ?_⟩
  rw [hdecode, IsFirstResponse, hfirst]
  simp [ping]

end McpEventStream
