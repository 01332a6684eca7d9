import DeltaLLM.GuardrailRegistry

/-! # The Presidio guardrail without its engine

Personal data is found by one regular expression for each entity. The matcher is given: where an
entity's pattern is found in a text, and the text with every match replaced by the entity's name.
-/
namespace PresidioGuardrail

open JsonValues GuardrailRegistry

structure Matcher where
  search : String → String → Bool
  sub : String → String → String

def supportedEntities : List String :=
  ["PERSON", "EMAIL_ADDRESS", "PHONE_NUMBER", "CREDIT_CARD", "US_SSN", "US_PASSPORT", "IBAN",
    "IP_ADDRESS", "LOCATION"]

/-- The keys of `_PATTERN_MAP`. -/
def patternMap : List String :=
  ["EMAIL_ADDRESS", "PHONE_NUMBER", "US_SSN", "CREDIT_CARD", "IP_ADDRESS"]

structure Presidio where
  name : String
  action : GuardrailAction
  anonymize : Bool
  configured : Option (List String)

/-- `entities or self.SUPPORTED_ENTITIES`. -/
def Presidio.entities (g : Presidio) : List String :=
  if g.configured.getD [] = [] then supportedEntities else g.configured.getD []

structure GuardrailViolation where
  guardrailName : String
  message : String
  violationType : String
  statusCode : ℕ
  deriving DecidableEq, Repr

/-- An entity has a pattern and the pattern is found. -/
def Matcher.finds (m : Matcher) (text entity : String) : Bool :=
  decide (entity ∈ patternMap) && m.search entity text

section Hook

variable (m : Matcher) (g : Presidio)

/-- `_detect`. -/
def detect (text : String) : List String := g.entities.filter (m.finds text)

/-- `_anonymize`. -/
def anonymizeText (text : String) (entities : List String) : String :=
  entities.foldl (fun masked entity =>
    if entity ∈ patternMap then m.sub entity masked else masked) text

mutual

/-- `_collect_entities`. -/
def collectEntities : JsonValue → List String
  | .str s => detect m g s
  | .list xs => collectAll xs
  | .dict fields => collectFields fields
  | .null | .bool _ | .int _ | .float _ => []

def collectAll : List JsonValue → List String
  | [] => []
  | x :: xs => collectEntities x ++ collectAll xs

def collectFields : List (String × JsonValue) → List String
  | [] => []
  | (_, value) :: fields => collectEntities value ++ collectFields fields

end

/-- A value after the scan, the entities that were found in it and whether it changed. -/
structure Scanned (α : Type) where
  value : α
  entities : List String
  changed : Bool

def scanText (text : String) : Scanned JsonValue :=
  let entities := detect m g text
  if entities = [] then ⟨.str text, [], false⟩
  else
    let sanitized := anonymizeText m text entities
    ⟨.str sanitized, entities, sanitized ≠ text⟩

mutual

/-- `_scan_and_sanitize`. -/
def scanAndSanitize : JsonValue → Scanned JsonValue
  | .str s => scanText m g s
  | .list xs =>
      let scanned := scanAll xs
      ⟨.list scanned.value, scanned.entities, scanned.changed⟩
  | .dict fields =>
      let scanned := scanFields fields
      ⟨.dict scanned.value, scanned.entities, scanned.changed⟩
  | .null => ⟨.null, [], false⟩
  | .bool b => ⟨.bool b, [], false⟩
  | .int n => ⟨.int n, [], false⟩
  | .float x => ⟨.float x, [], false⟩

def scanAll : List JsonValue → Scanned (List JsonValue)
  | [] => ⟨[], [], false⟩
  | x :: xs =>
      let first := scanAndSanitize x
      let rest := scanAll xs
      ⟨first.value :: rest.value, first.entities ++ rest.entities, first.changed || rest.changed⟩

def scanFields : List (String × JsonValue) → Scanned (List (String × JsonValue))
  | [] => ⟨[], [], false⟩
  | (name, value) :: fields =>
      let first := scanAndSanitize value
      let rest := scanFields fields
      ⟨(name, first.value) :: rest.value, first.entities ++ rest.entities,
        first.changed || rest.changed⟩

end

/-- `_inspect_message`. -/
def inspectMessage (message : JsonValue) : Scanned JsonValue :=
  if g.anonymize then scanAndSanitize m g message else ⟨message, collectEntities m g message, false⟩

/-- `", ".join(sorted(set(entities)))`. -/
def entityList (entities : List String) : String :=
  String.intercalate ", " (entities.dedup.mergeSort fun a b => a ≤ b)

def violation (entities : List String) : GuardrailViolation where
  guardrailName := g.name
  message := "PII detected: " ++ entityList entities
  violationType := "pii_detected"
  statusCode := 400

/-- The loop over the messages: those left, and whether one of them changed. -/
def inspectMessages : List JsonValue → Except GuardrailViolation (List JsonValue × Bool)
  | [] => .ok ([], false)
  | message :: messages =>
      let scanned := inspectMessage m g message
      if scanned.entities ≠ [] ∧ g.anonymize = false ∧ g.action = .block then
        .error (violation g scanned.entities)
      else
        match inspectMessages messages with
        | .error e => .error e
        | .ok (modified, changed) => .ok (scanned.value :: modified, scanned.changed || changed)

/-- `async_pre_call_hook`. -/
def asyncPreCallHook (data : JsonObject) : Except GuardrailViolation (Option JsonObject) :=
  match (JsonObject.get? data "messages").getD (.list []) with
  | .list messages =>
      match inspectMessages m g messages with
      | .error e => .error e
      | .ok (modified, changed) =>
          .ok (if changed then some (JsonObject.set data "messages" (.list modified)) else none)
  | _ => .ok none

end Hook

/-! ## The texts of a value -/

mutual

/-- Every string value, however deep; names of fields are none. -/
def texts : JsonValue → List String
  | .str s => [s]
  | .list xs => textsAll xs
  | .dict fields => textsFields fields
  | .null | .bool _ | .int _ | .float _ => []

def textsAll : List JsonValue → List String
  | [] => []
  | x :: xs => texts x ++ textsAll xs

def textsFields : List (String × JsonValue) → List String
  | [] => []
  | (_, value) :: fields => texts value ++ textsFields fields

end

/-- No pattern of a configured entity is found in a text of the value. -/
def Clean (m : Matcher) (g : Presidio) (value : JsonValue) : Prop :=
  ∀ text ∈ texts value, ∀ entity ∈ g.entities, m.finds text entity = false

section Texts

variable {m : Matcher} {g : Presidio}

theorem textsAll_eq (xs : List JsonValue) : textsAll xs = xs.flatMap texts := by
  induction xs with
  | nil => rfl
  | cons x xs ih => rw [textsAll, ih, List.flatMap_cons]

theorem textsFields_eq (fields : List (String × JsonValue)) :
    textsFields fields = fields.flatMap fun field => texts field.2 := by
  induction fields with
  | nil => rfl
  | cons field fields ih => rw [textsFields, ih, List.flatMap_cons]

theorem collectAll_eq (xs : List JsonValue) :
    collectAll m g xs = xs.flatMap (collectEntities m g) := by
  induction xs with
  | nil => rfl
  | cons x xs ih => rw [collectAll, ih, List.flatMap_cons]

theorem collectFields_eq (fields : List (String × JsonValue)) :
    collectFields m g fields = fields.flatMap fun field => collectEntities m g field.2 := by
  induction fields with
  | nil => rfl
  | cons field fields ih => rw [collectFields, ih, List.flatMap_cons]

/-- The collected entities are those detected in the texts, in order. -/
theorem collectEntities_eq (value : JsonValue) :
    collectEntities m g value = (texts value).flatMap (detect m g) := by
  induction value using JsonValue.partsInduction with
  | null => rfl
  | bool b => rfl
  | int n => rfl
  | float x => rfl
  | str s => simp [collectEntities, texts]
  | list xs ih =>
      rw [collectEntities, texts, collectAll_eq, textsAll_eq, List.flatMap_assoc]
      exact List.flatMap_congr ih
  | dict fields ih =>
      rw [collectEntities, texts, collectFields_eq, textsFields_eq, List.flatMap_assoc]
      exact List.flatMap_congr ih

theorem clean_iff (value : JsonValue) : Clean m g value ↔ collectEntities m g value = [] := by
  rw [collectEntities_eq, List.flatMap_eq_nil_iff]
  apply forall₂_congr
  intro text _
  rw [detect, List.filter_eq_nil_iff]
  simp

/-- A text after the scan. -/
def sanitizedText (m : Matcher) (g : Presidio) (text : String) : String :=
  if detect m g text = [] then text else anonymizeText m text (detect m g text)

theorem scanText_value (text : String) :
    (scanText m g text).value = .str (sanitizedText m g text) := by
  by_cases hnone : detect m g text = []
  · simp only [scanText, sanitizedText, hnone, if_true]
  · simp only [scanText, sanitizedText, hnone, if_false]

theorem scanAll_value (xs : List JsonValue) :
    (scanAll m g xs).value = xs.map fun x => (scanAndSanitize m g x).value := by
  induction xs with
  | nil => rfl
  | cons x xs ih => rw [scanAll, ih, List.map_cons]

theorem scanFields_value (fields : List (String × JsonValue)) :
    (scanFields m g fields).value =
      fields.map fun field => (field.1, (scanAndSanitize m g field.2).value) := by
  induction fields with
  | nil => rfl
  | cons field fields ih => rw [scanFields, ih, List.map_cons]

/-- The scan reaches every text of a value. -/
theorem scan_texts (value : JsonValue) :
    texts (scanAndSanitize m g value).value = (texts value).map (sanitizedText m g) := by
  induction value using JsonValue.partsInduction with
  | null => rfl
  | bool b => rfl
  | int n => rfl
  | float x => rfl
  | str s => rw [scanAndSanitize, scanText_value, texts, texts, List.map_singleton]
  | list xs ih =>
      rw [scanAndSanitize, texts, texts, scanAll_value, textsAll_eq, textsAll_eq, List.flatMap_map,
        List.map_flatMap]
      exact List.flatMap_congr ih
  | dict fields ih =>
      rw [scanAndSanitize, texts, texts, scanFields_value, textsFields_eq, textsFields_eq,
        List.flatMap_map, List.map_flatMap]
      exact List.flatMap_congr ih

/-- What a guardrail that blocks lets through is clean, and it lets that through as it is. -/
theorem inspectMessages_blocking (hanonymize : g.anonymize = false) (haction : g.action = .block)
    (messages : List JsonValue) :
    (inspectMessages m g messages = .ok (messages, false) ∧
        ∀ message ∈ messages, Clean m g message) ∨
      ((∃ e, inspectMessages m g messages = .error e) ∧
        ∃ message ∈ messages, ¬Clean m g message) := by
  induction messages with
  | nil => exact .inl ⟨rfl, List.forall_mem_nil _⟩
  | cons message messages ih =>
      have hscan : inspectMessage m g message =
          ⟨message, collectEntities m g message, false⟩ := by
        rw [inspectMessage, hanonymize]
        rfl
      by_cases hclean : Clean m g message
      · have hnone : ¬(collectEntities m g message ≠ [] ∧ g.anonymize = false ∧
            g.action = .block) := fun h => h.1 ((clean_iff message).mp hclean)
        rcases ih with ⟨hok, hall⟩ | ⟨⟨e, herror⟩, other, hother, hunclean⟩
        · refine .inl ⟨?_, List.forall_mem_cons.mpr ⟨hclean, hall⟩⟩
          simp only [inspectMessages, hscan, hnone, if_false, hok, Bool.or_self]
        · refine .inr ⟨⟨e, ?_⟩, other, List.mem_cons_of_mem _ hother, hunclean⟩
          simp only [inspectMessages, hscan, hnone, if_false, herror]
      · refine .inr ⟨⟨violation g (collectEntities m g message), ?_⟩, message, List.mem_cons_self,
          hclean⟩
        rw [clean_iff] at hclean
        simp only [inspectMessages, hscan]
        exact if_pos ⟨hclean, hanonymize, haction⟩

/-- A blocking guardrail passes a request exactly when its messages are clean. -/
theorem hook_passes_iff (hanonymize : g.anonymize = false) (haction : g.action = .block)
    {data : JsonObject} {messages : List JsonValue}
    (hmessages : JsonObject.get? data "messages" = some (.list messages)) :
    asyncPreCallHook m g data = .ok none ↔ ∀ message ∈ messages, Clean m g message := by
  unfold asyncPreCallHook
  simp only [hmessages, Option.getD_some]
  rcases inspectMessages_blocking hanonymize haction messages with
    ⟨hok, hall⟩ | ⟨⟨e, herror⟩, message, hmessage, hunclean⟩
  · rw [hok]
    exact iff_of_true rfl hall
  · rw [herror]
    exact iff_of_false nofun fun hall => hunclean (hall message hmessage)

/-- The hook looks at nothing but the messages. -/
theorem hook_without_messages {data : JsonObject} (h : JsonObject.get? data "messages" = none) :
    asyncPreCallHook m g data = .ok none := by
  rw [asyncPreCallHook, h]
  rfl

end Texts

end PresidioGuardrail
