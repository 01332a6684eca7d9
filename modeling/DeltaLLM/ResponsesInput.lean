import DeltaLLM.JsonValues
import Mathlib.Data.List.Basic

/-! # Chat requests made from Responses requests

The input of a Responses request is a text or a list of texts and items. Items with a text become
messages where they stand; everything else is collected into one message of the user at the end.
-/
namespace ResponsesInput

open JsonValues

inductive ResponseInput where
  | text (text : String)
  | items (items : List JsonValue)

structure ResponsesRequest where
  model : String
  input : ResponseInput
  instructions : Option String
  temperature : Option JsonFloat
  topP : Option JsonFloat
  maxOutputTokens : Option ℕ
  stream : Option Bool
  user : Option String
  metadata : Option JsonObject
  tools : Option (List JsonValue)
  toolChoice : Option JsonValue

structure Message where
  role : String
  content : String
  deriving DecidableEq, Repr

structure ChatCompletionRequest where
  model : String
  messages : List Message
  temperature : Option JsonFloat
  maxTokens : Option ℕ
  topP : Option JsonFloat
  stream : Option Bool
  tools : Option (List JsonValue)
  toolChoice : Option JsonValue
  user : Option String
  metadata : Option JsonObject

inductive RequestError where
  | invalidRequest (message : String)
  | validation
  deriving DecidableEq, Repr

/-- `ChatMessage.role`. -/
def chatRoles : List String := ["system", "user", "assistant", "tool"]

/-- The text of a block of type `input_text` or `text`. -/
def blockText : JsonValue → Option String
  | .dict block =>
      match JsonObject.get block "type", JsonObject.get block "text" with
      | .str "input_text", .str text | .str "text", .str text => some text
      | _, _ => none
  | _ => none

/-- The message of an item that has a role and a text. -/
def directMessage : JsonValue → Option Message
  | .dict item =>
      match JsonObject.get item "role", JsonObject.get item "content" with
      | .str role, .str content => some ⟨role, content⟩
      | _, _ => none
  | _ => none

/-- The texts of a text, or of an item whose content is a list of blocks. -/
def textParts : JsonValue → List String
  | .str text => [text]
  | .dict item =>
      match JsonObject.get item "content" with
      | .list blocks => blocks.filterMap blockText
      | _ => []
  | _ => []

/-- One pass of the loop over the input. -/
def translateItem (translated : List Message × List String) (item : JsonValue) :
    List Message × List String :=
  match directMessage item with
  | some message => (translated.1 ++ [message], translated.2)
  | none => (translated.1, translated.2 ++ textParts item)

def userMessage (parts : List String) : Message := ⟨"user", String.intercalate "\n" parts⟩

def inputMessages (messages : List Message) : ResponseInput → List Message
  | .text text => messages ++ [⟨"user", text⟩]
  | .items items =>
      let translated := items.foldl translateItem (messages, [])
      if translated.2 = [] then translated.1 else translated.1 ++ [userMessage translated.2]

def instructionMessages (instructions : Option String) : List Message :=
  match instructions.filter (· ≠ "") with
  | some instructions => [⟨"system", instructions⟩]
  | none => []

/-- `responses_to_chat_request`. -/
def responsesToChatRequest (payload : ResponsesRequest) :
    Except RequestError ChatCompletionRequest :=
  let messages := inputMessages (instructionMessages payload.instructions) payload.input
  if messages = [] then
    .error (.invalidRequest "Responses `input` could not be translated into chat messages")
  else if messages.all fun message => message.role ∈ chatRoles then
    .ok
      { model := payload.model
        messages := messages
        temperature := payload.temperature
        maxTokens := payload.maxOutputTokens
        topP := payload.topP
        stream := payload.stream
        tools := payload.tools
        toolChoice := payload.toolChoice
        user := payload.user
        metadata := payload.metadata }
  else .error .validation

/-! ## The turns of the input -/

/-- All the texts of a list of text blocks. -/
def blockTexts : List JsonValue → Option (List String)
  | [] => some []
  | block :: blocks => do
      let text ← blockText block
      let texts ← blockTexts blocks
      return text :: texts

/-- The role and the text of an item: a text is a turn of the user. -/
def turn : JsonValue → Option Message
  | .str text => some ⟨"user", text⟩
  | .dict item =>
      match JsonObject.get item "role", JsonObject.get item "content" with
      | .str role, .str content => some ⟨role, content⟩
      | .str role, .list blocks =>
          (blockTexts blocks).map fun texts => ⟨role, String.intercalate "\n" texts⟩
      | _, _ => none
  | _ => none

/-- Texts, and items with a role and a text or a list of text blocks. -/
def IsConversation (items : List JsonValue) : Prop := ∀ item ∈ items, (turn item).isSome = true

instance (items : List JsonValue) : Decidable (IsConversation items) :=
  inferInstanceAs (Decidable (∀ item ∈ items, (turn item).isSome = true))

/-- The instructions, and then the turns of the input in their order. -/
def conversation (instructions : Option String) (items : List JsonValue) : List Message :=
  instructionMessages instructions ++ items.filterMap turn

def KeepsConversation (payload : ResponsesRequest) (items : List JsonValue) : Prop :=
  ∃ request, responsesToChatRequest payload = .ok request ∧
    request.messages = conversation payload.instructions items

/-- The item is collected for the message at the end. -/
def Collected (item : JsonValue) : Prop := directMessage item = none

instance (item : JsonValue) : Decidable (Collected item) :=
  decidable_of_iff ((directMessage item).isNone = true) Option.isNone_iff_eq_none

/-- At most one item is collected; it is a turn of the user and has a text, and only turns that say
the same follow it. -/
def CollectedLast (items : List JsonValue) : Prop :=
  (∀ item ∈ items, ¬Collected item) ∨
    ∃ before item after, items = before ++ item :: after ∧
      (∀ other ∈ before, ¬Collected other) ∧ (∀ other ∈ after, ¬Collected other) ∧
      Collected item ∧ textParts item ≠ [] ∧ turn item = some (userMessage (textParts item)) ∧
      ∀ other ∈ after, turn other = turn item

/-- There is something to say, and the roles of the direct messages are chat roles. -/
def Translatable (instructions : Option String) (items : List JsonValue) : Prop :=
  (items = [] → instructionMessages instructions ≠ []) ∧
    ∀ message ∈ items.filterMap directMessage, message.role ∈ chatRoles

/-! ## The loop -/

theorem foldl_translateItem (items : List JsonValue) (messages : List Message)
    (parts : List String) :
    items.foldl translateItem (messages, parts) =
      (messages ++ items.filterMap directMessage,
        parts ++ (items.filter fun item => Collected item).flatMap textParts) := by
  induction items generalizing messages parts with
  | nil => simp
  | cons item items ih =>
      cases hdirect : directMessage item with
      | some message =>
          have hkept : ¬Collected item := by simp [Collected, hdirect]
          simp [translateItem, hdirect, ih, hkept]
      | none =>
          have hcollected : Collected item := hdirect
          simp [translateItem, hdirect, ih, hcollected]

/-- A direct message is the turn of its item. -/
theorem turn_of_direct {item : JsonValue} {message : Message}
    (h : directMessage item = some message) : turn item = some message := by
  unfold directMessage at h
  split at h
  · next item =>
    split at h
    · next role content hrole hcontent =>
      obtain rfl := Option.some.inj h
      simp [turn, hrole, hcontent]
    · cases h
  · cases h

theorem blockTexts_some {blocks : List JsonValue} {texts : List String}
    (h : blockTexts blocks = some texts) : blocks.filterMap blockText = texts := by
  induction blocks generalizing texts with
  | nil => exact Option.some.inj h
  | cons block blocks ih =>
      simp only [blockTexts, Option.bind_eq_bind, Option.bind_eq_some_iff, Option.pure_def] at h
      obtain ⟨text, htext, rest, hrest, h⟩ := h
      obtain rfl := Option.some.inj h
      rw [List.filterMap_cons_some htext, ih hrest]

/-- A collected turn says what its parts say. -/
theorem turn_of_collected {item : JsonValue} {message : Message} (hcollected : Collected item)
    (hturn : turn item = some message) :
    message.content = String.intercalate "\n" (textParts item) := by
  unfold turn at hturn
  split at hturn
  · next text =>
    obtain rfl := Option.some.inj hturn
    simp [textParts]
  · next fields =>
    split at hturn
    · next role content hrole hcontent =>
      simp [Collected, directMessage, hrole, hcontent] at hcollected
    · next role blocks hrole hcontent =>
      obtain ⟨texts, htexts, rfl⟩ := Option.map_eq_some_iff.mp hturn
      simp [textParts, hcontent, blockTexts_some htexts]
    · cases hturn
  · cases hturn

/-! ## Which conversations are kept -/

/-- A list is its own rotation by one if all its elements are the same. -/
theorem cons_eq_append_singleton {α : Type*} {x y : α} {xs : List α} :
    x :: xs = xs ++ [y] ↔ x = y ∧ ∀ z ∈ xs, z = x := by
  induction xs generalizing x with
  | nil => simp
  | cons z zs ih =>
      rw [List.cons_append, List.cons.injEq, ih]
      constructor
      · rintro ⟨rfl, rfl, hall⟩
        exact ⟨rfl, by simpa using hall⟩
      · rintro ⟨rfl, hall⟩
        obtain rfl := hall z List.mem_cons_self
        exact ⟨rfl, rfl, fun other hother => hall other (List.mem_cons_of_mem _ hother)⟩

theorem filterMap_direct {items : List JsonValue} (h : ∀ item ∈ items, ¬Collected item) :
    items.filterMap directMessage = items.filterMap turn := by
  apply List.filterMap_congr
  intro item hitem
  obtain ⟨message, hmessage⟩ := Option.ne_none_iff_exists'.mp (h item hitem)
  rw [hmessage, turn_of_direct hmessage]

/-- The messages of the items, without the instructions. -/
def itemMessages (items : List JsonValue) : List Message :=
  let parts := (items.filter fun item => Collected item).flatMap textParts
  items.filterMap directMessage ++ if parts = [] then [] else [userMessage parts]

theorem inputMessages_items (messages : List Message) (items : List JsonValue) :
    inputMessages messages (.items items) = messages ++ itemMessages items := by
  simp only [inputMessages, foldl_translateItem, List.nil_append, itemMessages]
  split_ifs
  · rw [List.append_nil]
  · rw [List.append_assoc]

theorem length_filterMap_turn {items : List JsonValue} (h : IsConversation items) :
    (items.filterMap turn).length = items.length := by
  induction items with
  | nil => rfl
  | cons item items ih =>
      obtain ⟨message, hmessage⟩ := Option.isSome_iff_exists.mp (h item List.mem_cons_self)
      rw [List.filterMap_cons_some hmessage, List.length_cons, List.length_cons,
        ih fun other hother => h other (List.mem_cons_of_mem _ hother)]

/-- Every item is a direct message or is collected. -/
theorem length_direct_add_collected (items : List JsonValue) :
    (items.filterMap directMessage).length + (items.filter fun item => Collected item).length =
      items.length := by
  induction items with
  | nil => rfl
  | cons item items ih =>
      cases hdirect : directMessage item with
      | some message =>
          have hkept : ¬Collected item := by simp [Collected, hdirect]
          rw [List.filterMap_cons_some hdirect, List.filter_cons_of_neg (by simpa using hkept),
            List.length_cons, List.length_cons]
          omega
      | none =>
          have hcollected : Collected item := hdirect
          rw [List.filterMap_cons_none hdirect, List.filter_cons_of_pos (by simpa using hcollected),
            List.length_cons, List.length_cons]
          omega

theorem filter_collected_nil {items : List JsonValue} (h : ∀ item ∈ items, ¬Collected item) :
    (items.filter fun item => Collected item) = [] := by
  apply List.filter_eq_nil_iff.mpr
  intro item hitem
  simpa using h item hitem

/-- With one collected item, the turns stand where they are if what follows it says the same. -/
theorem itemMessages_one {before after : List JsonValue} {item : JsonValue} {message : Message}
    (hbefore : ∀ other ∈ before, ¬Collected other) (hafter : ∀ other ∈ after, ¬Collected other)
    (hcollected : Collected item) (hparts : textParts item ≠ [])
    (hturn : turn item = some message) :
    itemMessages (before ++ item :: after) = (before ++ item :: after).filterMap turn ↔
      message = userMessage (textParts item) ∧ ∀ other ∈ after.filterMap turn, other = message := by
  have hdirect : directMessage item = none := hcollected
  have hfilter : ((before ++ item :: after).filter fun item => Collected item) = [item] := by
    rw [List.filter_append, filter_collected_nil hbefore,
      List.filter_cons_of_pos (by simpa using hcollected), filter_collected_nil hafter]
    rfl
  simp only [itemMessages, hfilter, List.flatMap_cons, List.flatMap_nil, List.append_nil,
    if_neg hparts, List.filterMap_append, List.filterMap_cons_none hdirect,
    List.filterMap_cons_some hturn, filterMap_direct hbefore, filterMap_direct hafter,
    List.append_assoc, List.append_cancel_left_eq]
  rw [eq_comm, cons_eq_append_singleton]

theorem itemMessages_eq_iff {items : List JsonValue} (h : IsConversation items) :
    itemMessages items = items.filterMap turn ↔ CollectedLast items := by
  constructor
  · intro hkept
    have hlength := congrArg List.length hkept
    have hturns := length_filterMap_turn h
    have hall := length_direct_add_collected items
    cases hcollected : items.filter fun item => Collected item with
    | nil =>
        refine .inl fun item hitem => ?_
        simpa using List.filter_eq_nil_iff.mp hcollected item hitem
    | cons item others =>
        obtain ⟨before, after, rfl, hbefore, hitem, hafter⟩ := List.filter_eq_cons_iff.mp hcollected
        have hcollectedItem : Collected item := by simpa using hitem
        have hkeptBefore : ∀ other ∈ before, ¬Collected other := by simpa using hbefore
        simp only [itemMessages, hcollected, List.length_append] at hlength hall hturns
        rw [List.length_cons] at hall
        -- the collected items leave one message at most
        split_ifs at hlength with hparts
        · rw [List.length_nil] at hlength
          omega
        · rw [List.length_singleton] at hlength
          have hothers : others = [] := List.length_eq_zero_iff.mp (by omega)
          subst hothers
          have hkeptAfter : ∀ other ∈ after, ¬Collected other := by
            simpa using List.filter_eq_nil_iff.mp hafter
          have hsome : textParts item ≠ [] := by simpa using hparts
          obtain ⟨message, hturn⟩ := Option.isSome_iff_exists.mp (h item (by simp))
          obtain ⟨hmessage, hsame⟩ :=
            (itemMessages_one hkeptBefore hkeptAfter hcollectedItem hsome hturn).mp hkept
          refine .inr ⟨before, item, after, rfl, hkeptBefore, hkeptAfter, hcollectedItem, hsome,
            hmessage ▸ hturn, fun other hother => ?_⟩
          obtain ⟨said, hsaid⟩ := Option.isSome_iff_exists.mp (h other (by simp [hother]))
          rw [hsaid, hturn, hsame said (List.mem_filterMap.mpr ⟨other, hother, hsaid⟩)]
  · rintro (hnone | ⟨before, item, after, rfl, hbefore, hafter, hitem, hsome, hturn, hsame⟩)
    · simp [itemMessages, filter_collected_nil hnone, filterMap_direct hnone]
    · refine (itemMessages_one hbefore hafter hitem hsome hturn).mpr ⟨rfl, fun other hother => ?_⟩
      obtain ⟨source, hsource, hsaid⟩ := List.mem_filterMap.mp hother
      rw [hsame source hsource, hturn] at hsaid
      exact (Option.some.inj hsaid).symm

theorem instructionMessages_role {instructions : Option String} {message : Message}
    (h : message ∈ instructionMessages instructions) : message.role ∈ chatRoles := by
  unfold instructionMessages at h
  split at h
  · obtain rfl := List.mem_singleton.mp h
    simp [chatRoles]
  · cases h

/-- The roles are checked on the direct messages; the others have chat roles. -/
theorem itemMessages_roles {items : List JsonValue} :
    (∀ message ∈ itemMessages items, message.role ∈ chatRoles) ↔
      ∀ message ∈ items.filterMap directMessage, message.role ∈ chatRoles := by
  simp only [itemMessages, List.forall_mem_append, and_iff_left_iff_imp]
  intro _ message hmessage
  split_ifs at hmessage
  · cases hmessage
  · obtain rfl := List.mem_singleton.mp hmessage
    simp [userMessage, chatRoles]

theorem conversation_eq_nil_iff {instructions : Option String} {items : List JsonValue}
    (h : IsConversation items) :
    conversation instructions items = [] ↔ items = [] ∧ instructionMessages instructions = [] := by
  have hlength := length_filterMap_turn h
  rw [conversation, List.append_eq_nil_iff, ← List.length_eq_zero_iff (l := items.filterMap turn),
    hlength, List.length_eq_zero_iff]
  exact and_comm

/-- A conversation is kept if and only if at most one item is collected, at its end, and it is a
turn of the user with a text. -/
theorem conversation_kept_iff {payload : ResponsesRequest} {items : List JsonValue}
    (hinput : payload.input = .items items) (hitems : IsConversation items) :
    KeepsConversation payload items ↔
      Translatable payload.instructions items ∧ CollectedLast items := by
  have hmessages : inputMessages (instructionMessages payload.instructions) payload.input =
      instructionMessages payload.instructions ++ itemMessages items := by
    rw [hinput, inputMessages_items]
  have hkept : instructionMessages payload.instructions ++ itemMessages items =
      conversation payload.instructions items ↔ CollectedLast items := by
    rw [conversation, List.append_cancel_left_eq, itemMessages_eq_iff hitems]
  have hroles : (∀ message ∈ instructionMessages payload.instructions ++ itemMessages items,
      message.role ∈ chatRoles) ↔
        ∀ message ∈ items.filterMap directMessage, message.role ∈ chatRoles := by
    rw [List.forall_mem_append, itemMessages_roles]
    exact and_iff_right fun _ => instructionMessages_role
  simp only [KeepsConversation, responsesToChatRequest, hmessages]
  constructor
  · rintro ⟨request, hrequest, hconversation⟩
    split_ifs at hrequest with hempty hall
    cases hrequest
    have hvalid := hroles.mp fun message hmessage =>
      of_decide_eq_true (List.all_eq_true.mp hall message hmessage)
    refine ⟨⟨fun hnil hnone => hempty ?_, hvalid⟩, hkept.mp hconversation⟩
    have hconversationNil := (conversation_eq_nil_iff hitems).mpr ⟨hnil, hnone⟩
    exact hconversation.trans hconversationNil
  · rintro ⟨⟨hsome, hvalid⟩, hlast⟩
    have hconversation := hkept.mpr hlast
    have hnonempty : ¬(instructionMessages payload.instructions ++ itemMessages items = []) := by
      rw [hconversation, conversation_eq_nil_iff hitems]
      exact fun hnil => hsome hnil.1 hnil.2
    have hall : (instructionMessages payload.instructions ++ itemMessages items).all
        (fun message => message.role ∈ chatRoles) = true :=
      List.all_eq_true.mpr fun message hmessage =>
        decide_eq_true (hroles.mpr hvalid message hmessage)
    rw [if_neg hnonempty, if_pos hall]
    exact ⟨_, rfl, hconversation⟩

/-! ## A question in blocks, an answer and another question -/

def requestOf (items : List JsonValue) : ResponsesRequest where
  model := "gpt-4o-mini"
  input := .items items
  instructions := some "Be brief"
  temperature := some (.finite 1)
  topP := some (.finite 1)
  maxOutputTokens := none
  stream := some false
  user := none
  metadata := none
  tools := none
  toolChoice := some (.str "auto")

def answered : JsonValue := .dict [("role", .str "assistant"), ("content", .str "4")]

def asked (text : String) : JsonValue :=
  .dict [("role", .str "user"),
    ("content", .list [.dict [("type", .str "input_text"), ("text", .str text)]])]

theorem conversation_kept_iff_answered :
    KeepsConversation (requestOf [answered, asked "3+3?"]) [answered, asked "3+3?"] ↔
      Translatable (some "Be brief") [answered, asked "3+3?"] ∧
        CollectedLast [answered, asked "3+3?"] :=
  conversation_kept_iff rfl (by decide)

def twoQuestions : List JsonValue := [asked "2+2?", answered, asked "3+3?"]

def sentMessages (payload : ResponsesRequest) : Option (List Message) :=
  (responsesToChatRequest payload).toOption.map (·.messages)

/-- The first question comes after its answer, and the two questions are one message. -/
theorem conversation_reordered :
    IsConversation twoQuestions ∧
      sentMessages (requestOf twoQuestions) =
        some [⟨"system", "Be brief"⟩, ⟨"assistant", "4"⟩, ⟨"user", "2+2?\n3+3?"⟩] ∧
      ¬KeepsConversation (requestOf twoQuestions) twoQuestions := by
  refine ⟨by decide, by decide, ?_⟩
  rintro ⟨request, hrequest, hmessages⟩
  have hsent : sentMessages (requestOf twoQuestions) =
      some (conversation (some "Be brief") twoQuestions) := by
    rw [sentMessages, hrequest]
    exact congrArg some hmessages
  revert hsent
  decide

end ResponsesInput
