import DeltaLLM.McpResultCache
import DeltaLLM.TransitionRuns

/-! # Runs of cached tool calls

Calls look up, ask the server and store in any order, beside the requests of the response cache.
A result from the cache is one that the server has given to the same call.
-/
namespace McpResultCacheRuns

open CacheKeys
open Dictionaries
open JsonReading
open JsonText
open JsonValues
open McpApprovals
open McpResultCache
open TransitionRuns

/-! ## The system -/

/-- Where `_execute_tool_call` is. -/
inductive CallPhase where
  | idle
  | started (call : CachedCall)
  | asked (call : CachedCall)
  | received (call : CachedCall) (result : MCPToolCallResult) (cachedAt : ℤ)
  | finished (call : CachedCall) (result : MCPToolCallResult) (servedAt : ℤ)

/-- A result that the server has given. -/
structure ToolAnswer where
  callId : ℕ
  call : CachedCall
  result : MCPToolCallResult
  answeredAt : ℤ

structure GatewayState where
  backend : Option InMemoryBackend
  phase : ℕ → CallPhase
  answers : List ToolAnswer

/-- The steps of the calls, each with what its clock shows, and what the response cache does. -/
inductive CacheEvent where
  | start (callId : ℕ) (call : CachedCall)
  | lookUp (callId : ℕ) (now : ℤ)
  | answer (callId : ℕ) (result : MCPToolCallResult) (now : ℤ)
  | store (callId : ℕ)
  | stop (callId : ℕ)
  | responseGet (request : CacheRequest) (now : ℤ)
  | responseSet (request : CacheRequest) (entry : CacheEntry) (ttl : Option ℤ)

def GatewayState.setPhase (s : GatewayState) (callId : ℕ) (phase : CallPhase) : GatewayState :=
  { s with phase := Function.update s.phase callId phase }

/-- The entry that `MCPToolResultCache.set` makes. -/
def toolEntry (call : CachedCall) (result : MCPToolCallResult) (cachedAt : ℤ) : CacheEntry where
  response := result.response
  model := "mcp:" ++ call.server.serverKey ++ "." ++ call.toolName
  cachedAt
  ttl := call.cacheTtl

section System

variable (sha256 : String → String) (salt : String)

/-- `MCPToolResultCache.get`. -/
def getResult (backend : Option InMemoryBackend) (call : CachedCall) (now : ℤ) :
    Option MCPToolCallResult × Option InMemoryBackend :=
  match backend with
  | none => (none, none)
  | some backend =>
      let found := backend.get now (toolCacheKey sha256 call)
      (found.1.map fun entry => resultOf entry.response, some found.2)

/-- `MCPToolResultCache.set`. -/
def setResult (backend : Option InMemoryBackend) (call : CachedCall) (result : MCPToolCallResult)
    (cachedAt : ℤ) : Option InMemoryBackend :=
  match backend with
  | none => none
  | some backend =>
      if call.cacheTtl ≤ 0 ∨ result.isError = true then some backend
      else
        some (backend.set (toolCacheKey sha256 call) (toolEntry call result cachedAt)
          (some call.cacheTtl))

def lookUp (s : GatewayState) (callId : ℕ) (call : CachedCall) (now : ℤ) : GatewayState :=
  if 0 < call.cacheTtl then
    match getResult sha256 s.backend call now with
    | (some result, backend) =>
        { s with backend := backend }.setPhase callId (.finished call result now)
    | (none, backend) => { s with backend := backend }.setPhase callId (.asked call)
  else s.setPhase callId (.asked call)

/-- A call can stop wherever it waits. -/
def cacheStep (s : GatewayState) : CacheEvent → Option GatewayState
  | .start callId call =>
      match s.phase callId with
      | .idle => some (s.setPhase callId (.started call))
      | _ => none
  | .lookUp callId now =>
      match s.phase callId with
      | .started call => some (lookUp sha256 s callId call now)
      | _ => none
  | .answer callId result now =>
      match s.phase callId with
      | .asked call =>
          let answer : ToolAnswer := ⟨callId, call, result, now⟩
          some ({ s with answers := s.answers ++ [answer] }.setPhase callId
            (.received call result now))
      | _ => none
  | .store callId =>
      match s.phase callId with
      | .received call result now =>
          some ({ s with backend := setResult sha256 s.backend call result now }.setPhase callId
            (.finished call result now))
      | _ => none
  | .stop callId => some (s.setPhase callId .idle)
  | .responseGet request now =>
      (cacheKey sha256 salt request).map fun key =>
        { s with backend := s.backend.map fun backend => (backend.get now key).2 }
  | .responseSet request entry ttl =>
      (cacheKey sha256 salt request).map fun key =>
        { s with backend := s.backend.map fun backend => backend.set key entry ttl }

def cacheSystem : TransitionSystem GatewayState CacheEvent where
  initial s := (∀ backend ∈ s.backend, backend.cache = []) ∧ s.phase = (fun _ => .idle) ∧
    s.answers = []
  enabled s e := (cacheStep sha256 salt s e).isSome = true
  next s e := (cacheStep sha256 salt s e).getD s

/-! ## What is in the cache -/

/-- An entry of the answer, which was no error. -/
structure EntryOf (answer : ToolAnswer) (entry : CacheEntry) : Prop where
  response : entry.response = answer.result.response
  cachedAt : entry.cachedAt = answer.answeredAt
  ttl : entry.ttl = answer.call.cacheTtl
  successful : answer.result.isError = false

/-- Under the key of a tool there are only answers that the server has given for it. -/
def BackendSound (s : GatewayState) : Prop :=
  ∀ backend ∈ s.backend, ∀ cached ∈ backend.cache,
    (∃ answer ∈ s.answers, cached.1 = toolCacheKey sha256 answer.call ∧ EntryOf answer cached.2) ∨
      ∃ key apiKey, cached.1 = scopedCacheKey key apiKey

/-- The result that a call returns: the server's own answer to it, or one to the same call, within
the lifetime that its policy gave it. -/
inductive ServedFrom (callId : ℕ) (call : CachedCall) (result : MCPToolCallResult) (servedAt : ℤ) :
    ToolAnswer → Prop where
  | asked {answer : ToolAnswer} : answer.callId = callId → answer.call = call →
      answer.result = result → ServedFrom callId call result servedAt answer
  | cached {answer : ToolAnswer} : SameCall answer.call call ∨ Collides sha256 answer.call call →
      answer.result = result → answer.result.isError = false →
      servedAt ≤ answer.answeredAt + 1000 * answer.call.cacheTtl →
      ServedFrom callId call result servedAt answer

def PhaseSound (s : GatewayState) (callId : ℕ) : CallPhase → Prop
  | .received call result cachedAt => ⟨callId, call, result, cachedAt⟩ ∈ s.answers
  | .finished call result servedAt =>
      ∃ answer ∈ s.answers, ServedFrom sha256 callId call result servedAt answer
  | _ => True

structure CacheSound (s : GatewayState) : Prop where
  backend : BackendSound sha256 s
  phase : ∀ callId, PhaseSound sha256 s callId (s.phase callId)

end System

section Step

variable {sha256 : String → String} {salt : String} {s s' : GatewayState} {callId : ℕ}
  {phase : CallPhase}

theorem setPhase_phase (s : GatewayState) (callId : ℕ) (phase : CallPhase) :
    (s.setPhase callId phase).phase callId = phase :=
  Function.update_self ..

theorem setPhase_other {other : ℕ} (h : other ≠ callId) :
    (s.setPhase callId phase).phase other = s.phase other :=
  Function.update_of_ne h _ _

/-- More answers leave what is known of the calls. -/
theorem PhaseSound.mono (hsub : s.answers ⊆ s'.answers) (h : PhaseSound sha256 s callId phase) :
    PhaseSound sha256 s' callId phase := by
  cases phase with
  | received call result cachedAt => exact hsub h
  | finished call result servedAt =>
      obtain ⟨answer, hmem, hserved⟩ := h
      exact ⟨answer, hsub hmem, hserved⟩
  | idle => trivial
  | started call => trivial
  | asked call => trivial

theorem BackendSound.mono (hbackend : ∀ backend ∈ s'.backend, ∃ old ∈ s.backend,
      backend.cache ⊆ old.cache) (hsub : s.answers ⊆ s'.answers) (h : BackendSound sha256 s) :
    BackendSound sha256 s' := by
  intro backend hmem cached hcached
  obtain ⟨old, hold, hcache⟩ := hbackend backend hmem
  rcases h old hold cached (hcache hcached) with ⟨answer, hanswer, hentry⟩ | hother
  · exact Or.inl ⟨answer, hsub hanswer, hentry⟩
  · exact Or.inr hother

/-- A call moves on over a backend that is still sound. -/
theorem CacheSound.advance (h : CacheSound sha256 s) (hsub : s.answers ⊆ s'.answers)
    (hphases : s'.phase = s.phase) (hbackend : BackendSound sha256 s')
    (hphase : PhaseSound sha256 s' callId phase) :
    CacheSound sha256 (s'.setPhase callId phase) where
  backend := hbackend
  phase other := by
    by_cases hother : other = callId
    · subst hother
      rw [setPhase_phase]
      exact hphase.mono (List.Subset.refl _)
    · rw [setPhase_other hother, hphases]
      exact (h.phase other).mono hsub

/-- What a lookup finds has been answered to the same call. -/
theorem getResult_some {call : CachedCall} {now : ℤ} {result : MCPToolCallResult}
    {backend : Option InMemoryBackend} (h : BackendSound sha256 s)
    (hfound : getResult sha256 s.backend call now = (some result, backend)) :
    ∃ answer ∈ s.answers, ServedFrom sha256 callId call result now answer := by
  unfold getResult at hfound
  cases hbackend : s.backend with
  | none =>
      rw [hbackend] at hfound
      cases hfound
  | some store =>
      rw [hbackend] at hfound
      obtain ⟨hresult, -⟩ := Prod.mk.inj hfound
      obtain ⟨entry, hentry, hread⟩ := Option.map_eq_some_iff.mp hresult
      obtain ⟨hmem, hfresh⟩ := get_some hentry
      rcases h store hbackend _ hmem with ⟨answer, hanswer, hkey, hof⟩ | ⟨key, apiKey, hscoped⟩
      · refine ⟨answer, hanswer, .cached (sameCall_of_key hkey.symm) ?_ hof.successful ?_⟩
        · rw [← hread, hof.response, resultOf_response]
        · rw [← hof.cachedAt, ← hof.ttl]
          exact hfresh
      · exact absurd hscoped.symm (toolCacheKey_ne_scoped sha256 call key apiKey)

theorem getResult_subset {call : CachedCall} {now : ℤ} {backend backend' : Option InMemoryBackend}
    {found : Option MCPToolCallResult}
    (h : getResult sha256 backend call now = (found, backend')) :
    ∀ after ∈ backend', ∃ old ∈ backend, after.cache ⊆ old.cache := by
  unfold getResult at h
  cases backend with
  | none =>
      obtain ⟨-, rfl⟩ := Prod.mk.inj h
      intro after hafter
      cases hafter
  | some store =>
      obtain ⟨-, rfl⟩ := Prod.mk.inj h
      intro after hafter
      obtain rfl := Option.some.inj hafter
      exact ⟨store, rfl, get_subset⟩

theorem lookUp_sound {call : CachedCall} {now : ℤ} (h : CacheSound sha256 s) :
    CacheSound sha256 (lookUp sha256 s callId call now) := by
  unfold lookUp
  by_cases hcached : 0 < call.cacheTtl
  · rw [if_pos hcached]
    cases hfound : getResult sha256 s.backend call now with
    | mk found backend =>
        have hkept : BackendSound sha256 { s with backend := backend } :=
          h.backend.mono (getResult_subset hfound) (List.Subset.refl _)
        cases found with
        | some result =>
            have hserved : ∃ answer ∈ s.answers, ServedFrom sha256 callId call result now answer :=
              getResult_some h.backend hfound
            exact h.advance (List.Subset.refl _) rfl hkept hserved
        | none => exact h.advance (List.Subset.refl _) rfl hkept trivial
  · rw [if_neg hcached]
    exact h.advance (List.Subset.refl _) rfl h.backend trivial

/-- What is stored was answered to the call. -/
theorem setResult_sound {call : CachedCall} {result : MCPToolCallResult} {cachedAt : ℤ}
    (h : CacheSound sha256 s) (hanswer : ⟨callId, call, result, cachedAt⟩ ∈ s.answers) :
    BackendSound sha256 { s with backend := setResult sha256 s.backend call result cachedAt } := by
  intro backend hmem cached hcached
  unfold setResult at hmem
  cases hbackend : s.backend with
  | none =>
      rw [hbackend] at hmem
      cases hmem
  | some store =>
      rw [hbackend] at hmem
      by_cases hskip : call.cacheTtl ≤ 0 ∨ result.isError = true
      · simp only [if_pos hskip, Option.mem_def, Option.some.injEq] at hmem
        subst hmem
        exact h.backend store hbackend cached hcached
      · simp only [if_neg hskip, Option.mem_def, Option.some.injEq] at hmem
        subst hmem
        rcases mem_set hcached with hold | rfl
        · exact h.backend store hbackend cached hold
        · left
          refine ⟨_, hanswer, rfl, rfl, rfl, rfl, ?_⟩
          simpa using fun herror => hskip (Or.inr herror)

theorem responseSet_sound {key : String} {entry : CacheEntry} {ttl : Option ℤ}
    {request : CacheRequest} (hkey : cacheKey sha256 salt request = some key)
    (h : CacheSound sha256 s) :
    CacheSound sha256
      { s with backend := s.backend.map fun backend => backend.set key entry ttl } where
  backend := by
    intro backend hmem cached hcached
    obtain ⟨store, hstore, rfl⟩ := Option.map_eq_some_iff.mp hmem
    rcases mem_set hcached with hold | rfl
    · exact h.backend store hstore cached hold
    · right
      unfold cacheKey at hkey
      split_ifs at hkey
      exact ⟨_, _, (Option.some.inj hkey).symm⟩
  phase callId := (h.phase callId).mono (List.Subset.refl _)

theorem responseGet_sound {key : String} {now : ℤ} (h : CacheSound sha256 s) :
    CacheSound sha256
      { s with backend := s.backend.map fun backend => (backend.get now key).2 } where
  backend := by
    refine BackendSound.mono (s := s) (fun backend hmem => ?_) (List.Subset.refl _) h.backend
    obtain ⟨store, hstore, rfl⟩ := Option.map_eq_some_iff.mp hmem
    exact ⟨store, hstore, get_subset⟩
  phase callId := (h.phase callId).mono (List.Subset.refl _)

theorem cacheStep_sound {e : CacheEvent} (h : CacheSound sha256 s)
    (hstep : cacheStep sha256 salt s e = some s') : CacheSound sha256 s' := by
  cases e with
  | start callId call =>
      simp only [cacheStep] at hstep
      split at hstep
      · obtain rfl := Option.some.inj hstep
        exact h.advance (List.Subset.refl _) rfl h.backend trivial
      · cases hstep
  | lookUp callId now =>
      simp only [cacheStep] at hstep
      split at hstep
      · obtain rfl := Option.some.inj hstep
        exact lookUp_sound h
      · cases hstep
  | answer callId result now =>
      simp only [cacheStep] at hstep
      split at hstep
      · obtain rfl := Option.some.inj hstep
        have hsub : ∀ answer : ToolAnswer, s.answers ⊆ s.answers ++ [answer] := fun answer =>
          List.subset_append_left _ _
        refine h.advance (hsub _) rfl (h.backend.mono ?_ (hsub _)) ?_
        · exact fun backend hbackend => ⟨backend, hbackend, List.Subset.refl _⟩
        · exact List.mem_append_right _ List.mem_cons_self
      · cases hstep
  | store callId =>
      simp only [cacheStep] at hstep
      split at hstep
      next call result cachedAt hphase =>
        obtain rfl := Option.some.inj hstep
        have hanswer := h.phase callId
        rw [hphase] at hanswer
        exact h.advance (List.Subset.refl _) rfl (setResult_sound h hanswer)
          ⟨_, hanswer, .asked rfl rfl rfl⟩
      · cases hstep
  | stop callId =>
      obtain rfl := Option.some.inj hstep
      exact h.advance (List.Subset.refl _) rfl h.backend trivial
  | responseGet request now =>
      obtain ⟨key, -, rfl⟩ := Option.map_eq_some_iff.mp hstep
      exact responseGet_sound h
  | responseSet request entry ttl =>
      obtain ⟨key, hkey, rfl⟩ := Option.map_eq_some_iff.mp hstep
      exact responseSet_sound hkey h

theorem cacheSound_of_reachable (hs : Reachable (cacheSystem sha256 salt) s) :
    CacheSound sha256 s := by
  refine hs.invariant (fun s h => ?_) fun s e h he => ?_
  · obtain ⟨hempty, hidle, -⟩ := h
    constructor
    · intro backend hbackend cached hcached
      rw [hempty backend hbackend] at hcached
      cases hcached
    · intro callId
      rw [hidle]
      trivial
  · obtain ⟨t, ht⟩ := Option.isSome_iff_exists.mp he
    have hnext : (cacheSystem sha256 salt).next s e = t := by simp [cacheSystem, ht]
    rw [hnext]
    exact cacheStep_sound h ht

end Step

/-- A tool call is served its own answer or a cached one of the same call. -/
theorem served_from_same_call (sha256 : String → String) (salt : String) (s : GatewayState)
    (callId : ℕ) (call : CachedCall) (result : MCPToolCallResult) (servedAt : ℤ)
    (hs : Reachable (cacheSystem sha256 salt) s)
    (hphase : s.phase callId = .finished call result servedAt) :
    ∃ answer ∈ s.answers, ServedFrom sha256 callId call result servedAt answer := by
  have hsound := (cacheSound_of_reachable hs).phase callId
  rw [hphase] at hsound
  exact hsound

namespace LogCall

def server : MCPServerConfig := ⟨"srv-1", "git", []⟩

/-- A call of the log tool; the server is forwarded no headers. -/
def logCall (requestHeaders : List (String × String)) : CachedCall where
  server := server
  toolName := "log"
  arguments := some [("branch", .str "main")]
  requestHeaders
  apiKey := some "sk-1"
  cacheTtl := 60
  arguments_decimal := .dict _ fun field hfield => by
    rw [List.mem_singleton.mp hfield]
    exact .str "main"

def payloadText : String :=
  "\x7b\"api_key\":\"sk-1\",\"arguments\":\x7b\"branch\":\"main\"\x7d," ++
    "\"forwarded_headers\":\x7b\x7d,\"server_key\":\"git\",\"tool_name\":\"log\"\x7d"

/-- The SHA-256 digest of the payload, and no digest twice. -/
def digest (text : String) : String :=
  if text = payloadText then "ce15d6b74f7d69179c923811c701fad96d2d09be1b7abc6c6e8bd17b06aefa49"
  else "other:" ++ text

def result : MCPToolCallResult := ⟨[.str "one commit"], none, false, []⟩

def start : GatewayState := ⟨some ⟨10, []⟩, fun _ => .idle, []⟩

/-- A call is answered and its result stored. -/
def stored : List CacheEvent :=
  [.start 0 (logCall []), .lookUp 0 0, .answer 0 result 100, .store 0]

/-- Later the call comes again, with a header that is not forwarded. -/
def again : List CacheEvent := stored ++ [.start 1 (logCall [("user-agent", "cli")])]

def againState : GatewayState := again.foldl (cacheSystem digest "").next start

theorem again_reachable : Reachable (cacheSystem digest "") againState := by
  have hinitial : (cacheSystem digest "").initial start :=
    ⟨fun backend hbackend => by rw [← Option.some.inj hbackend], rfl, rfl⟩
  refine (ReachableBy.initial hinitial).fires ?_
  exact ⟨rfl, trivial, rfl, trivial, rfl, trivial, rfl, trivial, rfl, trivial, trivial⟩

/-- A minute and a tenth of a second later the result is still there. -/
theorem again_found :
    (getResult digest againState.backend (logCall [("user-agent", "cli")]) 60100).1 =
      some result := by
  have hbackend : againState.backend =
      some ⟨10, [(toolCacheKey digest (logCall []), toolEntry (logCall []) result 100)]⟩ := rfl
  have hkey : toolCacheKey digest (logCall [("user-agent", "cli")]) =
      toolCacheKey digest (logCall []) := rfl
  have hfresh : (toolEntry (logCall []) result 100).expired 60100 = false := by decide
  have hresult : resultOf (toolEntry (logCall []) result 100).response = result :=
    resultOf_response result
  rw [hbackend, getResult, hkey]
  simp [InMemoryBackend.get, Dict.get?, hfresh, hresult]

def servedState : GatewayState := (cacheSystem digest "").next againState (.lookUp 1 60100)

theorem served_again :
    servedState.phase 1 = .finished (logCall [("user-agent", "cli")]) result 60100 ∧
      ∃ answer ∈ servedState.answers,
        ServedFrom digest 1 (logCall [("user-agent", "cli")]) result 60100 answer := by
  have hphase : servedState.phase 1 = .finished (logCall [("user-agent", "cli")]) result 60100 := by
    have hfound := again_found
    have hnext : servedState =
        lookUp digest againState 1 (logCall [("user-agent", "cli")]) 60100 := rfl
    rw [hnext, lookUp, if_pos (by decide)]
    cases hlookup : getResult digest againState.backend (logCall [("user-agent", "cli")]) 60100 with
    | mk found backend =>
        rw [hlookup] at hfound
        obtain rfl : found = some result := hfound
        exact setPhase_phase _ 1 _
  exact ⟨hphase, served_from_same_call digest "" servedState 1 _ _ _
    (again_reachable.step rfl) hphase⟩

end LogCall

end McpResultCacheRuns
