import DeltaLLM.JsonValues
import DeltaLLM.PythonText
import DeltaLLM.TransitionRuns
import DeltaLLM.VersionHistory

/-! # Authentication of API keys

`KeyService` reads a key's record from the database and keeps what it made of it in Redis. An
admin's change to the record is followed by a deletion of the entry. Times are in microseconds.
-/
namespace KeyAuthentication

open JsonValues (JsonFloat JsonValue JsonObject)
open PythonText (stripOrEmpty)
open TransitionRuns

structure RateLimits where
  tpm : Option ℤ
  rpm : Option ℤ
  rph : Option ℤ
  rpd : Option ℤ
  tpd : Option ℤ
  deriving Repr

structure ModelLimits where
  rpm : Option (List (String × ℤ))
  tpm : Option (List (String × ℤ))
  deriving Repr

/-- The parts that a key takes over from its record as they are. -/
structure KeyColumns where
  userId : Option String
  teamId : Option String
  organizationId : Option String
  models : List String
  teamModels : List String
  maxBudget : Option JsonFloat
  spend : JsonFloat
  userLimits : RateLimits
  teamLimits : RateLimits
  orgLimits : RateLimits
  teamModelLimits : ModelLimits
  orgModelLimits : ModelLimits
  maxParallelRequests : Option ℤ
  teamMetadata : Option JsonObject
  orgMetadata : Option JsonObject
  expires : Option ℤ
  deriving Repr

structure KeyRecord extends KeyColumns where
  token : String
  limits : RateLimits
  guardrails : Option JsonValue
  metadata : Option JsonObject

structure UserAPIKeyAuth extends KeyColumns where
  apiKey : String
  tpmLimit : Option ℤ
  rpmLimit : Option ℤ
  keyLimits : RateLimits
  guardrails : List String
  metadata : JsonObject

/-- `KeyService`, with the hash of raw keys and Python's `str`. -/
structure KeyService where
  hashKey : String → String
  textOf : JsonValue → String
  authCacheTtlSeconds : ℤ

section Records

variable (k : KeyService)

/-- `_extract_guardrails`. -/
def extractGuardrails (record : KeyRecord) : List String :=
  match record.guardrails with
  | some (.list names) => names.map k.textOf
  | _ =>
      match record.metadata.bind (·.get? "guardrails") with
      | some (.list names) => names.map k.textOf
      | _ => []

/-- `annotate_auth_metadata` for an API key. -/
def annotateAuthMetadata (token : String) (metadata : Option JsonObject) : JsonObject :=
  let annotated := (metadata.getD []).set "auth_source" (.str "api_key")
  if token = "" then annotated else annotated.set "api_key_scope_id" (.str token)

/-- `_auth_from_record`. -/
def authFromRecord (record : KeyRecord) : UserAPIKeyAuth where
  toKeyColumns := record.toKeyColumns
  apiKey := record.token
  tpmLimit := record.limits.tpm
  rpmLimit := record.limits.rpm
  keyLimits := record.limits
  guardrails := extractGuardrails k record
  metadata := annotateAuthMetadata record.token record.metadata

structure AuthenticationError where
  message : String
  code : String
  deriving DecidableEq, Repr

/-- The checks of a record that was read. -/
def acceptRecord (record : Option KeyRecord) (now : ℤ) : Except AuthenticationError KeyRecord :=
  match record with
  | none => .error ⟨"Invalid API key", "invalid_api_key"⟩
  | some record =>
      if record.expires.any (· < now) then .error ⟨"API key expired", "invalid_api_key"⟩
      else .ok record

def second : ℤ := 1000000

/-- The seconds for which an entry stays: as configured, cut to what the key has left. -/
def KeyService.cacheSeconds (expires : Option ℤ) (now : ℤ) : ℤ :=
  let configured := max 1 k.authCacheTtlSeconds
  match expires with
  | none => configured
  | some expires => max 1 (min configured ((expires - now).tdiv second))

end Records

/-! ## Calls and changes, statement by statement -/

inductive KeyCall where
  | validateKey (rawKey : String)
  | getAuthByTokenHash (tokenHash : Option String)

def KeyCall.tokenHash (k : KeyService) : KeyCall → String
  | .validateKey rawKey => k.hashKey rawKey
  | .getAuthByTokenHash tokenHash => stripOrEmpty tokenHash

/-- An entry that is gone from `expiresAt` on, by Redis's clock. -/
structure CacheEntry where
  auth : UserAPIKeyAuth
  expiresAt : ℤ

/-- A call, with the clock of its start and the version of the record that was settled then. -/
structure OpenCall where
  kind : KeyCall
  tokenHash : String
  startedAt : ℤ
  since : ℕ

/-- The time that the record's expiry is compared with. -/
def OpenCall.checkTime (call : OpenCall) (now : ℤ) : ℤ :=
  match call.kind with
  | .validateKey _ => now
  | .getAuthByTokenHash _ => call.startedAt

inductive Progress where
  | idle
  | looking (call : OpenCall)
  | missed (call : OpenCall)
  | loaded (call : OpenCall) (version : ℕ) (record : Option KeyRecord)
  | storing (call : OpenCall) (version : ℕ) (record : KeyRecord) (checkedAt : ℤ)

inductive Phase where
  | idle
  | looking
  | missed
  | loaded
  | storing
  deriving DecidableEq, Repr

def Progress.phase : Progress → Phase
  | .idle => .idle
  | .looking _ => .looking
  | .missed _ => .missed
  | .loaded .. => .loaded
  | .storing .. => .storing

/-- A call that has returned or raised. -/
structure Answer where
  call : OpenCall
  result : Except AuthenticationError UserAPIKeyAuth

/-- The database, Redis and the calls under way. `versions` are the records that the database has
held under a hash, newest last; a change is settled when its invalidation has completed. -/
structure KeyState where
  versions : String → List (Option KeyRecord)
  settled : String → ℕ
  pending : List (String × ℕ)
  cache : String → Option CacheEntry
  progress : ℕ → Progress
  answers : List Answer

inductive KeyEvent where
  | start (id : ℕ) (kind : KeyCall) (now : ℤ)
  | look (id : ℕ) (redisNow : ℤ)
  | load (id : ℕ)
  | check (id : ℕ) (now : ℤ)
  | store (id : ℕ) (redisNow : ℤ)
  | fail (id : ℕ)
  | change (tokenHash : String) (record : Option KeyRecord)
  | invalidate (tokenHash : String) (version : ℕ)

def KeyState.move (s : KeyState) (id : ℕ) (progress : Progress) : KeyState :=
  { s with progress := Function.update s.progress id progress }

def KeyState.answer (s : KeyState) (id : ℕ) (call : OpenCall)
    (result : Except AuthenticationError UserAPIKeyAuth) : KeyState :=
  { s.move id .idle with answers := s.answers ++ [⟨call, result⟩] }

section Steps

variable (k : KeyService) (s : KeyState)

def startCall (id : ℕ) (kind : KeyCall) (now : ℤ) : KeyState :=
  let tokenHash := kind.tokenHash k
  let call : OpenCall := ⟨kind, tokenHash, now, s.settled tokenHash⟩
  match kind with
  | .validateKey _ => s.move id (.looking call)
  | .getAuthByTokenHash _ =>
      if tokenHash = "" then s.answer id call (.error ⟨"Invalid API key", "invalid_api_key"⟩)
      else s.move id (.looking call)

/-- The entry that Redis still has. -/
def liveEntry (tokenHash : String) (redisNow : ℤ) : Option CacheEntry :=
  (s.cache tokenHash).filter (redisNow < ·.expiresAt)

def lookUp (id : ℕ) (call : OpenCall) (redisNow : ℤ) : KeyState :=
  match liveEntry s call.tokenHash redisNow with
  | some entry => s.answer id call (.ok entry.auth)
  | none => s.move id (.missed call)

/-- `get_by_token`. -/
def loadRecord (id : ℕ) (call : OpenCall) : KeyState :=
  let held := s.versions call.tokenHash
  s.move id (.loaded call (held.length - 1) (held.getLast?.getD none))

def checkRecord (id : ℕ) (call : OpenCall) (version : ℕ) (record : Option KeyRecord)
    (now : ℤ) : KeyState :=
  let time := call.checkTime now
  match acceptRecord record time with
  | .error error => s.answer id call (.error error)
  | .ok record => s.move id (.storing call version record time)

/-- `setex`, and the return. -/
def storeAuth (id : ℕ) (call : OpenCall) (record : KeyRecord) (checkedAt redisNow : ℤ) :
    KeyState :=
  let auth := authFromRecord k record
  let entry : CacheEntry := ⟨auth, redisNow + k.cacheSeconds record.expires checkedAt * second⟩
  { s.answer id call (.ok auth) with
    cache := Function.update s.cache call.tokenHash (some entry) }

/-- An admin's statement, after which an invalidation is due. -/
def changeRecord (tokenHash : String) (record : Option KeyRecord) : KeyState :=
  let held := s.versions tokenHash
  { s with
    versions := Function.update s.versions tokenHash (held ++ [record])
    pending := s.pending ++ [(tokenHash, held.length)] }

/-- `invalidate_key_cache_by_hash`, or the turn of the hash in `_invalidate_keys_by_scope`. -/
def invalidateKeyCacheByHash (tokenHash : String) (version : ℕ) : KeyState :=
  { s with
    cache := Function.update s.cache tokenHash none
    pending := s.pending.erase (tokenHash, version)
    settled := Function.update s.settled tokenHash (max (s.settled tokenHash) version) }

def keyNext : KeyEvent → KeyState
  | .start id kind now => startCall k s id kind now
  | .look id redisNow =>
      match s.progress id with
      | .looking call => lookUp s id call redisNow
      | _ => s
  | .load id =>
      match s.progress id with
      | .missed call => loadRecord s id call
      | _ => s
  | .check id now =>
      match s.progress id with
      | .loaded call version record => checkRecord s id call version record now
      | _ => s
  | .store id redisNow =>
      match s.progress id with
      | .storing call _ record checkedAt => storeAuth k s id call record checkedAt redisNow
      | _ => s
  | .fail id => s.move id .idle
  | .change tokenHash record => changeRecord s tokenHash record
  | .invalidate tokenHash version => invalidateKeyCacheByHash s tokenHash version

end Steps

def KeyEnabled (s : KeyState) : KeyEvent → Prop
  | .start id _ _ => (s.progress id).phase = .idle
  | .look id _ => (s.progress id).phase = .looking
  | .load id => (s.progress id).phase = .missed
  | .check id _ => (s.progress id).phase = .loaded
  | .store id _ => (s.progress id).phase = .storing
  | .invalidate tokenHash version => (tokenHash, version) ∈ s.pending
  | .fail _ | .change .. => True

instance (s : KeyState) : ∀ e, Decidable (KeyEnabled s e)
  | .start .. | .look .. | .load _ | .check .. | .store .. =>
      inferInstanceAs (Decidable (_ = _))
  | .invalidate .. => inferInstanceAs (Decidable (_ ∈ _))
  | .fail _ | .change .. => isTrue trivial

/-- Any records are there at the start, and nothing is cached. -/
def keySystem (k : KeyService) : TransitionSystem KeyState KeyEvent where
  initial s := (∀ tokenHash, s.versions tokenHash ≠ [] ∧ s.settled tokenHash = 0 ∧
    s.cache tokenHash = none) ∧ s.pending = [] ∧ (∀ id, s.progress id = .idle) ∧ s.answers = []
  enabled := KeyEnabled
  next := keyNext k

end KeyAuthentication
