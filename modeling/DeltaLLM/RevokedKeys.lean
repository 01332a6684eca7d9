import DeltaLLM.KeyAuthentication

/-! # Revoked keys stop working

A call that starts once an invalidation has completed is answered with a record from after the
change. A call that read the record before the change can still write it to Redis afterwards, and an
entry can outlive its key.
-/
namespace RevokedKeys

open KeyAuthentication
open TransitionRuns
open VersionHistory

/-! ## What is asked of the answers -/

/-- The key is authenticated with a record that the database has held since the change that was
settled at the call's start, before the key's expiry. -/
structure Authenticated (k : KeyService) (versions : List (Option KeyRecord)) (call : OpenCall)
    (auth : UserAPIKeyAuth) : Prop where
  held : ∃ record, HeldSince versions call.since (some record) ∧
    auth = authFromRecord k record
  unexpired : ∀ expires, auth.expires = some expires → call.startedAt < expires

def RevocationsKept (k : KeyService) (s : KeyState) : Prop :=
  ∀ answer ∈ s.answers, ∀ auth, answer.result = .ok auth →
    Authenticated k (s.versions answer.call.tokenHash) answer.call auth

/-- The clocks of a call do not run backwards, no key is checked at the instant of its expiry, and
what is written to Redis has no settled change since it was read and is gone by the key's expiry. -/
def CleanMove (k : KeyService) (s : KeyState) (now : ℤ) : Progress → Prop
  | .idle | .missed _ => True
  | .looking call => call.startedAt ≤ now
  | .loaded call _ record =>
      call.startedAt ≤ call.checkTime now ∧
        (record.bind (·.expires)) ≠ some (call.checkTime now)
  | .storing call version record checkedAt =>
      s.settled call.tokenHash ≤ version ∧
        (record.expires.all fun expires =>
          now + k.cacheSeconds record.expires checkedAt * second ≤ expires) = true

instance (k : KeyService) (s : KeyState) (now : ℤ) : ∀ p, Decidable (CleanMove k s now p)
  | .idle | .missed _ => isTrue trivial
  | .looking _ => inferInstanceAs (Decidable (_ ≤ _))
  | .loaded .. => inferInstanceAs (Decidable (_ ∧ _))
  | .storing .. => inferInstanceAs (Decidable (_ ∧ _))

/-- The clock is Redis's for a lookup and a write, and the instance's for a check. -/
def CleanStep (k : KeyService) (s : KeyState) : KeyEvent → Prop
  | .look id now | .check id now | .store id now => CleanMove k s now (s.progress id)
  | _ => True

instance (k : KeyService) (s : KeyState) : ∀ e, Decidable (CleanStep k s e)
  | .look id now | .check id now | .store id now =>
      inferInstanceAs (Decidable (CleanMove k s now (s.progress id)))
  | .start .. | .load _ | .fail _ | .change .. | .invalidate .. => isTrue trivial

/-! ## What holds throughout -/

section Throughout

variable {k : KeyService} {s : KeyState}

def EntryOk (k : KeyService) (s : KeyState) (tokenHash : String) (entry : CacheEntry) : Prop :=
  ∃ record, HeldSince (s.versions tokenHash) (s.settled tokenHash) (some record) ∧
    entry.auth = authFromRecord k record ∧
    ∀ expires, record.expires = some expires → entry.expiresAt ≤ expires

def ProgressOk (s : KeyState) : Progress → Prop
  | .idle => True
  | .looking call | .missed call => call.since ≤ s.settled call.tokenHash
  | .loaded call version record => call.since ≤ version ∧
      (s.versions call.tokenHash)[version]? = some record
  | .storing call version record _ => call.since ≤ version ∧
      (s.versions call.tokenHash)[version]? = some (some record) ∧
      ∀ expires, record.expires = some expires → call.startedAt < expires

structure Inv (k : KeyService) (s : KeyState) : Prop where
  settled : ∀ tokenHash, s.settled tokenHash < (s.versions tokenHash).length
  pending : ∀ due ∈ s.pending, due.2 < (s.versions due.1).length
  cached : ∀ tokenHash entry, s.cache tokenHash = some entry → EntryOk k s tokenHash entry
  progress : ∀ id, ProgressOk s (s.progress id)
  kept : RevocationsKept k s

theorem initial_inv (h : (keySystem k).initial s) : Inv k s := by
  obtain ⟨hrecords, hpending, hidle, hanswers⟩ := h
  refine ⟨fun tokenHash => ?_, ?_, fun tokenHash entry hentry => ?_, fun id => ?_, ?_⟩
  · rw [(hrecords tokenHash).2.1]
    exact List.length_pos_iff.mpr (hrecords tokenHash).1
  · rw [hpending]
    exact fun due hdue => absurd hdue List.not_mem_nil
  · rw [(hrecords tokenHash).2.2] at hentry
    cases hentry
  · rw [hidle id]
    trivial
  · intro answer hanswer
    rw [hanswers] at hanswer
    cases hanswer

/-- A call goes on. -/
theorem Inv.move (h : Inv k s) (id : ℕ) {progress : Progress} (hok : ProgressOk s progress) :
    Inv k (s.move id progress) := by
  refine ⟨h.settled, h.pending, h.cached, fun other => ?_, h.kept⟩
  by_cases heq : other = id
  · subst heq
    have hmove : (s.move other progress).progress other = progress := Function.update_self ..
    rw [hmove]
    exact hok
  · have hmove : (s.move id progress).progress other = s.progress other :=
      Function.update_of_ne heq ..
    rw [hmove]
    exact h.progress other

/-- A call ends. -/
theorem Inv.answer (h : Inv k s) (id : ℕ) {call : OpenCall}
    {result : Except AuthenticationError UserAPIKeyAuth}
    (hok : ∀ auth, result = .ok auth → Authenticated k (s.versions call.tokenHash) call auth) :
    Inv k (s.answer id call result) := by
  have hmove : Inv k (s.move id .idle) := h.move id trivial
  refine ⟨h.settled, h.pending, h.cached, hmove.progress, fun answer hanswer auth hauth => ?_⟩
  rcases List.mem_append.mp hanswer with hold | hnew
  · exact h.kept answer hold auth hauth
  · obtain rfl := List.mem_singleton.mp hnew
    exact hok auth hauth

theorem startCall_inv (h : Inv k s) (id : ℕ) (kind : KeyCall) (now : ℤ) :
    Inv k (startCall k s id kind now) := by
  cases kind with
  | validateKey rawKey => exact h.move id (Nat.le_refl _)
  | getAuthByTokenHash tokenHash =>
      simp only [startCall]
      split_ifs
      · exact h.answer id fun auth hauth => nomatch hauth
      · exact h.move id (Nat.le_refl _)

theorem lookUp_inv (h : Inv k s) {id : ℕ} {call : OpenCall} {now : ℤ}
    (hlooking : s.progress id = .looking call) (hclean : call.startedAt ≤ now) :
    Inv k (lookUp s id call now) := by
  have hsince : call.since ≤ s.settled call.tokenHash := by
    have hok := h.progress id
    rwa [hlooking] at hok
  simp only [lookUp]
  cases hentry : liveEntry s call.tokenHash now with
  | none => exact h.move id hsince
  | some entry =>
      obtain ⟨hcached, hlive⟩ := Option.filter_eq_some_iff.mp hentry
      obtain ⟨record, hheld, hauth, hexpires⟩ := h.cached _ entry hcached
      refine h.answer id fun auth hresult => ?_
      cases hresult
      refine ⟨⟨record, hheld.mono hsince, hauth⟩, fun expires hsome => ?_⟩
      rw [hauth] at hsome
      have hgone := hexpires expires hsome
      have hnow : now < entry.expiresAt := of_decide_eq_true hlive
      omega

theorem loadRecord_inv (h : Inv k s) {id : ℕ} {call : OpenCall}
    (hmissed : s.progress id = .missed call) : Inv k (loadRecord s id call) := by
  have hsince : call.since ≤ s.settled call.tokenHash := by
    have hok := h.progress id
    rwa [hmissed] at hok
  have hsettled := h.settled call.tokenHash
  refine h.move id ⟨by omega, ?_⟩
  cases hlast : (s.versions call.tokenHash).getLast? with
  | none =>
      rw [List.getLast?_eq_none_iff.mp hlast] at hsettled
      exact absurd hsettled (Nat.not_lt_zero _)
  | some record => exact getElem?_newest hlast

theorem acceptRecord_ok {record : Option KeyRecord} {now : ℤ} {accepted : KeyRecord}
    (h : acceptRecord record now = .ok accepted) :
    record = some accepted ∧ ∀ expires, accepted.expires = some expires → now ≤ expires := by
  cases record with
  | none => cases h
  | some record =>
      simp only [acceptRecord] at h
      split_ifs at h with hexpired
      cases h
      refine ⟨rfl, fun expires hsome => ?_⟩
      rw [hsome] at hexpired
      simpa using hexpired

theorem checkRecord_inv (h : Inv k s) {id : ℕ} {call : OpenCall} {version : ℕ}
    {record : Option KeyRecord} {now : ℤ} (hloaded : s.progress id = .loaded call version record)
    (hclean : CleanMove k s now (.loaded call version record)) :
    Inv k (checkRecord s id call version record now) := by
  have hok : ProgressOk s (.loaded call version record) := hloaded ▸ h.progress id
  simp only [checkRecord]
  cases haccept : acceptRecord record (call.checkTime now) with
  | error error => exact h.answer id fun auth hauth => nomatch hauth
  | ok accepted =>
      obtain ⟨rfl, hnow⟩ := acceptRecord_ok haccept
      refine h.move id ⟨hok.1, hok.2, fun expires hsome => ?_⟩
      have hle := hnow expires hsome
      have hne : expires ≠ call.checkTime now := fun heq => hclean.2 (heq ▸ hsome)
      have hstart := hclean.1
      omega

theorem storeAuth_inv (h : Inv k s) {id : ℕ} {call : OpenCall} {version : ℕ} {record : KeyRecord}
    {checkedAt now : ℤ} (hstoring : s.progress id = .storing call version record checkedAt)
    (hclean : CleanMove k s now (.storing call version record checkedAt)) :
    Inv k (storeAuth k s id call record checkedAt now) := by
  have hok : ProgressOk s (.storing call version record checkedAt) := hstoring ▸ h.progress id
  obtain ⟨hsince, hheld, hexpires⟩ := hok
  have hanswer : Inv k (s.answer id call (.ok (authFromRecord k record))) := by
    refine h.answer id fun auth hauth => ?_
    cases hauth
    exact ⟨⟨record, (heldSince_version hheld).mono hsince, rfl⟩, hexpires⟩
  refine ⟨h.settled, h.pending, fun tokenHash entry hentry => ?_, hanswer.progress, hanswer.kept⟩
  by_cases heq : tokenHash = call.tokenHash
  · subst heq
    simp only [storeAuth, Function.update_self] at hentry
    obtain rfl := Option.some.inj hentry
    refine ⟨record, (heldSince_version hheld).mono hclean.1, rfl, fun expires hsome => ?_⟩
    have hgone := hclean.2
    rw [hsome] at hgone
    simpa [hsome] using hgone
  · simp only [storeAuth, Function.update_of_ne heq] at hentry
    exact h.cached tokenHash entry hentry

/-! ### A change and its invalidation -/

section Change

variable {held : String → List (Option KeyRecord)} {tokenHash other : String} {v : ℕ}
  {record added : Option KeyRecord}

theorem getElem?_change (h : (held other)[v]? = some record) :
    (Function.update held tokenHash (held tokenHash ++ [added]) other)[v]? = some record := by
  by_cases heq : other = tokenHash
  · subst heq
    rw [Function.update_self]
    exact getElem?_append_held h
  · rw [Function.update_of_ne heq]
    exact h

theorem heldSince_change (h : HeldSince (held other) v record) :
    HeldSince (Function.update held tokenHash (held tokenHash ++ [added]) other) v record := by
  obtain ⟨version, hv, hget⟩ := h
  exact ⟨version, hv, getElem?_change hget⟩

theorem length_change :
    (held other).length ≤
      (Function.update held tokenHash (held tokenHash ++ [added]) other).length := by
  by_cases heq : other = tokenHash
  · subst heq
    rw [Function.update_self, List.length_append]
    omega
  · rw [Function.update_of_ne heq]

end Change

theorem changeRecord_inv (h : Inv k s) (tokenHash : String) (record : Option KeyRecord) :
    Inv k (changeRecord s tokenHash record) := by
  refine ⟨fun other => ?_, fun due hdue => ?_, fun other entry hentry => ?_, fun id => ?_, ?_⟩
  · exact Nat.lt_of_lt_of_le (h.settled other) length_change
  · rcases List.mem_append.mp hdue with hold | hnew
    · exact Nat.lt_of_lt_of_le (h.pending due hold) length_change
    · obtain rfl := List.mem_singleton.mp hnew
      simp [changeRecord]
  · obtain ⟨stored, hheld, hauth, hexpires⟩ := h.cached other entry hentry
    exact ⟨stored, heldSince_change hheld, hauth, hexpires⟩
  · have hok := h.progress id
    show ProgressOk _ (s.progress id)
    cases hprogress : s.progress id with
    | idle => trivial
    | looking call =>
        rw [hprogress] at hok
        exact hok
    | missed call =>
        rw [hprogress] at hok
        exact hok
    | loaded call version read =>
        rw [hprogress] at hok
        exact ⟨hok.1, getElem?_change hok.2⟩
    | storing call version read checkedAt =>
        rw [hprogress] at hok
        exact ⟨hok.1, getElem?_change hok.2.1, hok.2.2⟩
  · intro answer hanswer auth hauth
    obtain ⟨⟨read, hheld, hread⟩, hexpires⟩ := h.kept answer hanswer auth hauth
    exact ⟨⟨read, heldSince_change hheld, hread⟩, hexpires⟩

theorem invalidateKeyCacheByHash_inv (h : Inv k s) {tokenHash : String} {version : ℕ}
    (hdue : (tokenHash, version) ∈ s.pending) :
    Inv k (invalidateKeyCacheByHash s tokenHash version) := by
  have hsettled : ∀ other,
      s.settled other ≤ (invalidateKeyCacheByHash s tokenHash version).settled other := by
    intro other
    by_cases heq : other = tokenHash
    · subst heq
      simp only [invalidateKeyCacheByHash, Function.update_self]
      omega
    · simp only [invalidateKeyCacheByHash, Function.update_of_ne heq]
      omega
  refine ⟨fun other => ?_, fun due hmem => ?_, fun other entry hentry => ?_, fun id => ?_, ?_⟩
  · by_cases heq : other = tokenHash
    · subst heq
      have hversion : version < (s.versions other).length := h.pending _ hdue
      have hold := h.settled other
      simp only [invalidateKeyCacheByHash, Function.update_self]
      omega
    · simp only [invalidateKeyCacheByHash, Function.update_of_ne heq]
      exact h.settled other
  · exact h.pending due (List.mem_of_mem_erase hmem)
  · by_cases heq : other = tokenHash
    · simp [invalidateKeyCacheByHash, heq] at hentry
    · simp only [invalidateKeyCacheByHash, Function.update_of_ne heq] at hentry
      obtain ⟨stored, hheld, hauth, hexpires⟩ := h.cached other entry hentry
      refine ⟨stored, ?_, hauth, hexpires⟩
      simpa only [invalidateKeyCacheByHash, Function.update_of_ne heq] using hheld
  · have hok := h.progress id
    show ProgressOk _ (s.progress id)
    cases hprogress : s.progress id with
    | idle => trivial
    | looking call =>
        rw [hprogress] at hok
        exact Nat.le_trans hok (hsettled _)
    | missed call =>
        rw [hprogress] at hok
        exact Nat.le_trans hok (hsettled _)
    | loaded call version read =>
        rw [hprogress] at hok
        exact hok
    | storing call version read checkedAt =>
        rw [hprogress] at hok
        exact hok
  · exact h.kept

theorem next_inv (h : Inv k s) (e : KeyEvent) (henabled : KeyEnabled s e)
    (hclean : CleanStep k s e) : Inv k (keyNext k s e) := by
  cases e with
  | start id kind now => exact startCall_inv h id kind now
  | look id now =>
      have hmove : CleanMove k s now (s.progress id) := hclean
      simp only [keyNext]
      split
      · next call hlooking =>
          rw [hlooking] at hmove
          exact lookUp_inv h hlooking hmove
      · exact h
  | load id =>
      simp only [keyNext]
      split
      · next call hmissed => exact loadRecord_inv h hmissed
      · exact h
  | check id now =>
      have hmove : CleanMove k s now (s.progress id) := hclean
      simp only [keyNext]
      split
      · next call version record hloaded =>
          rw [hloaded] at hmove
          exact checkRecord_inv h hloaded hmove
      · exact h
  | store id now =>
      have hmove : CleanMove k s now (s.progress id) := hclean
      simp only [keyNext]
      split
      · next call version record checkedAt hstoring =>
          rw [hstoring] at hmove
          exact storeAuth_inv h hstoring hmove
      · exact h
  | fail id => exact h.move id trivial
  | change tokenHash record => exact changeRecord_inv h tokenHash record
  | invalidate tokenHash version => exact invalidateKeyCacheByHash_inv h henabled

end Throughout

theorem revocations_kept {k : KeyService} {s : KeyState}
    (h : ReachableBy (keySystem k) (CleanStep k) s) : RevocationsKept k s :=
  (ReachableBy.invariant (fun _ => initial_inv)
    (fun _ e hinv henabled hclean => next_inv hinv e henabled hclean) h).kept

/-! ## A key that is revoked and one that expires -/

/-- Authenticated, though the record was deleted by then. -/
def wasRevoked (versions : List (Option KeyRecord)) (answer : Answer) : Bool :=
  answer.result.toBool && (versions.drop answer.call.since).all Option.isNone

/-- Authenticated, though the key had expired by then. -/
def wasLate (answer : Answer) : Bool :=
  match answer.result with
  | .ok auth => auth.expires.any (· ≤ answer.call.startedAt)
  | .error _ => false

theorem Authenticated.not_revoked {k : KeyService} {versions : List (Option KeyRecord)}
    {call : OpenCall} {auth : UserAPIKeyAuth} (h : Authenticated k versions call auth) :
    (versions.drop call.since).all Option.isNone = false := by
  obtain ⟨⟨record, ⟨version, hsince, hget⟩, -⟩, -⟩ := h
  refine List.all_eq_false.mpr ⟨some record, ?_, by simp⟩
  refine List.mem_of_getElem? (i := version - call.since) ?_
  rw [List.getElem?_drop, Nat.add_sub_cancel' hsince]
  exact hget

theorem RevocationsKept.detects {k : KeyService} {s : KeyState} (h : RevocationsKept k s)
    {answer : Answer} (hanswer : answer ∈ s.answers) :
    wasRevoked (s.versions answer.call.tokenHash) answer = false ∧ wasLate answer = false := by
  cases hresult : answer.result with
  | error error => exact ⟨by simp [wasRevoked, hresult, Except.toBool], by
      simp [wasLate, hresult]⟩
  | ok auth =>
      have hok := h answer hanswer auth hresult
      refine ⟨by simp [wasRevoked, hok.not_revoked], ?_⟩
      simp only [wasLate, hresult]
      cases hexpires : auth.expires with
      | none => rfl
      | some expires =>
          have hlt := hok.unexpired expires hexpires
          simpa using hlt

instance (k : KeyService) (s : KeyState) (e : KeyEvent) : Decidable ((keySystem k).enabled s e) :=
  inferInstanceAs (Decidable (KeyEnabled s e))

def service : KeyService := ⟨fun rawKey => "hash-of-" ++ rawKey, fun _ => "", 300⟩

def noLimits : RateLimits := ⟨none, none, none, none, none⟩

def plainRecord (expires : Option ℤ) : KeyRecord where
  token := "hash-of-sk-1"
  userId := none
  teamId := some "team-1"
  organizationId := none
  models := []
  teamModels := []
  maxBudget := none
  spend := .finite 0
  limits := noLimits
  userLimits := noLimits
  teamLimits := noLimits
  orgLimits := noLimits
  teamModelLimits := ⟨none, none⟩
  orgModelLimits := ⟨none, none⟩
  maxParallelRequests := none
  guardrails := none
  metadata := none
  teamMetadata := none
  orgMetadata := none
  expires := expires

def withKey (expires : Option ℤ) : KeyState where
  versions _ := [some (plainRecord expires)]
  settled _ := 0
  pending := []
  cache _ := none
  progress _ := .idle
  answers := []

theorem withKey_initial (expires : Option ℤ) : (keySystem service).initial (withKey expires) :=
  ⟨fun _ => ⟨List.cons_ne_nil _ _, rfl, rfl⟩, rfl, fun _ => rfl, rfl⟩

def afterRun (expires : Option ℤ) (es : List KeyEvent) : KeyState :=
  es.foldl (keyNext service) (withKey expires)

/-- A call that comes to the database, in the first second. -/
def uncached (id : ℕ) : List KeyEvent :=
  [.start id (.validateKey "sk-1") 0, .look id 0, .load id]

def cached (id : ℕ) (now : ℤ) : List KeyEvent :=
  [.start id (.getAuthByTokenHash (some "hash-of-sk-1")) now, .look id now]

def revocation : List KeyEvent :=
  [.change "hash-of-sk-1" none, .invalidate "hash-of-sk-1" 1]

def servedThenRevoked : List KeyEvent :=
  uncached 1 ++ [.check 1 0, .store 1 0] ++ cached 2 second ++ revocation ++
    cached 3 (2 * second) ++ [.load 3, .check 3 (2 * second)]

theorem revocations_kept_served :
    ReachableBy (keySystem service) (CleanStep service)
        (afterRun (some (60 * second)) servedThenRevoked) ∧
      RevocationsKept service (afterRun (some (60 * second)) servedThenRevoked) := by
  have hfires : Fires (keySystem service) (CleanStep service) (withKey (some (60 * second)))
      servedThenRevoked := by
    decide +kernel
  have hreach := (ReachableBy.initial (withKey_initial _)).fires hfires
  exact ⟨hreach, revocations_kept hreach⟩

/-- The record is written after the revocation has been completed. -/
def revokedMeanwhile : List KeyEvent :=
  uncached 1 ++ revocation ++ [.check 1 0, .store 1 0] ++ cached 2 second

/-- The key has half a second left, its entry a whole one. -/
def expiredMeanwhile : List KeyEvent :=
  uncached 1 ++ [.check 1 0, .store 1 0] ++ cached 2 (500000 + 1)

/-- A key that was revoked, a key that expired while it was cached, and a key at the instant of its
expiry are authenticated. -/
theorem revocations_broken :
    (Reachable (keySystem service) (afterRun none revokedMeanwhile) ∧
      ¬RevocationsKept service (afterRun none revokedMeanwhile)) ∧
    (Reachable (keySystem service) (afterRun (some 500000) expiredMeanwhile) ∧
      ¬RevocationsKept service (afterRun (some 500000) expiredMeanwhile)) ∧
    Reachable (keySystem service) (afterRun (some 0) (uncached 1 ++ [.check 1 0, .store 1 0])) ∧
      ¬RevocationsKept service (afterRun (some 0) (uncached 1 ++ [.check 1 0, .store 1 0])) := by
  have hrun : ∀ expires es, Fires (keySystem service) (fun _ _ => True) (withKey expires) es →
      Reachable (keySystem service) (afterRun expires es) := fun expires es hes =>
    (ReachableBy.initial (withKey_initial expires)).fires hes
  have hrevoked : ∀ s : KeyState, (s.answers.any fun answer =>
      wasRevoked (s.versions answer.call.tokenHash) answer) = true →
        ¬RevocationsKept service s := by
    intro s hany hkept
    obtain ⟨answer, hanswer, hbad⟩ := List.any_eq_true.mp hany
    exact Bool.false_ne_true ((hkept.detects hanswer).1.symm.trans hbad)
  have hlate : ∀ s : KeyState, s.answers.any wasLate = true → ¬RevocationsKept service s := by
    intro s hany hkept
    obtain ⟨answer, hanswer, hbad⟩ := List.any_eq_true.mp hany
    exact Bool.false_ne_true ((hkept.detects hanswer).2.symm.trans hbad)
  refine ⟨⟨hrun _ _ ?_, hrevoked _ ?_⟩, ⟨hrun _ _ ?_, hlate _ ?_⟩, hrun _ _ ?_, hlate _ ?_⟩ <;>
    decide +kernel

end RevokedKeys
