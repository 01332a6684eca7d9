import DeltaLLM.MfaEndpoints

/-! # The second factor is asked for

A session of an account with a second factor is verified by a code for the account's own secret, and
the guards turn it away until then. Two things break this: an enrolment that an unverified session
confirms anew, and the guard that does not ask.
-/
namespace MfaGate

open AdminGuards
open CommittedScripts
open MfaEndpoints
open PlatformIdentity
open PlatformRoles
open SsoAccounts
open TableStatements
open TransitionRuns

/-! ## What is asked of the steps -/

def HasMfa (t : Tables) (accountId : String) : Prop :=
  ∃ account ∈ t.accounts, account.accountId = accountId ∧ account.mfaEnabled = true

/-- The account has a second factor with the secret. -/
def Enrolled (t : Tables) (accountId secret : String) : Prop :=
  ∃ account ∈ t.accounts, account.accountId = accountId ∧ account.mfaEnabled = true ∧
    account.mfaSecret = some secret

/-- Verified in a session that the tables already hold as verified. -/
def WasVerified (t : Tables) (session : SessionRow) : Prop :=
  ∃ old ∈ t.sessions, old.sessionTokenHash = session.sessionTokenHash ∧ old.mfaVerified = true

/-- The event presents a code for the secret that the account had before, or, if it had no second
factor, for the one that it has now. -/
def CodePresented (w : IdentityService) (step : MfaStep) (accountId : String) : Prop :=
  ∃ code secret, step.event.call.code = some code ∧
    w.verifyTotp step.event.c.now secret code = true ∧
      (Enrolled step.before accountId secret ∨
        ¬HasMfa step.before accountId ∧ Enrolled step.after accountId secret)

/-- Every session that the step verifies, it verifies by a code. -/
def VerifiedByCode (w : IdentityService) (step : MfaStep) : Prop :=
  ∀ session ∈ step.after.sessions, session.mfaVerified = true →
    WasVerified step.before session ∨ CodePresented w step session.accountId

/-- The cookie names a session that is not verified, of an account with a second factor. -/
def Unverified (t : Tables) (sessionTokenHash : String) : Prop :=
  ∃ session ∈ t.sessions, session.sessionTokenHash = sessionTokenHash ∧
    session.mfaVerified = false ∧ HasMfa t session.accountId

/-- The context that the middleware attaches. -/
def attached (now : ℤ) (t : Tables) (request : GuardedRequest) : Option AuthContext :=
  request.sessionTokenHash.bind fun sessionTokenHash =>
    if sessionTokenHash = "" then none else getContextForSession now t sessionTokenHash

/-- A guarded request without the master key is turned away for such a session. -/
def TurnedAway (keys : MasterKeys) (step : MfaStep) : Prop :=
  ∀ guard request, step.event.call = .guarded guard request → ¬CarriesMasterKey keys request →
    ∀ sessionTokenHash, request.sessionTokenHash = some sessionTokenHash →
      Unverified step.before sessionTokenHash →
        ∃ error, guard.run keys request (attached step.event.c.now step.before request) =
          .error error

def GateKept (w : IdentityService) (keys : MasterKeys) (s : MfaState) : Prop :=
  ∀ step ∈ s.history, VerifiedByCode w step ∧ TurnedAway keys step

/-- An enrolment is confirmed for an account with a second factor by a verified session only, and
the session of a platform admin comes to `require_master_key` only when it needs no verification. -/
def CleanStep (s : MfaState) (e : MfaEvent) : Prop :=
  match e.call with
  | .enrollConfirm sessionTokenHash _ => ∀ context,
      getContextForSession e.c.now s.tables sessionTokenHash = some context →
        context.mfaEnabled = true → context.mfaVerified = true
  | .guarded .masterKey request => ∀ context,
      attached e.c.now s.tables request = some context →
        hasPlatformPermission context.role .platformAdmin = true →
          requiresMfaVerification context = false
  | _ => True

/-! ## Calls that verify no session -/

section Quiet

variable {w : IdentityService} {c : Circumstances} {t s u : Tables}

structure Unique (t : Tables) : Prop where
  sessions : (t.sessions.map SessionRow.sessionTokenHash).Nodup
  accounts : (t.accounts.map AccountRow.accountId).Nodup

/-- Reached from `t` without a verification. -/
structure Quiet (t u : Tables) : Prop where
  unique : Unique u
  verified : ∀ session ∈ u.sessions, session.mfaVerified = true → WasVerified t session

theorem Quiet.refl (h : Unique t) : Quiet t t :=
  ⟨h, fun session hmem hverified => ⟨session, hmem, rfl, hverified⟩⟩

/-- Accounts may change in place. -/
theorem Quiet.accounts (h : Quiet t s) (hsessions : u.sessions = s.sessions)
    (hids : u.accounts.map AccountRow.accountId = s.accounts.map AccountRow.accountId) :
    Quiet t u := by
  refine ⟨⟨?_, ?_⟩, ?_⟩
  · rw [hsessions]
    exact h.unique.sessions
  · rw [hids]
    exact h.unique.accounts
  · rw [hsessions]
    exact h.verified

theorem Quiet.core (h : Quiet t s) (hsame : SameCore s u) : Quiet t u :=
  h.accounts hsame.sessions (by rw [hsame.accounts])

/-- A session that starts unverified. -/
theorem Quiet.insertSession {session : SessionRow} (h : Quiet t s)
    (hopen : session.mfaVerified = false) (hwrite : insertSession session s = .ok u) :
    Quiet t u := by
  obtain ⟨hfree, rfl⟩ := insertSession_ok hwrite
  refine ⟨⟨nodup_keys_append h.unique.sessions hfree, h.unique.accounts⟩,
    fun other hother hverified => ?_⟩
  rcases List.mem_append.mp hother with hold | hnew
  · exact h.verified other hold hverified
  · obtain rfl := List.mem_singleton.mp hnew
    rw [hopen] at hverified
    cases hverified

/-- Sessions may be revoked. -/
theorem Quiet.revoke (h : Quiet t s) (p : SessionRow → Prop) [DecidablePred p] (now : ℤ) :
    Quiet t { s with
      sessions := updateWhere p
        (fun session => { session with revokedAt := some now }) s.sessions } := by
  refine ⟨⟨?_, h.unique.accounts⟩, fun session hsession hverified => ?_⟩
  · exact nodup_keys_updateWhere p (fun _ => rfl) h.unique.sessions
  · obtain ⟨old, hold, rfl⟩ := (mem_updateWhere _ _).mp hsession
    split_ifs at hverified ⊢
    · exact h.verified old hold hverified
    · exact h.verified old hold hverified

theorem updateAccount_quiet (statement : ServiceStatement) (accountId : String)
    {f : AccountRow → AccountRow} (hf : ∀ account, (f account).accountId = account.accountId) :
    Keeps (Quiet t) (updateAccount c statement accountId f) := by
  refine run_keeps _ ?_
  rintro s u hs ⟨⟩
  exact hs.accounts rfl (map_updateWhere _ _ _ (fun account _ => hf account) _)

theorem createSession_quiet (accountId : String) :
    Keeps (Quiet t) (createSession w c accountId false) :=
  run_keeps _ fun _ _ hs hwrite => hs.insertSession rfl hwrite

theorem authenticated_quiet (sessionTokenHash : String) :
    Keeps (Quiet t) (authenticated c sessionTokenHash) := by
  refine (select_keeps _ _).bind fun context => ?_
  cases context with
  | none => exact keeps_raise _
  | some context => exact keeps_pure _

theorem setPassword_quiet (accountId newPassword : String) :
    Keeps (Quiet t) (setPassword c accountId newPassword) := by
  unfold setPassword
  split_ifs
  · exact keeps_raise _
  · exact updateAccount_quiet _ accountId fun _ => rfl

theorem upsertSsoAccount_quiet (request : SsoRequest) :
    Keeps (Quiet t) (upsertSsoAccount w c request) := by
  refine upsertSsoAccount_keeps request (fun s u hs hwrite => ?_) (fun s u hs hwrite => ?_)
    (fun s u hs hsame => hs.core hsame) (fun accountId s u hs hwrite => hs.insertSession rfl hwrite)
  · obtain ⟨hfree, rfl⟩ := upsertAccount_ok hwrite
    refine ⟨⟨hs.unique.sessions, ?_⟩, hs.verified⟩
    simp only [insertOrUpdate]
    by_cases htaken : ∃ account ∈ s.accounts, account.email = w.normalizeEmail request.email
    · rw [if_pos htaken]
      exact nodup_keys_updateWhere _ (fun _ => rfl) hs.unique.accounts
    · rw [if_neg htaken]
      exact nodup_keys_append hs.unique.accounts (hfree.resolve_left htaken)
  · rcases upsertIdentity_ok hwrite with ⟨-, rfl⟩ | ⟨account, -, rfl⟩
    · exact hs
    · exact hs.accounts rfl rfl

theorem acceptInvitation_quiet (accountId : String) (password : Option String) :
    Keeps (Quiet t) (acceptInvitation w c accountId password) := by
  have hsession : Keeps (Quiet t) (sessionAfterAcceptance w c accountId) := by
    refine Keeps.bind ?_ fun _ => (select_keeps _ _).bind fun account => ?_
    · exact updateAccount_quiet _ accountId fun _ => rfl
    cases account with
    | none => exact keeps_raise _
    | some account =>
        simp only
        split_ifs
        · exact keeps_pure _
        · refine Keeps.bind ((createSession_quiet accountId).bind fun _ =>
            (select_keeps _ _).bind fun _ => keeps_pure _) fun login => ?_
          split_ifs
          · exact keeps_pure _
          · exact keeps_raise _
  cases password with
  | none => exact hsession
  | some password => exact (setPassword_quiet accountId password).bind fun _ => hsession

theorem internalChangePassword_quiet (sessionTokenHash : String) (current : Option String)
    (newPassword : String) :
    Keeps (Quiet t) (internalChangePassword w c sessionTokenHash current newPassword) := by
  refine (authenticated_quiet sessionTokenHash).bind fun context => ?_
  split_ifs
  · exact keeps_raise _
  · refine (select_keeps _ _).bind fun account => ?_
    split_ifs
    · exact setPassword_quiet _ _
    · exact keeps_raise _

theorem createAccount_quiet (accountId email role : String) (passwordHash : Option String) :
    Keeps (Quiet t) (createAccount c accountId email role passwordHash) := by
  refine run_keeps _ fun s u hs hwrite => ?_
  split at hwrite
  case h_1 accounts hsome =>
    cases hwrite
    obtain ⟨hfree, rfl⟩ := insertNew_some hsome
    exact ⟨⟨hs.unique.sessions, nodup_keys_append hs.unique.accounts hfree⟩, hs.verified⟩
  case h_2 => cases hwrite

end Quiet

/-! ## Calls that verify a session -/

section Verifying

variable {w : IdentityService} {c : Circumstances} {t s u : Tables} {e : MfaEvent}

/-- What a call may leave. -/
structure Checked (w : IdentityService) (t : Tables) (e : MfaEvent) (u : Tables) : Prop where
  unique : Unique u
  verified : VerifiedByCode w ⟨t, e, u⟩

theorem Quiet.checked (h : Quiet t u) : Checked w t e u :=
  ⟨h.unique, fun session hmem hverified => Or.inl (h.verified session hmem hverified)⟩

theorem checked_of_eq (h : Unique t) (heq : u = t) : Checked w t e u := by
  subst heq
  exact (Quiet.refl h).checked

theorem acceptsCredentials_code {account : AccountRow} {password : String}
    {mfaCode : Option String} (h : acceptsCredentials w c account password mfaCode = true)
    (hmfa : account.mfaEnabled = true) :
    ∃ code secret, mfaCode = some code ∧ account.mfaSecret = some secret ∧
      w.verifyTotp c.now secret code = true := by
  simp only [acceptsCredentials, hmfa, Bool.and_eq_true, Bool.not_true, Bool.false_or,
    Option.any_eq_true, Bool.and_eq_true] at h
  obtain ⟨-, code, hcode, -, secret, hsecret, hvalid⟩ := h
  exact ⟨code, secret, hcode, hsecret, hvalid⟩

theorem loginInternal_checked (h : Unique t) (email password : String) (mfaCode : Option String)
    (hcode : e.call.code = mfaCode) (hc : e.c = c) :
    Ends (· = t) (loginInternal w c email password mfaCode) (fun _ => Checked w t e)
      (Checked w t e) := by
  refine Ends.bind (Q := fun account u => u = t ∧
    (accountsOf w t (w.normalizeEmail email)).head? = account) ?_ fun account => ?_
  · refine select_ends _ ?_ fun _ => checked_of_eq h
    rintro s rfl
    exact ⟨rfl, rfl⟩
  cases account with
  | none => exact ends_pure fun u hu => checked_of_eq h hu.1
  | some account =>
      simp only
      split_ifs with haccepts
      · refine Ends.bind (Q := fun _ => Checked w t e) ?_ fun _ => Keeps.ends ?_
        · refine run_ends _ ?_ fun u hu => checked_of_eq h hu.1
          rintro s u ⟨rfl, hfound⟩ hwrite
          obtain ⟨hfree, rfl⟩ := insertSession_ok hwrite
          refine ⟨⟨nodup_keys_append h.sessions hfree, h.accounts⟩,
            fun session hsession hverified => ?_⟩
          rcases List.mem_append.mp hsession with hold | hnew
          · exact Or.inl ⟨session, hold, rfl, hverified⟩
          · obtain rfl := List.mem_singleton.mp hnew
            obtain ⟨code, secret, hpresented, hsecret, hvalid⟩ :=
              acceptsCredentials_code haccepts hverified
            have hmem := (List.mem_filter.mp (List.mem_of_head? hfound)).1
            refine Or.inr ⟨code, secret, hcode.trans hpresented, ?_, Or.inl ?_⟩
            · rw [hc]
              exact hvalid
            · exact ⟨account, hmem, rfl, hverified, hsecret⟩
        · refine (select_keeps _ _).bind fun context => ?_
          cases context with
          | none => exact keeps_pure _
          | some context =>
              refine Keeps.bind (run_keeps _ ?_) fun _ => keeps_pure _
              rintro s u hs ⟨⟩
              exact hs
      · exact ends_pure fun u hu => checked_of_eq h hu.1

theorem mem_markVerified {hash : String} {session : SessionRow}
    (h : session ∈ updateWhere
      (fun session => session.sessionTokenHash = hash ∧ session.Live c.now)
      (fun session => { session with mfaVerified := true }) t.sessions)
    (hverified : session.mfaVerified = true) :
    ∃ old ∈ t.sessions, old.sessionTokenHash = session.sessionTokenHash ∧
      old.accountId = session.accountId ∧
        (old.mfaVerified = true ∨ old.sessionTokenHash = hash) := by
  obtain ⟨old, hold, rfl⟩ := (mem_updateWhere _ _).mp h
  split_ifs at hverified ⊢ with hmarked
  · exact ⟨old, hold, rfl, rfl, Or.inr hmarked.1⟩
  · exact ⟨old, hold, rfl, rfl, Or.inl hverified⟩

theorem secretOfSession_some {now : ℤ} {hash secret : String}
    (h : secretOfSession now t hash = some secret) :
    ∃ session ∈ t.sessions, session.sessionTokenHash = hash ∧
      Enrolled t session.accountId secret := by
  obtain ⟨session, hsession, h⟩ := Option.bind_eq_some_iff.mp h
  obtain ⟨account, haccount, hsecret⟩ := Option.bind_eq_some_iff.mp h
  have hfound := List.find?_some hsession
  simp only [decide_eq_true_eq] at hfound
  obtain ⟨hmem, hid⟩ := rowWithKey_some haccount
  split_ifs at hsecret with hactive
  exact ⟨session, List.mem_of_find?_eq_some hsession, hfound.1, account, hmem, hid, hactive.2,
    hsecret⟩

theorem eq_of_hash (h : Unique t) {session old : SessionRow} (hsession : session ∈ t.sessions)
    (hold : old ∈ t.sessions) (hhash : session.sessionTokenHash = old.sessionTokenHash) :
    session = old :=
  List.inj_on_of_nodup_map h.sessions hsession hold hhash

theorem verifyMfaForSession_checked (h : Unique t) (hash code : String)
    (hcode : e.call.code = some code) (hc : e.c = c) :
    Ends (· = t) (verifyMfaForSession w c hash code) (fun _ => Checked w t e)
      (Checked w t e) := by
  refine Ends.bind (Q := fun secret u => u = t ∧ secretOfSession c.now t hash = secret) ?_
    fun secret => ?_
  · refine select_ends _ ?_ fun _ => checked_of_eq h
    rintro s rfl
    exact ⟨rfl, rfl⟩
  cases secret with
  | none => exact ends_pure fun u hu => checked_of_eq h hu.1
  | some secret =>
      simp only
      split_ifs with hvalid
      · refine Ends.bind (Q := fun _ => Checked w t e) ?_ fun _ => ends_pure fun _ hu => hu
        refine run_ends _ ?_ fun u hu => checked_of_eq h hu.1
        rintro s u ⟨rfl, hsecret⟩ ⟨⟩
        refine ⟨⟨nodup_keys_updateWhere _ (fun _ => rfl) h.sessions, h.accounts⟩,
          fun session hsession hverified => ?_⟩
        obtain ⟨old, hold, hhash, haccount, hmarked⟩ := mem_markVerified hsession hverified
        rcases hmarked with hverifiedOld | hmarked
        · exact Or.inl ⟨old, hold, hhash, hverifiedOld⟩
        · obtain ⟨owner, howner, hownerHash, henrolled⟩ := secretOfSession_some hsecret
          obtain rfl := eq_of_hash h howner hold (hownerHash.trans hmarked.symm)
          refine Or.inr ⟨code, secret, hcode, ?_, Or.inl ?_⟩
          · rw [hc]
            exact hvalid
          · rw [← haccount]
            exact henrolled
      · exact ends_pure fun u hu => checked_of_eq h hu.1

theorem mfaVerify_checked (h : Unique t) (hash code : String)
    (hcode : e.call.code = some code) (hc : e.c = c) :
    Ends (· = t) (mfaVerify w c hash code) (fun _ => Checked w t e) (Checked w t e) := by
  refine Ends.bind (Q := fun _ u => u = t) ?_ fun context => ?_
  · refine Ends.bind (Q := fun _ u => u = t)
      (select_ends _ (fun _ hu => hu) fun _ => checked_of_eq h)
      fun context => ?_
    cases context with
    | none => exact ends_raise fun _ => checked_of_eq h
    | some context => exact ends_pure fun _ hu => hu
  split_ifs
  · exact ends_raise fun _ => checked_of_eq h
  · exact ends_pure fun _ => checked_of_eq h
  · refine Ends.bind (verifyMfaForSession_checked h hash code hcode hc) fun ok => ?_
    split_ifs
    · exact ends_pure fun _ hu => hu
    · exact ends_raise fun _ hu => hu

/-- The pending secret becomes the secret of the account. -/
def enrolledAccount (secret : String) (account : AccountRow) : AccountRow :=
  { account with mfaSecret := some secret, mfaEnabled := true, mfaPendingSecret := none }

/-- An enrolment that is confirmed without a second factor so far, or from a verified session. -/
theorem mfaEnrollConfirm_checked (h : Unique t) (hash code : String)
    (hcode : e.call.code = some code) (hc : e.c = c)
    (hclean : ∀ context, getContextForSession c.now t hash = some context →
      context.mfaEnabled = true → context.mfaVerified = true) :
    Ends (· = t) (mfaEnrollConfirm w c hash code) (fun _ => Checked w t e) (Checked w t e) := by
  refine Ends.bind (Q := fun context u => u = t ∧
    getContextForSession c.now t hash = some context) ?_ fun context => ?_
  · refine Ends.bind (Q := fun context u => u = t ∧ getContextForSession c.now t hash = context)
      (select_ends _ ?_ fun _ => checked_of_eq h) fun context => ?_
    · rintro s rfl
      exact ⟨rfl, rfl⟩
    cases context with
    | none => exact ends_raise fun _ hu => checked_of_eq h hu.1
    | some context => exact ends_pure fun _ hu => hu
  refine Ends.bind (Q := fun ok u => getContextForSession c.now t hash = some context ∧
    if ok then ∃ secret, w.verifyTotp c.now secret code = true ∧ u = { t with
      accounts := updateWhere (fun account => account.accountId = context.accountId)
        (enrolledAccount secret) t.accounts }
    else u = t) ?_ fun ok => ?_
  · refine Ends.bind (Q := fun _ u => u = t ∧ getContextForSession c.now t hash = some context)
      (select_ends _ (fun _ hu => hu) fun _ hu => checked_of_eq h hu.1) fun secret => ?_
    cases secret with
    | none => exact ends_pure fun _ hu => ⟨hu.2, hu.1⟩
    | some secret =>
        simp only
        split_ifs with hvalid
        · refine Ends.bind (run_ends _ ?_ fun _ hu => checked_of_eq h hu.1) fun _ =>
            ends_pure fun _ hu => hu
          rintro s u ⟨rfl, hcontext⟩ ⟨⟩
          exact ⟨hcontext, secret, hvalid, rfl⟩
        · exact ends_pure fun _ hu => ⟨hu.2, hu.1⟩
  split_ifs with hok
  · refine run_ends _ ?_ ?_
    · rintro s u ⟨hcontext, hwritten⟩ ⟨⟩
      obtain ⟨secret, hvalid, rfl⟩ := hwritten
      refine ⟨⟨nodup_keys_updateWhere _ (fun _ => rfl) h.sessions,
        nodup_keys_updateWhere _ (fun _ => rfl) h.accounts⟩, fun session hsession hverified => ?_⟩
      obtain ⟨old, hold, hhash, hid, hmarked⟩ := mem_markVerified hsession hverified
      rcases hmarked with hverifiedOld | hmarked
      · exact Or.inl ⟨old, hold, hhash, hverifiedOld⟩
      obtain ⟨owner, howner, hownerHash, -, hcontextId, hcontextVerified, account, haccount,
        hidAccount,
        hcontextMfa⟩ := getContextForSession_some hcontext
      obtain rfl := eq_of_hash h howner hold (hownerHash.trans hmarked.symm)
      -- A verified session stays verified; otherwise the account had no second factor.
      by_cases hmfa : context.mfaEnabled = true
      · exact Or.inl ⟨owner, hold, hhash,
          hcontextVerified.symm.trans (hclean context hcontext hmfa)⟩
      · refine Or.inr ⟨code, secret, hcode, ?_, Or.inr ⟨?_, ?_⟩⟩
        · rw [hc]
          exact hvalid
        · rintro ⟨other, hother, hotherId, hotherMfa⟩
          rw [← hid, ← hidAccount] at hotherId
          obtain rfl := List.inj_on_of_nodup_map h.accounts hother haccount hotherId
          exact hmfa (hcontextMfa.trans hotherMfa)
        · refine ⟨enrolledAccount secret account, ?_, ?_, rfl, rfl⟩
          · refine (mem_updateWhere _ _).mpr ⟨account, haccount, ?_⟩
            rw [if_pos (hidAccount.trans hcontextId.symm)]
          · exact hidAccount.trans hid
    · rintro u ⟨-, hwritten⟩
      obtain ⟨secret, -, rfl⟩ := hwritten
      exact Quiet.checked ⟨⟨h.sessions, nodup_keys_updateWhere _ (fun _ => rfl) h.accounts⟩,
        (Quiet.refl h).verified⟩
  · refine ends_raise ?_
    rintro u ⟨-, hwritten⟩
    exact checked_of_eq h hwritten

end Verifying

/-! ## Guarded requests -/

section Guarded

variable {t : Tables} {keys : MasterKeys}

/-- The context of a session that is not verified asks for verification. -/
theorem requires_of_unverified (h : Unique t) {now : ℤ} {request : GuardedRequest} {hash : String}
    (hcookie : request.sessionTokenHash = some hash) (hunverified : Unverified t hash)
    {context : AuthContext} (hcontext : attached now t request = some context) :
    requiresMfaVerification context = true := by
  simp only [attached, hcookie, Option.bind_some] at hcontext
  split_ifs at hcontext
  obtain ⟨owner, howner, hownerHash, -, -, hverified, account, haccount, hid, hmfa⟩ :=
    getContextForSession_some hcontext
  obtain ⟨session, hsession, hhash, hopen, other, hother, hotherId, hotherMfa⟩ := hunverified
  obtain rfl := eq_of_hash h howner hsession (hownerHash.trans hhash.symm)
  obtain rfl := List.inj_on_of_nodup_map h.accounts haccount hother (hid.trans hotherId.symm)
  simp [requiresMfaVerification, hmfa, hotherMfa, hverified, hopen]

theorem turnedAway_step (h : Unique t) {e : MfaEvent} {history : List MfaStep} {u : Tables}
    (hclean : CleanStep ⟨t, history⟩ e) : TurnedAway keys ⟨t, e, u⟩ := by
  intro guard request hcall hkey hash hcookie hunverified
  refine guard_rejects guard hkey (fun context hcontext =>
    requires_of_unverified h hcookie hunverified hcontext) ?_
  rintro rfl
  obtain ⟨call, c⟩ := e
  change call = _ at hcall
  subst hcall
  change ∀ context, attached c.now t request = some context → _ at hclean
  cases hcontext : attached c.now t request with
  | none => rfl
  | some context =>
      by_contra hadmin
      simp only [hasPlatformAdminSession, Option.any_some, Bool.not_eq_false] at hadmin
      have hneeds := requires_of_unverified h hcookie hunverified hcontext
      rw [hclean context hcontext hadmin] at hneeds
      cases hneeds

end Guarded

/-! ## Runs -/

section Runs

variable {w : IdentityService} {keys : MasterKeys} {s : MfaState}

theorem checked_of_quiet {t : Tables} (h : Unique t) {e : MfaEvent} {x : Call Unit}
    (hx : Keeps (Quiet t) x) : Checked w t e (x t).2 :=
  (hx t (Quiet.refl h)).checked

theorem call_checked {t : Tables} (h : Unique t) (e : MfaEvent) {history : List MfaStep}
    (hclean : CleanStep ⟨t, history⟩ e) : Checked w t e (e.call.run w e.c t).2 := by
  obtain ⟨call, c⟩ := e
  cases call with
  | login email password mfaCode =>
      exact Ends.state (Ends.bind (loginInternal_checked h email password mfaCode rfl rfl)
        fun _ => ends_pure fun _ hu => hu) rfl
  | sso settings response =>
      refine checked_of_quiet h ?_
      change Keeps (Quiet t) (ssoSignIn w c settings response)
      unfold ssoSignIn
      split
      · exact keeps_raise _
      · refine Keeps.bind (Keeps.bind
          (upsertSsoAccount_quiet _) fun login => ?_) fun _ => keeps_pure _
        cases login with
        | none => exact keeps_raise _
        | some login => exact keeps_pure _
  | acceptance accountId password =>
      exact checked_of_quiet h (acceptInvitation_quiet accountId password)
  | enrollStart hash =>
      refine checked_of_quiet h ((authenticated_quiet hash).bind fun context =>
        Keeps.bind (Keeps.bind ?_ fun _ => keeps_pure _) fun _ => keeps_pure _)
      exact updateAccount_quiet _ _ fun _ => rfl
  | enrollConfirm hash code =>
      exact Ends.state (mfaEnrollConfirm_checked h hash code rfl rfl hclean) rfl
  | verify hash code => exact Ends.state (mfaVerify_checked h hash code rfl rfl) rfl
  | changePassword hash current newPassword =>
      exact checked_of_quiet h (internalChangePassword_quiet hash current newPassword)
  | passwordReset accountId newPassword =>
      refine checked_of_quiet h ((setPassword_quiet accountId newPassword).bind fun _ =>
        run_keeps _ ?_)
      rintro s u hs ⟨⟩
      exact hs.revoke _ _
  | logout hash =>
      refine checked_of_quiet h (run_keeps _ ?_)
      rintro s u hs ⟨⟩
      exact hs.revoke _ _
  | newAccount accountId email role passwordHash =>
      exact checked_of_quiet h (createAccount_quiet accountId email role passwordHash)
  | guarded guard request => exact checked_of_quiet h (keeps_pure _)

structure GateInv (w : IdentityService) (keys : MasterKeys) (s : MfaState) : Prop where
  unique : Unique s.tables
  kept : GateKept w keys s

theorem next_inv (e : MfaEvent) (h : GateInv w keys s) (hclean : CleanStep s e) :
    GateInv w keys (mfaNext w s e) := by
  have hchecked : Checked w s.tables e (e.call.run w e.c s.tables).2 :=
    call_checked h.unique e hclean
  refine ⟨hchecked.unique, fun step hstep => ?_⟩
  rcases List.mem_append.mp hstep with hold | hnew
  · exact h.kept step hold
  · obtain rfl := List.mem_singleton.mp hnew
    exact ⟨hchecked.verified, turnedAway_step h.unique hclean⟩

theorem initial_inv (h : (mfaSystem w).initial s) : GateInv w keys s := by
  obtain ⟨hsessions, haccounts, hnone⟩ := h
  refine ⟨⟨hsessions, haccounts⟩, fun step hstep => ?_⟩
  rw [hnone] at hstep
  cases hstep

end Runs

/-- In every run whose steps are clean, sessions are verified by codes for the secret of the account
and guarded requests of sessions that are not verified are turned away. -/
theorem mfa_gate_kept {w : IdentityService} {keys : MasterKeys} {s : MfaState}
    (h : ReachableBy (mfaSystem w) CleanStep s) : GateKept w keys s :=
  (ReachableBy.invariant (fun _ => initial_inv) (fun _ e hinv _ => next_inv e hinv) h).kept

/-! ## A platform admin with two sessions -/

instance (s : MfaState) (e : MfaEvent) : Decidable (CleanStep s e) := by
  obtain ⟨call, c⟩ := e
  cases call with
  | enrollConfirm hash code =>
      exact inferInstanceAs (Decidable (∀ context ∈ getContextForSession c.now s.tables hash,
        context.mfaEnabled = true → context.mfaVerified = true))
  | guarded guard request =>
      cases guard with
      | masterKey =>
          exact inferInstanceAs (Decidable (∀ context ∈ attached c.now s.tables request,
            hasPlatformPermission context.role .platformAdmin = true →
              requiresMfaVerification context = false))
      | _ => exact isTrue trivial
  | _ => exact isTrue trivial

instance {w : IdentityService} (s : MfaState) (e : MfaEvent) :
    Decidable ((mfaSystem w).enabled s e) := isTrue trivial

def noTables : MfaState := ⟨⟨[], [], [], [], [], []⟩, []⟩

theorem noTables_initial : (mfaSystem asciiService).initial noTables :=
  ⟨List.nodup_nil, List.nodup_nil, rfl⟩

def atHour (call : MfaCall) (sessionTokenHash mfaSecret : String) (hour : ℤ) : MfaEvent :=
  ⟨call, ⟨"account-1", "identity-1", sessionTokenHash, "", mfaSecret, hour, fun _ => false⟩⟩

def signIn : MfaCall :=
  .sso ⟨"oidc", ["root@example.com"]⟩ ⟨some "user-1", .str "root@example.com", none⟩

/-- The admin enrols in the first session and then opens a second one. -/
def enrolledAndBack : List MfaEvent :=
  [atHour signIn "session-1" "" 0, atHour (.enrollStart "session-1") "" "first" 1,
    atHour (.enrollConfirm "session-1" "first") "" "" 1, atHour signIn "session-2" "" 2]

def spendRequest : GuardedRequest := ⟨none, none, some "session-2", none, none⟩

def afterRun (es : List MfaEvent) : MfaState := es.foldl (mfaNext asciiService) noTables

def verifiedBySecret : List MfaEvent :=
  enrolledAndBack ++ [atHour (.guarded (.adminPermission .platformAdmin) spendRequest) "" "" 3,
    atHour (.verify "session-2" "first") "" "" 3, atHour (.guarded .masterKey spendRequest) "" "" 4]

def noKeys : MasterKeys := ⟨some "sk-master", none⟩

theorem mfa_gate_kept_verified :
    ReachableBy (mfaSystem asciiService) CleanStep (afterRun verifiedBySecret) ∧
      GateKept asciiService noKeys (afterRun verifiedBySecret) := by
  have hfires : Fires (mfaSystem asciiService) CleanStep noTables verifiedBySecret := by
    decide +kernel
  have hreach := (ReachableBy.initial noTables_initial).fires hfires
  exact ⟨hreach, mfa_gate_kept hreach⟩

/-- The second session confirms another secret with a code for that secret. -/
def enrolledAgain : List MfaEvent :=
  enrolledAndBack ++ [atHour (.enrollStart "session-2") "" "other" 3,
    atHour (.enrollConfirm "session-2" "other") "" "" 3]

/-- The second session goes to an endpoint behind `require_master_key`. -/
def adminUnverified : List MfaEvent :=
  enrolledAndBack ++ [atHour (.guarded .masterKey spendRequest) "" "" 3]

/-- The step's request passes `require_master_key` by its session. -/
def letInBySession (step : MfaStep) : Bool :=
  match requireMasterKey noKeys spendRequest
      (attached step.event.c.now step.before spendRequest) with
  | .ok .platformSession => true
  | _ => false

/-- A run in which a session became verified, though its account was enabled with a secret that
rejects the code, and a run in which `require_master_key` let an unverified session in. -/
theorem mfa_gate_broken :
    (Reachable (mfaSystem asciiService) (afterRun enrolledAgain) ∧
      (afterRun enrolledAgain).history.getLast?.map (fun step =>
        (step.before.sessions.map (fun session => (session.sessionTokenHash, session.mfaVerified)),
          step.after.sessions.map (fun session => (session.sessionTokenHash, session.mfaVerified)),
          step.event.call.code)) =
        some ([("session-1", true), ("session-2", false)],
          [("session-1", true), ("session-2", true)], some "other") ∧
      (afterRun enrolledAndBack).tables.accounts.map
        (fun account => (account.mfaEnabled, account.mfaSecret)) = [(true, some "first")] ∧
      asciiService.verifyTotp 3 "first" "other" = false) ∧
    Reachable (mfaSystem asciiService) (afterRun adminUnverified) ∧
      (afterRun adminUnverified).history.getLast?.map (fun step =>
        (step.before.sessions.map (fun session => (session.sessionTokenHash, session.mfaVerified)),
          step.before.accounts.map AccountRow.mfaEnabled, letInBySession step)) =
        some ([("session-1", true), ("session-2", false)], [true], true) := by
  have hrun : ∀ es, Fires (mfaSystem asciiService) (fun _ _ => True) noTables es →
      Reachable (mfaSystem asciiService) (afterRun es) := fun es hes =>
    (ReachableBy.initial noTables_initial).fires hes
  have hagain : Fires (mfaSystem asciiService) (fun _ _ => True) noTables enrolledAgain := by
    decide +kernel
  have hadmin : Fires (mfaSystem asciiService) (fun _ _ => True) noTables adminUnverified := by
    decide +kernel
  refine ⟨⟨hrun _ hagain, ?_, ?_, ?_⟩, hrun _ hadmin, ?_⟩ <;> decide +kernel

end MfaGate
