import DeltaLLM.SsoAccounts

/-! # One account for each subject

A sign-in opens a session for the account that its e-mail finds; the identity row of provider and
subject keeps the account of the first sign-in. The two agree as long as the account of the row
still has the e-mail that signs in.
-/
namespace SubjectStability

open CommittedScripts
open JsonValues (JsonValue)
open PlatformIdentity
open SsoAccounts
open TableStatements
open TransitionRuns

/-! ## What is asked of sign-ins -/

/-- The identity row of the sign-in points to its account. -/
def Pointed (t : Tables) (signIn : SignInRecord) : Prop :=
  ∃ row ∈ t.identities, row.key = (signIn.provider, signIn.subject) ∧
    row.accountId = signIn.accountId

structure SubjectsKept (s : SsoState) : Prop where
  unique : (s.tables.identities.map IdentityRow.key).Nodup
  pointed : ∀ signIn ∈ s.signIns, Pointed s.tables signIn
  stable : ∀ signIn ∈ s.signIns, ∀ other ∈ s.signIns, other.provider = signIn.provider →
    other.subject = signIn.subject → other.accountId = signIn.accountId

/-- The account of the subject's identity row, where there is one, has the e-mail of the request. -/
def SameEmail (w : IdentityService) (t : Tables) (request : SsoRequest) : Prop :=
  ∀ row ∈ t.identities, row.key = (request.provider, request.identitySubject w) →
    ∃ account ∈ t.accounts, account.accountId = row.accountId ∧
      w.databaseLower account.email = w.databaseLower (w.normalizeEmail request.email)

def CleanStep (w : IdentityService) (s : SsoState) : SsoEvent → Prop
  | .callback settings response _ => ∀ request, callbackRequest settings response = .ok request →
      SameEmail w s.tables request
  | _ => True

/-! ## Statements -/

section Statements

variable {w : IdentityService} {c : Circumstances} {t u : Tables} {request : SsoRequest}

/-- What statements that leave the identities alone keep. -/
def IdentitiesKept (signIns : List SignInRecord) (t : Tables) : Prop :=
  (t.identities.map IdentityRow.key).Nodup ∧ ∀ signIn ∈ signIns, Pointed t signIn

variable {signIns : List SignInRecord}

theorem IdentitiesKept.congr (h : IdentitiesKept signIns t) (heq : u.identities = t.identities) :
    IdentitiesKept signIns u := by
  unfold IdentitiesKept Pointed
  rw [heq]
  exact h

theorem upsertIdentity_kept {email identityId provider subject : String}
    (h : IdentitiesKept signIns t)
    (hwrite : upsertIdentity w t identityId provider subject email = .ok u) :
    IdentitiesKept signIns u := by
  rcases upsertIdentity_ok hwrite with ⟨-, rfl⟩ | ⟨account, -, rfl⟩
  · exact h
  · refine ⟨nodup_keys_insertOrUpdate (fun _ => rfl) h.1, fun signIn hsignIn => ?_⟩
    obtain ⟨row, hrow, hkey, haccount⟩ := h.2 signIn hsignIn
    obtain ⟨row', hrow', rfl⟩ := exists_mem_insertOrUpdate IdentityRow.key
      (fun row => { row with email }) ⟨identityId, account.accountId, provider, subject, email⟩ hrow
    refine ⟨_, hrow', ?_⟩
    split_ifs
    · exact ⟨hkey, haccount⟩
    · exact ⟨hkey, haccount⟩

theorem authCallback_keeps (request : SsoRequest) :
    Keeps (IdentitiesKept signIns) (authCallback w c request) := by
  refine Keeps.bind ?_ fun login => ?_
  · refine upsertSsoAccount_keeps request (fun s u hs hwrite => ?_)
      (fun s u => upsertIdentity_kept) (fun s u hs hsame => hs.congr hsame.identities)
      (fun accountId s u hs hwrite => ?_)
    · obtain ⟨-, rfl⟩ := upsertAccount_ok hwrite
      exact hs.congr rfl
    · obtain ⟨-, rfl⟩ := insertSession_ok hwrite
      exact hs.congr rfl
  · cases login with
    | none => exact keeps_raise _
    | some login => exact keeps_pure _

end Statements

/-! ## A successful sign-in -/

section Success

variable {w : IdentityService} {c : Circumstances} {t u : Tables} {request : SsoRequest}

theorem createSessionFromEmail_returns {email : String}
    (h : createSessionFromEmail w c email false t = (.ok (), u)) :
    ∃ account, (accountsOf w t email).head? = some account ∧
      (∀ session ∈ t.sessions, session.sessionTokenHash ≠ c.sessionTokenHash) ∧
        u = { t with sessions := t.sessions ++ [newSession w c account.accountId false] } := by
  obtain ⟨found, t', hselect, hsession⟩ := bind_returns.mp h
  obtain ⟨hfound, rfl⟩ := select_returns hselect
  cases found with
  | none => cases hsession
  | some account =>
      obtain ⟨hfresh, rfl⟩ := insertSession_ok (run_returns hsession)
      exact ⟨account, hfound, hfresh, rfl⟩

/-- The token is found again in the session that it was made for. -/
theorem getContextForSession_accountId {accountId : String} {context : AuthContext}
    (hfresh : ∀ session ∈ t.sessions, session.sessionTokenHash ≠ c.sessionTokenHash)
    (h : getContextForSession c.now
      { t with sessions := t.sessions ++ [newSession w c accountId false] } c.sessionTokenHash =
        some context) :
    context.accountId = accountId := by
  obtain ⟨session, hmem, hhash, -, hid, -⟩ := getContextForSession_some h
  rcases List.mem_append.mp hmem with hold | hnew
  · exact absurd hhash (hfresh session hold)
  · obtain rfl := List.mem_singleton.mp hnew
    exact hid

/-- One account has the e-mail after the first statement; the session is for it, and the identity
row is stored with it unless there was one before. -/
theorem upsertSsoAccount_returns {login : LoginResult}
    (h : upsertSsoAccount w c request t = (.ok (some login), u)) :
    ∃ t₁ account,
      upsertAccount t c.accountId (w.normalizeEmail request.email) request.role = .ok t₁ ∧
      accountsOf w t₁ (w.normalizeEmail request.email) = [account] ∧
      login.context.accountId = account.accountId ∧
      u.identities = insertOrUpdate IdentityRow.key
        (fun row => { row with email := w.normalizeEmail request.email })
        ⟨c.identityId, account.accountId, request.provider, request.identitySubject w,
          w.normalizeEmail request.email⟩ t₁.identities := by
  obtain ⟨_, t₁, haccount, h⟩ := bind_returns.mp h
  obtain ⟨_, t₂, hidentity, h⟩ := bind_returns.mp h
  obtain ⟨_, t₃, hteam, h⟩ := bind_returns.mp h
  obtain ⟨_, t₄, hsession, h⟩ := bind_returns.mp h
  obtain ⟨context, t₅, hcontext, h⟩ := bind_returns.mp h
  obtain ⟨hlogin, rfl⟩ := pure_returns.mp h
  obtain ⟨rfl, rfl⟩ := select_returns hcontext
  obtain ⟨opened, hopened, rfl⟩ := Option.map_eq_some_iff.mp hlogin
  have hsame : SameCore t₂ (joinTeam w c (w.normalizeEmail request.email) request t₂).2 :=
    joinTeam_keeps t₂ _ request t₂ ⟨rfl, rfl, rfl⟩
  rw [hteam] at hsame
  obtain ⟨account, hfound, hfresh, rfl⟩ := createSessionFromEmail_returns hsession
  have hsession : opened.accountId = account.accountId :=
    getContextForSession_accountId hfresh hopened
  have hof : accountsOf w t₃ (w.normalizeEmail request.email) =
      accountsOf w t₂ (w.normalizeEmail request.email) := by
    rw [accountsOf, accountsOf, hsame.accounts]
  rw [hof] at hfound
  rcases upsertIdentity_ok (run_returns hidentity) with ⟨hnone, rfl⟩ | ⟨only, hone, rfl⟩
  · rw [hnone] at hfound
    cases hfound
  · change (accountsOf w t₁ (w.normalizeEmail request.email)).head? = some account at hfound
    rw [hone] at hfound
    obtain rfl := Option.some.inj hfound
    exact ⟨t₁, only, run_returns haccount, hone, hsession, hsame.identities⟩

/-- An account that is there before the first statement keeps its id and its e-mail. -/
theorem mem_accountsOf_upsertAccount {email accountId role : String} {account : AccountRow}
    (h : upsertAccount t accountId email role = .ok u) (hmem : account ∈ t.accounts)
    (hemail : w.databaseLower account.email = w.databaseLower email) :
    ∃ account' ∈ accountsOf w u email, account'.accountId = account.accountId := by
  obtain ⟨-, rfl⟩ := upsertAccount_ok h
  obtain ⟨account', hmem', rfl⟩ := exists_mem_insertOrUpdate AccountRow.email
    (fun account => { account with role, isActive := true })
    ⟨accountId, email, role, true, false, none, false, none, none⟩ hmem
  refine ⟨_, List.mem_filter.mpr ⟨hmem', ?_⟩, ?_⟩
  · split_ifs
    · exact decide_eq_true hemail
    · exact decide_eq_true hemail
  · split_ifs
    · rfl
    · rfl

/-- A successful sign-in whose e-mail is that of the subject's account leaves an identity row that
points to the account of the session. -/
theorem authCallback_pointed {login : LoginResult} (hemail : SameEmail w t request)
    (h : authCallback w c request t = (.ok login, u)) :
    Pointed u ⟨request.provider, request.identitySubject w, login.context.accountId⟩ := by
  obtain ⟨found, t', hupsert, hreturn⟩ := bind_returns.mp h
  cases found with
  | none => cases hreturn
  | some found =>
      obtain ⟨rfl, rfl⟩ := pure_returns.mp hreturn
      obtain ⟨t₁, account, hfirst, hone, haccount, hidentities⟩ := upsertSsoAccount_returns hupsert
      obtain ⟨row, hrow, hkey, horigin⟩ := exists_key_insertOrUpdate IdentityRow.key
        (fun row => { row with email := w.normalizeEmail request.email })
        ⟨c.identityId, account.accountId, request.provider, request.identitySubject w,
          w.normalizeEmail request.email⟩ t₁.identities fun _ => rfl
      rw [← hidentities] at hrow
      refine ⟨row, hrow, hkey, ?_⟩
      rcases horigin with ⟨old, hold, hkeyOld, rfl⟩ | rfl
      · have hidentities₁ : t₁.identities = t.identities := by
          obtain ⟨-, rfl⟩ := upsertAccount_ok hfirst
          rfl
        rw [hidentities₁] at hold
        obtain ⟨owner, howner, hid, hsame⟩ := hemail old hold hkeyOld
        obtain ⟨owner', howner', hid'⟩ := mem_accountsOf_upsertAccount hfirst howner hsame
        rw [hone] at howner'
        obtain rfl := List.mem_singleton.mp howner'
        rw [haccount, hid']
        exact hid.symm
      · exact haccount.symm

end Success

/-! ## Runs -/

section Runs

variable {w : IdentityService} {s : SsoState}

theorem IdentitiesKept.kept (h : IdentitiesKept s.signIns s.tables) : SubjectsKept s := by
  refine ⟨h.1, h.2, fun signIn hsignIn other hother hprovider hsubject => ?_⟩
  obtain ⟨row, hrow, hkey, haccount⟩ := h.2 signIn hsignIn
  obtain ⟨row', hrow', hkey', haccount'⟩ := h.2 other hother
  rw [hprovider, hsubject] at hkey'
  obtain rfl := List.inj_on_of_nodup_map h.1 hrow hrow' (hkey.trans hkey'.symm)
  exact haccount'.symm.trans haccount

theorem signIn_kept (h : IdentitiesKept s.signIns s.tables) {c : Circumstances}
    {request : SsoRequest} (hemail : SameEmail w s.tables request) :
    IdentitiesKept (s.signIn w c request).signIns (s.signIn w c request).tables := by
  have hkept : IdentitiesKept s.signIns (authCallback w c request s.tables).2 :=
    authCallback_keeps request s.tables h
  unfold SsoState.signIn
  rcases hresult : authCallback w c request s.tables with ⟨error | login, tables⟩
  · rw [hresult] at hkept
    exact hkept
  · rw [hresult] at hkept
    refine ⟨hkept.1, fun signIn hsignIn => ?_⟩
    rcases List.mem_append.mp hsignIn with hold | hnew
    · exact hkept.2 signIn hold
    · obtain rfl := List.mem_singleton.mp hnew
      exact authCallback_pointed hemail hresult

theorem next_kept (e : SsoEvent) (h : IdentitiesKept s.signIns s.tables)
    (hclean : CleanStep w s e) :
    IdentitiesKept (ssoNext w s e).signIns (ssoNext w s e).tables := by
  cases e with
  | callback settings response c =>
      cases hrequest : callbackRequest settings response with
      | error error =>
          simp only [ssoNext, hrequest]
          exact h
      | ok request =>
          simp only [ssoNext, hrequest]
          exact signIn_kept h (hclean request hrequest)
  | changeEmail accountId email => exact h.congr rfl
  | createAccount account => exact h.congr rfl

end Runs

/-- In every run in which each subject signs in with the e-mail of its own account, a subject always
gets a session of the account that its identity row points to. -/
theorem subject_account_kept {w : IdentityService} {s : SsoState}
    (h : ReachableBy (ssoSystem w) (CleanStep w) s) : SubjectsKept s := by
  have hinitial : ∀ s, (ssoSystem w).initial s → IdentitiesKept s.signIns s.tables := by
    rintro s ⟨hunique, hnone⟩
    refine ⟨hunique, fun signIn hsignIn => ?_⟩
    rw [hnone] at hsignIn
    cases hsignIn
  exact IdentitiesKept.kept (ReachableBy.invariant
    (P := fun s => IdentitiesKept s.signIns s.tables) hinitial
      (fun _ e hinv _ => next_kept e hinv) h)

/-! ## A person with two e-mails -/

section Decisions

variable {w : IdentityService} {s : SsoState}

instance (t : Tables) (request : SsoRequest) : Decidable (SameEmail w t request) := by
  unfold SameEmail
  exact inferInstance

instance (e : SsoEvent) : Decidable (CleanStep w s e) := by
  cases e with
  | callback settings response c =>
      cases hrequest : callbackRequest settings response with
      | error error =>
          refine isTrue fun request h => ?_
          rw [hrequest] at h
          cases h
      | ok request =>
          refine decidable_of_iff (SameEmail w s.tables request)
            ⟨fun h other hother => ?_, fun h => ?_⟩
          · rw [hrequest] at hother
            cases hother
            exact h
          · exact h request hrequest
  | changeEmail accountId email => exact isTrue trivial
  | createAccount account => exact isTrue trivial

instance (s : SsoState) (e : SsoEvent) :
    Decidable ((ssoSystem w).enabled s e) := by
  change Decidable (ssoEnabled s e)
  cases e <;> (unfold ssoEnabled; exact inferInstance)

end Decisions

def noAccounts : SsoState := ⟨⟨[], [], [], [], [], []⟩, []⟩

theorem noAccounts_initial : (ssoSystem asciiService).initial noAccounts := ⟨List.nodup_nil, rfl⟩

/-- A sign-in of the same subject, at an hour of the clock. -/
def signInAs (email accountId sessionTokenHash : String) (hour : ℤ) : SsoEvent :=
  .callback ⟨"oidc", []⟩ ⟨some "user-1", .str email, none⟩
    ⟨accountId, "identity-1", sessionTokenHash, "", "", hour, fun _ => false⟩

def afterRun (es : List SsoEvent) : SsoState := es.foldl (ssoNext asciiService) noAccounts

def sameEmailTwice : List SsoEvent :=
  [signInAs "ana@old.example" "account-1" "session-1" 0,
    signInAs "Ana@old.example " "account-2" "session-2" 1]

theorem subject_account_kept_twice :
    ReachableBy (ssoSystem asciiService) (CleanStep asciiService) (afterRun sameEmailTwice) ∧
      (afterRun sameEmailTwice).signIns.map SignInRecord.accountId = ["account-1", "account-1"] ∧
        SubjectsKept (afterRun sameEmailTwice) := by
  have hfires : Fires (ssoSystem asciiService)
    (CleanStep asciiService) noAccounts sameEmailTwice := by
    decide +kernel
  have hreach := (ReachableBy.initial noAccounts_initial).fires hfires
  exact ⟨hreach, by decide +kernel, subject_account_kept hreach⟩

/-- The second of two sign-ins of the subject opens a session of another account than the first, to
which the identity row points. -/
def MovesAccount (es : List SsoEvent) : Prop :=
  Reachable (ssoSystem asciiService) (afterRun es) ∧
    (afterRun es).signIns = [⟨"oidc", "user-1", "account-1"⟩, ⟨"oidc", "user-1", "account-2"⟩] ∧
      (afterRun es).tables.identities.map (fun row => (row.key, row.accountId)) =
        [(("oidc", "user-1"), "account-1")]

/-- So it does when the e-mail changes at the provider, or the e-mail of the account does. -/
theorem subject_account_moved :
    MovesAccount [signInAs "ana@old.example" "account-1" "session-1" 0,
        signInAs "ana@new.example" "account-2" "session-2" 1] ∧
      MovesAccount [signInAs "ana@old.example" "account-1" "session-1" 0,
        .changeEmail "account-1" "ana@new.example",
        signInAs "ana@old.example" "account-2" "session-2" 1] := by
  have hrun : ∀ es, Fires (ssoSystem asciiService) (fun _ _ => True) noAccounts es →
      Reachable (ssoSystem asciiService) (afterRun es) := fun es hes =>
    (ReachableBy.initial noAccounts_initial).fires hes
  exact ⟨⟨hrun _ (by decide +kernel), by decide +kernel⟩,
    ⟨hrun _ (by decide +kernel), by decide +kernel⟩⟩

end SubjectStability
