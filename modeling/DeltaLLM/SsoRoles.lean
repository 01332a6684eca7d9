import DeltaLLM.AcceptedMemberships

/-! # Roles after an SSO sign-in

A sign-in writes the role of its account, makes it active, and writes the roles in the default team
and in the organization of that team, statement by statement. Which of these makes an existing role
weaker is said in terms of the tables before the sign-in.
-/
namespace SsoRoles

open AcceptedMemberships (UniqueMemberships Weaker nothingFails not_weaker_self)
open AssignedColumns
open CommittedScripts
open InvitationAcceptance (organizationRole teamRole)
open PlatformIdentity
open PlatformRoles
open TableStatements

/-! ## What is asked of a sign-in -/

def accountPermissions (role : String) : List Permission :=
  platformRolePermissions (canonicalRole role)

/-- No account has a weaker role than before, and none that was inactive is active. -/
def AccountsKept (t u : Tables) : Prop :=
  ∀ account ∈ t.accounts, ∃ after ∈ u.accounts, after.accountId = account.accountId ∧
    ¬Weaker accountPermissions after.role account.role ∧
      (account.isActive = false → after.isActive = false)

def OrganizationsKept (t u : Tables) : Prop :=
  organizationRole.NeverWorse (Weaker orgRolePermissions) t.organizationMemberships
    u.organizationMemberships

def TeamsKept (t u : Tables) : Prop :=
  teamRole.NeverWorse (Weaker teamRolePermissions) t.teamMemberships u.teamMemberships

/-- The primary and unique keys, and the accounts of memberships. -/
structure WellFormed (t : Tables) : Prop where
  accountIds : (t.accounts.map AccountRow.accountId).Nodup
  emails : (t.accounts.map AccountRow.email).Nodup
  memberships : UniqueMemberships t
  organizationAccounts : ∀ row ∈ t.organizationMemberships, ∃ account ∈ t.accounts,
    account.accountId = row.accountId
  teamAccounts : ∀ row ∈ t.teamMemberships, ∃ account ∈ t.accounts,
    account.accountId = row.accountId

section Conditions

variable (w : IdentityService) (c : Circumstances) (request : SsoRequest) (t : Tables)

/-- The first statement finds an account that it weakens or wakes. -/
def WeakensAccount : Prop :=
  c.fails .account = false ∧ ∃ account ∈ t.accounts,
    account.email = w.normalizeEmail request.email ∧
      (Weaker accountPermissions request.role account.role ∨ account.isActive = false)

/-- The statements get as far as the memberships of the team, for an account that was there. -/
structure JoinsTeam (account : AccountRow) (teamId : String) : Prop where
  found : accountsOf w t (w.normalizeEmail request.email) = [account]
  email : account.email = w.normalizeEmail request.email
  account_done : c.fails .account = false
  identity_done : c.fails .identity = false
  team_done : c.fails .teamMembership = false
  no_admin : request.isPlatformAdmin = false
  team : request.teamId.filter (· ≠ "") = some teamId

def WeakensTeam : Prop :=
  ∃ account teamId, JoinsTeam w c request t account teamId ∧ ∃ row ∈ t.teamMemberships,
    row.key = (account.accountId, teamId) ∧
      Weaker teamRolePermissions request.defaultTeamRole row.role

/-- The organization that comes with the team. -/
def organizationOfTeam (teams : List TeamRow) (teamId : String) : Option String :=
  ((rowWithKey TeamRow.teamId teamId teams).bind TeamRow.organizationId).filter (· ≠ "")

/-- The organization of the team is joined as a member, whatever the role was. -/
def WeakensOrganization : Prop :=
  ∃ account teamId organizationId, JoinsTeam w c request t account teamId ∧
    c.fails .team = false ∧ c.fails .organizationMembership = false ∧
      organizationOfTeam t.teams teamId = some organizationId ∧
        ∃ row ∈ t.organizationMemberships, row.key = (account.accountId, organizationId) ∧
          Weaker orgRolePermissions "org_member" row.role

end Conditions

/-! ## The end of a script -/

section Ends

variable {c : Circumstances} {t u : Tables} {α β : Type} {statement : ServiceStatement}
  {f : Tables → Except ServiceError Tables}

theorem state_of_returned {x : Call α} {g : α → Call β} {a : α} (h : x t = (.ok a, u)) :
    ((x >>= g) t).2 = (g a u).2 := by
  rw [bind_apply, h]

theorem state_of_raised {x : Call α} {g : α → Call β} {e : ServiceError} (h : x t = (.error e, u)) :
    ((x >>= g) t).2 = u := by
  rw [bind_apply, h]

theorem run_failed (h : c.fails statement = true) :
    c.run statement f t = (.error .databaseError, t) := by
  simp [Circumstances.run, Script.write, h]

theorem run_done (h : c.fails statement = false) (hf : f t = .ok u) :
    c.run statement f t = (.ok (), u) := by
  simp [Circumstances.run, Script.write, h, hf]

theorem run_raised {e : ServiceError} (h : c.fails statement = false) (hf : f t = .error e) :
    c.run statement f t = (.error e, t) := by
  simp [Circumstances.run, Script.write, h, hf]

theorem run_wrote {g : Tables → Tables} (h : c.fails statement = false) :
    c.run statement (fun t => .ok (g t)) t = (.ok (), g t) := run_done h rfl

theorem select_failed {g : Tables → α} (h : c.fails statement = true) :
    c.select statement g t = (.error .databaseError, t) := by
  simp [Circumstances.select, Script.raise, h]

theorem select_done {g : Tables → α} (h : c.fails statement = false) :
    c.select statement g t = (.ok (g t), t) := by
  simp [Circumstances.select, Script.read, h]

end Ends

/-! ## The memberships that are written -/

section Joining

variable {w : IdentityService} {c : Circumstances} {request : SsoRequest} {t : Tables}
  {account : AccountRow} {email teamId role : String}

theorem upsertTeamMemberships_one (hone : accountsOf w t email = [account]) :
    upsertTeamMemberships t (accountsOf w t email) teamId role = { t with
      teamMemberships :=
        teamRole.upsertAll [((account.accountId, teamId), role)] t.teamMemberships } := by
  rw [hone]
  rfl

theorem upsertOrganizationMemberships_one {organizationId : String}
    (hone : accountsOf w t email = [account]) :
    upsertOrganizationMemberships t (accountsOf w t email) organizationId role = { t with
      organizationMemberships := organizationRole.upsertAll
        [((account.accountId, organizationId), role)] t.organizationMemberships } := by
  rw [hone]
  rfl

/-- The role in the team, where the statement is reached. -/
def teamWrites (c : Circumstances) (request : SsoRequest) (accountId : String) :
    List ((String × String) × String) :=
  match request.teamId.filter (· ≠ "") with
  | none => []
  | some teamId =>
      if request.isPlatformAdmin = true ∨ c.fails .teamMembership = true then []
      else [((accountId, teamId), request.defaultTeamRole)]

/-- The role in the organization of the team, where the statement is reached. -/
def organizationWrites (c : Circumstances) (request : SsoRequest) (teams : List TeamRow)
    (accountId : String) : List ((String × String) × String) :=
  match request.teamId.filter (· ≠ "") with
  | none => []
  | some teamId =>
      if request.isPlatformAdmin = true ∨ c.fails .teamMembership = true ∨ c.fails .team = true ∨
          c.fails .organizationMembership = true then []
      else
        match organizationOfTeam teams teamId with
        | none => []
        | some organizationId => [((accountId, organizationId), "org_member")]

/-- What joining the team leaves, for the one account of the e-mail. -/
theorem joinTeam_state (request : SsoRequest) (hone : accountsOf w t email = [account]) :
    (joinTeam w c email request t).2 = { t with
      teamMemberships :=
        teamRole.upsertAll (teamWrites c request account.accountId) t.teamMemberships
      organizationMemberships := organizationRole.upsertAll
        (organizationWrites c request t.teams account.accountId) t.organizationMemberships } := by
  unfold joinTeam teamWrites organizationWrites organizationOfTeam
  cases hteam : request.teamId.filter (· ≠ "") with
  | none => rfl
  | some teamId =>
      dsimp only
      cases hadmin : request.isPlatformAdmin with
      | true => rfl
      | false =>
          simp only [Bool.false_eq_true, if_false, false_or]
          unfold upsertMemberships
          cases hwrite : c.fails .teamMembership with
          | true =>
              rw [state_of_raised (run_failed hwrite)]
              rfl
          | false =>
              rw [state_of_returned (run_wrote hwrite), upsertTeamMemberships_one hone]
              cases hselect : c.fails .team with
              | true =>
                  rw [state_of_raised (select_failed hselect)]
                  rfl
              | false =>
                  rw [state_of_returned (select_done hselect)]
                  simp only [Bool.false_eq_true, if_false, false_or]
                  cases horganization : ((rowWithKey TeamRow.teamId teamId t.teams).bind
                      TeamRow.organizationId).filter (· ≠ "") with
                  | none =>
                      cases c.fails .organizationMembership <;> rfl
                  | some organizationId =>
                      dsimp only
                      cases hlast : c.fails .organizationMembership with
                      | true =>
                          rw [run_failed hlast]
                          rfl
                      | false =>
                          rw [run_wrote hlast]
                          exact upsertOrganizationMemberships_one hone

end Joining

/-! ## The whole sign-in -/

section SignIn

variable {w : IdentityService} {c : Circumstances} {request : SsoRequest} {t u v : Tables}
  {account : AccountRow}

structure SameRoles (t u : Tables) : Prop where
  accounts : u.accounts = t.accounts
  teams : u.teamMemberships = t.teamMemberships
  organizations : u.organizationMemberships = t.organizationMemberships

theorem openSession_keeps (email : String) :
    Keeps (SameRoles t) (do
      createSessionFromEmail w c email false
      let context ← openedContext c
      return context.map c.loginResult) := by
  refine Keeps.bind ?_ fun _ => (select_keeps _ _).bind fun _ => keeps_pure _
  refine (select_keeps _ _).bind fun found => ?_
  cases found with
  | none => exact keeps_raise _
  | some account =>
      refine run_keeps _ fun s u hs hwrite => ?_
      obtain ⟨-, rfl⟩ := insertSession_ok hwrite
      exact ⟨hs.accounts, hs.teams, hs.organizations⟩

theorem joinTeam_accounts (email : String) :
    (joinTeam w c email request t).2.accounts = t.accounts :=
  (joinTeam_keeps t email request t ⟨rfl, rfl, rfl⟩).accounts

/-- However joining ends, the session changes nothing of it. -/
theorem joined_state (request : SsoRequest) (email : String) :
    SameRoles (joinTeam w c email request t).2
      ((do
        joinTeam w c email request
        createSessionFromEmail w c email false
        let context ← openedContext c
        return context.map c.loginResult) t).2 := by
  rcases hjoin : joinTeam w c email request t with ⟨e | ⟨⟩, u⟩
  · rw [state_of_raised hjoin]
    exact ⟨rfl, rfl, rfl⟩
  · rw [state_of_returned hjoin]
    exact openSession_keeps email u ⟨rfl, rfl, rfl⟩

/-- The tables after the sign-in, when its first statement is done. -/
inductive SignedIn (w : IdentityService) (c : Circumstances) (request : SsoRequest)
    (t u : Tables) : Prop where
  | joined (account : AccountRow) :
      accountsOf w t (w.normalizeEmail request.email) = [account] → c.fails .identity = false →
      u.teamMemberships =
        teamRole.upsertAll (teamWrites c request account.accountId) t.teamMemberships →
      u.organizationMemberships = organizationRole.upsertAll
        (organizationWrites c request t.teams account.accountId) t.organizationMemberships →
      SignedIn w c request t u
  | stopped :
      ¬(c.fails .identity = false ∧
        ∃ account, accountsOf w t (w.normalizeEmail request.email) = [account]) →
      u.teamMemberships = t.teamMemberships →
      u.organizationMemberships = t.organizationMemberships → SignedIn w c request t u

theorem signedIn_of_account
    (hfound : accountsOf w v (w.normalizeEmail request.email) ≠ [])
    (haccount : c.fails .account = false)
    (hwrite : upsertAccount t c.accountId (w.normalizeEmail request.email) request.role = .ok v) :
    (upsertSsoAccount w c request t).2.accounts = v.accounts ∧
      SignedIn w c request v (upsertSsoAccount w c request t).2 := by
  unfold upsertSsoAccount
  rw [state_of_returned (run_done haccount hwrite)]
  cases hidentity : c.fails .identity with
  | true =>
      rw [state_of_raised (run_failed hidentity)]
      exact ⟨rfl, .stopped (fun h => by simp [hidentity] at h) rfl rfl⟩
  | false =>
      cases hone : accountsOf w v (w.normalizeEmail request.email) with
      | nil => exact absurd hone hfound
      | cons account others =>
          cases others with
          | cons other others =>
              have hraised : upsertIdentity w v c.identityId request.provider
                  (request.identitySubject w) (w.normalizeEmail request.email) =
                    .error .databaseError := by
                simp [upsertIdentity, hone]
              rw [state_of_raised (run_raised hidentity hraised)]
              exact ⟨rfl, .stopped (fun h => by simp [hone] at h) rfl rfl⟩
          | nil =>
              obtain ⟨identities, hstored⟩ : ∃ identities, upsertIdentity w v c.identityId
                  request.provider (request.identitySubject w) (w.normalizeEmail request.email) =
                    .ok { v with identities } := by
                simp [upsertIdentity, hone]
              rw [state_of_returned (run_done hidentity hstored)]
              have hsame := joined_state (w := w) (c := c) (t := { v with identities }) request
                (w.normalizeEmail request.email)
              have hjoined := joinTeam_state (c := c) (t := { v with identities }) request hone
              refine ⟨?_, .joined account hone hidentity ?_ ?_⟩
              · rw [hsame.accounts, joinTeam_accounts]
              · rw [hsame.teams, hjoined]
              · rw [hsame.organizations, hjoined]

/-! ## The account -/

/-- The columns that the first statement sets. -/
def signedInRow (role : String) (account : AccountRow) : AccountRow :=
  { account with role, isActive := true }

/-- The accounts after the first statement, when there is one with the e-mail. -/
theorem upsertAccount_found {email : String} (role : String)
    (htaken : ∃ account ∈ t.accounts, account.email = email) :
    upsertAccount t c.accountId email role = .ok { t with
      accounts := updateWhere (fun account => account.email = email) (signedInRow role)
        t.accounts } := by
  unfold upsertAccount insertOrUpdate
  rw [if_pos (Or.inl htaken), if_pos htaken]
  rfl

/-- The accounts after the first statement, when it makes one. -/
theorem upsertAccount_made {email role : String}
    (hfree : ¬∃ account ∈ t.accounts, account.email = email)
    (hwrite : upsertAccount t c.accountId email role = .ok v) :
    (∀ account ∈ t.accounts, account.accountId ≠ c.accountId) ∧ v = { t with
      accounts := t.accounts ++
        [⟨c.accountId, email, role, true, false, none, false, none, none⟩] } := by
  obtain ⟨hid, rfl⟩ := upsertAccount_ok hwrite
  refine ⟨hid.resolve_left hfree, ?_⟩
  rw [insertOrUpdate, if_neg hfree]

theorem accountsOf_updateWhere (email role : String) :
    accountsOf w { t with
        accounts := updateWhere (fun account => account.email = email) (signedInRow role)
          t.accounts } email =
      (accountsOf w t email).map fun account =>
        if account.email = email then signedInRow role account else account := by
  unfold accountsOf updateWhere
  rw [List.filter_map]
  congr 1
  refine List.filter_congr fun account _ => ?_
  simp only [Function.comp_apply]
  by_cases hemail : account.email = email
  · rw [if_pos hemail]
    rfl
  · rw [if_neg hemail]

/-- One account has the e-mail afterwards when it was the only one before. -/
theorem single_account_iff {email accountId : String} (role : String)
    (htaken : ∃ account ∈ t.accounts, account.email = email) :
    (∃ account, accountsOf w { t with
        accounts := updateWhere (fun account => account.email = email) (signedInRow role)
          t.accounts } email = [account] ∧ account.accountId = accountId) ↔
      ∃ account, accountsOf w t email = [account] ∧ account.email = email ∧
        account.accountId = accountId := by
  rw [accountsOf_updateWhere]
  constructor
  · rintro ⟨after, hsingle, hid⟩
    obtain ⟨account, hone, rfl⟩ := List.map_eq_singleton_iff.mp hsingle
    obtain ⟨taken, hmem, hemail⟩ := htaken
    have hlisted : taken ∈ accountsOf w t email :=
      List.mem_filter.mpr ⟨hmem, by simp [hemail]⟩
    rw [hone, List.mem_singleton] at hlisted
    subst hlisted
    rw [if_pos hemail] at hid
    exact ⟨taken, hone, hemail, hid⟩
  · rintro ⟨account, hone, hemail, hid⟩
    refine ⟨signedInRow role account, ?_, hid⟩
    rw [hone, List.map_singleton, if_pos hemail]

theorem accountsKept_iff {email role : String}
    (hids : (t.accounts.map AccountRow.accountId).Nodup)
    (haccounts : u.accounts = updateWhere (fun account => account.email = email)
      (signedInRow role) t.accounts) :
    AccountsKept t u ↔ ¬∃ account ∈ t.accounts, account.email = email ∧
      (Weaker accountPermissions role account.role ∨ account.isActive = false) := by
  unfold AccountsKept
  rw [haccounts]
  constructor
  · rintro hkept ⟨account, hmem, hemail, hbroken⟩
    obtain ⟨after, hafter, hid, hrole, hactive⟩ := hkept account hmem
    have hwritten : signedInRow role account ∈ updateWhere (fun account => account.email = email)
        (signedInRow role) t.accounts :=
      (mem_updateWhere _ _).mpr ⟨account, hmem, (if_pos hemail).symm⟩
    have hnodup := nodup_keys_updateWhere (fun account => account.email = email)
      (fun account => rfl : ∀ r, AccountRow.accountId (signedInRow role r) = r.accountId) hids
    obtain rfl : after = signedInRow role account :=
      List.inj_on_of_nodup_map hnodup hafter hwritten hid
    rcases hbroken with hweaker | hinactive
    · exact hrole hweaker
    · cases hactive hinactive
  · intro hnone account hmem
    refine ⟨_, (mem_updateWhere _ _).mpr ⟨account, hmem, rfl⟩, ?_⟩
    by_cases hemail : account.email = email
    · rw [if_pos hemail]
      refine ⟨rfl, fun hweaker => hnone ⟨account, hmem, hemail, Or.inl hweaker⟩,
        fun hinactive => ?_⟩
      exact absurd ⟨account, hmem, hemail, Or.inr hinactive⟩ hnone
    · rw [if_neg hemail]
      exact ⟨rfl, not_weaker_self _ _, fun h => h⟩

theorem accountsKept_of_subset (h : ∀ account ∈ t.accounts, account ∈ u.accounts) :
    AccountsKept t u :=
  fun account hmem => ⟨account, h account hmem, rfl, not_weaker_self _ _, fun h => h⟩

/-! ## The memberships -/

theorem lastWritten_teamWrites {accountId : String} {key : String × String} {role : String} :
    lastWritten key (teamWrites c request accountId) = some role ↔
      ∃ teamId, request.teamId.filter (· ≠ "") = some teamId ∧ request.isPlatformAdmin = false ∧
        c.fails .teamMembership = false ∧ key = (accountId, teamId) ∧
          role = request.defaultTeamRole := by
  unfold teamWrites
  cases request.teamId.filter (· ≠ "") with
  | none => simp [lastWritten]
  | some teamId =>
      cases request.isPlatformAdmin <;> cases c.fails .teamMembership <;>
        simp [lastWritten, eq_comm]

theorem lastWritten_organizationWrites {teams : List TeamRow} {accountId : String}
    {key : String × String} {role : String} :
    lastWritten key (organizationWrites c request teams accountId) = some role ↔
      ∃ teamId organizationId, request.teamId.filter (· ≠ "") = some teamId ∧
        request.isPlatformAdmin = false ∧ c.fails .teamMembership = false ∧
          c.fails .team = false ∧ c.fails .organizationMembership = false ∧
            organizationOfTeam teams teamId = some organizationId ∧
              key = (accountId, organizationId) ∧ role = "org_member" := by
  unfold organizationWrites
  cases request.teamId.filter (· ≠ "") with
  | none => simp [lastWritten]
  | some teamId =>
      have hone : ∀ organizationId, lastWritten key
          [((accountId, organizationId), "org_member")] = some role ↔
            key = (accountId, organizationId) ∧ role = "org_member" := by
        simp [lastWritten, eq_comm]
      cases request.isPlatformAdmin <;> cases c.fails .teamMembership <;>
        cases c.fails .team <;> cases c.fails .organizationMembership
      case false.false.false.false =>
        cases horganization : organizationOfTeam teams teamId with
        | none => simp [lastWritten, horganization]
        | some organizationId => simp [hone, horganization]
      all_goals simp [lastWritten]

/-- No membership belongs to an account that is not there. -/
theorem not_member_of_new {accountId : String} (hwell : WellFormed t)
    (hnew : ∀ account ∈ t.accounts, account.accountId ≠ accountId) :
    (∀ row ∈ t.teamMemberships, row.accountId ≠ accountId) ∧
      ∀ row ∈ t.organizationMemberships, row.accountId ≠ accountId := by
  constructor
  · rintro row hrow rfl
    obtain ⟨account, hmem, hid⟩ := hwell.teamAccounts row hrow
    exact hnew account hmem hid
  · rintro row hrow rfl
    obtain ⟨account, hmem, hid⟩ := hwell.organizationAccounts row hrow
    exact hnew account hmem hid

theorem JoinsTeam.mem {teamId : String} (h : JoinsTeam w c request t account teamId) :
    account ∈ t.accounts := by
  have hmem : account ∈ accountsOf w t (w.normalizeEmail request.email) := by
    rw [h.found]
    exact List.mem_singleton_self account
  exact (List.mem_filter.mp hmem).1

/-- What the sign-in keeps, part by part. -/
structure KeptExactly (w : IdentityService) (c : Circumstances) (request : SsoRequest)
    (t u : Tables) : Prop where
  accounts : AccountsKept t u ↔ ¬WeakensAccount w c request t
  teams : TeamsKept t u ↔ ¬WeakensTeam w c request t
  organizations : OrganizationsKept t u ↔ ¬WeakensOrganization w c request t

/-- A sign-in that does not get past its first statement weakens nothing. -/
theorem keptExactly_of_unwritten (hnone : ∀ account ∈ t.accounts,
    account.email = w.normalizeEmail request.email → c.fails .account = true) :
    KeptExactly w c request t t where
  accounts := by
    refine iff_of_true (accountsKept_of_subset fun _ h => h) ?_
    rintro ⟨hdone, account, hmem, hemail, -⟩
    rw [hnone account hmem hemail] at hdone
    cases hdone
  teams := by
    refine iff_of_true (teamRole.neverWorse_self (not_weaker_self _) _) ?_
    rintro ⟨account, teamId, hjoins, -⟩
    have hdone := hjoins.account_done
    rw [hnone account hjoins.mem hjoins.email] at hdone
    cases hdone
  organizations := by
    refine iff_of_true (organizationRole.neverWorse_self (not_weaker_self _) _) ?_
    rintro ⟨account, teamId, organizationId, hjoins, -⟩
    have hdone := hjoins.account_done
    rw [hnone account hjoins.mem hjoins.email] at hdone
    cases hdone

/-- The writes of a sign-in on an account that was there. -/
theorem joined_kept_iff (accountId : String) (hwell : WellFormed t)
    (hsingle : ∀ id, (∃ account, accountsOf w t (w.normalizeEmail request.email) = [account] ∧
      account.email = w.normalizeEmail request.email ∧ account.accountId = id) ↔ id = accountId)
    (haccount : c.fails .account = false) (hidentity : c.fails .identity = false)
    (hteams : u.teamMemberships = teamRole.upsertAll (teamWrites c request accountId)
      t.teamMemberships)
    (horganizations : u.organizationMemberships = organizationRole.upsertAll
      (organizationWrites c request t.teams accountId) t.organizationMemberships) :
    (TeamsKept t u ↔ ¬WeakensTeam w c request t) ∧
      (OrganizationsKept t u ↔ ¬WeakensOrganization w c request t) := by
  obtain ⟨account, hfound, hemail, hid⟩ := (hsingle accountId).mpr rfl
  have hjoins : ∀ teamId, request.teamId.filter (· ≠ "") = some teamId →
      request.isPlatformAdmin = false → c.fails .teamMembership = false →
        JoinsTeam w c request t account teamId := fun teamId hteam hadmin hdone =>
    ⟨hfound, hemail, haccount, hidentity, hdone, hadmin, hteam⟩
  have hsame : ∀ other teamId, JoinsTeam w c request t other teamId →
      other.accountId = accountId := fun other teamId hjoin =>
    (hsingle other.accountId).mp ⟨other, hjoin.found, hjoin.email, rfl⟩
  constructor
  · unfold TeamsKept
    rw [hteams, Column.neverWorse_upsertAll (not_weaker_self _) hwell.memberships.teams]
    refine not_congr ⟨?_, ?_⟩
    · rintro ⟨row, hrow, role, hlast, hweaker⟩
      obtain ⟨teamId, hteam, hadmin, hdone, hkey, rfl⟩ := lastWritten_teamWrites.mp hlast
      exact ⟨account, teamId, hjoins teamId hteam hadmin hdone, row, hrow, hid ▸ hkey, hweaker⟩
    · rintro ⟨other, teamId, hjoin, row, hrow, hkey, hweaker⟩
      rw [hsame other teamId hjoin] at hkey
      exact ⟨row, hrow, _, lastWritten_teamWrites.mpr
        ⟨teamId, hjoin.team, hjoin.no_admin, hjoin.team_done, hkey, rfl⟩, hweaker⟩
  · unfold OrganizationsKept
    rw [horganizations,
      Column.neverWorse_upsertAll (not_weaker_self _) hwell.memberships.organizations]
    refine not_congr ⟨?_, ?_⟩
    · rintro ⟨row, hrow, role, hlast, hweaker⟩
      obtain ⟨teamId, organizationId, hteam, hadmin, hdone, hselect, hwrite, horganization, hkey,
        rfl⟩ := lastWritten_organizationWrites.mp hlast
      exact ⟨account, teamId, organizationId, hjoins teamId hteam hadmin hdone, hselect, hwrite,
        horganization, row, hrow, hid ▸ hkey, hweaker⟩
    · rintro ⟨other, teamId, organizationId, hjoin, hselect, hwrite, horganization, row, hrow, hkey,
        hweaker⟩
      rw [hsame other teamId hjoin] at hkey
      exact ⟨row, hrow, _, lastWritten_organizationWrites.mpr ⟨teamId, organizationId, hjoin.team,
        hjoin.no_admin, hjoin.team_done, hselect, hwrite, horganization, hkey, rfl⟩, hweaker⟩

/-- A sign-in that touches no membership of the tables keeps them, and has no one to weaken. -/
theorem unjoined_kept_iff
    (hnone : ∀ account teamId, ¬JoinsTeam w c request t account teamId)
    (hteams : TeamsKept t u) (horganizations : OrganizationsKept t u) :
    (TeamsKept t u ↔ ¬WeakensTeam w c request t) ∧
      (OrganizationsKept t u ↔ ¬WeakensOrganization w c request t) := by
  constructor
  · refine iff_of_true hteams ?_
    rintro ⟨account, teamId, hjoins, -⟩
    exact hnone account teamId hjoins
  · refine iff_of_true horganizations ?_
    rintro ⟨account, teamId, organizationId, hjoins, -⟩
    exact hnone account teamId hjoins

/-- A sign-in on an account that was there. -/
theorem keptExactly_found (hwell : WellFormed t) (haccount : c.fails .account = false)
    (htaken : ∃ account ∈ t.accounts, account.email = w.normalizeEmail request.email) :
    KeptExactly w c request t (upsertSsoAccount w c request t).2 := by
  have hwrite := upsertAccount_found (c := c) request.role htaken
  have hlisted : accountsOf w { t with
      accounts := updateWhere (fun account => account.email = w.normalizeEmail request.email)
        (signedInRow request.role) t.accounts } (w.normalizeEmail request.email) ≠ [] := by
    obtain ⟨account, hmem, hemail⟩ := htaken
    rw [accountsOf_updateWhere]
    refine List.ne_nil_of_mem (List.mem_map_of_mem (List.mem_filter.mpr ⟨hmem, ?_⟩))
    simp [hemail]
  obtain ⟨haccounts, hsigned⟩ := signedIn_of_account hlisted haccount hwrite
  have hkept := accountsKept_iff hwell.accountIds haccounts
  have hmembers : (TeamsKept t (upsertSsoAccount w c request t).2 ↔
      ¬WeakensTeam w c request t) ∧ (OrganizationsKept t (upsertSsoAccount w c request t).2 ↔
        ¬WeakensOrganization w c request t) := by
    cases hsigned with
    | joined after hone hidentity hteams horganizations =>
        refine joined_kept_iff after.accountId hwell (fun id => ?_) haccount
          hidentity hteams horganizations
        rw [← single_account_iff request.role htaken]
        constructor
        · rintro ⟨found, hfound, rfl⟩
          exact congrArg AccountRow.accountId
            (List.singleton_inj.mp (hfound.symm.trans hone))
        · rintro rfl
          exact ⟨after, hone, rfl⟩
    | stopped hstopped hteams horganizations =>
        refine unjoined_kept_iff (fun account teamId hjoins => hstopped ⟨hjoins.identity_done, ?_⟩)
          ?_ ?_
        · obtain ⟨found, hfound, -⟩ := (single_account_iff request.role htaken).mpr
            ⟨account, hjoins.found, hjoins.email, rfl⟩
          exact ⟨found, hfound⟩
        · unfold TeamsKept
          rw [hteams]
          exact teamRole.neverWorse_self (not_weaker_self _) _
        · unfold OrganizationsKept
          rw [horganizations]
          exact organizationRole.neverWorse_self (not_weaker_self _) _
  refine ⟨hkept.trans (not_congr ?_), hmembers.1, hmembers.2⟩
  exact ⟨fun h => ⟨haccount, h⟩, fun h => h.2⟩

/-- A sign-in that makes its account. -/
theorem keptExactly_made (hwell : WellFormed t) (haccount : c.fails .account = false)
    (hfree : ¬∃ account ∈ t.accounts, account.email = w.normalizeEmail request.email)
    (hwrite : upsertAccount t c.accountId (w.normalizeEmail request.email) request.role = .ok v) :
    KeptExactly w c request t (upsertSsoAccount w c request t).2 := by
  obtain ⟨hnew, rfl⟩ := upsertAccount_made hfree hwrite
  obtain ⟨hteamRows, horganizationRows⟩ := not_member_of_new hwell hnew
  have hlisted : ∀ account, account.email = w.normalizeEmail request.email →
      account ∈ accountsOf w { t with accounts := t.accounts ++ [account] }
        (w.normalizeEmail request.email) := fun account hemail =>
    List.mem_filter.mpr ⟨List.mem_append_right _ List.mem_cons_self, by simp [hemail]⟩
  have hmade := hlisted ⟨c.accountId, w.normalizeEmail request.email, request.role, true, false,
    none, false, none, none⟩ rfl
  obtain ⟨haccounts, hsigned⟩ := signedIn_of_account (List.ne_nil_of_mem hmade) haccount hwrite
  have hmembers : TeamsKept t (upsertSsoAccount w c request t).2 ∧
      OrganizationsKept t (upsertSsoAccount w c request t).2 := by
    unfold TeamsKept OrganizationsKept
    cases hsigned with
    | joined after hone hidentity hteams horganizations =>
        rw [hone, List.mem_singleton] at hmade
        rw [hteams, horganizations,
          Column.neverWorse_upsertAll (not_weaker_self _) hwell.memberships.teams,
          Column.neverWorse_upsertAll (not_weaker_self _) hwell.memberships.organizations,
          ← hmade]
        constructor
        · rintro ⟨row, hrow, role, hlast, -⟩
          obtain ⟨teamId, -, -, -, hkey, -⟩ := lastWritten_teamWrites.mp hlast
          exact hteamRows row hrow (congrArg Prod.fst hkey)
        · rintro ⟨row, hrow, role, hlast, -⟩
          obtain ⟨teamId, organizationId, -, -, -, -, -, -, hkey, -⟩ :=
            lastWritten_organizationWrites.mp hlast
          exact horganizationRows row hrow (congrArg Prod.fst hkey)
    | stopped _ hteams horganizations =>
        rw [hteams, horganizations]
        exact ⟨teamRole.neverWorse_self (not_weaker_self _) _,
          organizationRole.neverWorse_self (not_weaker_self _) _⟩
  have hunjoined : ∀ account teamId, ¬JoinsTeam w c request t account teamId :=
    fun account _ hjoins => hfree ⟨account, hjoins.mem, hjoins.email⟩
  obtain ⟨hteams, horganizations⟩ := unjoined_kept_iff hunjoined hmembers.1 hmembers.2
  refine ⟨iff_of_true (accountsKept_of_subset fun account hmem => ?_) ?_, hteams, horganizations⟩
  · rw [haccounts]
    exact List.mem_append_left _ hmem
  · rintro ⟨-, account, hmem, hemail, -⟩
    exact hfree ⟨account, hmem, hemail⟩

end SignIn

/-- An admin of the team's organization who was deactivated. -/
def deactivatedAdmin : Tables :=
  { accounts := [⟨"account-1", "ana@x", "platform_admin", false, false, none, false, none, none⟩]
    identities := [], teamMemberships := [⟨"account-1", "team-1", "team_admin"⟩]
    organizationMemberships := [⟨"account-1", "org-1", "org_admin"⟩], sessions := []
    teams := [⟨"team-1", some "org-1"⟩] }

def defaultTeamSignIn : SsoRequest :=
  { email := " Ana@x", isPlatformAdmin := false, provider := "oidc", subject := some "subject-1"
    teamId := some "team-1", defaultTeamRole := "team_viewer" }

/-- The tables after her sign-in. -/
def signedInAgain : Tables :=
  (upsertSsoAccount asciiService nothingFails.toCircumstances defaultTeamSignIn
    deactivatedAdmin).2

end SsoRoles
