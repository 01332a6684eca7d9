import DeltaLLM.CheckedResults
import DeltaLLM.InvitationAcceptance

/-! # What an accepted invitation grants

An acceptance that returns a result has written the memberships that the metadata names, and the
organization of a team with the role of a member where the metadata does not name it. Every other
end of the call leaves accounts and memberships alone.
-/
namespace AcceptedMemberships

open AssignedColumns
open CheckedResults
open CommittedScripts
open InvitationAcceptance
open JsonValues
open PlatformIdentity
open PlatformRoles
open StreamingCache (Python)
open TableStatements

/-! ## What the metadata names -/

structure Named where
  organizations : List OrganizationInvite
  teams : List TeamInvite

/-- The entries of the metadata, all of them readable. -/
def readInvitation (py : Python) (metadata : Option JsonObject) : Except InvitationError Named := do
  let organizationItems ← invites (metadata.getD []) "organization_invites"
  let organizations ← organizationItems.mapM (readOrganizationInvite py)
  let teamItems ← invites (metadata.getD []) "team_invites"
  let teams ← teamItems.mapM (readTeamInvite py)
  return ⟨organizations, teams⟩

/-- The organizations with a role of their own. -/
def namedOrganizations (organizations : List OrganizationInvite) : List OrganizationInvite :=
  organizations.filter fun invite => invite.organizationId ≠ ""

/-- The teams' organizations without one. -/
def impliedOrganizations (explicit : List String) (teams : List TeamInvite) : List TeamInvite :=
  teams.filter fun invite => invite.organizationId ≠ "" ∧ invite.organizationId ∉ explicit

def namedTeams (teams : List TeamInvite) : List TeamInvite :=
  teams.filter fun invite => invite.teamId ≠ ""

section Writes

variable (accountId : String)

def namedWrites (organizations : List OrganizationInvite) : List ((String × String) × String) :=
  (namedOrganizations organizations).map fun invite =>
    ((accountId, invite.organizationId), invite.role)

def impliedWrites (explicit : List String) (teams : List TeamInvite) :
    List ((String × String) × String) :=
  (impliedOrganizations explicit teams).map fun invite =>
    ((accountId, invite.organizationId), "org_member")

def teamWritesOf (teams : List TeamInvite) : List ((String × String) × String) :=
  (namedTeams teams).map fun invite => ((accountId, invite.teamId), invite.role)

omit accountId in
theorem namedOrganizations_cons (invite : OrganizationInvite)
    (organizations : List OrganizationInvite) :
    namedOrganizations (invite :: organizations) =
      namedOrganizations [invite] ++ namedOrganizations organizations := by
  unfold namedOrganizations
  rw [← List.filter_append]
  rfl

theorem namedWrites_cons (invite : OrganizationInvite)
    (organizations : List OrganizationInvite) :
    namedWrites accountId (invite :: organizations) =
      namedWrites accountId [invite] ++ namedWrites accountId organizations := by
  unfold namedWrites
  rw [← List.map_append, ← namedOrganizations_cons]

theorem impliedWrites_cons (explicit : List String) (invite : TeamInvite)
    (teams : List TeamInvite) :
    impliedWrites accountId explicit (invite :: teams) =
      impliedWrites accountId explicit [invite] ++ impliedWrites accountId explicit teams := by
  unfold impliedWrites impliedOrganizations
  rw [← List.map_append, ← List.filter_append]
  rfl

theorem teamWritesOf_cons (invite : TeamInvite) (teams : List TeamInvite) :
    teamWritesOf accountId (invite :: teams) =
      teamWritesOf accountId [invite] ++ teamWritesOf accountId teams := by
  unfold teamWritesOf namedTeams
  rw [← List.map_append, ← List.filter_append]
  rfl

/-- The roles in organizations, in the order in which they are written. -/
def Named.organizationWrites (named : Named) : List ((String × String) × String) :=
  namedWrites accountId named.organizations ++
    impliedWrites accountId
      ((namedOrganizations named.organizations).map OrganizationInvite.organizationId) named.teams

/-- The roles in teams, in the order in which they are written. -/
def Named.teamWrites (named : Named) : List ((String × String) × String) :=
  teamWritesOf accountId named.teams

/-- The memberships with the writes made. -/
def Named.grant (named : Named) (t : Tables) : Tables :=
  { t with
    organizationMemberships :=
      organizationRole.upsertAll (named.organizationWrites accountId) t.organizationMemberships
    teamMemberships := teamRole.upsertAll (named.teamWrites accountId) t.teamMemberships }

end Writes

/-! ## Returns -/

section Returns

variable {w : InvitationService} {c : AcceptCircumstances} {s u : InvitationTables} {α : Type}

theorem statement_returns {statement : InvitationStatement}
    {f : InvitationTables → α × InvitationTables} {a : α}
    (h : c.statement statement f s = (.ok a, u)) : f s = (a, u) := by
  unfold AcceptCircumstances.statement at h
  split_ifs at h
  · cases h
  · obtain ⟨hvalue, htables⟩ := Prod.mk.inj h
    exact Prod.ext (Except.ok.inj hvalue) htables

theorem onIdentity_returns {call : Call α} {a : α} (h : onIdentity call s = (.ok a, u)) :
    ∃ identity, call s.identity = (.ok a, identity) ∧ u = { s with identity } := by
  unfold onIdentity at h
  split at h
  next value identity hcall =>
    cases h
    exact ⟨identity, hcall, rfl⟩
  next => cases h

theorem ofExcept_returns {x : Except InvitationError α} {a : α} (h : ofExcept x s = (.ok a, u)) :
    x = .ok a ∧ u = s := by
  cases x with
  | ok value =>
      cases h
      exact ⟨rfl, rfl⟩
  | error e => cases h

theorem upsertOrganizationMembership_returns {c : Circumstances}
    {accountId organizationId role : String}
    (h : onIdentity (upsertOrganizationMembership c accountId organizationId role) s =
      (.ok (), u)) :
    u = { s with identity := { s.identity with
      organizationMemberships := organizationRole.upsert (accountId, organizationId) role
        s.identity.organizationMemberships } } := by
  obtain ⟨identity, hcall, rfl⟩ := onIdentity_returns h
  cases run_returns hcall
  rfl

theorem upsertTeamMembership_returns {c : Circumstances} {accountId teamId role : String}
    (h : onIdentity (upsertTeamMembership c accountId teamId role) s = (.ok (), u)) :
    u = { s with identity := { s.identity with
      teamMemberships :=
        teamRole.upsert (accountId, teamId) role s.identity.teamMemberships } } := by
  obtain ⟨identity, hcall, rfl⟩ := onIdentity_returns h
  cases run_returns hcall
  rfl

end Returns

/-! ## The loops -/

section Loops

variable {py : Python} {c : Circumstances} {accountId : String} {s u : InvitationTables}

theorem applyOrganizationInvite_returns {item : JsonObject} {explicit after : List String}
    (h : applyOrganizationInvite py c accountId explicit item s = (.ok after, u)) :
    ∃ invite, readOrganizationInvite py item = .ok invite ∧
      (∀ id, id ∈ after ↔ id ∈ explicit ∨
        id ∈ (namedOrganizations [invite]).map OrganizationInvite.organizationId) ∧
      u = { s with identity := { s.identity with
        organizationMemberships := organizationRole.upsertAll
          (namedWrites accountId [invite]) s.identity.organizationMemberships } } := by
  unfold applyOrganizationInvite at h
  cases hread : readOrganizationInvite py item with
  | error e =>
      rw [hread] at h
      cases h
  | ok invite =>
      rw [hread] at h
      dsimp only at h
      refine ⟨invite, rfl, ?_⟩
      split_ifs at h with hblank
      · obtain ⟨rfl, rfl⟩ := pure_returns.mp h
        simp [namedWrites, namedOrganizations, hblank, Column.upsertAll]
      · obtain ⟨⟨⟩, t, hwrite, hrest⟩ := bind_returns.mp h
        obtain rfl := upsertOrganizationMembership_returns hwrite
        obtain ⟨rfl, rfl⟩ := pure_returns.mp hrest
        refine ⟨fun id => ?_, ?_⟩
        · simp [namedOrganizations, hblank, or_comm]
        · simp [namedWrites, namedOrganizations, hblank, Column.upsertAll]

/-- The first loop has read every entry and written the ones that name an organization. -/
theorem applyOrganizationInvites_returns {items : List JsonObject} {explicit after : List String}
    (h : applyOrganizationInvites py c accountId explicit items s = (.ok after, u)) :
    ∃ organizations, items.mapM (readOrganizationInvite py) = .ok organizations ∧
      (∀ id, id ∈ after ↔ id ∈ explicit ∨
        id ∈ (namedOrganizations organizations).map OrganizationInvite.organizationId) ∧
      u = { s with identity := { s.identity with
        organizationMemberships := organizationRole.upsertAll
          (namedWrites accountId organizations) s.identity.organizationMemberships } } := by
  induction items generalizing explicit s with
  | nil =>
      obtain ⟨rfl, rfl⟩ := pure_returns.mp h
      exact ⟨[], rfl, by simp [namedOrganizations], rfl⟩
  | cons item items ih =>
      obtain ⟨mid, t, hfirst, hrest⟩ := bind_returns.mp h
      obtain ⟨invite, hread, hmid, rfl⟩ := applyOrganizationInvite_returns hfirst
      obtain ⟨organizations, hitems, hafter, rfl⟩ := ih hrest
      refine ⟨invite :: organizations, ?_, fun id => ?_, ?_⟩
      · rw [List.mapM_cons, hread, hitems]
        rfl
      · rw [hafter, hmid, namedOrganizations_cons invite organizations, List.map_append,
          List.mem_append, or_assoc]
      · rw [namedWrites_cons accountId invite organizations, Column.upsertAll_append]

theorem joinOrganizationOfTeam_returns {explicit : List String} {invite : TeamInvite}
    (h : joinOrganizationOfTeam c accountId explicit invite s = (.ok (), u)) :
    u = { s with identity := { s.identity with
      organizationMemberships := organizationRole.upsertAll
        (impliedWrites accountId explicit [invite]) s.identity.organizationMemberships } } := by
  unfold joinOrganizationOfTeam at h
  split_ifs at h with himplied
  · obtain rfl := upsertOrganizationMembership_returns h
    simp [impliedWrites, impliedOrganizations, himplied, Column.upsertAll]
  · obtain ⟨-, rfl⟩ := pure_returns.mp h
    simp [impliedWrites, impliedOrganizations, himplied, Column.upsertAll]

theorem joinInvitedTeam_returns {invite : TeamInvite}
    (h : joinInvitedTeam c accountId invite s = (.ok (), u)) :
    u = { s with identity := { s.identity with
      teamMemberships := teamRole.upsertAll (teamWritesOf accountId [invite])
        s.identity.teamMemberships } } := by
  unfold joinInvitedTeam at h
  split_ifs at h with hnamed
  · obtain rfl := upsertTeamMembership_returns h
    simp [teamWritesOf, namedTeams, hnamed, Column.upsertAll]
  · obtain ⟨-, rfl⟩ := pure_returns.mp h
    simp [teamWritesOf, namedTeams, hnamed, Column.upsertAll]

/-- What one entry of the second loop has written depends on the entry alone. -/
theorem applyTeamInvite_returns {item : JsonObject} {explicit : List String}
    (h : applyTeamInvite py c accountId explicit item s = (.ok (), u)) :
    ∃ invite, readTeamInvite py item = .ok invite ∧
      u = { s with identity := { s.identity with
        organizationMemberships := organizationRole.upsertAll
          (impliedWrites accountId explicit [invite]) s.identity.organizationMemberships
        teamMemberships := teamRole.upsertAll (teamWritesOf accountId [invite])
          s.identity.teamMemberships } } := by
  unfold applyTeamInvite at h
  cases hread : readTeamInvite py item with
  | error e =>
      rw [hread] at h
      cases h
  | ok invite =>
      rw [hread] at h
      obtain ⟨⟨⟩, t, horganization, hteam⟩ := bind_returns.mp h
      obtain rfl := joinOrganizationOfTeam_returns horganization
      obtain rfl := joinInvitedTeam_returns hteam
      exact ⟨invite, rfl, rfl⟩

theorem applyTeamInvites_returns {items : List JsonObject} {explicit : List String}
    (h : applyTeamInvites py c accountId explicit items s = (.ok (), u)) :
    ∃ teams, items.mapM (readTeamInvite py) = .ok teams ∧
      u = { s with identity := { s.identity with
        organizationMemberships := organizationRole.upsertAll
          (impliedWrites accountId explicit teams) s.identity.organizationMemberships
        teamMemberships := teamRole.upsertAll (teamWritesOf accountId teams)
          s.identity.teamMemberships } } := by
  induction items generalizing s with
  | nil =>
      obtain ⟨-, rfl⟩ := pure_returns.mp h
      exact ⟨[], rfl, rfl⟩
  | cons item items ih =>
      obtain ⟨⟨⟩, t, hfirst, hrest⟩ := bind_returns.mp h
      obtain ⟨invite, hread, rfl⟩ := applyTeamInvite_returns hfirst
      obtain ⟨teams, hitems, rfl⟩ := ih hrest
      refine ⟨invite :: teams, ?_, ?_⟩
      · rw [List.mapM_cons, hread, hitems]
        rfl
      · rw [impliedWrites_cons accountId explicit invite teams,
          teamWritesOf_cons accountId invite teams, Column.upsertAll_append,
          Column.upsertAll_append]

/-- Applying the memberships reads all the metadata and makes its writes. -/
theorem applyInvitationMemberships_returns {metadata : Option JsonObject}
    (h : applyInvitationMemberships py c accountId metadata s = (.ok (), u)) :
    ∃ named, readInvitation py metadata = .ok named ∧
      u = { s with identity := named.grant accountId s.identity } := by
  obtain ⟨organizationItems, t, hread, hrest⟩ := bind_returns.mp h
  obtain ⟨hitems, rfl⟩ := ofExcept_returns hread
  obtain ⟨explicit, t', hfirst, hlast⟩ := bind_returns.mp hrest
  obtain ⟨organizations, horganizations, hexplicit, rfl⟩ := applyOrganizationInvites_returns hfirst
  obtain ⟨teamItems, t', hread, hsecond⟩ := bind_returns.mp hlast
  obtain ⟨hteamItems, rfl⟩ := ofExcept_returns hread
  obtain ⟨teams, hteams, rfl⟩ := applyTeamInvites_returns hsecond
  refine ⟨⟨organizations, teams⟩, ?_, ?_⟩
  · simp only [readInvitation, hitems, horganizations, hteamItems, hteams, bind, Except.bind, pure,
      Except.pure]
  · have himplied : impliedWrites accountId explicit teams = impliedWrites accountId
        ((namedOrganizations organizations).map OrganizationInvite.organizationId) teams := by
      have hmem : ∀ id, id ∈ explicit ↔
          id ∈ (namedOrganizations organizations).map OrganizationInvite.organizationId := by
        simpa using hexplicit
      simp only [impliedWrites, impliedOrganizations, hmem]
    simp only [Named.grant, Named.organizationWrites, Named.teamWrites, Column.upsertAll_append,
      himplied]

end Loops

/-! ## The acceptance -/

section Acceptance

variable {w : InvitationService} {c : AcceptCircumstances} {s u : InvitationTables}
  {rawToken password : String} {invitation : InvitationRow}

/-- Calls that leave the memberships as they are, and what is no business of the identity
service. -/
structure MembershipsKept (s u : InvitationTables) : Prop where
  organizations : u.identity.organizationMemberships = s.identity.organizationMemberships
  teams : u.identity.teamMemberships = s.identity.teamMemberships
  invitations : u.invitations = s.invitations
  tokens : u.tokens = s.tokens

def SameMemberships (t u : Tables) : Prop :=
  u.organizationMemberships = t.organizationMemberships ∧ u.teamMemberships = t.teamMemberships

theorem onIdentity_kept {α : Type} {call : Call α} {a : α}
    (hcall : Keeps (SameMemberships s.identity) call) (h : onIdentity call s = (.ok a, u)) :
    MembershipsKept s u := by
  obtain ⟨identity, hreturned, rfl⟩ := onIdentity_returns h
  have hsame := hcall s.identity ⟨rfl, rfl⟩
  rw [hreturned] at hsame
  exact ⟨hsame.1, hsame.2, rfl, rfl⟩

theorem updateAccount_sameMemberships {c : Circumstances} {t : Tables}
    (statement : ServiceStatement) (accountId : String) (f : AccountRow → AccountRow) :
    Keeps (SameMemberships t) (updateAccount c statement accountId f) := by
  refine run_keeps _ fun t u ht hwrite => ?_
  cases hwrite
  exact ht

theorem setPassword_sameMemberships {c : Circumstances} {t : Tables} (accountId : String) :
    Keeps (SameMemberships t) (setPassword c accountId password) := by
  unfold setPassword
  split_ifs
  · exact keeps_raise _
  · exact updateAccount_sameMemberships _ _ _

theorem createLoginResult_sameMemberships {w : IdentityService} {c : Circumstances} {t : Tables}
    (accountId : String) :
    Keeps (SameMemberships t) (createLoginResultForAccount w c accountId) := by
  refine (run_keeps _ fun t u ht hwrite => ?_).bind fun _ => (select_keeps _ _).bind fun _ =>
    keeps_pure _
  obtain ⟨-, rfl⟩ := insertSession_ok hwrite
  exact ht

theorem logIn_kept {accountId : String} {result : AcceptResult}
    (h : logIn w c accountId s = (.ok result, u)) : MembershipsKept s u := by
  obtain ⟨login, t, hlogin, hrest⟩ := bind_returns.mp h
  have hkept := onIdentity_kept (createLoginResult_sameMemberships _) hlogin
  cases login with
  | none => cases hrest
  | some login =>
      obtain ⟨⟨⟩, t', hmark, hlast⟩ := bind_returns.mp hrest
      obtain ⟨-, rfl⟩ := pure_returns.mp hlast
      have hmarked := onIdentity_kept (run_keeps _ fun t u ht hwrite => by cases hwrite; exact ht)
        hmark
      exact ⟨hmarked.organizations.trans hkept.organizations, hmarked.teams.trans hkept.teams,
        hmarked.invitations.trans hkept.invitations, hmarked.tokens.trans hkept.tokens⟩

/-- What the tables hold after an acceptance, beside accounts and sessions. -/
structure AcceptedAs (c : AcceptCircumstances) (s u : InvitationTables)
    (invitation : InvitationRow) (named : Named) : Prop where
  organizations : u.identity.organizationMemberships =
    (named.grant invitation.accountId s.identity).organizationMemberships
  teams : u.identity.teamMemberships =
    (named.grant invitation.accountId s.identity).teamMemberships
  invitations : u.invitations = closeInvitation invitation.invitationId .accepted s.invitations
  consumed : ∀ token ∈ u.tokens, ¬token.Invalidated c.now "invite_accept" invitation.accountId
    invitation.invitationId

theorem not_invalidated_updateWhere {now : ℤ} {purpose accountId invitationId : String}
    {tokens : List EmailTokenRow} : ∀ token ∈ updateWhere
      (EmailTokenRow.Invalidated now purpose accountId invitationId)
      (fun token => { token with consumedAt := some now }) tokens,
    ¬token.Invalidated now purpose accountId invitationId := by
  intro token hmem hactive
  obtain ⟨old, -, rfl⟩ := (mem_updateWhere _ _).mp hmem
  by_cases hold : old.Invalidated now purpose accountId invitationId
  · rw [if_pos hold] at hactive
    cases hactive.2.1
  · rw [if_neg hold] at hactive
    exact hold hactive

theorem setFirstPassword_kept {accountId : String} {passwordRequired : Bool}
    (h : setFirstPassword c accountId passwordRequired password s = (.ok (), u)) :
    MembershipsKept s u := by
  unfold setFirstPassword at h
  split_ifs at h
  · exact onIdentity_kept (setPassword_sameMemberships _) h
  · obtain ⟨-, rfl⟩ := pure_returns.mp h
    exact ⟨rfl, rfl, rfl, rfl⟩

theorem markAccepted_returns {invitationId : String} {accepted : Bool}
    (h : markAccepted c invitationId s = (.ok accepted, u)) :
    (s.invitations.any fun row => row.OpenWithId invitationId) = accepted ∧
      u = { s with invitations := closeInvitation invitationId .accepted s.invitations } := by
  have hpair := statement_returns h
  exact ⟨congrArg Prod.fst hpair, (congrArg Prod.snd hpair).symm⟩

/-- The last part of the acceptance changes no membership and closes the invitation. -/
theorem finish_returns {result : AcceptResult}
    (h : (do
      if ← markAccepted c invitation.invitationId then
        match ← getAccountById c invitation.accountId with
        | none => raiseRuntimeError "failed to load account after invitation acceptance"
        | some account =>
            if account.mfaEnabled then return mfaResult invitation account
            else logIn w c invitation.accountId
      else raiseRuntimeError "failed to mark invitation accepted") s = (.ok result, u)) :
    (∃ row ∈ s.invitations, row.OpenWithId invitation.invitationId) ∧
      MembershipsKept
        { s with
          invitations := closeInvitation invitation.invitationId .accepted s.invitations } u := by
  obtain ⟨accepted, t, hmark, hrest⟩ := bind_returns.mp h
  obtain ⟨hany, rfl⟩ := markAccepted_returns hmark
  cases accepted with
  | false => cases hrest
  | true =>
      refine ⟨by simpa using hany, ?_⟩
      obtain ⟨account, t, hselect, hlast⟩ := bind_returns.mp hrest
      have hsame := congrArg Prod.snd (statement_returns hselect)
      dsimp only at hsame
      subst hsame
      cases account with
      | none => cases hlast
      | some account =>
          dsimp only at hlast
          split_ifs at hlast
          · obtain ⟨-, rfl⟩ := pure_returns.mp hlast
            exact ⟨rfl, rfl, rfl, rfl⟩
          · exact logIn_kept hlast

theorem acceptClaimed_returns {passwordRequired : Bool} {result : AcceptResult}
    (h : acceptClaimed w c invitation passwordRequired password s = (.ok result, u)) :
    (∃ row ∈ s.invitations, row.OpenWithId invitation.invitationId) ∧
      ∃ named, readInvitation w.python invitation.metadata = .ok named ∧
        AcceptedAs c s u invitation named := by
  obtain ⟨⟨⟩, first, hpassword, hrest⟩ := bind_returns.mp h
  have hfirst := setFirstPassword_kept hpassword
  obtain ⟨⟨⟩, second, happly, hrest'⟩ := bind_returns.mp hrest
  obtain ⟨named, hread, rfl⟩ := applyInvitationMemberships_returns happly
  obtain ⟨⟨⟩, third, hactive, hlast⟩ := bind_returns.mp hrest'
  have hthird := onIdentity_kept (updateAccount_sameMemberships _ _ _) hactive
  obtain ⟨⟨⟩, fourth, hinvalidate, hfinish⟩ := bind_returns.mp hlast
  have hfourth := congrArg Prod.snd (statement_returns hinvalidate)
  dsimp only at hfourth
  subst hfourth
  obtain ⟨hopen, hkept⟩ := finish_returns hfinish
  have hinvitations : third.invitations = s.invitations :=
    hthird.invitations.trans hfirst.invitations
  refine ⟨?_, named, hread, ?_, ?_, ?_, ?_⟩
  · rw [← hinvitations]
    exact hopen
  · rw [hkept.organizations]
    refine hthird.organizations.trans ?_
    simp only [Named.grant, hfirst.organizations]
  · rw [hkept.teams]
    refine hthird.teams.trans ?_
    simp only [Named.grant, hfirst.teams]
  · rw [hkept.invitations, ← hinvitations]
  · rw [hkept.tokens]
    exact not_invalidated_updateWhere

/-- The call has granted the memberships of the invitation, or nothing. -/
def GrantedOrNothing (w : InvitationService) (c : AcceptCircumstances)
    (s u : InvitationTables) (invitation : InvitationRow) : Option AcceptResult → Prop
  | some _ => invitation.status.isOpen = true ∧
      ∃ named, readInvitation w.python invitation.metadata = .ok named ∧
        AcceptedAs c s u invitation named
  | none => u.identity = s.identity

theorem acceptOpen_returns {result : Option AcceptResult}
    (hopen : invitation.status.isOpen = true)
    (h : acceptOpen w c rawToken invitation password s = (.ok result, u)) :
    GrantedOrNothing w c s u invitation result := by
  obtain ⟨authState, t, hselect, hrest⟩ := bind_returns.mp h
  obtain rfl := congrArg Prod.snd (statement_returns hselect)
  cases authState with
  | none =>
      obtain ⟨rfl, rfl⟩ := pure_returns.mp hrest
      exact rfl
  | some authState =>
      obtain ⟨⟨⟩, t, hcheck, hchecked⟩ := bind_returns.mp hrest
      obtain ⟨-, rfl⟩ := ofExcept_returns hcheck
      obtain ⟨claimed, t, hclaim, hlast⟩ := bind_returns.mp hchecked
      have hclaimed := congrArg Prod.snd (statement_returns hclaim)
      dsimp only at hclaimed
      cases claimed with
      | none =>
          obtain ⟨rfl, rfl⟩ := pure_returns.mp hlast
          rw [← hclaimed]
          exact rfl
      | some claimed =>
          dsimp only at hlast
          split_ifs at hlast
          · obtain ⟨accepted, t', haccept, hpure⟩ := bind_returns.mp hlast
            obtain ⟨rfl, rfl⟩ := pure_returns.mp hpure
            obtain ⟨-, named, hread, hgranted⟩ := acceptClaimed_returns haccept
            subst hclaimed
            exact ⟨hopen, named, hread, hgranted.organizations, hgranted.teams,
              hgranted.invitations, hgranted.consumed⟩
          · obtain ⟨rfl, rfl⟩ := pure_returns.mp hlast
            rw [← hclaimed]
            exact rfl

/-- An open invitation is found closed after it was closed. -/
theorem rowWithKey_closeInvitation {row : InvitationRow} {rows : List InvitationRow}
    {status : InvitationStatus}
    (hrow : rowWithKey InvitationRow.invitationId row.invitationId rows = some row)
    (hopen : row.status.isOpen = true) :
    rowWithKey InvitationRow.invitationId row.invitationId
      (closeInvitation row.invitationId status rows) = some { row with status } := by
  have hfound : rowWithKey InvitationRow.invitationId row.invitationId
      (closeInvitation row.invitationId status rows) =
        (rowWithKey InvitationRow.invitationId row.invitationId rows).map fun found =>
          if found.OpenWithId row.invitationId then { found with status } else found :=
    rowWithKey_updateWhere _ _ _ fun _ _ => rfl
  rw [hrow, Option.map_some, if_pos ⟨rfl, hopen⟩] at hfound
  exact hfound

/-- An invitation that has expired is closed and comes back closed. -/
theorem expireIfNeeded_returns {row : InvitationRow}
    (hrow : rowWithKey InvitationRow.invitationId row.invitationId s.invitations = some row)
    (h : expireIfNeeded c row s = (.ok invitation, u)) :
    (invitation = row ∧ u = s) ∨
      (invitation.status.isOpen = false ∧ u.identity = s.identity) := by
  unfold expireIfNeeded at h
  split_ifs at h with hexpired
  · obtain ⟨⟨⟩, t, hmark, hrest⟩ := bind_returns.mp h
    obtain rfl := congrArg Prod.snd (statement_returns hmark)
    obtain ⟨⟨⟩, t', hinvalidate, hlast⟩ := bind_returns.mp hrest
    obtain rfl := congrArg Prod.snd (statement_returns hinvalidate)
    obtain ⟨refreshed, t'', hselect, hpure⟩ := bind_returns.mp hlast
    obtain ⟨hfound, rfl⟩ := Prod.mk.inj (statement_returns hselect)
    obtain ⟨rfl, rfl⟩ := pure_returns.mp hpure
    refine Or.inr ⟨?_, rfl⟩
    dsimp only at hfound
    rw [← hfound, rowWithKey_closeInvitation hrow hexpired.1]
    rfl
  · obtain ⟨rfl, rfl⟩ := pure_returns.mp h
    exact Or.inl ⟨rfl, rfl⟩

/-- The invitation of the active token. -/
def invitedBy (w : InvitationService) (c : AcceptCircumstances) (s : InvitationTables)
    (rawToken : String) : Option InvitationRow :=
  (((s.tokens.find? fun token =>
      token.Active c.now "invite_accept" (w.hashToken "invite_accept" rawToken)).bind
    EmailTokenRow.invitationId).filter (· ≠ "")).bind fun invitationId =>
      rowWithKey InvitationRow.invitationId invitationId s.invitations

theorem acceptWithDependencies_returns {result : Option AcceptResult}
    (h : acceptWithDependencies w c rawToken password s = (.ok result, u)) :
    (result = none ∧ u.identity = s.identity) ∨
      ∃ invitation, invitedBy w c s rawToken = some invitation ∧
        GrantedOrNothing w c s u invitation result := by
  obtain ⟨token, t, hvalidate, hrest⟩ := bind_returns.mp h
  obtain ⟨hfound, rfl⟩ := Prod.mk.inj (statement_returns hvalidate)
  cases hid : (token.bind EmailTokenRow.invitationId).filter (· ≠ "") with
  | none =>
      rw [hid] at hrest
      obtain ⟨rfl, rfl⟩ := pure_returns.mp hrest
      exact Or.inl ⟨rfl, rfl⟩
  | some invitationId =>
      rw [hid] at hrest
      obtain ⟨row, t, hselect, hlast⟩ := bind_returns.mp hrest
      obtain ⟨hrow, rfl⟩ := Prod.mk.inj (statement_returns hselect)
      cases row with
      | none =>
          obtain ⟨rfl, rfl⟩ := pure_returns.mp hlast
          exact Or.inl ⟨rfl, rfl⟩
      | some row =>
          have hinvited : invitedBy w c s rawToken = some row := by
            rw [invitedBy, hfound, hid]
            exact hrow
          obtain ⟨-, rfl⟩ := rowWithKey_some hrow
          obtain ⟨invitation, t, hexpire, hbody⟩ := bind_returns.mp hlast
          rcases expireIfNeeded_returns hrow hexpire with ⟨rfl, rfl⟩ | ⟨hclosed, hsame⟩
          · split_ifs at hbody with hopen
            · exact Or.inr ⟨invitation, hinvited, acceptOpen_returns hopen hbody⟩
            · obtain ⟨rfl, rfl⟩ := pure_returns.mp hbody
              exact Or.inl ⟨rfl, rfl⟩
          · rw [if_neg (by simp [hclosed])] at hbody
            obtain ⟨rfl, rfl⟩ := pure_returns.mp hbody
            exact Or.inl ⟨rfl, hsame⟩

end Acceptance

/-! ## Roles -/

/-- The new role allows strictly less. -/
def Weaker (permissions : String → List Permission) (new old : String) : Prop :=
  permissions new ⊆ permissions old ∧ ¬permissions old ⊆ permissions new

instance (permissions : String → List Permission) (new old : String) :
    Decidable (Weaker permissions new old) := by
  unfold Weaker
  exact inferInstance

theorem not_weaker_self (permissions : String → List Permission) (role : String) :
    ¬Weaker permissions role role := fun h => h.2 h.1

/-- The unique keys of the membership tables. -/
structure UniqueMemberships (t : Tables) : Prop where
  organizations : (t.organizationMemberships.map OrganizationMembershipRow.key).Nodup
  teams : (t.teamMemberships.map TeamMembershipRow.key).Nodup

/-- The account has the roles that the invitation names, other memberships are as before, and
an existing role is weakened exactly where the last one written for it is weaker. The invitation is
closed, and so are its tokens. -/
structure MembershipsGranted (c : AcceptCircumstances) (s u : InvitationTables)
    (invitation : InvitationRow) (named : Named) : Prop where
  organizations : organizationRole.AssignedBy (named.organizationWrites invitation.accountId)
    s.identity.organizationMemberships u.identity.organizationMemberships
  teams : teamRole.AssignedBy (named.teamWrites invitation.accountId)
    s.identity.teamMemberships u.identity.teamMemberships
  organizationRoles_kept_iff : organizationRole.NeverWorse (Weaker orgRolePermissions)
      s.identity.organizationMemberships u.identity.organizationMemberships ↔
    ¬∃ row ∈ s.identity.organizationMemberships, ∃ role,
      lastWritten row.key (named.organizationWrites invitation.accountId) = some role ∧
        Weaker orgRolePermissions role row.role
  teamRoles_kept_iff : teamRole.NeverWorse (Weaker teamRolePermissions)
      s.identity.teamMemberships u.identity.teamMemberships ↔
    ¬∃ row ∈ s.identity.teamMemberships, ∃ role,
      lastWritten row.key (named.teamWrites invitation.accountId) = some role ∧
        Weaker teamRolePermissions role row.role
  closed : rowWithKey InvitationRow.invitationId invitation.invitationId u.invitations =
    some { invitation with status := .accepted }
  consumed : ∀ token ∈ u.tokens, ¬token.Invalidated c.now "invite_accept" invitation.accountId
    invitation.invitationId

section Granted

variable {w : InvitationService} {c : AcceptCircumstances} {s u : InvitationTables}
  {rawToken : String} {invitation : InvitationRow} {named : Named}

theorem AcceptedAs.granted (h : AcceptedAs c s u invitation named)
    (hkeys : UniqueMemberships s.identity) (hopen : invitation.status.isOpen = true)
    (hinvited : invitedBy w c s rawToken = some invitation) :
    MembershipsGranted c s u invitation named where
  organizations := by
    rw [h.organizations]
    exact organizationRole.assignedBy_upsertAll _ _
  teams := by
    rw [h.teams]
    exact teamRole.assignedBy_upsertAll _ _
  organizationRoles_kept_iff := by
    rw [h.organizations]
    exact Column.neverWorse_upsertAll (not_weaker_self _) hkeys.organizations
  teamRoles_kept_iff := by
    rw [h.teams]
    exact Column.neverWorse_upsertAll (not_weaker_self _) hkeys.teams
  closed := by
    obtain ⟨invitationId, -, hrow⟩ := Option.bind_eq_some_iff.mp hinvited
    obtain ⟨-, rfl⟩ := rowWithKey_some hrow
    rw [h.invitations]
    exact rowWithKey_closeInvitation hrow hopen
  consumed := h.consumed

/-- How the call may end: the memberships of the token's invitation are granted, or accounts and
memberships are left alone. -/
def AcceptanceOutcome (w : InvitationService) (c : AcceptCircumstances) (s : InvitationTables)
    (rawToken : String) :
    Except InvitationError (Option AcceptResult) × InvitationTables → Prop
  | (.ok (some _), u) => ∃ invitation named, invitedBy w c s rawToken = some invitation ∧
      invitation.status.isOpen = true ∧
        readInvitation w.python invitation.metadata = .ok named ∧
          MembershipsGranted c s u invitation named
  | (_, u) => u.identity = s.identity

/-- An acceptance grants what its invitation names, or nothing. -/
theorem acceptance_grants_or_nothing (w : InvitationService) (c : AcceptCircumstances)
    (s : InvitationTables) (rawToken password : String) (hkeys : UniqueMemberships s.identity) :
    AcceptanceOutcome w c s rawToken (acceptInvitation w c rawToken password s) := by
  unfold acceptInvitation inTransaction
  rcases hrun : acceptWithDependencies w c rawToken password s with ⟨_ | result, u⟩
  · exact rfl
  · rcases acceptWithDependencies_returns hrun with ⟨rfl, hsame⟩ | ⟨invitation, hinvited, hgrant⟩
    · exact hsame
    · cases result with
      | none => exact hgrant
      | some result =>
          obtain ⟨hopen, named, hread, haccepted⟩ := hgrant
          exact ⟨invitation, named, hinvited, hopen, hread,
            haccepted.granted hkeys hopen hinvited⟩

/-- Tokens are stored as they are given. -/
def asciiInvitations : InvitationService :=
  { identity := asciiService, hashToken := fun _ rawToken => rawToken
    python := ⟨fun _ => none, fun _ => ""⟩ }

def nothingFails : AcceptCircumstances :=
  { accountId := "", identityId := "", sessionTokenHash := "session-1", passwordHash := ""
    mfaSecret := "", now := 5, fails := fun _ => false, processNow := 5
    failsInvitation := fun _ => false }

/-- The owner of an organization is invited to one of its teams. -/
def ownerInvited : InvitationTables :=
  { identity :=
      { accounts := [⟨"account-1", "ana@x", "org_user", true, false, some "secret", false, none,
          none⟩]
        identities := [], teamMemberships := []
        organizationMemberships := [⟨"account-1", "org-1", "org_owner"⟩], sessions := []
        teams := [] }
    invitations := [⟨"invitation-1", "account-1", "ana@x", .sent, 9,
      some [("organization_invites", .list []),
        ("team_invites", .list [.dict [("team_id", .str "team-1"),
          ("organization_id", .str "org-1"), ("role", .str "team_admin")]])], 0⟩]
    tokens := [⟨"token-1", "invite_accept", "raw", "account-1", some "invitation-1", 9, none⟩] }

/-- The call and the tables after it. -/
def ownerAccepts : Except InvitationError (Option AcceptResult) × InvitationTables :=
  acceptInvitation asciiInvitations nothingFails "raw" "" ownerInvited

/-- The acceptance makes her an admin of the team and a member of the organization. -/
theorem ownerAccepts_granted :
    AcceptanceOutcome asciiInvitations nothingFails ownerInvited "raw" ownerAccepts ∧
      ownerAccepts.1.toOption.any Option.isSome = true ∧
        ownerAccepts.2.identity.teamMemberships = [⟨"account-1", "team-1", "team_admin"⟩] ∧
          ownerAccepts.2.identity.organizationMemberships =
            [⟨"account-1", "org-1", "org_member"⟩] := by
  refine ⟨acceptance_grants_or_nothing _ _ _ _ _ ⟨by decide, by decide⟩, ?_, ?_, ?_⟩ <;>
    decide +kernel

end Granted

end AcceptedMemberships
