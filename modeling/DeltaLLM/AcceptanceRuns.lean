import DeltaLLM.InvitationHistory

/-! # Acceptances over whole runs

Among any interleaving of calls, memberships only ever change when an acceptance commits. It commits
the memberships that its invitation named, takes the invitation from open to accepted and uses up a
token for good.
-/
namespace AcceptanceRuns

open AcceptedMemberships
open InvitationAcceptance
open InvitationHistory
open InvitationLifecycle
open InvitationMoves
open InvitationRuns
open InvitationSafety
open RowVersions
open TransitionRuns

/-! ## The memberships of an invitation -/

theorem impliedWrites_flatMap (accountId : String) (explicit : List String)
    (teams : List TeamInvite) :
    impliedWrites accountId explicit teams =
      teams.flatMap fun invite => impliedWrites accountId explicit [invite] := by
  induction teams with
  | nil => rfl
  | cons invite teams ih => rw [impliedWrites_cons, ih, List.flatMap_cons]

theorem teamWritesOf_flatMap (accountId : String) (teams : List TeamInvite) :
    teamWritesOf accountId teams = teams.flatMap fun invite => teamWritesOf accountId [invite] := by
  induction teams with
  | nil => rfl
  | cons invite teams ih => rw [teamWritesOf_cons, ih, List.flatMap_cons]

/-- Statement by statement or in one call, the same roles in organizations are written. -/
theorem organization_mem_grantsOf {accountId role : String} {named : Named}
    {key : String × String} :
    Grant.organization key role ∈ grantsOf accountId named ↔
      (key, role) ∈ named.organizationWrites accountId := by
  unfold Named.organizationWrites grantsOf
  rw [impliedWrites_flatMap]
  simp [namedWrites, impliedWrites]

theorem team_mem_grantsOf {accountId role : String} {named : Named} {key : String × String} :
    Grant.team key role ∈ grantsOf accountId named ↔
      (key, role) ∈ named.teamWrites accountId := by
  unfold Named.teamWrites grantsOf
  rw [teamWritesOf_flatMap]
  simp [teamWritesOf]

/-! ## Commits -/

variable {w : LifecycleService} {s s' : State} {pid : ℕ} {phase : Phase}

/-- Roles are those of the writes where there are any, and as before elsewhere. -/
def ChangedBy (writes : List ((String × String) × String)) (before after : MembershipCells) :
    Prop :=
  ∀ key, (∃ role, (key, role) ∈ writes ∧ committedAt key after = some role) ∨
    ((∀ role, (key, role) ∉ writes) ∧ committedAt key after = committedAt key before)

theorem changedBy_commit {writes : List ((String × String) × String)} {table : MembershipCells}
    (hnodup : (table.map Cell.key).Nodup)
    (hwrote : Wrote pid (fun key role => (key, role) ∈ writes) table) :
    ChangedBy writes table (commit pid table) := by
  intro key
  by_cases hnamed : ∃ role, (key, role) ∈ writes
  · obtain ⟨role, hrole⟩ := hnamed
    obtain ⟨cell, hcell, rfl, written, hwritten⟩ := hwrote.all key role hrole
    exact Or.inl ⟨written, hwrote.allowed cell hcell written hwritten,
      committedAt_commit_of_written hnodup hcell hwritten⟩
  · have hnone : ∀ role, (key, role) ∉ writes := fun role hrole => hnamed ⟨role, hrole⟩
    rcases committedAt_commit pid key table with hsame | ⟨cell, hcell, role, rfl, hpending, -⟩
    · exact Or.inr ⟨hnone, hsame⟩
    · exact absurd (hwrote.allowed cell hcell role hpending) (hnone role)

/-- The committed memberships are the same in both states. -/
structure SameMemberships (s s' : State) : Prop where
  organizations : ∀ key, committedAt key s'.organizations = committedAt key s.organizations
  teams : ∀ key, committedAt key s'.teams = committedAt key s.teams

/-- The token of the hash and the invitation was free and is consumed for good. -/
def UsesUpToken (w : LifecycleService) (s s' : State) (tokenHash invitationId : String) : Prop :=
  ∃ key token now, committedAt key s.tokens = some token ∧ token.purpose = "invite_accept" ∧
    token.tokenHash = tokenHash ∧ token.invitationId = some invitationId ∧
    token.consumedAt = none ∧ ∀ t, Later (lifecycleSystem w) s' t →
      committedAt key t.tokens = some (consume now token)

/-- What an acceptance commits, from the invitation that it has read. -/
structure Acceptance (w : LifecycleService) (s s' : State) (tokenHash : String)
    (row : InvitationRow) (named : Named) : Prop where
  read : WasRead w s row
  names : readInvitation w.python row.metadata = .ok named
  organizations : ChangedBy (named.organizationWrites row.accountId) s.organizations
    s'.organizations
  teams : ChangedBy (named.teamWrites row.accountId) s.teams s'.teams
  token : UsesUpToken w s s' tokenHash row.invitationId
  invitation : ∃ old, committedAt row.invitationId s.invitations = some old ∧
    old.status.isOpen = true ∧
      committedAt row.invitationId s'.invitations = some (withStatus .accepted old)

theorem acceptance_of_commit {tokenHash : String} {row : InvitationRow}
    (hs : Reachable (lifecycleSystem w) s)
    (hphase : s.phase pid = .accept tokenHash (.accepted row))
    (hs' : Reachable (lifecycleSystem w) ((s.commit pid).setPhase pid .idle)) :
    ∃ named, Acceptance w s ((s.commit pid).setPhase pid .idle) tokenHash row named := by
  have hsound := sound_of_reachable hs
  have hgrants := grantsAt_of_reachable hs pid
  have htokens := tokensAt_of_reachable hs pid
  have hinvitations := invitationsAt_of_reachable hs pid
  rw [hphase] at hgrants htokens hinvitations
  obtain ⟨named, hnamed, hgranted⟩ := hgrants
  obtain ⟨⟨cell, hcell, old, hkey, hold, hopen, hpending⟩, -, hread⟩ := hinvitations
  have htoken : UsesUpToken w s ((s.commit pid).setPhase pid .idle) tokenHash
      row.invitationId := by
    obtain ⟨cell, hcell, token, now, hcommitted, hpurpose, hhash, hinvitation, hfree, hclaim⟩ :=
      htokens
    refine ⟨cell.key, token, now, ?_, hpurpose, hhash, hinvitation, hfree, fun t hlater => ?_⟩
    · rw [committedAt_key hsound.tokenIds hcell]
      exact hcommitted
    · exact consumed_later hs' hlater (Option.some_ne_none now)
        (committedAt_commit_of_written hsound.tokenIds hcell hclaim)
  refine ⟨named, hread, hnamed, ?_, ?_, htoken, old, ?_, hopen, ?_⟩
  · exact changedBy_commit hsound.organizationKeys
      (hgranted.organizations.congr fun _ _ => organization_mem_grantsOf)
  · exact changedBy_commit hsound.teamKeys (hgranted.teams.congr fun _ _ => team_mem_grantsOf)
  · rw [← hkey, committedAt_key hsound.invitationIds hcell]
    exact hold
  · rw [← hkey]
    exact committedAt_commit_of_written hsound.invitationIds hcell hpending

theorem sameMemberships_commit (h : Granted pid [] s.organizations s.teams) :
    SameMemberships s (s.commit pid) where
  organizations key := by
    rcases committedAt_commit pid key s.organizations with hsame | ⟨cell, hcell, role, -, hrow, -⟩
    · exact hsame
    · exact absurd (h.organizations.allowed cell hcell role hrow) List.not_mem_nil
  teams key := by
    rcases committedAt_commit pid key s.teams with hsame | ⟨cell, hcell, role, -, hrow, -⟩
    · exact hsame
    · exact absurd (h.teams.allowed cell hcell role hrow) List.not_mem_nil

theorem sameMemberships_of_between (hs : Reachable (lifecycleSystem w) s)
    (hphase : s.phase pid = phase) (hbetween : Between phase) {t : State}
    (horganizations : t.organizations = s.organizations) (hteams : t.teams = s.teams) :
    SameMemberships s (t.commit pid) := by
  have hgrants := grantsAt_of_reachable hs pid
  rw [hphase, grantsAt_between hbetween] at hgrants
  have hsame := sameMemberships_commit hgrants
  refine ⟨fun key => ?_, fun key => ?_⟩
  · rw [← hsame.organizations key, State.commit, State.commit, horganizations]
  · rw [← hsame.teams key, State.commit, State.commit, hteams]

/-- Memberships stay as they are, or an acceptance commits. -/
theorem memberships_change_by_acceptance (w : LifecycleService) (s : State) (e : ℕ × Statement)
    (hs : Reachable (lifecycleSystem w) s) (he : (lifecycleSystem w).enabled s e) :
    SameMemberships s ((lifecycleSystem w).next s e) ∨ ∃ tokenHash row named,
      s.phase e.1 = .accept tokenHash (.accepted row) ∧
        Acceptance w s ((lifecycleSystem w).next s e) tokenHash row named := by
  have hmove := move_of_enabled he
  have hs' := hs.step he
  generalize hnext : (lifecycleSystem w).next s e = t at hmove hs'
  generalize hphase : s.phase e.1 = phase at hmove ⊢
  cases hmove with
  | commit hcommits =>
      have hgrants := grantsAt_of_reachable hs e.1
      rw [hphase] at hgrants
      unfold commits at hcommits
      split at hcommits
      · exact Or.inl ⟨(sameMemberships_commit hgrants).1, (sameMemberships_commit hgrants).2⟩
      next tokenHash row =>
        obtain ⟨named, haccepted⟩ := acceptance_of_commit hs hphase hs'
        exact Or.inr ⟨tokenHash, row, named, rfl, haccepted⟩
      · exact Or.inl ⟨(sameMemberships_commit hgrants).1, (sameMemberships_commit hgrants).2⟩
      · cases hcommits
  | settle hbetween _ _ _ =>
      have hsame := sameMemberships_of_between hs hphase hbetween rfl rfl
      exact Or.inl ⟨hsame.1, hsame.2⟩
  | invalidate hbetween _ _ _ =>
      have hsame := sameMemberships_of_between hs hphase hbetween rfl rfl
      exact Or.inl ⟨hsame.1, hsame.2⟩
  | stop _ => exact Or.inl ⟨fun _ => committedAt_rollback, fun _ => committedAt_rollback⟩
  | organization _ => exact Or.inl ⟨fun _ => committedAt_upsert, fun _ => rfl⟩
  | team _ => exact Or.inl ⟨fun _ => rfl, fun _ => committedAt_upsert⟩
  | between _ _ | quiet _ | invitations _ _ | tokens _ _ | newInvitation _ | newToken _ =>
      exact Or.inl ⟨fun _ => rfl, fun _ => rfl⟩

/-! ## An acceptance, and a repeated invitation beside it -/

instance (w : LifecycleService) (s : State) (e : ℕ × Statement) :
    Decidable ((lifecycleSystem w).enabled s e) :=
  inferInstanceAs (Decidable ((step w s e).isSome = true))

/-- All invitations are for the same team. -/
def oneTeam : LifecycleService := { asciiInvitations with fingerprint := fun _ => "team-1" }

/-- A member is invited to a team. -/
def memberInvited : State where
  invitations := [⟨"invitation-1", some ⟨"invitation-1", "account-1", "ana@x", .sent, 9,
    some [("team_invites", .list [.dict [("team_id", .str "team-1"),
      ("organization_id", .str "org-1"), ("role", .str "team_admin")]])], 0⟩, none⟩]
  tokens := [⟨"token-1", some ⟨"token-1", "invite_accept", "raw", "account-1",
    some "invitation-1", 9, none⟩, none⟩]
  organizations := [⟨("account-1", "org-2"), some "org_owner", none⟩]
  teams := []
  phase _ := .idle

theorem memberInvited_initial : Initial memberInvited := by
  constructor
  case idle => exact fun _ => rfl
  case ids =>
    intro cell hcell
    obtain rfl := List.mem_singleton.mp hcell
    refine ⟨fun row hrow => ?_, fun owner row hrow => ?_⟩
    · exact (Option.some.inj hrow) ▸ rfl
    · cases hrow
  all_goals decide

/-- The statements of a call, one after the other. -/
def statements (pid count : ℕ) : List (ℕ × Statement) :=
  List.replicate count (pid, .run ⟨5, 5, "new", "raw-2", 20⟩)

/-- The invitation is accepted, up to the commit. -/
def acceptedRun : List (ℕ × Statement) := (0, .start (.accept "raw")) :: statements 0 8

def acceptedState : State :=
  acceptedRun.foldl (lifecycleSystem oneTeam).next memberInvited

theorem acceptedState_reachable : Reachable (lifecycleSystem oneTeam) acceptedState := by
  have hfires : Fires (lifecycleSystem oneTeam) (fun _ _ => True) memberInvited acceptedRun := by
    decide +kernel
  exact (ReachableBy.initial memberInvited_initial).fires hfires

/-- The commit makes the account an admin of the team and a member of its organization. -/
theorem acceptedState_commits :
    (SameMemberships acceptedState ((lifecycleSystem oneTeam).next acceptedState (0, .commit)) ∨
      ∃ tokenHash row named, acceptedState.phase 0 = .accept tokenHash (.accepted row) ∧
        Acceptance oneTeam acceptedState
          ((lifecycleSystem oneTeam).next acceptedState (0, .commit)) tokenHash row named) ∧
      committedAt ("account-1", "team-1")
        ((lifecycleSystem oneTeam).next acceptedState (0, .commit)).teams =
          some "team_admin" ∧
      committedAt ("account-1", "team-1") acceptedState.teams = none :=
  ⟨memberships_change_by_acceptance _ _ (0, .commit) acceptedState_reachable (by decide +kernel),
    by decide +kernel, by decide +kernel⟩

/-! ## Accepted and cancelled invitations -/

/-- An accepted or cancelled invitation is as before, or a repeated invitation that had found it
open earlier in the run has sent it again. -/
structure SettledOrSentAgain (w : LifecycleService) (s s' : State) (pid : ℕ) (invitationId : String)
    (old new : InvitationRow) : Prop where
  committed : committedAt invitationId s'.invitations = some new
  status : new.status = old.status ∨ ∃ creation, s.phase pid = .create creation .finished ∧
    new.status = .sent ∧ new.metadata = some creation.metadata ∧ WasOpen w s invitationId

theorem settled_of_same {invitationId : String} {old : InvitationRow}
    (hold : committedAt invitationId s.invitations = some old)
    (hsame : committedAt invitationId s'.invitations = committedAt invitationId s.invitations) :
    SettledOrSentAgain w s s' pid invitationId old old :=
  ⟨hsame.trans hold, Or.inl rfl⟩

/-- A commit of rows that were not settled. -/
theorem committedAt_of_spares {table : List (Cell String InvitationRow)} {invitationId : String}
    {old : InvitationRow} (hspares : SparesSettled pid table)
    (hold : committedAt invitationId table = some old) (hsettled : Settled old.status) :
    committedAt invitationId (commit pid table) = committedAt invitationId table := by
  rcases committedAt_commit pid invitationId table with hsame | ⟨cell, hcell, row, -, hrow, hat, -⟩
  · exact hsame
  · exact absurd hsettled (hspares cell hcell ⟨row, hrow⟩ old (hat.symm.trans hold))

/-- A repeated invitation commits what it has sent. -/
theorem sentAgain_of_commit {creation : Creation} {invitationId : String} {old : InvitationRow}
    (hs : Reachable (lifecycleSystem w) s) (hphase : s.phase pid = .create creation .finished)
    (hold : committedAt invitationId s.invitations = some old) :
    ∃ new, SettledOrSentAgain w s ((s.commit pid).setPhase pid .idle) pid invitationId old new := by
  have hinvitations := invitationsAt_of_reachable hs pid
  rw [hphase] at hinvitations
  obtain ⟨written, hwrites⟩ := hinvitations
  rcases committedAt_commit pid invitationId s.invitations with
    hsame | ⟨cell, hcell, new, hkey, hpending, hat, hnew⟩
  · exact ⟨old, settled_of_same hold hsame⟩
  · obtain ⟨hkey', hstatus, hmetadata, hopen⟩ := hwrites cell hcell new hpending
    refine ⟨new, hnew, Or.inr ⟨creation, hphase, hstatus, hmetadata, ?_⟩⟩
    rw [← hkey, hkey']
    exact hopen old (hat.symm.trans hold)

/-- An accepted or cancelled invitation is reopened by repeated invitations only. -/
theorem settled_or_sent_again (w : LifecycleService) (s : State) (e : ℕ × Statement)
    (invitationId : String) (old : InvitationRow) (hs : Reachable (lifecycleSystem w) s)
    (he : (lifecycleSystem w).enabled s e)
    (hold : committedAt invitationId s.invitations = some old) (hsettled : Settled old.status) :
    ∃ new, SettledOrSentAgain w s ((lifecycleSystem w).next s e) e.1 invitationId old new := by
  have hmove := move_of_enabled he
  have hinvitations := invitationsAt_of_reachable hs e.1
  generalize (lifecycleSystem w).next s e = t at hmove ⊢
  generalize hphase : s.phase e.1 = phase at hmove hinvitations
  cases hmove with
  | commit hcommits =>
      unfold commits at hcommits
      split at hcommits
      · exact sentAgain_of_commit hs hphase hold
      · exact ⟨old, settled_of_same hold (committedAt_of_spares hinvitations.2.1 hold hsettled)⟩
      · exact ⟨old, settled_of_same hold (committedAt_of_spares hinvitations hold hsettled)⟩
      · cases hcommits
  | @settle _ _ about status hbetween _ habout _ =>
      rw [invitationsAt_between hbetween] at hinvitations
      have hkept := committedAt_of_spares
        (sparesSettled_update (withStatus status) hinvitations habout)
        (committedAt_update.trans hold) hsettled
      exact ⟨old, settled_of_same hold (hkept.trans committedAt_update)⟩
  | invalidate hbetween _ _ _ =>
      rw [invitationsAt_between hbetween] at hinvitations
      refine ⟨old, settled_of_same hold ?_⟩
      exact congrArg (committedAt invitationId) hinvitations.commit_eq
  | invitations _ _ => exact ⟨old, settled_of_same hold committedAt_update⟩
  | newInvitation _ => exact ⟨old, settled_of_same hold committedAt_insert⟩
  | stop _ => exact ⟨old, settled_of_same hold committedAt_rollback⟩
  | between _ _ | quiet _ | tokens _ _ | newToken _ | organization _ | team _ =>
      exact ⟨old, settled_of_same hold rfl⟩

/-- The invitation is repeated by a process that has found it open before it was accepted. -/
def repeatedRun : List (ℕ × Statement) :=
  (1, .start (.create ⟨"account-1", "ana@x", [("team_invites", .list [])], 30⟩)) ::
    statements 1 1 ++ acceptedRun ++ [(0, .commit)] ++ statements 1 4

def repeatedState : State :=
  repeatedRun.foldl (lifecycleSystem oneTeam).next memberInvited

theorem repeatedState_reachable : Reachable (lifecycleSystem oneTeam) repeatedState := by
  have hfires : Fires (lifecycleSystem oneTeam) (fun _ _ => True) memberInvited repeatedRun := by
    decide +kernel
  exact (ReachableBy.initial memberInvited_initial).fires hfires

/-- The accepted invitation. -/
def acceptedInvitation : InvitationRow :=
  ⟨"invitation-1", "account-1", "ana@x", .accepted, 9,
    some [("team_invites", .list [.dict [("team_id", .str "team-1"),
      ("organization_id", .str "org-1"), ("role", .str "team_admin")]])], 0⟩

/-- The commit takes the accepted invitation back to sent. -/
theorem repeatedState_commits :
    (∃ new, SettledOrSentAgain oneTeam repeatedState
      ((lifecycleSystem oneTeam).next repeatedState (1, .commit)) 1 "invitation-1"
        acceptedInvitation new) ∧
      (committedAt "invitation-1"
        ((lifecycleSystem oneTeam).next repeatedState (1, .commit)).invitations).map
          InvitationRow.status = some .sent :=
  ⟨settled_or_sent_again _ _ (1, .commit) "invitation-1" acceptedInvitation
    repeatedState_reachable (by decide +kernel) rfl (by decide), by decide +kernel⟩

end AcceptanceRuns
