import DeltaLLM.InvitationRuns

/-! # What the runs of invitation processes guarantee

Memberships change only when an acceptance commits, which uses up a token and an open invitation for
good. An accepted or cancelled invitation is only ever reopened by a repeated invitation that had
found it open.
-/
namespace InvitationSafety

open AcceptedMemberships
open InvitationAcceptance
open InvitationLifecycle
open InvitationMoves
open InvitationRuns
open RowVersions
open TransitionRuns

variable {w : LifecycleService} {s s' : State} {pid other : ℕ} {phase phase' : Phase}

/-! ## Memberships -/

/-- Memberships by account and organization or team, with their roles. -/
abbrev MembershipCells := List (Cell (String × String) String)

/-- The memberships that the process has written, none of them committed yet. -/
structure Granted (pid : ℕ) (grants : List Grant) (organizations teams : MembershipCells) :
    Prop where
  organizations : Wrote pid (fun key role => Grant.organization key role ∈ grants) organizations
  teams : Wrote pid (fun key role => Grant.team key role ∈ grants) teams

section Granted

variable {grants : List Grant} {organizations teams : MembershipCells} {key : String × String}
  {role : String}

theorem granted_nil (horganizations : Untouched pid organizations)
    (hteams : Untouched pid teams) : Granted pid [] organizations teams where
  organizations := horganizations.wrote.congr fun _ _ => by simp
  teams := hteams.wrote.congr fun _ _ => by simp

theorem Granted.organization (h : Granted pid grants organizations teams) :
    Granted pid (grants ++ [.organization key role]) (upsert pid key role organizations) teams where
  organizations := h.organizations.upsert.congr fun key' role' => by simp
  teams := h.teams.congr fun _ _ => by simp

theorem Granted.team (h : Granted pid grants organizations teams) :
    Granted pid (grants ++ [.team key role]) organizations (upsert pid key role teams) where
  organizations := h.organizations.congr fun _ _ => by simp
  teams := h.teams.upsert.congr fun key' role' => by simp

end Granted

variable (w) in
/-- What the process has granted where it is. -/
def GrantsAt (s : State) (pid : ℕ) : Phase → Prop
  | .accept _ (.granting row rest) => ∃ named granted,
      readInvitation w.python row.metadata = .ok named ∧
        grantsOf row.accountId named = granted ++ rest ∧ Granted pid granted s.organizations s.teams
  | .accept _ (.invalidated row) | .accept _ (.accepted row) => ∃ named,
      readInvitation w.python row.metadata = .ok named ∧
        Granted pid (grantsOf row.accountId named) s.organizations s.teams
  | _ => Granted pid [] s.organizations s.teams

theorem grantsAt_between (h : Between phase) :
    GrantsAt w s pid phase = Granted pid [] s.organizations s.teams := by
  cases phase with
  | idle => rfl
  | create creation stage => rfl
  | manage goal stage => rfl
  | accept tokenHash stage =>
      cases stage with
      | started => rfl
      | _ => exact h.elim

theorem grantsAt_afterRead (tokenHash : String) (processNow : ℤ) (row : InvitationRow) :
    GrantsAt w s pid (.accept tokenHash (afterRead processNow row)) =
      Granted pid [] s.organizations s.teams := by
  unfold afterRead
  split_ifs <;> rfl

theorem GrantsAt.frame (hkept : OthersKept pid s s') (hne : other ≠ pid)
    (h : GrantsAt w s other phase) : GrantsAt w s' other phase := by
  have hgranted : ∀ {grants}, Granted other grants s.organizations s.teams →
      Granted other grants s'.organizations s'.teams := fun h =>
    ⟨(hkept.organizations other hne).wrote h.organizations, (hkept.teams other hne).wrote h.teams⟩
  unfold GrantsAt at h ⊢
  split at h
  · obtain ⟨named, granted, hnamed, hgrants, h⟩ := h
    exact ⟨named, granted, hnamed, hgrants, hgranted h⟩
  · obtain ⟨named, hnamed, h⟩ := h
    exact ⟨named, hnamed, hgranted h⟩
  · obtain ⟨named, hnamed, h⟩ := h
    exact ⟨named, hnamed, hgranted h⟩
  · exact hgranted h

theorem GrantsAt.quiet (hquiet : Quiet w s pid phase phase') (h : GrantsAt w s pid phase) :
    GrantsAt w s pid phase' := by
  cases hquiet with
  | listed creation => exact h
  | unknown tokenHash => exact h
  | validated tokenHash invitationId => exact h
  | missing tokenHash invitationId => exact h
  | read processNow hrow =>
      rw [grantsAt_afterRead]
      exact h
  | reread _ => exact h
  | reopened _ _ => exact h
  | granting hnamed => exact ⟨_, [], hnamed, rfl, h⟩

theorem GrantsAt.move (hmove : Move w s pid phase s') (h : GrantsAt w s pid phase) :
    GrantsAt w s' pid (s'.phase pid) := by
  cases hmove with
  | between hphase hphase' =>
      rw [setPhase_self, grantsAt_between hphase']
      rw [grantsAt_between hphase] at h
      exact h
  | quiet hquiet =>
      rw [setPhase_self]
      have hquieted := GrantsAt.quiet hquiet h
      unfold GrantsAt at hquieted ⊢
      exact hquieted
  | invitations hwrite _ =>
      rw [setPhase_self]
      cases hwrite <;> exact h
  | tokens hwrite _ =>
      rw [setPhase_self]
      cases hwrite with
      | rest tokenHash row =>
          obtain ⟨named, granted, hnamed, hgrants, h⟩ := h
          rw [List.append_nil] at hgrants
          exact ⟨named, hnamed, hgrants ▸ h⟩
      | _ => exact h
  | newInvitation _ =>
      rw [setPhase_self]
      exact h
  | newToken _ =>
      rw [setPhase_self]
      exact h
  | organization _ =>
      rw [setPhase_self]
      obtain ⟨named, granted, hnamed, hgrants, h⟩ := h
      exact ⟨named, _, hnamed, hgrants.trans (List.append_cons _ _ _), h.organization⟩
  | team _ =>
      rw [setPhase_self]
      obtain ⟨named, granted, hnamed, hgrants, h⟩ := h
      exact ⟨named, _, hnamed, hgrants.trans (List.append_cons _ _ _), h.team⟩
  | settle _ hphase' _ _ =>
      rw [setPhase_self, grantsAt_between hphase']
      exact granted_nil untouched_commit untouched_commit
  | invalidate _ hphase' _ _ =>
      rw [setPhase_self, grantsAt_between hphase']
      exact granted_nil untouched_commit untouched_commit
  | commit _ =>
      rw [setPhase_self]
      exact granted_nil untouched_commit untouched_commit
  | stop _ =>
      rw [setPhase_self]
      exact granted_nil untouched_rollback untouched_rollback

theorem grantsAt_of_reachable (hs : Reachable (lifecycleSystem w) s) :
    ∀ pid, GrantsAt w s pid (s.phase pid) := by
  refine Reachable.invariant (P := fun s => ∀ pid, GrantsAt w s pid (s.phase pid))
    (fun s h pid => ?_) (fun s e h he => ?_) hs
  · rw [h.idle pid]
    exact granted_nil (untouched_of_none h.organizations pid) (untouched_of_none h.teams pid)
  · have hmove := move_of_enabled he
    exact forall_process h hmove (fun _ _ => GrantsAt.frame (Move.othersKept hmove))
      (GrantsAt.move hmove)

/-! ## Tokens -/

/-- The token of the hash and the invitation that the process has consumed, not committed yet. -/
def Claimed (s : State) (pid : ℕ) (tokenHash invitationId : String) : Prop :=
  ∃ cell ∈ s.tokens, ∃ token now, cell.committed = some token ∧
    token.purpose = "invite_accept" ∧ token.tokenHash = tokenHash ∧
    token.invitationId = some invitationId ∧ token.consumedAt = none ∧
    cell.pending = some (pid, consume now token)

/-- The process has written tokens only to consume them. -/
def OnlyConsumes (s : State) (pid : ℕ) : Prop :=
  ∀ cell ∈ s.tokens, ∀ token, cell.pending = some (pid, token) → token.consumedAt ≠ none

/-- What the process has consumed where it is. -/
def TokensAt (s : State) (pid : ℕ) : Phase → Prop
  | .accept tokenHash (.claimed row) | .accept tokenHash (.granting row _)
  | .accept tokenHash (.invalidated row) | .accept tokenHash (.accepted row) =>
      Claimed s pid tokenHash row.invitationId
  | .create _ .started | .accept _ .started => Untouched pid s.tokens
  | .accept _ _ => OnlyConsumes s pid
  | .create _ _ => True
  | _ => Untouched pid s.tokens

theorem Claimed.frame {tokenHash invitationId : String} (hkept : OthersKept pid s s')
    (hne : other ≠ pid) (h : Claimed s other tokenHash invitationId) :
    Claimed s' other tokenHash invitationId := by
  obtain ⟨cell, hcell, token, now, hrest⟩ := h
  have hown : cell.OwnedBy other := ⟨_, hrest.2.2.2.2.2⟩
  exact ⟨cell, (hkept.tokens other hne cell hown).mpr hcell, token, now, hrest⟩

theorem OnlyConsumes.frame (hkept : OthersKept pid s s') (hne : other ≠ pid)
    (h : OnlyConsumes s other) : OnlyConsumes s' other :=
  fun cell hcell token hpending =>
    h cell ((hkept.tokens other hne cell ⟨token, hpending⟩).mp hcell) token hpending

theorem onlyConsumes_of_untouched (h : Untouched pid s.tokens) : OnlyConsumes s pid :=
  fun cell hcell token hpending => absurd ⟨token, hpending⟩ (h cell hcell)

theorem TokensAt.frame (hkept : OthersKept pid s s') (hne : other ≠ pid)
    (h : TokensAt s other phase) : TokensAt s' other phase := by
  unfold TokensAt at h ⊢
  split at h
  · exact h.frame hkept hne
  · exact h.frame hkept hne
  · exact h.frame hkept hne
  · exact h.frame hkept hne
  · exact (hkept.tokens other hne).untouched h
  · exact (hkept.tokens other hne).untouched h
  · exact h.frame hkept hne
  · trivial
  · exact (hkept.tokens other hne).untouched h

theorem tokensAt_between (h : Between phase) : TokensAt s pid phase = Untouched pid s.tokens := by
  cases phase with
  | idle => rfl
  | manage goal stage => rfl
  | create creation stage =>
      cases stage with
      | started => rfl
      | _ => exact h.elim
  | accept tokenHash stage =>
      cases stage with
      | started => rfl
      | _ => exact h.elim

theorem onlyConsumes_update {about : String → EmailTokenRow → Bool} {now : ℤ}
    {table : List (Cell String EmailTokenRow)}
    (h : ∀ cell ∈ table, ∀ token, cell.pending = some (pid, token) → token.consumedAt ≠ none) :
    ∀ cell ∈ update pid about (consume now) table, ∀ token,
      cell.pending = some (pid, token) → token.consumedAt ≠ none := by
  intro cell' hcell' token hpending
  obtain ⟨cell, hcell, rfl⟩ := List.mem_map.mp hcell'
  rcases cell.update_cases pid about (consume now) with heq | ⟨seen, -, -, heq⟩
  · rw [heq] at hpending
    exact h cell hcell token hpending
  · rw [heq] at hpending
    obtain ⟨-, rfl⟩ := Prod.mk.inj (Option.some.inj hpending)
    exact Option.some_ne_none now

/-- An active token that the process sees is committed: what it has written itself is consumed. -/
theorem claimed_of_found {now : ℤ} {tokenHash invitationId : String} (h : OnlyConsumes s pid)
    (hfound : (claimedToken s pid now tokenHash).bind EmailTokenRow.invitationId =
      some invitationId) :
    Claimed { s with tokens := update pid (activeHash now tokenHash) (consume now) s.tokens } pid
      tokenHash invitationId := by
  obtain ⟨token, htoken, hinvitation⟩ := Option.bind_eq_some_iff.mp hfound
  unfold claimedToken at htoken
  have hactive : token.Active now "invite_accept" tokenHash := by
    simpa using List.find?_some htoken
  obtain ⟨cell, hcell, hview⟩ := List.mem_filterMap.mp (List.mem_of_find?_eq_some htoken)
  have hnot : ¬cell.OwnedBy pid := by
    rintro ⟨own, hown⟩
    obtain rfl := Option.some.inj ((Cell.view_of_owned hown).symm.trans hview)
    exact h cell hcell own hown hactive.2.2.1
  have hcommitted : cell.committed = some token := by
    rw [← Cell.view_of_not_owned hnot]
    exact hview
  refine ⟨_, List.mem_map_of_mem hcell, token, now, ?_, hactive.1, hactive.2.1, hinvitation,
    hactive.2.2.1, ?_⟩
  · rw [Cell.committed_update]
    exact hcommitted
  · simp [Cell.update, hview, activeHash, hactive]

/-- What is claimed is not consumed a second time. -/
theorem Claimed.update {about : String → EmailTokenRow → Bool} {now : ℤ}
    {tokenHash invitationId : String} (h : Claimed s pid tokenHash invitationId)
    (habout : ∀ key token, about key token = true → token.consumedAt = none) :
    Claimed { s with tokens := update pid about (consume now) s.tokens } pid tokenHash
      invitationId := by
  obtain ⟨cell, hcell, token, claimedAt, hcommitted, hpurpose, hhash, hinvitation, hfree,
    hpending⟩ := h
  have hview := Cell.view_of_owned hpending
  have hnot : about cell.key (consume claimedAt token) ≠ true := fun habout' =>
    Option.some_ne_none claimedAt (habout _ _ habout')
  have hsame : cell.update pid about (consume now) = cell := by
    simp [Cell.update, hview, hnot]
  exact ⟨cell, List.mem_map.mpr ⟨cell, hcell, hsame⟩, token, claimedAt, hcommitted, hpurpose,
    hhash, hinvitation, hfree, hpending⟩

theorem TokensAt.quiet (hquiet : Quiet w s pid phase phase') (h : TokensAt s pid phase) :
    TokensAt s pid phase' := by
  cases hquiet with
  | read processNow hrow =>
      unfold afterRead
      split_ifs <;> exact h
  | listed creation => trivial
  | unknown tokenHash => exact onlyConsumes_of_untouched h
  | validated tokenHash invitationId => exact onlyConsumes_of_untouched h
  | missing tokenHash invitationId => exact h
  | reread _ => exact h
  | reopened _ _ => exact h
  | granting hnamed => exact h

theorem TokensAt.move (hmove : Move w s pid phase s') (h : TokensAt s pid phase) :
    TokensAt s' pid (s'.phase pid) := by
  cases hmove with
  | between hphase hphase' =>
      rw [setPhase_self, tokensAt_between hphase']
      rw [tokensAt_between hphase] at h
      exact h
  | quiet hquiet =>
      rw [setPhase_self]
      have hquieted := TokensAt.quiet hquiet h
      unfold TokensAt at hquieted ⊢
      exact hquieted
  | invitations hwrite _ =>
      rw [setPhase_self]
      cases hwrite <;> exact h
  | tokens hwrite _ =>
      rw [setPhase_self]
      cases hwrite with
      | others creation invitationId tokenId => trivial
      | expired tokenHash row => exact onlyConsumes_update h
      | claimed hfound => exact claimed_of_found h hfound
      | missed tokenHash row => exact onlyConsumes_update h
      | rest tokenHash row => exact Claimed.update h fun _ _ => consumed_of_invalidated
  | newInvitation _ =>
      rw [setPhase_self]
      trivial
  | newToken _ =>
      rw [setPhase_self]
      trivial
  | organization _ =>
      rw [setPhase_self]
      exact h
  | team _ =>
      rw [setPhase_self]
      exact h
  | settle _ hphase' _ _ =>
      rw [setPhase_self, tokensAt_between hphase']
      exact untouched_commit
  | invalidate _ hphase' _ _ =>
      rw [setPhase_self, tokensAt_between hphase']
      exact untouched_commit
  | commit _ =>
      rw [setPhase_self]
      exact untouched_commit
  | stop _ =>
      rw [setPhase_self]
      exact untouched_rollback

theorem tokensAt_of_reachable (hs : Reachable (lifecycleSystem w) s) :
    ∀ pid, TokensAt s pid (s.phase pid) := by
  refine Reachable.invariant (P := fun s => ∀ pid, TokensAt s pid (s.phase pid))
    (fun s h pid => ?_) (fun s e h he => ?_) hs
  · rw [h.idle pid]
    exact untouched_of_none h.tokens pid
  · have hmove := move_of_enabled he
    exact forall_process h hmove (fun _ _ => TokensAt.frame (Move.othersKept hmove))
      (TokensAt.move hmove)

end InvitationSafety
