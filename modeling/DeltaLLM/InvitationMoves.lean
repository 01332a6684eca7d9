import DeltaLLM.InvitationLifecycle

/-! # What a step of a process can do

Every step moves between calls, moves on inside a transaction, writes to one table, or ends the
transaction.
-/
namespace InvitationMoves

open AcceptedMemberships
open InvitationAcceptance
open InvitationLifecycle
open RowVersions

/-- No transaction is open. -/
def Between : Phase → Prop
  | .idle | .create _ .started | .accept _ .started | .manage _ _ => True
  | _ => False

/-- An accepted or cancelled invitation. -/
def Settled (status : InvitationStatus) : Prop := status = .accepted ∨ status = .cancelled

instance : DecidablePred Settled := fun status =>
  inferInstanceAs (Decidable (status = .accepted ∨ status = .cancelled))

theorem not_settled_of_open {status : InvitationStatus} (h : status.isOpen = true) :
    ¬Settled status := by
  rintro (rfl | rfl) <;> exact absurd h (by decide)

theorem not_settled_of_cancellable {status : InvitationStatus}
    (h : InvitationStatus.isCancellable status = true) : ¬Settled status := by
  rintro (rfl | rfl) <;> exact absurd h (by decide)

variable (w : LifecycleService)

/-- Moves inside a transaction that write nothing. -/
inductive Quiet (s : State) (pid : ℕ) : Phase → Phase → Prop where
  | listed (creation : Creation) : Quiet s pid (.create creation .started)
      (.create creation (.listed (existingInvitation w pid creation s.invitations)))
  | unknown (tokenHash : String) :
      Quiet s pid (.accept tokenHash .started) (.accept tokenHash .ended)
  | validated (tokenHash invitationId : String) :
      Quiet s pid (.accept tokenHash .started) (.accept tokenHash (.validated invitationId))
  | missing (tokenHash invitationId : String) :
      Quiet s pid (.accept tokenHash (.validated invitationId)) (.accept tokenHash .ended)
  | read {tokenHash invitationId : String} {row : InvitationRow} (processNow : ℤ) :
      viewAt pid invitationId s.invitations = some row →
      Quiet s pid (.accept tokenHash (.validated invitationId))
        (.accept tokenHash (afterRead processNow row))
  | reread {tokenHash : String} {row : InvitationRow} :
      ¬((viewAt pid row.invitationId s.invitations).getD row).status.isOpen = true →
      Quiet s pid (.accept tokenHash (.reread row)) (.accept tokenHash .ended)
  | reopened {tokenHash : String} {row refreshed : InvitationRow} :
      (viewAt pid row.invitationId s.invitations).getD row = refreshed →
      refreshed.status.isOpen = true →
      Quiet s pid (.accept tokenHash (.reread row)) (.accept tokenHash (.opened refreshed))
  | granting {tokenHash : String} {row : InvitationRow} {named : Named} :
      readInvitation w.python row.metadata = .ok named →
      Quiet s pid (.accept tokenHash (.claimed row))
        (.accept tokenHash (.granting row (grantsOf row.accountId named)))

/-- The invitation updates inside transactions. -/
inductive InvitationWrite (s : State) (pid : ℕ) : Phase → (String → InvitationRow → Bool) →
    (InvitationRow → InvitationRow) → Phase → Prop where
  | again {creation : Creation} {existing : String} :
      affects pid (byId existing) s.invitations = true →
      InvitationWrite s pid (.create creation (.listed (some existing))) (byId existing)
        (pendingAgain creation) (.create creation (.written existing))
  | sent (creation : Creation) (invitationId tokenId : String) (expiresAt : ℤ) :
      InvitationWrite s pid (.create creation (.issued invitationId tokenId expiresAt))
        (byId invitationId) (markSent creation expiresAt)
        (.create creation (.marked invitationId tokenId))
  | expired (tokenHash : String) (row : InvitationRow) :
      InvitationWrite s pid (.accept tokenHash (.expiring row)) (openById row.invitationId)
        (withStatus .expired) (.accept tokenHash (.expired row))
  | accepted {tokenHash : String} {row : InvitationRow} :
      affects pid (openById row.invitationId) s.invitations = true →
      InvitationWrite s pid (.accept tokenHash (.invalidated row)) (openById row.invitationId)
        (withStatus .accepted) (.accept tokenHash (.accepted row))

/-- The token that a claim finds. -/
def claimedToken (s : State) (pid : ℕ) (now : ℤ) (tokenHash : String) : Option EmailTokenRow :=
  (s.tokens.filterMap fun cell => cell.view pid).find? fun token =>
    token.Active now "invite_accept" tokenHash

/-- The token updates inside transactions. -/
inductive TokenWrite (s : State) (pid : ℕ) (now : ℤ) : Phase → (String → EmailTokenRow → Bool) →
    Phase → Prop where
  | others (creation : Creation) (invitationId tokenId : String) :
      TokenWrite s pid now (.create creation (.marked invitationId tokenId))
        (invalidated now creation.accountId invitationId (some tokenId))
        (.create creation .finished)
  | expired (tokenHash : String) (row : InvitationRow) :
      TokenWrite s pid now (.accept tokenHash (.expired row))
        (invalidated now row.accountId row.invitationId none) (.accept tokenHash (.reread row))
  | claimed {tokenHash : String} {row : InvitationRow} :
      (claimedToken s pid now tokenHash).bind EmailTokenRow.invitationId =
        some row.invitationId →
      TokenWrite s pid now (.accept tokenHash (.opened row)) (activeHash now tokenHash)
        (.accept tokenHash (.claimed row))
  | missed (tokenHash : String) (row : InvitationRow) :
      TokenWrite s pid now (.accept tokenHash (.opened row)) (activeHash now tokenHash)
        (.accept tokenHash .ended)
  | rest (tokenHash : String) (row : InvitationRow) :
      TokenWrite s pid now (.accept tokenHash (.granting row []))
        (invalidated now row.accountId row.invitationId none) (.accept tokenHash (.invalidated row))

inductive Move (s : State) (pid : ℕ) : Phase → State → Prop where
  | between {phase phase' : Phase} : Between phase → Between phase' →
      Move s pid phase (s.setPhase pid phase')
  | quiet {phase phase' : Phase} : Quiet w s pid phase phase' →
      Move s pid phase (s.setPhase pid phase')
  | invitations {phase phase' : Phase} {about : String → InvitationRow → Bool}
      {set : InvitationRow → InvitationRow} :
      InvitationWrite s pid phase about set phase' → waits pid about s.invitations = false →
      Move s pid phase
        ({ s with invitations := update pid about set s.invitations }.setPhase pid phase')
  | tokens {phase phase' : Phase} {about : String → EmailTokenRow → Bool} {now : ℤ} :
      TokenWrite s pid now phase about phase' → waits pid about s.tokens = false →
      Move s pid phase
        ({ s with tokens := update pid about (consume now) s.tokens }.setPhase pid phase')
  | newInvitation {creation : Creation} {given : Given} :
      (∀ cell ∈ s.invitations, cell.key ≠ given.newId) →
      Move s pid (.create creation (.listed none))
        ({ s with
          invitations := insert pid given.newId (newInvitation creation given) s.invitations
          }.setPhase pid (.create creation (.written given.newId)))
  | newToken {creation : Creation} {invitationId : String} {given : Given} :
      (∀ cell ∈ s.tokens, cell.key ≠ given.newId) →
      Move s pid (.create creation (.written invitationId))
        ({ s with
          tokens := insert pid given.newId (newToken creation invitationId given) s.tokens
          }.setPhase pid (.create creation (.issued invitationId given.newId given.newExpiry)))
  | organization {tokenHash role : String} {row : InvitationRow} {key : String × String}
      {rest : List Grant} : waitsAt pid key s.organizations = false →
      Move s pid (.accept tokenHash (.granting row (.organization key role :: rest)))
        ({ s with organizations := upsert pid key role s.organizations }.setPhase pid
          (.accept tokenHash (.granting row rest)))
  | team {tokenHash role : String} {row : InvitationRow} {key : String × String}
      {rest : List Grant} : waitsAt pid key s.teams = false →
      Move s pid (.accept tokenHash (.granting row (.team key role :: rest)))
        ({ s with teams := upsert pid key role s.teams }.setPhase pid
          (.accept tokenHash (.granting row rest)))
  | settle {phase phase' : Phase} {about : String → InvitationRow → Bool}
      {status : InvitationStatus} : Between phase → Between phase' →
      (∀ key row, about key row = true → ¬Settled row.status) →
      waits pid about s.invitations = false →
      Move s pid phase
        (({ s with invitations := update pid about (withStatus status) s.invitations }.commit
          pid).setPhase pid phase')
  | invalidate {phase phase' : Phase} {about : String → EmailTokenRow → Bool} {now : ℤ} :
      Between phase → Between phase' →
      (∀ key token, about key token = true → token.consumedAt = none) →
      waits pid about s.tokens = false →
      Move s pid phase
        (({ s with tokens := update pid about (consume now) s.tokens }.commit pid).setPhase pid
          phase')
  | commit {phase : Phase} : commits phase = true →
      Move s pid phase ((s.commit pid).setPhase pid .idle)
  | stop (phase : Phase) : Move s pid phase ((s.rollback pid).setPhase pid .idle)

section Cases

variable {w} {s s' : State} {pid : ℕ} {given : Given}

theorem updateInvitations_some {about : String → InvitationRow → Bool}
    {set : InvitationRow → InvitationRow} {t : State}
    (h : s.updateInvitations pid about set = some t) :
    waits pid about s.invitations = false ∧
      t = { s with invitations := update pid about set s.invitations } := by
  unfold State.updateInvitations at h
  split_ifs at h with hwaits
  exact ⟨by simpa using hwaits, (Option.some.inj h).symm⟩

theorem consumeTokens_some {about : String → EmailTokenRow → Bool} {now : ℤ} {t : State}
    (h : s.consumeTokens pid now about = some t) :
    waits pid about s.tokens = false ∧
      t = { s with tokens := update pid about (consume now) s.tokens } := by
  unfold State.consumeTokens at h
  split_ifs at h with hwaits
  exact ⟨by simpa using hwaits, (Option.some.inj h).symm⟩

theorem grant_move {tokenHash : String} {row : InvitationRow} {grant : Grant} {rest : List Grant}
    {t : State} (h : s.grant pid grant = some t) :
    Move w s pid (.accept tokenHash (.granting row (grant :: rest)))
      (t.setPhase pid (.accept tokenHash (.granting row rest))) := by
  cases grant with
  | organization key role =>
      simp only [State.grant] at h
      split_ifs at h with hwaits
      obtain rfl := Option.some.inj h
      exact .organization (by simpa using hwaits)
  | team key role =>
      simp only [State.grant] at h
      split_ifs at h with hwaits
      obtain rfl := Option.some.inj h
      exact .team (by simpa using hwaits)

theorem consumed_of_invalidated {now : ℤ} {accountId invitationId key : String}
    {excluded : Option String} {token : EmailTokenRow}
    (h : invalidated now accountId invitationId excluded key token = true) :
    token.consumedAt = none := by
  simp only [invalidated, Bool.and_eq_true, decide_eq_true_eq] at h
  exact h.1.2.1

theorem createStep_move {creation : Creation} {stage : CreateStage}
    (h : createStep w s pid given creation stage = some s') :
    Move w s pid (.create creation stage) s' := by
  cases stage with
  | started =>
      obtain rfl := Option.some.inj h
      exact .quiet (.listed creation)
  | listed existing =>
      cases existing with
      | none =>
          simp only [createStep] at h
          split_ifs at h with htaken
          obtain rfl := Option.some.inj h
          exact .newInvitation fun cell hcell hkey =>
            htaken (List.any_eq_true.mpr ⟨cell, hcell, decide_eq_true hkey⟩)
      | some existing =>
          simp only [createStep] at h
          split_ifs at h with haffects hwaits
          · obtain ⟨t, ht, rfl⟩ := Option.map_eq_some_iff.mp h
            obtain ⟨hwaits, rfl⟩ := updateInvitations_some ht
            exact .invitations (.again haffects) hwaits
          · obtain rfl := Option.some.inj h
            exact .stop _
  | written invitationId =>
      simp only [createStep] at h
      split_ifs at h with htaken
      obtain rfl := Option.some.inj h
      exact .newToken fun cell hcell hkey =>
        htaken (List.any_eq_true.mpr ⟨cell, hcell, decide_eq_true hkey⟩)
  | issued invitationId tokenId expiresAt =>
      obtain ⟨t, ht, rfl⟩ := Option.map_eq_some_iff.mp h
      obtain ⟨hwaits, rfl⟩ := updateInvitations_some ht
      exact .invitations (.sent creation invitationId tokenId expiresAt) hwaits
  | marked invitationId tokenId =>
      obtain ⟨t, ht, rfl⟩ := Option.map_eq_some_iff.mp h
      obtain ⟨hwaits, rfl⟩ := consumeTokens_some ht
      exact .tokens (.others creation invitationId tokenId) hwaits
  | finished => cases h

theorem acceptStep_move {tokenHash : String} {stage : AcceptStage}
    (h : acceptStep w s pid given tokenHash stage = some s') :
    Move w s pid (.accept tokenHash stage) s' := by
  cases stage with
  | started =>
      simp only [acceptStep] at h
      split at h
      · obtain rfl := Option.some.inj h
        exact .quiet (.unknown tokenHash)
      next invitationId _ =>
        obtain rfl := Option.some.inj h
        exact .quiet (.validated tokenHash invitationId)
  | validated invitationId =>
      simp only [acceptStep] at h
      split at h
      · obtain rfl := Option.some.inj h
        exact .quiet (.missing tokenHash invitationId)
      next row hrow =>
        obtain rfl := Option.some.inj h
        exact .quiet (.read given.processNow hrow)
  | expiring row =>
      obtain ⟨t, ht, rfl⟩ := Option.map_eq_some_iff.mp h
      obtain ⟨hwaits, rfl⟩ := updateInvitations_some ht
      exact .invitations (.expired tokenHash row) hwaits
  | expired row =>
      obtain ⟨t, ht, rfl⟩ := Option.map_eq_some_iff.mp h
      obtain ⟨hwaits, rfl⟩ := consumeTokens_some ht
      exact .tokens (.expired tokenHash row) hwaits
  | reread row =>
      simp only [acceptStep] at h
      obtain rfl := Option.some.inj h
      split_ifs with hopen
      · exact .quiet (.reopened rfl hopen)
      · exact .quiet (.reread hopen)
  | opened row =>
      obtain ⟨t, ht, rfl⟩ := Option.map_eq_some_iff.mp h
      obtain ⟨hwaits, rfl⟩ := consumeTokens_some ht
      dsimp only
      split_ifs with hclaimed
      · exact .tokens (.claimed hclaimed) hwaits
      · exact .tokens (.missed tokenHash row) hwaits
  | claimed row =>
      simp only [acceptStep] at h
      split at h
      · cases h
      next named hnamed =>
        obtain rfl := Option.some.inj h
        exact .quiet (.granting hnamed)
  | granting row rest =>
      cases rest with
      | nil =>
          obtain ⟨t, ht, rfl⟩ := Option.map_eq_some_iff.mp h
          obtain ⟨hwaits, rfl⟩ := consumeTokens_some ht
          exact .tokens (.rest tokenHash row) hwaits
      | cons grant rest =>
          obtain ⟨t, ht, rfl⟩ := Option.map_eq_some_iff.mp h
          exact grant_move ht
  | invalidated row =>
      simp only [acceptStep] at h
      split_ifs at h with haffects
      · obtain ⟨t, ht, rfl⟩ := Option.map_eq_some_iff.mp h
        obtain ⟨hwaits, rfl⟩ := updateInvitations_some ht
        exact .invitations (.accepted haffects) hwaits
      · obtain rfl := Option.some.inj h
        exact .stop _
  | accepted row => cases h
  | ended => cases h

theorem between_settle (goal : Goal) (row : InvitationRow) : Between (settle goal row) := by
  unfold settle
  split
  · trivial
  · split_ifs <;> trivial
  · split_ifs <;> trivial

theorem manageStep_move {goal : Goal} {stage : ManageStage}
    (h : manageStep s pid given goal stage = some s') :
    Move w s pid (.manage goal stage) s' := by
  cases stage with
  | started invitationId =>
      simp only [manageStep] at h
      split at h
      · obtain rfl := Option.some.inj h
        exact .between trivial trivial
      next row _ =>
        obtain rfl := Option.some.inj h
        refine .between trivial ?_
        split_ifs
        · trivial
        · exact between_settle goal row
  | expiring row =>
      obtain ⟨t, ht, rfl⟩ := Option.map_eq_some_iff.mp h
      obtain ⟨hwaits, rfl⟩ := updateInvitations_some ht
      refine .settle trivial trivial (fun key row' habout => ?_) hwaits
      exact not_settled_of_open ((Bool.and_eq_true _ _).mp habout).2
  | expired row =>
      obtain ⟨t, ht, rfl⟩ := Option.map_eq_some_iff.mp h
      obtain ⟨hwaits, rfl⟩ := consumeTokens_some ht
      exact .invalidate trivial trivial (fun _ _ => consumed_of_invalidated) hwaits
  | reread row =>
      obtain rfl := Option.some.inj h
      exact .between trivial (between_settle goal _)
  | manageable row =>
      simp only [manageStep] at h
      split_ifs at h with hcancel
      obtain ⟨t, ht, rfl⟩ := Option.map_eq_some_iff.mp h
      obtain ⟨hwaits, rfl⟩ := consumeTokens_some ht
      exact .invalidate trivial trivial (fun _ _ => consumed_of_invalidated) hwaits
  | invalidated row =>
      obtain ⟨t, ht, rfl⟩ := Option.map_eq_some_iff.mp h
      obtain ⟨hwaits, rfl⟩ := updateInvitations_some ht
      refine .settle trivial trivial (fun key row' habout => ?_) hwaits
      exact not_settled_of_cancellable ((Bool.and_eq_true _ _).mp habout).2

/-- Every step is a move. -/
theorem step_move {statement : Statement} (h : step w s (pid, statement) = some s') :
    Move w s pid (s.phase pid) s' := by
  unfold step at h
  dsimp only at h
  generalize s.phase pid = phase at h ⊢
  cases statement with
  | start call =>
      cases phase with
      | idle =>
          obtain rfl := Option.some.inj h
          refine .between trivial ?_
          cases call <;> trivial
      | _ => cases h
  | run given =>
      cases phase with
      | idle => cases h
      | create creation stage => exact createStep_move h
      | accept tokenHash stage => exact acceptStep_move h
      | manage goal stage => exact manageStep_move h
  | resend creation =>
      cases phase with
      | manage goal stage =>
          cases goal with
          | resend =>
              cases stage with
              | manageable row =>
                  obtain rfl := Option.some.inj h
                  exact .between trivial trivial
              | _ => cases h
          | _ => cases h
      | _ => cases h
  | commit =>
      have hstep : (if commits phase then some ((s.commit pid).setPhase pid .idle) else none) =
          some s' := by
        cases phase <;> exact h
      split_ifs at hstep with hcommits
      obtain rfl := Option.some.inj hstep
      exact .commit hcommits
  | stop =>
      have hstep : some ((s.rollback pid).setPhase pid .idle) = some s' := by
        cases phase <;> exact h
      obtain rfl := Option.some.inj hstep
      exact .stop phase

end Cases

end InvitationMoves
