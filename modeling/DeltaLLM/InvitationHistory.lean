import DeltaLLM.InvitationSafety

/-! # Where invitation updates come from

An acceptance works on an invitation that was committed as it read it, and a repeated invitation on
one that was open when it was listed.
-/
namespace InvitationHistory

open AcceptedMemberships
open InvitationAcceptance
open InvitationLifecycle
open InvitationMoves
open InvitationRuns
open InvitationSafety
open RowVersions
open TransitionRuns

variable {w : LifecycleService} {s s' : State} {pid other : ℕ} {phase phase' : Phase}

variable (w) in
/-- Earlier in the run the committed invitation was such a row. -/
def Was (s : State) (invitationId : String) (P : InvitationRow → Prop) : Prop :=
  ∃ t row, Reachable (lifecycleSystem w) t ∧ Later (lifecycleSystem w) t s ∧
    committedAt invitationId t.invitations = some row ∧ P row

variable (w) in
def WasOpen (s : State) (invitationId : String) : Prop :=
  Was w s invitationId fun row => row.status.isOpen = true

variable (w) in
/-- The row was committed as it is. -/
def WasRead (s : State) (row : InvitationRow) : Prop :=
  Was w s row.invitationId fun old => old = row

variable (w) in
/-- A repeated invitation writes its own invitation only, and only one that was open. -/
def Rewrites (s : State) (pid : ℕ) (creation : Creation) (invitationId : String)
    (status : InvitationStatus) : Prop :=
  ∀ cell ∈ s.invitations, ∀ new, cell.pending = some (pid, new) →
    cell.key = invitationId ∧ new.status = status ∧ new.metadata = some creation.metadata ∧
      ∀ old, cell.committed = some old → WasOpen w s invitationId

/-- The process has expired the invitation, if anything. -/
def Expires (s : State) (pid : ℕ) (row : InvitationRow) : Prop :=
  ∀ cell ∈ s.invitations, ∀ new, cell.pending = some (pid, new) →
    cell.key = row.invitationId ∧ new.status = .expired ∧
      ∀ old, cell.committed = some old → ¬Settled old.status

/-- The process has not written accepted or cancelled invitations. -/
def SparesSettled (pid : ℕ) (table : List (Cell String InvitationRow)) : Prop :=
  ∀ cell ∈ table, cell.OwnedBy pid → ∀ old, cell.committed = some old → ¬Settled old.status

/-- The process has accepted the invitation, which is open to everyone else. -/
def Accepts (s : State) (pid : ℕ) (invitationId : String) : Prop :=
  ∃ cell ∈ s.invitations, ∃ old, cell.key = invitationId ∧ cell.committed = some old ∧
    old.status.isOpen = true ∧ cell.pending = some (pid, withStatus .accepted old)

variable (w) in
/-- What the process has done to invitations where it is. -/
def InvitationsAt (s : State) (pid : ℕ) : Phase → Prop
  | .create _ (.listed (some existing)) => Untouched pid s.invitations ∧ WasOpen w s existing
  | .create creation (.written invitationId) | .create creation (.issued invitationId _ _) =>
      Rewrites w s pid creation invitationId .pending ∧
        ∃ cell ∈ s.invitations, cell.key = invitationId ∧ cell.OwnedBy pid
  | .create creation (.marked invitationId _) => Rewrites w s pid creation invitationId .sent
  | .create creation .finished => ∃ invitationId, Rewrites w s pid creation invitationId .sent
  | .accept _ (.expired row) | .accept _ (.reread row) => Expires s pid row ∧ WasRead w s row
  | .accept _ (.expiring row) | .accept _ (.opened row) | .accept _ (.claimed row)
  | .accept _ (.granting row _) | .accept _ (.invalidated row) =>
      Untouched pid s.invitations ∧ WasRead w s row
  | .accept _ (.accepted row) =>
      Accepts s pid row.invitationId ∧ SparesSettled pid s.invitations ∧ WasRead w s row
  | .accept _ .ended => SparesSettled pid s.invitations
  | _ => Untouched pid s.invitations

/-! ## The past of a run -/

theorem Was.later {invitationId : String} {P : InvitationRow → Prop}
    (hlater : Later (lifecycleSystem w) s s') (h : Was w s invitationId P) :
    Was w s' invitationId P := by
  obtain ⟨t, row, ht, hpast, hrow⟩ := h
  exact ⟨t, row, ht, hpast.trans hlater, hrow⟩

theorem was_now {invitationId : String} {P : InvitationRow → Prop} {row : InvitationRow}
    (hs : Reachable (lifecycleSystem w) s)
    (hrow : committedAt invitationId s.invitations = some row)
    (hP : P row) : Was w s invitationId P :=
  ⟨s, row, hs, .refl, hrow, hP⟩

theorem sparesSettled_of_untouched (h : Untouched pid s.invitations) :
    SparesSettled pid s.invitations :=
  fun cell hcell hown => absurd hown (h cell hcell)

theorem Expires.sparesSettled {row : InvitationRow} (h : Expires s pid row) :
    SparesSettled pid s.invitations := by
  rintro cell hcell ⟨new, hnew⟩
  exact (h cell hcell new hnew).2.2

/-- What the process has written is still there later. -/
theorem InvitationsAt.later (hsame : OwnedSame pid s.invitations s'.invitations)
    (hlater : Later (lifecycleSystem w) s s') (h : InvitationsAt w s pid phase) :
    InvitationsAt w s' pid phase := by
  have hrewrites : ∀ {creation invitationId status},
      Rewrites w s pid creation invitationId status →
        Rewrites w s' pid creation invitationId status := by
    intro creation invitationId status hrewrites cell hcell new hnew
    obtain ⟨hkey, hstatus, hmetadata, hopen⟩ :=
      hrewrites cell ((hsame cell ⟨new, hnew⟩).mp hcell) new hnew
    exact ⟨hkey, hstatus, hmetadata, fun old hold => (hopen old hold).later hlater⟩
  have hspares : SparesSettled pid s.invitations → SparesSettled pid s'.invitations :=
    fun hspares cell hcell hown => hspares cell ((hsame cell hown).mp hcell) hown
  unfold InvitationsAt at h ⊢
  split at h
  · exact ⟨hsame.untouched h.1, h.2.later hlater⟩
  · obtain ⟨hwrites, cell, hcell, hkey, hown⟩ := h
    exact ⟨hrewrites hwrites, cell, (hsame cell hown).mpr hcell, hkey, hown⟩
  · obtain ⟨hwrites, cell, hcell, hkey, hown⟩ := h
    exact ⟨hrewrites hwrites, cell, (hsame cell hown).mpr hcell, hkey, hown⟩
  · exact hrewrites h
  · obtain ⟨invitationId, hwrites⟩ := h
    exact ⟨invitationId, hrewrites hwrites⟩
  · exact ⟨fun cell hcell new hnew => h.1 cell ((hsame cell ⟨new, hnew⟩).mp hcell) new hnew,
      h.2.later hlater⟩
  · exact ⟨fun cell hcell new hnew => h.1 cell ((hsame cell ⟨new, hnew⟩).mp hcell) new hnew,
      h.2.later hlater⟩
  · exact ⟨hsame.untouched h.1, h.2.later hlater⟩
  · exact ⟨hsame.untouched h.1, h.2.later hlater⟩
  · exact ⟨hsame.untouched h.1, h.2.later hlater⟩
  · exact ⟨hsame.untouched h.1, h.2.later hlater⟩
  · exact ⟨hsame.untouched h.1, h.2.later hlater⟩
  · obtain ⟨⟨cell, hcell, old, hkey, hold, hopen, hnew⟩, hsettled, hread⟩ := h
    exact ⟨⟨cell, (hsame cell ⟨_, hnew⟩).mpr hcell, old, hkey, hold, hopen, hnew⟩,
      hspares hsettled, hread.later hlater⟩
  · exact hspares h
  · exact hsame.untouched h

theorem InvitationsAt.kept (hlater : Later (lifecycleSystem w) s s')
    (htable : s'.invitations = s.invitations) (h : InvitationsAt w s pid phase) :
    InvitationsAt w s' pid phase :=
  h.later (htable ▸ .refl pid s.invitations) hlater

theorem invitationsAt_between (h : Between phase) :
    InvitationsAt w s pid phase = Untouched pid s.invitations := by
  cases phase with
  | idle => rfl
  | manage goal stage => rfl
  | create creation stage =>
      cases stage with
      | started => rfl
      | _ => exact h.elim
  | accept tokenHash stage =>
      cases stage with
      | started => rfl
      | _ => exact h.elim

/-! ## Reading -/

theorem committedAt_of_view (hsound : Sound s) (hnone : Untouched pid s.invitations)
    {invitationId : String} {row : InvitationRow}
    (h : viewAt pid invitationId s.invitations = some row) :
    committedAt invitationId s.invitations = some row ∧ row.invitationId = invitationId := by
  obtain ⟨cell, hcell, rfl, hview⟩ := viewAt_some h
  refine ⟨?_, hsound.ids.view hcell hview⟩
  rw [committedAt_key hsound.invitationIds hcell, ← hnone.view hcell]
  exact hview

/-- The invitation that is found again is open. -/
theorem existingInvitation_open (hsound : Sound s) (hnone : Untouched pid s.invitations)
    {creation : Creation} {existing : String}
    (h : existingInvitation w pid creation s.invitations = some existing) :
    ∃ row, committedAt existing s.invitations = some row ∧ row.status.isOpen = true := by
  unfold existingInvitation at h
  obtain ⟨entry, hentry, rfl⟩ := Option.map_eq_some_iff.mp h
  have hmem := (List.mem_insertionSort _).mp (List.mem_of_find?_eq_some hentry)
  obtain ⟨hvisible, hpending⟩ := List.mem_filter.mp hmem
  obtain ⟨cell, hcell, hview⟩ := List.mem_filterMap.mp hvisible
  obtain ⟨row, hrow, rfl⟩ := Option.map_eq_some_iff.mp hview
  refine ⟨row, ?_, ((Bool.and_eq_true _ _).mp hpending).2⟩
  rw [committedAt_key hsound.invitationIds hcell, ← hnone.view hcell]
  exact hrow

/-- An invitation that the process has expired is not open when it reads it again. -/
theorem untouched_of_reopened (hsound : Sound s) {row refreshed : InvitationRow}
    (hexpires : Expires s pid row)
    (hread : (viewAt pid row.invitationId s.invitations).getD row = refreshed)
    (hopen : refreshed.status.isOpen = true) : Untouched pid s.invitations := by
  rintro cell hcell ⟨new, hnew⟩
  obtain ⟨hkey, hexpired, -⟩ := hexpires cell hcell new hnew
  rw [← hkey, viewAt_key hsound.invitationIds hcell, Cell.view_of_owned hnew] at hread
  rw [← hread, Option.getD_some, hexpired] at hopen
  exact absurd hopen (by decide)

theorem InvitationsAt.quiet (hs : Reachable (lifecycleSystem w) s)
    (hquiet : Quiet w s pid phase phase') (h : InvitationsAt w s pid phase) :
    InvitationsAt w s pid phase' := by
  have hsound := sound_of_reachable hs
  cases hquiet with
  | listed creation =>
      cases hexisting : existingInvitation w pid creation s.invitations with
      | none => exact h
      | some existing =>
          obtain ⟨row, hrow, hopen⟩ := existingInvitation_open hsound h hexisting
          exact ⟨h, was_now hs hrow hopen⟩
  | unknown tokenHash => exact sparesSettled_of_untouched h
  | validated tokenHash invitationId => exact h
  | missing tokenHash invitationId => exact sparesSettled_of_untouched h
  | read processNow hrow =>
      obtain ⟨hcommitted, hid⟩ := committedAt_of_view hsound h hrow
      subst hid
      have hread := was_now (P := fun old => old = _) hs hcommitted rfl
      unfold afterRead
      split_ifs
      · exact ⟨h, hread⟩
      · exact ⟨h, hread⟩
      · exact sparesSettled_of_untouched h
  | reread _ => exact h.1.sparesSettled
  | @reopened tokenHash row refreshed hread hopen =>
      have hnone := untouched_of_reopened hsound h.1 hread hopen
      refine ⟨hnone, ?_⟩
      cases hview : viewAt pid row.invitationId s.invitations with
      | none =>
          rw [hview] at hread
          exact hread ▸ h.2
      | some seen =>
          rw [hview] at hread
          obtain rfl : seen = refreshed := hread
          obtain ⟨hcommitted, hid⟩ := committedAt_of_view hsound hnone hview
          rw [← hid] at hcommitted
          exact was_now hs hcommitted rfl
  | granting hnamed => exact h

/-! ## Writing -/

theorem sparesSettled_update {about : String → InvitationRow → Bool}
    (set : InvitationRow → InvitationRow) (hnone : Untouched pid s.invitations)
    (habout : ∀ key row, about key row = true → ¬Settled row.status) :
    SparesSettled pid (update pid about set s.invitations) := by
  rintro cell hcell ⟨new, hnew⟩ old hold
  obtain ⟨written, hwritten, hwas, -⟩ := hnone.written_update hcell hnew
  obtain rfl := Option.some.inj (hwritten.symm.trans hold)
  exact habout _ _ hwas

theorem not_settled_of_openById {invitationId key : String} {row : InvitationRow}
    (h : openById invitationId key row = true) : ¬Settled row.status :=
  not_settled_of_open ((Bool.and_eq_true _ _).mp h).2

theorem expires_update {row : InvitationRow} (hnone : Untouched pid s.invitations)
    (htable : s'.invitations =
      update pid (openById row.invitationId) (withStatus .expired) s.invitations) :
    Expires s' pid row := by
  intro cell hcell new hnew
  rw [htable] at hcell
  obtain ⟨written, hwritten, habout, rfl⟩ := hnone.written_update hcell hnew
  refine ⟨of_decide_eq_true ((Bool.and_eq_true _ _).mp habout).1, rfl, fun old hold => ?_⟩
  obtain rfl := Option.some.inj (hwritten.symm.trans hold)
  exact not_settled_of_openById habout

theorem accepts_update {invitationId : String} (hnone : Untouched pid s.invitations)
    (haffects : affects pid (openById invitationId) s.invitations = true)
    (htable : s'.invitations =
      update pid (openById invitationId) (withStatus .accepted) s.invitations) :
    Accepts s' pid invitationId := by
  obtain ⟨cell, hcell, row, hview, habout⟩ := affects_some haffects
  have hcommitted : cell.committed = some row := (hnone.view hcell).symm.trans hview
  have hwritten : cell.update pid (openById invitationId) (withStatus .accepted) =
      { cell with pending := some (pid, withStatus .accepted row) } := by
    simp [Cell.update, hview, habout]
  refine ⟨{ cell with pending := some (pid, withStatus .accepted row) }, ?_, row, ?_, hcommitted,
    ((Bool.and_eq_true _ _).mp habout).2, rfl⟩
  · rw [htable]
    exact List.mem_map.mpr ⟨cell, hcell, hwritten⟩
  · exact of_decide_eq_true ((Bool.and_eq_true _ _).mp habout).1

/-- The second update of a repeated invitation finds what the first has written. -/
theorem rewrites_sent (hsound : Sound s) {creation : Creation} {invitationId : String} {sentAt : ℤ}
    (hlater : Later (lifecycleSystem w) s s')
    (h : Rewrites w s pid creation invitationId .pending)
    (hwritten : ∃ cell ∈ s.invitations, cell.key = invitationId ∧ cell.OwnedBy pid)
    (htable : s'.invitations =
      update pid (byId invitationId) (markSent creation sentAt) s.invitations) :
    Rewrites w s' pid creation invitationId .sent := by
  intro cell' hcell' new hnew
  rw [htable] at hcell'
  obtain ⟨cell, hcell, rfl⟩ := List.mem_map.mp hcell'
  rcases cell.update_cases pid (byId invitationId) (markSent creation sentAt) with
    heq | ⟨seen, -, habout, heq⟩
  · -- What the process has written before has the key, so that it is written again.
    rw [heq] at hnew
    obtain ⟨hkey, -⟩ := h cell hcell new hnew
    have hagain : cell.update pid (byId invitationId) (markSent creation sentAt) =
        { cell with pending := some (pid, markSent creation sentAt new) } := by
      simp [Cell.update, Cell.view_of_owned hnew, byId, hkey]
    rw [heq] at hagain
    have hfixed : new = markSent creation sentAt new := by
      rw [hagain] at hnew
      exact (Prod.mk.inj (Option.some.inj hnew)).2.symm
    obtain ⟨-, -, -, hopen⟩ := h cell hcell new hnew
    rw [heq]
    refine ⟨hkey, ?_, ?_, fun old hold => (hopen old hold).later hlater⟩
    · rw [hfixed]
      rfl
    · rw [hfixed]
      rfl
  · have hkey : cell.key = invitationId := of_decide_eq_true habout
    rw [heq] at hnew ⊢
    obtain ⟨-, rfl⟩ := Prod.mk.inj (Option.some.inj hnew)
    refine ⟨hkey, rfl, rfl, fun old hold => ?_⟩
    obtain ⟨own, hown, hownKey, row, hrow⟩ := hwritten
    obtain rfl := eq_of_key hsound.invitationIds hcell hown (hkey.trans hownKey.symm)
    exact ((h cell hcell row hrow).2.2.2 old hold).later hlater

theorem InvitationsAt.write {about : String → InvitationRow → Bool}
    {set : InvitationRow → InvitationRow} (hsound : Sound s)
    (hlater : Later (lifecycleSystem w) s s')
    (htable : s'.invitations = update pid about set s.invitations)
    (hwrite : InvitationWrite s pid phase about set phase') (h : InvitationsAt w s pid phase) :
    InvitationsAt w s' pid phase' := by
  cases hwrite with
  | @again creation existing haffects =>
      obtain ⟨hnone, hopen⟩ := h
      refine ⟨fun cell hcell new hnew => ?_, ?_⟩
      · rw [htable] at hcell
        obtain ⟨old, -, habout, rfl⟩ := hnone.written_update hcell hnew
        exact ⟨of_decide_eq_true habout, rfl, rfl, fun _ _ => hopen.later hlater⟩
      · obtain ⟨cell, hcell, row, hview, habout⟩ := affects_some haffects
        have hwritten : cell.update pid (byId existing) (pendingAgain creation) =
            { cell with pending := some (pid, pendingAgain creation row) } := by
          simp [Cell.update, hview, habout]
        rw [htable]
        exact ⟨_, List.mem_map.mpr ⟨cell, hcell, hwritten⟩, of_decide_eq_true habout, _, rfl⟩
  | sent creation invitationId tokenId sentAt => exact rewrites_sent hsound hlater h.1 h.2 htable
  | expired tokenHash row => exact ⟨expires_update h.1 htable, h.2.later hlater⟩
  | accepted haffects =>
      refine ⟨accepts_update h.1 haffects htable, ?_, h.2.later hlater⟩
      rw [htable]
      exact sparesSettled_update _ h.1 fun _ _ => not_settled_of_openById

theorem InvitationsAt.insert {creation : Creation} {given : Given}
    (hnone : Untouched pid s.invitations)
    (htable : s'.invitations =
      RowVersions.insert pid given.newId (newInvitation creation given) s.invitations) :
    InvitationsAt w s' pid (.create creation (.written given.newId)) := by
  refine ⟨fun cell hcell new hnew => ?_, ?_⟩
  · rw [htable] at hcell
    rcases mem_insert.mp hcell with hold | rfl
    · exact absurd ⟨new, hnew⟩ (hnone cell hold)
    · obtain ⟨-, rfl⟩ := Prod.mk.inj (Option.some.inj hnew)
      exact ⟨rfl, rfl, rfl, fun old hold => absurd hold (Option.some_ne_none old).symm⟩
  · rw [htable]
    exact ⟨_, mem_insert.mpr (Or.inr rfl), rfl, _, rfl⟩

theorem InvitationsAt.move (hs : Reachable (lifecycleSystem w) s)
    (hlater : Later (lifecycleSystem w) s s') (hmove : Move w s pid phase s')
    (h : InvitationsAt w s pid phase) : InvitationsAt w s' pid (s'.phase pid) := by
  have hsound := sound_of_reachable hs
  cases hmove with
  | between hphase hphase' =>
      rw [setPhase_self, invitationsAt_between hphase']
      rw [invitationsAt_between hphase] at h
      exact h
  | quiet hquiet =>
      rw [setPhase_self]
      exact (InvitationsAt.quiet hs hquiet h).kept hlater rfl
  | invitations hwrite _ =>
      rw [setPhase_self]
      exact h.write hsound hlater rfl hwrite
  | tokens hwrite _ =>
      rw [setPhase_self]
      have hkept := h.kept hlater rfl
      cases hwrite with
      | others creation invitationId tokenId => exact ⟨invitationId, hkept⟩
      | missed tokenHash row => exact sparesSettled_of_untouched hkept.1
      | _ => exact hkept
  | newInvitation _ =>
      rw [setPhase_self]
      exact InvitationsAt.insert h rfl
  | newToken _ =>
      rw [setPhase_self]
      exact h.kept hlater rfl
  | organization _ =>
      rw [setPhase_self]
      exact h.kept hlater rfl
  | team _ =>
      rw [setPhase_self]
      exact h.kept hlater rfl
  | settle _ hphase' _ _ =>
      rw [setPhase_self, invitationsAt_between hphase']
      exact untouched_commit
  | invalidate _ hphase' _ _ =>
      rw [setPhase_self, invitationsAt_between hphase']
      exact untouched_commit
  | commit _ =>
      rw [setPhase_self]
      exact untouched_commit
  | stop _ =>
      rw [setPhase_self]
      exact untouched_rollback

theorem later_of_enabled {e : ℕ × Statement} (h : (lifecycleSystem w).enabled s e) :
    Later (lifecycleSystem w) s ((lifecycleSystem w).next s e) :=
  .single ⟨e, h, rfl⟩

theorem invitationsAt_of_reachable (hs : Reachable (lifecycleSystem w) s) :
    ∀ pid, InvitationsAt w s pid (s.phase pid) := by
  refine ReachableBy.invariant_under (Q := Reachable (lifecycleSystem w))
    (P := fun s => ∀ pid, InvitationsAt w s pid (s.phase pid)) (fun _ h => h)
    (fun s h pid => ?_) (fun s e hs h he _ => ?_) hs
  · rw [h.idle pid]
    exact untouched_of_none h.invitations pid
  · have hmove := move_of_enabled he
    have hlater := later_of_enabled he
    refine forall_process h hmove (fun other _ hne h => ?_) (InvitationsAt.move hs hlater hmove)
    exact h.later ((Move.othersKept hmove).invitations other hne) hlater

end InvitationHistory
