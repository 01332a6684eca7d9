import DeltaLLM.InvitationMoves

/-! # What runs of invitation processes keep

Keys stay unique and a consumed token is never written again. What a process has written so far is
told by where it is in its call; the steps of the others leave that alone.
-/
namespace InvitationRuns

open AcceptedMemberships
open InvitationAcceptance
open InvitationLifecycle
open InvitationMoves
open RowVersions
open TransitionRuns

variable {w : LifecycleService} {s s' : State} {pid other : ℕ} {phase : Phase}

section Tables

@[simp] theorem setPhase_self : (s.setPhase pid phase).phase pid = phase := by
  simp [State.setPhase]

@[simp] theorem setPhase_invitations : (s.setPhase pid phase).invitations = s.invitations := rfl

@[simp] theorem setPhase_tokens : (s.setPhase pid phase).tokens = s.tokens := rfl

@[simp] theorem setPhase_organizations : (s.setPhase pid phase).organizations = s.organizations :=
  rfl

@[simp] theorem setPhase_teams : (s.setPhase pid phase).teams = s.teams := rfl

end Tables

/-! ## Other processes -/

/-- What the step of a process leaves to the others. -/
structure OthersKept (pid : ℕ) (s s' : State) : Prop where
  phase : ∀ other, other ≠ pid → s'.phase other = s.phase other
  invitations : ∀ other, other ≠ pid → OwnedSame other s.invitations s'.invitations
  tokens : ∀ other, other ≠ pid → OwnedSame other s.tokens s'.tokens
  organizations : ∀ other, other ≠ pid → OwnedSame other s.organizations s'.organizations
  teams : ∀ other, other ≠ pid → OwnedSame other s.teams s'.teams

theorem OthersKept.trans {s'' : State} (h : OthersKept pid s s') (h' : OthersKept pid s' s'') :
    OthersKept pid s s'' where
  phase other hne := (h'.phase other hne).trans (h.phase other hne)
  invitations other hne := (h.invitations other hne).trans (h'.invitations other hne)
  tokens other hne := (h.tokens other hne).trans (h'.tokens other hne)
  organizations other hne := (h.organizations other hne).trans (h'.organizations other hne)
  teams other hne := (h.teams other hne).trans (h'.teams other hne)

theorem othersKept_setPhase (s : State) (pid : ℕ) (phase : Phase) :
    OthersKept pid s (s.setPhase pid phase) where
  phase _ hne := Function.update_of_ne hne _ _
  invitations _ _ := .refl _ _
  tokens _ _ := .refl _ _
  organizations _ _ := .refl _ _
  teams _ _ := .refl _ _

theorem othersKept_commit (s : State) (pid : ℕ) : OthersKept pid s (s.commit pid) where
  phase _ _ := rfl
  invitations _ hne := ownedSame_commit hne
  tokens _ hne := ownedSame_commit hne
  organizations _ hne := ownedSame_commit hne
  teams _ hne := ownedSame_commit hne

theorem othersKept_rollback (s : State) (pid : ℕ) : OthersKept pid s (s.rollback pid) where
  phase _ _ := rfl
  invitations _ hne := ownedSame_rollback hne
  tokens _ hne := ownedSame_rollback hne
  organizations _ hne := ownedSame_rollback hne
  teams _ hne := ownedSame_rollback hne

theorem othersKept_invitations {table : List (Cell String InvitationRow)}
    (h : ∀ other, other ≠ pid → OwnedSame other s.invitations table) :
    OthersKept pid s { s with invitations := table } where
  phase _ _ := rfl
  invitations := h
  tokens _ _ := .refl _ _
  organizations _ _ := .refl _ _
  teams _ _ := .refl _ _

theorem othersKept_tokens {table : List (Cell String EmailTokenRow)}
    (h : ∀ other, other ≠ pid → OwnedSame other s.tokens table) :
    OthersKept pid s { s with tokens := table } where
  phase _ _ := rfl
  invitations _ _ := .refl _ _
  tokens := h
  organizations _ _ := .refl _ _
  teams _ _ := .refl _ _

theorem Move.othersKept (h : Move w s pid phase s') : OthersKept pid s s' := by
  cases h with
  | between _ _ => exact othersKept_setPhase s pid _
  | quiet _ => exact othersKept_setPhase s pid _
  | invitations _ hwaits =>
      exact (othersKept_invitations fun _ => ownedSame_update hwaits).trans
        (othersKept_setPhase _ pid _)
  | tokens _ hwaits =>
      exact (othersKept_tokens fun _ => ownedSame_update hwaits).trans (othersKept_setPhase _ pid _)
  | newInvitation _ =>
      exact (othersKept_invitations fun _ => ownedSame_insert).trans (othersKept_setPhase _ pid _)
  | newToken _ =>
      exact (othersKept_tokens fun _ => ownedSame_insert).trans (othersKept_setPhase _ pid _)
  | organization hwaits =>
      refine OthersKept.trans ?_ (othersKept_setPhase _ pid _)
      exact ⟨fun _ _ => rfl, fun _ _ => .refl _ _, fun _ _ => .refl _ _,
        fun _ => ownedSame_upsert hwaits, fun _ _ => .refl _ _⟩
  | team hwaits =>
      refine OthersKept.trans ?_ (othersKept_setPhase _ pid _)
      exact ⟨fun _ _ => rfl, fun _ _ => .refl _ _, fun _ _ => .refl _ _, fun _ _ => .refl _ _,
        fun _ => ownedSame_upsert hwaits⟩
  | settle _ _ _ hwaits =>
      exact ((othersKept_invitations fun _ => ownedSame_update hwaits).trans
        (othersKept_commit _ pid)).trans (othersKept_setPhase _ pid _)
  | invalidate _ _ _ hwaits =>
      exact ((othersKept_tokens fun _ => ownedSame_update hwaits).trans
        (othersKept_commit _ pid)).trans (othersKept_setPhase _ pid _)
  | commit _ => exact (othersKept_commit s pid).trans (othersKept_setPhase _ pid _)
  | stop _ => exact (othersKept_rollback s pid).trans (othersKept_setPhase _ pid _)

/-- What holds of every process where it is, when the steps of the others leave it alone and its own
steps keep it. -/
theorem forall_process {At : State → ℕ → Phase → Prop} (h : ∀ other, At s other (s.phase other))
    (hmove : Move w s pid (s.phase pid) s')
    (hframe : ∀ other phase, other ≠ pid → At s other phase → At s' other phase)
    (hown : At s pid (s.phase pid) → At s' pid (s'.phase pid)) :
    ∀ other, At s' other (s'.phase other) := by
  intro other
  by_cases hother : other = pid
  · subst hother
    exact hown (h other)
  · rw [(Move.othersKept hmove).phase other hother]
    exact hframe other _ hother (h other)

/-! ## Tables -/

/-- A consumed token stays as it is. -/
def StaysConsumed (old new : EmailTokenRow) : Prop := old.consumedAt ≠ none → new = old

theorem StaysConsumed.refl (token : EmailTokenRow) : StaysConsumed token token := fun _ => rfl

theorem StaysConsumed.trans (a b c : EmailTokenRow) (h : StaysConsumed a b)
    (h' : StaysConsumed b c) : StaysConsumed a c := by
  intro hconsumed
  have heq := h hconsumed
  rw [heq] at h'
  exact h' hconsumed

structure Sound (s : State) : Prop where
  invitationIds : (s.invitations.map Cell.key).Nodup
  tokenIds : (s.tokens.map Cell.key).Nodup
  organizationKeys : (s.organizations.map Cell.key).Nodup
  teamKeys : (s.teams.map Cell.key).Nodup
  ids : EveryVersion (fun key row => row.invitationId = key) s.invitations
  consumed : Respects StaysConsumed s.tokens

theorem InvitationWrite.keepsId {about : String → InvitationRow → Bool}
    {set : InvitationRow → InvitationRow} {phase' : Phase}
    (h : InvitationWrite s pid phase about set phase') (row : InvitationRow) :
    (set row).invitationId = row.invitationId := by
  cases h <;> rfl

theorem not_consumed_of_active {now : ℤ} {tokenHash key : String} {token : EmailTokenRow}
    (h : activeHash now tokenHash key token = true) : token.consumedAt = none :=
  (of_decide_eq_true h).2.2.1

theorem TokenWrite.not_consumed {about : String → EmailTokenRow → Bool} {now : ℤ} {phase' : Phase}
    (h : TokenWrite s pid now phase about phase') {key : String} {token : EmailTokenRow}
    (habout : about key token = true) : token.consumedAt = none := by
  cases h with
  | others creation invitationId tokenId => exact consumed_of_invalidated habout
  | expired tokenHash row => exact consumed_of_invalidated habout
  | claimed _ => exact not_consumed_of_active habout
  | missed tokenHash row => exact not_consumed_of_active habout
  | rest tokenHash row => exact consumed_of_invalidated habout

theorem respects_consume {about : String → EmailTokenRow → Bool} {now : ℤ}
    (h : Respects StaysConsumed s.tokens)
    (habout : ∀ key token, about key token = true → token.consumedAt = none) :
    Respects StaysConsumed (update pid about (consume now) s.tokens) := by
  refine h.update StaysConsumed.trans fun cell _ token _ hrow hconsumed => ?_
  exact absurd (habout cell.key token hrow) hconsumed

namespace Sound

theorem commit (h : Sound s) (pid : ℕ) : Sound (s.commit pid) where
  invitationIds := by simpa [State.commit] using h.invitationIds
  tokenIds := by simpa [State.commit] using h.tokenIds
  organizationKeys := by simpa [State.commit] using h.organizationKeys
  teamKeys := by simpa [State.commit] using h.teamKeys
  ids := h.ids.commit
  consumed := h.consumed.commit

theorem rollback (h : Sound s) (pid : ℕ) : Sound (s.rollback pid) where
  invitationIds := by simpa [State.rollback] using h.invitationIds
  tokenIds := by simpa [State.rollback] using h.tokenIds
  organizationKeys := by simpa [State.rollback] using h.organizationKeys
  teamKeys := by simpa [State.rollback] using h.teamKeys
  ids := h.ids.rollback
  consumed := h.consumed.rollback

theorem setPhase (h : Sound s) (pid : ℕ) (phase : Phase) : Sound (s.setPhase pid phase) :=
  ⟨h.invitationIds, h.tokenIds, h.organizationKeys, h.teamKeys, h.ids, h.consumed⟩

theorem update_invitations (h : Sound s) {about : String → InvitationRow → Bool}
    {set : InvitationRow → InvitationRow}
    (hset : ∀ row, (set row).invitationId = row.invitationId) :
    Sound { s with invitations := update pid about set s.invitations } :=
  { h with
    invitationIds := by simpa using h.invitationIds
    ids := h.ids.update fun _ row hrow => (hset row).trans hrow }

theorem update_tokens (h : Sound s) {about : String → EmailTokenRow → Bool} {now : ℤ}
    (habout : ∀ key token, about key token = true → token.consumedAt = none) :
    Sound { s with tokens := update pid about (consume now) s.tokens } :=
  { h with
    tokenIds := by simpa using h.tokenIds
    consumed := respects_consume h.consumed habout }

theorem move (h : Sound s) (hmove : Move w s pid phase s') : Sound s' := by
  cases hmove with
  | between _ _ => exact h.setPhase pid _
  | quiet _ => exact h.setPhase pid _
  | invitations hwrite _ =>
      exact (h.update_invitations (InvitationWrite.keepsId hwrite)).setPhase pid _
  | tokens hwrite _ =>
      exact (h.update_tokens fun _ _ => TokenWrite.not_consumed hwrite).setPhase pid _
  | newInvitation hfresh =>
      refine Sound.setPhase ?_ pid _
      exact { h with
        invitationIds := nodup_insert h.invitationIds hfresh, ids := h.ids.insert rfl }
  | newToken hfresh =>
      refine Sound.setPhase ?_ pid _
      exact { h with tokenIds := nodup_insert h.tokenIds hfresh, consumed := h.consumed.insert }
  | organization _ =>
      refine Sound.setPhase ?_ pid _
      exact { h with organizationKeys := nodup_upsert h.organizationKeys }
  | team _ =>
      refine Sound.setPhase ?_ pid _
      exact { h with teamKeys := nodup_upsert h.teamKeys }
  | @settle _ _ _ status _ _ _ _ =>
      have hkept : ∀ row, (withStatus status row).invitationId = row.invitationId := fun _ => rfl
      exact ((h.update_invitations hkept).commit pid).setPhase pid _
  | invalidate _ _ habout _ => exact ((h.update_tokens habout).commit pid).setPhase pid _
  | commit _ => exact (h.commit pid).setPhase pid _
  | stop _ => exact (h.rollback pid).setPhase pid _

end Sound

/-! ## Runs -/

theorem untouched_of_none {κ ρ : Type} {table : List (Cell κ ρ)}
    (h : ∀ cell ∈ table, cell.pending = none) (pid : ℕ) : Untouched pid table := by
  intro cell hcell hown
  obtain ⟨row, hrow⟩ := hown
  rw [h cell hcell] at hrow
  cases hrow

theorem sound_of_initial (h : Initial s) : Sound s where
  invitationIds := h.invitationIds
  tokenIds := h.tokenIds
  organizationKeys := h.organizationKeys
  teamKeys := h.teamKeys
  ids := h.ids
  consumed cell hcell owner row old hpending := by
    rw [h.tokens cell hcell] at hpending
    cases hpending

theorem move_of_enabled {e : ℕ × Statement} (h : (lifecycleSystem w).enabled s e) :
    Move w s e.1 (s.phase e.1) ((lifecycleSystem w).next s e) := by
  obtain ⟨t, ht⟩ := Option.isSome_iff_exists.mp h
  have hnext : (lifecycleSystem w).next s e = t := by simp [lifecycleSystem, ht]
  rw [hnext]
  exact step_move ht

theorem sound_of_reachable (hs : Reachable (lifecycleSystem w) s) : Sound s :=
  hs.invariant (fun _ => sound_of_initial) fun _ _ h he => h.move (move_of_enabled he)

theorem follows_of_move (h : Sound s) (hmove : Move w s pid phase s') :
    Follows StaysConsumed s.tokens s'.tokens := by
  cases hmove with
  | between _ _ | quiet _ | invitations _ _ | newInvitation _ | organization _ | team _ =>
      exact .refl StaysConsumed.refl _
  | tokens hwrite _ => exact follows_update StaysConsumed.refl
  | newToken _ => exact follows_append StaysConsumed.refl _
  | settle _ _ _ _ => exact h.consumed.follows_commit StaysConsumed.refl
  | invalidate _ _ habout _ =>
      exact (follows_update StaysConsumed.refl).trans StaysConsumed.trans
        ((respects_consume h.consumed habout).follows_commit StaysConsumed.refl)
  | commit _ => exact h.consumed.follows_commit StaysConsumed.refl
  | stop _ => exact follows_rollback StaysConsumed.refl

/-- A consumed token is the same in every later state. -/
theorem consumed_later {t : State} (hs : Reachable (lifecycleSystem w) s)
    (hlater : Later (lifecycleSystem w) s t) {key : String} {token : EmailTokenRow}
    (hconsumed : token.consumedAt ≠ none) (htoken : committedAt key s.tokens = some token) :
    committedAt key t.tokens = some token := by
  refine Later.stable (fun _ => sound_of_reachable)
    (P := fun s => committedAt key s.tokens = some token) ?_ hs hlater htoken
  intro s e hsound htoken he
  have hmove := move_of_enabled he
  obtain ⟨new, hnew, hsame⟩ :=
    (follows_of_move hsound hmove).committedAt (hsound.move hmove).tokenIds htoken
  rwa [hsame hconsumed] at hnew

end InvitationRuns
