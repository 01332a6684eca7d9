import DeltaLLM.BatchChunks

/-! # What a chunk hands back

The `finally` blocks and the tasks of single items hand back every lease and heartbeat. The returns
after a lease loss and the exceptions outside of those blocks leave what the chunk still holds.
-/
namespace ChunkReleases

open AwaitedPrograms AwaitedPrograms.Task
open BatchChunks
open BatchRecords
open EmbeddingPlanner (BatchError PreparedEmbeddingItem)

/-! ## The leases -/

/-- The held leases are distinct and not released yet; every other acquired lease was released
once. -/
structure Ledger (leases : PolicyLeases) : Prop where
  unreleased : ∀ id lease, leases.held id = some lease →
    lease < leases.acquired ∧ leases.releases lease = 0
  apart : ∀ id id' lease, leases.held id = some lease → leases.held id' = some lease → id = id'
  released : ∀ lease < leases.acquired,
    leases.releases lease = 1 ∨ ∃ id, leases.held id = some lease
  notYet : ∀ lease, leases.acquired ≤ lease → leases.releases lease = 0

/-- A lease is still to be released. -/
def Unreleased (leases : PolicyLeases) : Prop :=
  ∃ lease < leases.acquired, leases.releases lease = 0

/-- Every lease was released exactly once and every heartbeat is stopped. -/
structure Settled (s : State) : Prop where
  releasedOnce : ∀ lease < s.leases.acquired, s.leases.releases lease = 1
  stopped : s.running = []

theorem ledger_start : Ledger start.leases := by
  refine ⟨?_, ?_, ?_, ?_⟩
  · intro id lease h
    cases h
  · intro id id' lease h
    cases h
  · intro lease h
    exact absurd h (Nat.not_lt_zero lease)
  · intro lease _
    rfl

theorem Ledger.acquire {leases : PolicyLeases} (h : Ledger leases) {id : String}
    (hfree : leases.held id = none) : Ledger (leases.acquire id) := by
  have hfresh : ∀ other, leases.held other ≠ some leases.acquired := fun other hheld =>
    absurd (h.unreleased other _ hheld).1 (lt_irrefl _)
  refine ⟨?_, ?_, ?_, ?_⟩
  · intro other lease hheld
    by_cases heq : other = id
    · subst heq
      simp only [PolicyLeases.acquire, Function.update_self, Option.some.injEq] at hheld
      subst hheld
      exact ⟨Nat.lt_succ_self _, h.notYet _ le_rfl⟩
    · simp only [PolicyLeases.acquire, Function.update_of_ne heq] at hheld
      have hold := h.unreleased other lease hheld
      exact ⟨Nat.lt_succ_of_lt hold.1, hold.2⟩
  · intro other other' lease hheld hheld'
    by_cases heq : other = id <;> by_cases heq' : other' = id
    · rw [heq, heq']
    · subst heq
      simp only [PolicyLeases.acquire, Function.update_self, Option.some.injEq,
        Function.update_of_ne heq'] at hheld hheld'
      subst hheld
      exact absurd hheld' (hfresh other')
    · subst heq'
      simp only [PolicyLeases.acquire, Function.update_self, Option.some.injEq,
        Function.update_of_ne heq] at hheld hheld'
      subst hheld'
      exact absurd hheld (hfresh other)
    · simp only [PolicyLeases.acquire, Function.update_of_ne heq, Function.update_of_ne heq']
        at hheld hheld'
      exact h.apart other other' lease hheld hheld'
  · intro lease hlt
    rcases Nat.lt_succ_iff_lt_or_eq.mp hlt with hold | hnew
    · rcases h.released lease hold with honce | ⟨other, hheld⟩
      · exact .inl honce
      · have hne : other ≠ id := by
          rintro rfl
          rw [hfree] at hheld
          cases hheld
        exact .inr ⟨other, by simpa [PolicyLeases.acquire, Function.update_of_ne hne] using hheld⟩
    · exact .inr ⟨id, by simp [PolicyLeases.acquire, hnew]⟩
  · intro lease hle
    exact h.notYet lease ((Nat.le_succ _).trans hle)

theorem release_held (leases : PolicyLeases) (id other : String) :
    (leases.release id).held other = if other = id then none else leases.held other := by
  unfold PolicyLeases.release
  split
  next hnone =>
    by_cases heq : other = id
    · simp [heq, hnone]
    · simp [heq]
  next lease hheld =>
    by_cases heq : other = id
    · simp [heq]
    · simp [heq]

theorem Ledger.release {leases : PolicyLeases} (h : Ledger leases) (id : String) :
    Ledger (leases.release id) := by
  cases hheld : leases.held id with
  | none =>
      have hsame : leases.release id = leases := by simp [PolicyLeases.release, hheld]
      rw [hsame]
      exact h
  | some lease =>
      have hfields : leases.release id =
          { leases with
            releases := Function.update leases.releases lease (leases.releases lease + 1)
            held := Function.update leases.held id none } := by simp [PolicyLeases.release, hheld]
      have hlease := h.unreleased id lease hheld
      have hother : ∀ other kept, (leases.release id).held other = some kept →
          other ≠ id ∧ leases.held other = some kept ∧ kept ≠ lease := by
        intro other kept hkept
        rw [release_held] at hkept
        by_cases heq : other = id
        · simp [heq] at hkept
        · simp only [heq, if_false] at hkept
          refine ⟨heq, hkept, ?_⟩
          rintro rfl
          exact heq (h.apart other id kept hkept hheld)
      refine ⟨?_, ?_, ?_, ?_⟩
      · intro other kept hkept
        obtain ⟨_, hold, hne⟩ := hother other kept hkept
        have hunreleased := h.unreleased other kept hold
        rw [hfields]
        exact ⟨hunreleased.1, by simpa [Function.update_of_ne hne] using hunreleased.2⟩
      · intro other other' kept hkept hkept'
        exact h.apart other other' kept (hother other kept hkept).2.1
          (hother other' kept hkept').2.1
      · intro kept hlt
        rw [hfields] at hlt ⊢
        by_cases heq : kept = lease
        · left
          simp [heq, hlease.2]
        · rcases h.released kept hlt with honce | ⟨other, hkept⟩
          · left
            simpa [Function.update_of_ne heq] using honce
          · have hne : other ≠ id := by
              rintro rfl
              rw [hheld] at hkept
              exact heq (Option.some.inj hkept).symm
            exact .inr ⟨other, by simpa [Function.update_of_ne hne] using hkept⟩
      · intro kept hle
        rw [hfields] at hle ⊢
        have hne : kept ≠ lease := by
          have hlt := hlease.1
          have hle' : leases.acquired ≤ kept := hle
          omega
        simpa [Function.update_of_ne hne] using h.notYet kept hle

/-! ## What the chunk holds -/

/-- The leases that are held belong to the items `ids`, and only heartbeats of the dict and of
`beating` run. -/
structure Holding (cover : Cover) (ids beating : List String) (s : State) : Prop where
  cover : s.cover = cover
  ledger : Ledger s.leases
  owners : ∀ id lease, s.leases.held id = some lease → id ∈ ids
  listed : ∀ id ∈ s.running, id ∈ s.itemHeartbeats
  beating : ∀ id ∈ s.running, id ∈ beating

variable {cover : Cover} {ids beating : List String} {s : State}

theorem Holding.settled (h : Holding cover [] [] s) : Settled s := by
  refine ⟨?_, ?_⟩
  · intro lease hlt
    rcases h.ledger.released lease hlt with honce | ⟨id, hheld⟩
    · exact honce
    · exact absurd (h.owners id lease hheld) List.not_mem_nil
  · exact List.eq_nil_iff_forall_not_mem.mpr fun id hid => List.not_mem_nil (h.beating id hid)

theorem Holding.mono (h : Holding cover ids beating s) {ids' beating' : List String}
    (hids : ∀ id ∈ ids, id ∈ ids') (hbeating : ∀ id ∈ beating, id ∈ beating') :
    Holding cover ids' beating' s :=
  ⟨h.cover, h.ledger, fun id lease hheld => hids id (h.owners id lease hheld), h.listed,
    fun id hid => hbeating id (h.beating id hid)⟩

theorem Holding.empty (h : Holding cover [] beating s) : Holding cover ids beating s :=
  h.mono (fun _ hid => absurd hid List.not_mem_nil) fun _ hid => hid

theorem Holding.quiet (h : Holding cover ids [] s) : Holding cover ids beating s :=
  h.mono (fun _ hid => hid) fun _ hid => absurd hid List.not_mem_nil

/-- No held lease is left where none waits for its release. -/
theorem Holding.unowned (h : Holding cover ids beating s) (hnone : ¬Unreleased s.leases) :
    Holding cover [] beating s := by
  refine ⟨h.cover, h.ledger, ?_, h.listed, h.beating⟩
  intro id lease hheld
  have hlease := h.ledger.unreleased id lease hheld
  exact absurd ⟨lease, hlease⟩ hnone

theorem holding_start : Holding .nothing [] [] start :=
  ⟨rfl, ledger_start, nofun, nofun, nofun⟩

theorem Holding.release {id : String} (h : Holding cover (id :: ids) beating s) :
    Holding cover ids beating { s with leases := s.leases.release id } := by
  refine ⟨h.cover, h.ledger.release id, ?_, h.listed, h.beating⟩
  intro other lease hheld
  rw [release_held] at hheld
  by_cases heq : other = id
  · simp [heq] at hheld
  · simp only [heq, if_false] at hheld
    exact (List.mem_cons.mp (h.owners other lease hheld)).resolve_left heq

theorem Holding.acquire {id : String} (h : Holding cover ids beating s)
    (hfree : s.leases.held id = none) :
    Holding cover (id :: ids) beating { s with leases := s.leases.acquire id } := by
  refine ⟨h.cover, h.ledger.acquire hfree, ?_, h.listed, h.beating⟩
  intro other lease hheld
  by_cases heq : other = id
  · exact heq ▸ List.mem_cons_self
  · simp only [PolicyLeases.acquire, Function.update_of_ne heq] at hheld
    exact List.mem_cons_of_mem _ (h.owners other lease hheld)

/-- Only a heartbeat can leave the running ones. -/
theorem Holding.slower (h : Holding cover ids beating s) {running : List String} {leaseLost : Bool}
    (hless : ∀ id ∈ running, id ∈ s.running) :
      Holding cover ids beating { s with running, leaseLost } :=
  ⟨h.cover, h.ledger, h.owners, fun id hid => h.listed id (hless id hid),
    fun id hid => h.beating id (hless id hid)⟩

theorem beats_fields (s : State) (rounds : List (String × Renewal)) :
    ∃ running leaseLost, s.beats rounds = { s with running, leaseLost } ∧
      ∀ id ∈ running, id ∈ s.running := by
  induction rounds generalizing s with
  | nil => exact ⟨s.running, s.leaseLost, rfl, fun _ hid => hid⟩
  | cons round rounds ih =>
      have hbeat : ∃ running leaseLost, s.beat round = { s with running, leaseLost } ∧
          ∀ id ∈ running, id ∈ s.running := by
        obtain ⟨itemId, renewal⟩ := round
        cases renewal with
        | renewed | raised => exact ⟨s.running, s.leaseLost, rfl, fun _ hid => hid⟩
        | lost =>
            by_cases hmem : itemId ∈ s.running
            · exact ⟨s.running.filter (· ≠ itemId), true, by simp [State.beat, hmem],
                fun _ hid => List.mem_of_mem_filter hid⟩
            · exact ⟨s.running, s.leaseLost, by simp [State.beat, hmem], fun _ hid => hid⟩
      obtain ⟨running, leaseLost, heq, hless⟩ := hbeat
      obtain ⟨running', leaseLost', heq', hless'⟩ := ih (s.beat round)
      rw [heq] at heq' hless'
      refine ⟨running', leaseLost', ?_, fun id hid => hless id (hless' id hid)⟩
      change (s.beat round).beats rounds = _
      rw [heq]
      exact heq'

theorem Holding.beats (h : Holding cover ids beating s) (rounds : List (String × Renewal)) :
    Holding cover ids beating (s.beats rounds) := by
  obtain ⟨running, leaseLost, heq, hless⟩ := beats_fields s rounds
  rw [heq]
  exact h.slower hless

/-! ## The condition -/

/-- Calls whose exception leaves the function. -/
def escapes : Call → Bool
  | .markItemFailed _ _ | .refreshJobProgress | .buildRows _ | .processItem _ | .fitsJobDeadline =>
      true
  | _ => false

/-- The worker reads a loss: the event is set, or the renewal before persistence fails. -/
def lossSeen (s : State) : (c : Call) → Ending WorkerError c.Reply → Bool
  | .heartbeats .check, .returned rounds => (s.beats rounds).leaseLost
  | .heartbeats .check, _ => s.leaseLost
  | .renewItemLease _ _, .returned renewed => !renewed
  | .renewItemLease _ _, _ => true
  | _, _ => false

def startedItem : Call → Option String
  | .startTask id => some id
  | _ => none

/-- While nothing covers what the chunk holds, no loss is read with a lease held, and a call whose
exception would leave the function with something held returns; a fallback task starts where its
item holds a lease; and only the tasks of single items are cancelled. -/
structure KeepsChunk (answer : Answer State Call.Reply WorkerError) : Prop where
  uncut : answer.state.cover ≠ .itemTask → answer.ending.isCancellation = false
  unlost : answer.state.cover = .nothing → Unreleased answer.state.leases →
    lossSeen answer.state answer.call answer.ending = false
  returns : answer.state.cover = .nothing →
    Unreleased answer.state.leases ∨ answer.state.running ≠ [] →
      escapes answer.call = true → answer.ending.isReturn = true
  starts : ∀ id ∈ startedItem answer.call, (answer.state.leases.held id).isSome →
    answer.ending.isReturn = true

instance (leases : PolicyLeases) : Decidable (Unreleased leases) :=
  inferInstanceAs (Decidable (∃ lease < leases.acquired, _))

instance (answer : Answer State Call.Reply WorkerError) : Decidable (KeepsChunk answer) :=
  decidable_of_iff
    ((answer.state.cover ≠ .itemTask → answer.ending.isCancellation = false) ∧
      (answer.state.cover = .nothing → Unreleased answer.state.leases →
        lossSeen answer.state answer.call answer.ending = false) ∧
      (answer.state.cover = .nothing →
        Unreleased answer.state.leases ∨ answer.state.running ≠ [] →
          escapes answer.call = true → answer.ending.isReturn = true) ∧
      ∀ id ∈ startedItem answer.call, (answer.state.leases.held id).isSome →
        answer.ending.isReturn = true)
    ⟨fun h => ⟨h.1, h.2.1, h.2.2.1, h.2.2.2⟩, fun h => ⟨h.1, h.2, h.3, h.4⟩⟩

variable {P : State → Prop} {E C : State → Prop} {π : Type}

/-! ## Heartbeats -/

/-- Looking at the heartbeats never fails. -/
theorem runHeartbeats_holding (moment : Moment) :
    Triple KeepsChunk (Holding cover ids beating) (runHeartbeats moment)
      (fun _ => Holding cover ids beating) E C := by
  refine triple_followedBy (Q := fun _ => Holding cover ids beating)
    (preserves_await _) fun ending => ?_
  cases ending with
  | returned rounds => exact triple_modify fun s hs => hs.beats rounds
  | raised | timedOut | cancelled => exact triple_pure fun s hs => hs

/-- Where nothing covers the chunk, a loss is only read when no lease is held. -/
theorem leaseLostIsSet_exposed :
    Triple KeepsChunk (Holding .nothing ids beating) leaseLostIsSet
      (fun lost => Holding .nothing (if lost then [] else ids) beating) E C := by
  have hrun : Triple KeepsChunk (Holding .nothing ids beating) (runHeartbeats .check)
      (fun _ s => Holding .nothing (if s.leaseLost then [] else ids) beating s) E C := by
    have hread : Triple KeepsChunk (Holding .nothing ids beating) (call (.heartbeats .check))
        (fun rounds s => Holding .nothing
          (if (s.beats rounds).leaseLost then [] else ids) beating s)
        (fun s => Holding .nothing (if s.leaseLost then [] else ids) beating s)
        (fun s => Holding .nothing (if s.leaseLost then [] else ids) beating s) := by
      refine triple_await fun s hs ending hkeeps => ?_
      have hunlost : lossSeen s (.heartbeats .check) ending = true →
          Holding .nothing [] beating s := fun hlost =>
        hs.unowned fun hunreleased => by
          have hseen := hkeeps.unlost hs.cover hunreleased
          rw [hlost] at hseen
          cases hseen
      have hcase : Holding .nothing (if lossSeen s (.heartbeats .check) ending then [] else ids)
          beating s := by
        split
        next hlost => exact hunlost hlost
        next => exact hs
      cases ending <;> exact hcase
    refine triple_followedBy hread fun ending => ?_
    cases ending with
    | returned rounds =>
        refine triple_modify fun s hs => ?_
        exact hs.beats rounds
    | raised | timedOut | cancelled => exact triple_pure fun s hs => hs
  refine triple_bind hrun fun _ => triple_read_bind fun s hs => triple_pure ?_
  rintro t rfl
  exact hs

theorem leaseLostIsSet_holding :
    Triple KeepsChunk (Holding cover ids beating) leaseLostIsSet
      (fun _ => Holding cover ids beating) E C :=
  triple_bind (runHeartbeats_holding .check) fun _ => triple_read_bind fun _ hs =>
    triple_pure fun _ heq => heq ▸ hs

/-- Between its pop and its stop a heartbeat may run without being in the dict. -/
def Popped (cover : Cover) (ids beating : List String) (id : String) (s : State) : Prop :=
  Holding cover ids beating { s with itemHeartbeats := id :: s.itemHeartbeats }

theorem Holding.popped (h : Holding cover ids beating s) (id : String) :
    Popped cover ids beating id s :=
  ⟨h.cover, h.ledger, h.owners, fun other hmem => List.mem_cons_of_mem _ (h.listed other hmem),
    h.beating⟩

theorem Popped.beats {id : String} (h : Popped cover ids beating id s)
    (rounds : List (String × Renewal)) : Popped cover ids beating id (s.beats rounds) := by
  obtain ⟨running, leaseLost, heq, hless⟩ := beats_fields s rounds
  rw [heq]
  exact Holding.slower h hless

theorem stopHeartbeat_popped (id : String) :
    Triple KeepsChunk (Popped cover ids beating id) (stopHeartbeat id)
      (fun _ s => Holding cover ids beating s ∧ id ∉ s.running) E C := by
  apply triple_bind (Q := fun _ => Popped cover ids beating id)
  · refine triple_followedBy (Q := fun _ => Popped cover ids beating id) (preserves_await _)
      fun ending => ?_
    cases ending with
    | returned rounds => exact triple_modify fun _ hs => hs.beats rounds
    | raised | timedOut | cancelled => exact triple_pure fun _ hs => hs
  · intro _
    refine triple_modify fun s hs => ⟨⟨hs.cover, hs.ledger, hs.owners, ?_, ?_⟩, ?_⟩
    · intro other hmem
      have hrunning := hs.listed other (List.mem_of_mem_filter hmem)
      refine (List.mem_cons.mp hrunning).resolve_left ?_
      rintro rfl
      simp at hmem
    · exact fun other hmem => hs.beating other (List.mem_of_mem_filter hmem)
    · simp

theorem stopHeartbeat_holding (id : String) :
    Triple KeepsChunk (Holding cover ids beating) (stopHeartbeat id)
      (fun _ s => Holding cover ids beating s ∧ id ∉ s.running) E C :=
  (stopHeartbeat_popped id).pre fun _ hs => hs.popped id

/-- The heartbeats that are still to be stopped are the ones that may run. -/
theorem stopHeartbeatTasks_holding :
    Triple KeepsChunk (Holding cover ids beating) stopHeartbeatTasks
      (fun _ => Holding cover ids []) E C := by
  refine triple_read_bind fun s hs => ?_
  have hbody : ∀ id rest, Triple KeepsChunk (Holding cover ids (id :: rest)) (stopHeartbeat id)
      (fun _ => Holding cover ids rest) E C := by
    intro id rest
    refine (stopHeartbeat_holding id).conseq (fun _ h => h) ?_ (fun _ h => h) fun _ h => h
    rintro _ t ⟨ht, hstopped⟩
    refine ⟨ht.cover, ht.ledger, ht.owners, ht.listed, fun other hmem => ?_⟩
    refine (List.mem_cons.mp (ht.beating other hmem)).resolve_left ?_
    rintro rfl
    exact hstopped hmem
  refine (triple_forEach hbody s.itemHeartbeats).pre ?_
  rintro t rfl
  exact ⟨hs.cover, hs.ledger, hs.owners, hs.listed, hs.listed⟩

theorem stopAndClearHeartbeats_holding :
    Triple KeepsChunk (Holding cover ids beating) stopAndClearHeartbeats
      (fun _ => Holding cover ids []) E C := by
  refine triple_bind stopHeartbeatTasks_holding fun _ => triple_modify fun s hs => ?_
  have hnone : ∀ id, id ∉ s.running := fun id hid => List.not_mem_nil (hs.beating id hid)
  exact ⟨hs.cover, hs.ledger, hs.owners, fun id hid => absurd hid (hnone id), hs.beating⟩

theorem popHeartbeat_holding (id : String) :
    Triple KeepsChunk (Holding cover ids beating) (popHeartbeat id)
      (fun _ s => Holding cover ids beating s ∧ id ∉ s.running) E C := by
  refine triple_read_bind fun s hs => ?_
  apply triple_bind (Q := fun _ t => t = { s with
    itemHeartbeats := s.itemHeartbeats.filter (· ≠ id) })
  · exact triple_modify fun t heq => by rw [heq]
  · intro _
    have hlisted : ∀ other ∈ s.running, other ≠ id →
        other ∈ s.itemHeartbeats.filter (· ≠ id) := fun other hmem hne => by
      simpa [hne] using hs.listed other hmem
    split
    next hmem =>
      refine (stopHeartbeat_popped id).pre ?_
      rintro t rfl
      refine ⟨hs.cover, hs.ledger, hs.owners, fun other hother => ?_, hs.beating⟩
      by_cases heq : other = id
      · exact heq ▸ List.mem_cons_self
      · exact List.mem_cons_of_mem _ (hlisted other hother heq)
    next hmem =>
      have hidle : id ∉ s.running := fun hid => hmem (hs.listed id hid)
      refine triple_pure ?_
      rintro t rfl
      refine ⟨⟨hs.cover, hs.ledger, hs.owners, fun other hother => ?_, hs.beating⟩, hidle⟩
      refine hlisted other hother ?_
      rintro rfl
      exact hidle hother

/-! ## Calls -/

/-- What the calls that change nothing keep, however they end. -/
theorem call_kept (c : Call) : Preserves KeepsChunk P (call c) := preserves_await c

/-- Nothing covers the chunk, and its leases are in order. -/
structure Exposed (s : State) : Prop where
  cover : s.cover = .nothing
  ledger : Ledger s.leases

theorem Holding.exposed (h : Holding .nothing ids beating s) : Exposed s := ⟨h.cover, h.ledger⟩

/-- The end of a call outside of item tasks is no cancellation. -/
theorem call_uncut {c : Call} (hcover : ∀ s, P s → s.cover ≠ .itemTask) :
    Triple KeepsChunk P (call c) (fun _ => P) P C := by
  refine triple_await fun s hs ending hkeeps => ?_
  have huncut := hkeeps.uncut (hcover s hs)
  cases ending with
  | returned | raised => exact hs
  | timedOut | cancelled => cases huncut

theorem Exposed.uncovered (hP : ∀ s, P s → Exposed s) (s : State) (hs : P s) :
    s.cover ≠ .itemTask := by
  rw [(hP s hs).cover]
  nofun

/-- Where an exception escapes, nothing was held. -/
theorem call_escaping {c : Call} (hc : escapes c = true) (hP : ∀ s, P s → Exposed s) :
    Triple KeepsChunk P (call c) (fun _ => P) Settled C := by
  refine triple_await fun s hs ending hkeeps => ?_
  obtain ⟨hcover, hledger⟩ := hP s hs
  have huncut := hkeeps.uncut (Exposed.uncovered hP s hs)
  cases ending with
  | returned value => exact hs
  | timedOut | cancelled => cases huncut
  | raised error =>
      have hnothing : ¬(Unreleased s.leases ∨ s.running ≠ []) := fun hheld => by
        cases hkeeps.returns hcover hheld hc
      refine ⟨fun lease hlt => ?_, by_contra fun hne => hnothing (.inr hne)⟩
      rcases hledger.released lease hlt with honce | ⟨id, hheld⟩
      · exact honce
      · exact absurd (.inl ⟨lease, hledger.unreleased id lease hheld⟩) hnothing

theorem ignoring_exposed {t : Work Unit} (ht : Triple KeepsChunk P t (fun _ => P) P C) :
    Triple KeepsChunk P (ignoring t) (fun _ => P) E C :=
  triple_ignoring ht fun _ hs => hs

/-! ## Failures -/

theorem maybeDefer_exposed (error : BatchError) (hP : ∀ s, P s → Exposed s) :
    Triple KeepsChunk P (maybeDeferModelGroupForRetry error) (fun _ => P) E C := by
  unfold maybeDeferModelGroupForRetry
  split
  · exact ignoring_exposed (call_uncut (Exposed.uncovered hP))
  · exact triple_pure fun _ hs => hs

theorem markItemFailed_exposed (w : ChunkWorker) (item : BatchItemRow) (error : BatchError)
    (hP : ∀ s, P s → Exposed s) :
    Triple KeepsChunk P (markItemFailed w item error) (fun _ => P) Settled C := by
  refine triple_bind (maybeDefer_exposed error hP) fun _ => ?_
  have hrow : Triple KeepsChunk P (failRow w item error) (fun _ => P) Settled C := by
    refine triple_bind (call_escaping rfl hP) fun updated => ?_
    split
    · exact call_escaping rfl hP
    · exact triple_pure fun _ hs => hs
  refine triple_bind hrow fun updated => ?_
  split
  · refine triple_bind (call_escaping rfl hP) fun _ => ?_
    exact ignoring_exposed (call_uncut (Exposed.uncovered hP))
  · exact triple_pure fun _ hs => hs

theorem markItemFailed_kept (w : ChunkWorker) (item : BatchItemRow) (error : BatchError) :
    Preserves KeepsChunk P (markItemFailed w item error) := by
  refine Preserves.bind ?_ fun _ => Preserves.bind ?_ fun updated => ?_
  · unfold maybeDeferModelGroupForRetry
    split
    · exact Preserves.handle (call_kept _) fun _ => preserves_pure _
    · exact preserves_pure _
  · refine Preserves.bind (call_kept _) fun updated => ?_
    split
    · exact call_kept _
    · exact preserves_pure _
  · split
    · refine Preserves.bind (call_kept _) fun _ => ?_
      exact Preserves.handle (call_kept _) fun _ => preserves_pure _
    · exact preserves_pure _

theorem releaseItemsForRetry_uncut (itemIds : List String)
    (hcover : ∀ s, P s → s.cover ≠ .itemTask) :
    Triple KeepsChunk P (releaseItemsForRetry itemIds) (fun _ => P) E C :=
  triple_handle (call_uncut hcover) fun _ => triple_pure fun _ hs => hs

theorem persistCompletionRows_kept (itemIds : List String) :
    Preserves KeepsChunk P (persistCompletionRows itemIds) := by
  have hrows : ∀ attempts, Preserves KeepsChunk P (completeRows itemIds attempts) := by
    intro attempts
    induction attempts with
    | zero => exact preserves_pure _
    | succ attempts ih =>
        refine Preserves.bind ((call_kept _).handle fun _ => preserves_pure _) fun result => ?_
        cases result with
        | completed | alreadyCompleted | notOwned => exact preserves_pure _
        | raised => exact ih
  refine (hrows 2).bind fun completed => ?_
  cases completed with
  | some persisted => exact preserves_pure _
  | none =>
      refine Preserves.bind ((call_kept _).handle fun _ => preserves_pure _) fun _ => ?_
      exact preserves_pure _

/-! ## Policy leases -/

/-- A release is noted before its call, and only item tasks are cancelled there. -/
theorem releasePreparedPolicyLease_holding (prepared : Prepared π)
    (hC : cover = .itemTask → ∀ s, Holding cover ids beating s → C s) :
    Triple KeepsChunk (Holding cover (prepared.id :: ids) beating)
      (releasePreparedPolicyLease prepared) (fun _ => Holding cover ids beating) E C := by
  refine triple_read_bind fun s hs => ?_
  apply triple_bind (Q := fun _ => Holding cover ids beating)
  · refine triple_modify ?_
    rintro t rfl
    exact hs.release
  · intro _
    split
    next => exact triple_pure fun _ ht => ht
    next lease _ =>
      refine triple_ignoring (E := Holding cover ids beating) ?_ fun _ ht => ht
      refine triple_await fun t ht ending hkeeps => ?_
      by_cases hcover : cover = .itemTask
      · cases ending with
        | returned | raised => exact ht
        | timedOut | cancelled => exact hC hcover t ht
      · have huncut := hkeeps.uncut (by rw [ht.cover]; exact hcover)
        cases ending with
        | returned | raised => exact ht
        | timedOut | cancelled => cases huncut

theorem releasePreparedPolicyLeases_settled (items : List (Prepared π))
    (hcover : cover ≠ .itemTask) :
    Triple KeepsChunk (Holding cover (itemIds items) []) (releasePreparedPolicyLeases items)
      (fun _ => Settled) E C := by
  have hbody : ∀ (prepared : Prepared π) rest,
      Triple KeepsChunk (Holding cover (itemIds (prepared :: rest)) [])
        (releasePreparedPolicyLease prepared) (fun _ => Holding cover (itemIds rest) []) E C :=
    fun prepared rest => releasePreparedPolicyLease_holding prepared fun h => absurd h hcover
  exact (triple_forEach (I := fun rest => Holding cover (itemIds rest) []) hbody items).conseq
    (fun _ hs => hs) (fun _ _ hs => hs.settled) (fun _ hs => hs) fun _ hs => hs

/-- A lease that cannot be acquired was not held before. -/
theorem acquirePreparedPolicyLease_holding (prepared : Prepared π)
    (hC : cover = .itemTask → ∀ s, Holding cover ids beating s → C s) :
    Triple KeepsChunk (Holding cover (prepared.id :: ids) beating)
      (acquirePreparedPolicyLease prepared)
      (fun _ => Holding cover (prepared.id :: ids) beating) (Holding cover ids beating) C := by
  refine triple_read_bind fun s hs => ?_
  split
  next => exact triple_pure fun t heq => heq ▸ hs
  next hfree =>
    have hnone : s.leases.held prepared.id = none := by
      by_contra hne
      obtain ⟨lease, hlease⟩ := Option.ne_none_iff_exists'.mp hne
      simp [hlease] at hfree
    have hunowned : Holding cover ids beating s := by
      refine ⟨hs.cover, hs.ledger, fun id lease hheld => ?_, hs.listed, hs.beating⟩
      refine (List.mem_cons.mp (hs.owners id lease hheld)).resolve_left ?_
      rintro rfl
      rw [hnone] at hheld
      cases hheld
    apply triple_bind (Q := fun _ t => t = s)
    · refine triple_await fun t heq ending hkeeps => ?_
      subst heq
      by_cases hcover : cover = .itemTask
      · cases ending with
        | returned => rfl
        | raised => exact hunowned
        | timedOut | cancelled => exact hC hcover t hunowned
      · have huncut := hkeeps.uncut (by rw [hs.cover]; exact hcover)
        cases ending with
        | returned => rfl
        | raised => exact hunowned
        | timedOut | cancelled => cases huncut
    · intro leased
      split
      · refine triple_modify ?_
        rintro t rfl
        exact hunowned.acquire hnone
      · exact triple_pure fun t heq => heq ▸ hs

/-- An exposed acquisition keeps what the chunk holds, also where it fails. -/
theorem acquire_exposed (prepared : Prepared π) :
    Triple KeepsChunk (Holding .nothing ids []) (acquirePreparedPolicyLease prepared)
      (fun _ => Holding .nothing (prepared.id :: ids) []) (Holding .nothing ids []) C :=
  (acquirePreparedPolicyLease_holding prepared nofun).pre fun _ hs =>
    hs.mono (fun _ hid => List.mem_cons_of_mem _ hid) fun _ hid => hid

theorem acquirePolicyLeasesForChunk_exposed (w : ChunkWorker) (items : List (Prepared π))
    (ids : List String) :
    Triple KeepsChunk (Holding .nothing ids []) (acquirePolicyLeasesForChunk w items)
      (fun allowed => Holding .nothing (itemIds allowed ++ ids) []) Settled C := by
  induction items generalizing ids with
  | nil => exact triple_pure fun _ hs => hs
  | cons prepared rest ih =>
      apply triple_bind (Q := fun leased : Bool =>
        Holding .nothing (if leased then prepared.id :: ids else ids) [])
      · apply triple_handle (E := Holding .nothing ids [])
        · exact triple_map (acquire_exposed prepared) fun _ _ hs => hs
        · intro error
          refine triple_bind (markItemFailed_exposed w prepared.item error.error
            fun _ hs => Holding.exposed hs) fun _ => ?_
          exact triple_pure fun _ hs => hs
      · intro leased
        refine triple_bind (ih _) fun allowed => triple_pure fun s hs => ?_
        cases leased with
        | false => exact hs
        | true =>
            refine hs.mono (fun id hid => ?_) fun _ hid => hid
            simp only [if_true, List.mem_append, List.mem_cons] at hid
            simp only [if_true, itemIds, List.map_cons, List.cons_append, List.mem_cons,
              List.mem_append]
            tauto

/-! ## Single items -/

theorem startHeartbeat_holding (prepared : Prepared π) :
    Triple KeepsChunk (Holding cover ids beating) (startHeartbeat prepared)
      (fun _ => Holding cover ids (prepared.id :: beating)) E C := by
  refine triple_modify fun s hs => ⟨hs.cover, hs.ledger, hs.owners, ?_, ?_⟩
  · intro id hid
    rcases List.mem_cons.mp hid with rfl | hold
    · exact List.mem_cons_self
    · exact List.mem_cons_of_mem _ (hs.listed id hold)
  · intro id hid
    rcases List.mem_cons.mp hid with rfl | hold
    · exact List.mem_cons_self
    · exact List.mem_cons_of_mem _ (hs.beating id hold)

theorem popHeartbeat_kept (id : String) :
    Triple KeepsChunk (Holding cover ids beating) (popHeartbeat id)
      (fun _ => Holding cover ids beating) E C :=
  (popHeartbeat_holding id).conseq (fun _ hs => hs) (fun _ _ hs => hs.1) (fun _ hs => hs)
    fun _ hs => hs

theorem awaitProvider_kept (w : ChunkWorker) (itemIds : List String) :
    Preserves KeepsChunk (Holding cover ids beating) (awaitProvider w itemIds) := by
  refine Preserves.bind leaseLostIsSet_holding fun lost => ?_
  split
  · exact preserves_pure _
  · refine Preserves.bind (call_kept _) fun reply => Preserves.bind ?_ fun _ => ?_
    · exact preserves_modify fun s hs => ⟨hs.cover, hs.ledger, hs.owners, hs.listed, hs.beating⟩
    · split
      · exact preserves_raise _
      · exact Preserves.map leaseLostIsSet_holding

theorem keepsItemLease_kept (prepared : Prepared π) :
    Preserves KeepsChunk (Holding cover ids beating) (keepsItemLease prepared) := by
  refine Preserves.bind leaseLostIsSet_holding fun lost => ?_
  split
  · exact preserves_pure _
  · refine Preserves.bind ((call_kept _).handle fun _ => preserves_pure _) fun renewed => ?_
    split
    · exact preserves_pure _
    · refine Preserves.bind (preserves_modify fun s hs => ?_) fun _ => preserves_pure _
      exact ⟨hs.cover, hs.ledger, hs.owners, hs.listed, hs.beating⟩

theorem completePreparedItem_kept (w : ChunkWorker) (rowFirst : Bool) (prepared : Prepared π)
    (hmem : prepared.id ∈ beating) :
    Preserves KeepsChunk (Holding cover ids beating)
      (completePreparedItem w rowFirst prepared) := by
  have hrow : ∀ due, Preserves KeepsChunk (Holding cover ids beating)
      (buildRowsWhen due [prepared.id]) := by
    intro due
    cases due with
    | true => exact call_kept _
    | false => exact preserves_pure _
  have hstart : Preserves KeepsChunk (Holding cover ids beating) (startHeartbeat prepared) :=
    (startHeartbeat_holding prepared).conseq (fun _ hs => hs)
      (fun _ _ hs => hs.mono (fun _ hid => hid) fun id hid =>
        (List.mem_cons.mp hid).elim (fun heq => heq ▸ hmem) fun hold => hold)
      (fun _ hs => hs) fun _ hs => hs
  refine hstart.bind fun _ => (awaitProvider_kept w _).bind fun served => ?_
  split
  · exact preserves_pure _
  · refine (call_kept _).bind fun _ => (hrow rowFirst).bind fun _ => ?_
    refine ((call_kept _).handle fun _ => preserves_pure _).bind fun _ => ?_
    refine (keepsItemLease_kept prepared).bind fun kept => ?_
    split
    · exact preserves_pure _
    · refine Preserves.bind (popHeartbeat_kept _) fun _ => (hrow _).bind fun _ => ?_
      exact (persistCompletionRows_kept _).bind fun _ => preserves_pure _

/-- However it ends, the task of an item hands back its lease and its heartbeat. -/
theorem executePrepared_handsBack (w : ChunkWorker) (rowFirst : Bool) (prepared : Prepared π) :
    Triple KeepsChunk (Holding cover (prepared.id :: ids) []) (executePrepared w rowFirst prepared)
      (fun _ => Holding .itemTask ids []) (Holding .itemTask ids [])
        (Holding .itemTask ids []) := by
  apply triple_bind (Q := fun _ => Holding .itemTask (prepared.id :: ids) [])
  · exact triple_modify fun s hs => ⟨rfl, hs.ledger, hs.owners, hs.listed, hs.beating⟩
  intro _
  apply triple_bind (Q := fun leased : Bool =>
    Holding .itemTask (if leased then prepared.id :: ids else ids) [])
  · apply triple_handle (E := Holding .itemTask ids [])
    · exact triple_map (acquirePreparedPolicyLease_holding prepared fun _ _ hs => hs) fun _ _ hs =>
        hs
    · intro error
      exact triple_bind (markItemFailed_kept w prepared.item error.error) fun _ =>
        triple_pure fun _ hs => hs
  intro leased
  cases leased with
  | false => exact triple_pure fun _ hs => hs
  | true =>
      have hbody : Preserves KeepsChunk (Holding .itemTask (prepared.id :: ids) [prepared.id])
          ((completePreparedItem w rowFirst prepared).handle fun error =>
            markItemFailed w prepared.item error.error) :=
        (completePreparedItem_kept w rowFirst prepared List.mem_cons_self).handle fun error =>
          markItemFailed_kept w prepared.item error.error
      have hblock : Triple KeepsChunk (Holding .itemTask (prepared.id :: ids) [prepared.id])
          (popHeartbeat prepared.id >>= fun _ => releasePreparedPolicyLease prepared)
          (fun _ => Holding .itemTask ids []) (Holding .itemTask ids [])
          (Holding .itemTask ids []) := by
        apply triple_bind (Q := fun _ => Holding .itemTask (prepared.id :: ids) [])
        · refine (popHeartbeat_holding prepared.id).conseq (fun _ hs => hs) ?_ (fun _ hs => hs)
            fun _ hs => hs
          rintro _ s ⟨hs, hstopped⟩
          refine ⟨hs.cover, hs.ledger, hs.owners, hs.listed, fun id hid => ?_⟩
          have heq := List.mem_singleton.mp (hs.beating id hid)
          exact absurd (heq ▸ hid) hstopped
        · exact fun _ => releasePreparedPolicyLease_holding prepared fun _ _ hs => hs
      have hpre : ∀ s, Holding .itemTask (prepared.id :: ids) [] s →
          Holding .itemTask (prepared.id :: ids) [prepared.id] s := fun _ hs => hs.quiet
      exact (triple_lastly hbody (fun _ => hblock) hblock hblock).pre hpre

/-! ## Exposed chunks -/

/-- The heartbeats that the chunk starts are those of its items. -/
theorem startHeartbeats_holding (items : List (Prepared π)) :
    Triple KeepsChunk (Holding cover ids []) (forEach startHeartbeat items)
      (fun _ => Holding cover ids (itemIds items)) E C := by
  have hbody : ∀ (prepared : Prepared π) (rest : List (Prepared π)),
      Triple KeepsChunk
        (fun s => Holding cover ids (itemIds items) s ∧ ∀ other ∈ prepared :: rest, other ∈ items)
        (startHeartbeat prepared)
        (fun _ s => Holding cover ids (itemIds items) s ∧ ∀ other ∈ rest, other ∈ items) E C := by
    rintro prepared rest s ⟨hs, hmem⟩
    have hid : prepared.id ∈ itemIds items :=
      List.mem_map_of_mem (hmem prepared List.mem_cons_self)
    refine (startHeartbeat_holding prepared).conseq (fun _ ht => ht) (fun _ t ht => ⟨?_, ?_⟩)
      (fun _ ht => ht) (fun _ ht => ht) s hs
    · refine ht.mono (fun _ hold => hold) fun id hin => ?_
      exact (List.mem_cons.mp hin).elim (fun heq => heq ▸ hid) fun hold => hold
    · exact fun other hother => hmem other (List.mem_cons_of_mem _ hother)
  exact (triple_forEach (I := fun rest s => Holding cover ids (itemIds items) s ∧
      ∀ other ∈ rest, other ∈ items) hbody items).conseq
    (fun _ hs => ⟨hs.quiet, fun _ hother => hother⟩) (fun _ _ hs => hs.1) (fun _ hs => hs)
    fun _ hs => hs

theorem stopAndClear_settled :
    Triple KeepsChunk (Holding cover [] beating) stopAndClearHeartbeats (fun _ => Settled) E C :=
  stopAndClearHeartbeats_holding.conseq (fun _ hs => hs) (fun _ _ hs => hs.settled) (fun _ hs => hs)
    fun _ hs => hs

/-- A wait that ends with a lease loss leaves no lease to release. -/
theorem awaitProvider_exposed (w : ChunkWorker) (itemIds : List String) :
    Triple KeepsChunk (Holding .nothing ids beating) (awaitProvider w itemIds)
      (fun served => Holding .nothing (if served then ids else []) beating)
      (Holding .nothing ids beating) C := by
  refine triple_bind leaseLostIsSet_exposed fun lost => ?_
  cases lost with
  | true => exact triple_pure fun _ hs => hs
  | false =>
      apply triple_bind (Q := fun _ => Holding .nothing ids beating)
      · exact call_uncut (Exposed.uncovered fun _ hs => Holding.exposed hs)
      intro reply
      apply triple_bind (Q := fun _ => Holding .nothing ids beating)
      · exact triple_modify fun s hs => ⟨hs.cover, hs.ledger, hs.owners, hs.listed, hs.beating⟩
      intro _
      split
      · exact triple_raise fun _ hs => hs
      · refine triple_map leaseLostIsSet_exposed fun lost s hs => ?_
        cases lost <;> exact hs

/-- A renewal that fails leaves no lease to release. -/
theorem keepsItemLease_exposed (prepared : Prepared π) :
    Triple KeepsChunk (Holding .nothing ids beating) (keepsItemLease prepared)
      (fun kept => Holding .nothing (if kept then ids else []) beating) E C := by
  refine triple_bind leaseLostIsSet_exposed fun lost => ?_
  cases lost with
  | true => exact triple_pure fun _ hs => hs
  | false =>
      have hrenewed : Triple KeepsChunk (Holding .nothing ids beating) (renewItemLeaseOnce prepared)
          (fun renewed => Holding .nothing (if renewed then ids else []) beating) E C := by
        apply triple_handle (E := Holding .nothing [] beating)
        · refine triple_await fun s hs ending hkeeps => ?_
          have huncut := hkeeps.uncut (Exposed.uncovered (fun _ hs => Holding.exposed hs) s hs)
          have hunowned : lossSeen s (.renewItemLease prepared.id prepared.item.claimEpoch) ending =
              true → Holding .nothing [] beating s := fun hlost =>
            hs.unowned fun hunreleased => by
              have hseen := hkeeps.unlost hs.cover hunreleased
              rw [hlost] at hseen
              cases hseen
          cases ending with
          | returned renewed =>
              cases renewed with
              | true => exact hs
              | false => exact hunowned rfl
          | raised error => exact hunowned rfl
          | timedOut | cancelled => cases huncut
        · exact fun _ => triple_pure fun _ hs => hs
      refine triple_bind hrenewed fun renewed => ?_
      cases renewed with
      | true => exact triple_pure fun _ hs => hs
      | false =>
          apply triple_bind (Q := fun _ => Holding .nothing [] beating)
          · exact triple_modify fun s hs => ⟨hs.cover, hs.ledger, hs.owners, hs.listed, hs.beating⟩
          · exact fun _ => triple_pure fun _ hs => hs

/-- Behind a `finally` block that releases everything, no exception and no loss matters. -/
theorem lastly_settled (items : List (Prepared π)) {persist : Work Unit}
    (hpersist : Preserves KeepsChunk (Holding .finalBlock (itemIds items) beating) persist) :
    Triple KeepsChunk (Holding .finalBlock (itemIds items) beating)
      (persist.lastly do
        stopHeartbeatTasks
        releasePreparedPolicyLeases items) (fun _ => Settled) Settled Settled := by
  have hblock : Triple KeepsChunk (Holding .finalBlock (itemIds items) beating)
      (stopHeartbeatTasks >>= fun _ => releasePreparedPolicyLeases items) (fun _ => Settled) Settled
      Settled :=
    triple_bind stopHeartbeatTasks_holding fun _ =>
      releasePreparedPolicyLeases_settled items nofun
  exact triple_lastly hpersist (fun _ => hblock) hblock hblock

/-! ## Chat chunks -/

theorem callChatProvider_exposed (w : ChunkWorker) (items : List (Prepared Unit)) :
    Triple KeepsChunk (Holding .nothing ids []) (callChatProvider w items)
      (fun results => Holding .nothing (if results.isSome then ids else []) (itemIds items))
      (Holding .nothing ids (itemIds items)) C := by
  refine triple_bind (startHeartbeats_holding items) fun _ => ?_
  refine triple_bind (awaitProvider_exposed w _) fun served => ?_
  cases served with
  | false => exact triple_pure fun _ hs => hs
  | true =>
      refine triple_map (call_uncut (Exposed.uncovered fun _ hs => Holding.exposed hs)) ?_
      exact fun _ _ hs => hs

theorem releaseFailedChatMicrobatch_exposed (w : ChunkWorker) (items : List (Prepared Unit))
    (error : BatchError) :
    Triple KeepsChunk (Holding .nothing ids beating)
      (releaseFailedChatMicrobatchForRetry w items error)
      (fun _ => Holding .nothing ids beating) Settled C := by
  have hexposed : ∀ s, Holding .nothing ids beating s → Exposed s := fun _ hs => hs.exposed
  unfold releaseFailedChatMicrobatchForRetry
  split
  · exact triple_pure fun _ hs => hs
  · refine triple_bind (maybeDefer_exposed error hexposed) fun _ => ?_
    refine triple_bind (call_escaping rfl hexposed) fun fits => ?_
    split
    · exact triple_pure fun _ hs => hs
    · refine triple_bind
        (releaseItemsForRetry_uncut _ (Exposed.uncovered hexposed)) fun released => ?_
      split
      · exact triple_pure fun _ hs => hs
      · exact triple_bind (call_escaping rfl hexposed) fun _ => triple_pure fun _ hs => hs

theorem failChatChunk_settled (w : ChunkWorker) (items : List (Prepared Unit))
    (error : BatchError) :
    Triple KeepsChunk (Holding .nothing (itemIds items) []) (failChatChunk w items error)
      (fun _ => Settled) Settled C := by
  have hexposed : ∀ s, Holding .nothing (itemIds items) [] s → Exposed s := fun _ hs => hs.exposed
  refine triple_bind (ignoring_exposed (call_uncut (Exposed.uncovered hexposed))) fun _ => ?_
  refine triple_bind (releaseFailedChatMicrobatch_exposed w items error) fun requeued => ?_
  split
  · exact releasePreparedPolicyLeases_settled items nofun
  · apply triple_bind (Q := fun _ => Holding .nothing (itemIds items) [])
    · exact triple_forEach (I := fun _ => Holding .nothing (itemIds items) [])
        (fun prepared _ => markItemFailed_exposed w prepared.item error hexposed) items
    · exact fun _ => releasePreparedPolicyLeases_settled items nofun

/-- Each task of the fallback starts, or its item holds no lease. -/
theorem fallbackItems_settled (w : ChunkWorker) (items : List (Prepared Unit)) :
    Triple KeepsChunk (Holding .nothing (itemIds items) [])
      (executeChatMicrobatchFallbackItems w items) (fun _ => Settled) Settled Settled := by
  apply triple_bind (Q := fun _ => Holding .itemTask (itemIds items) [])
  · exact triple_modify fun s hs => ⟨rfl, hs.ledger, hs.owners, hs.listed, hs.beating⟩
  intro _
  have hbody : ∀ (prepared : Prepared Unit) (rest : List (Prepared Unit)),
      Triple KeepsChunk (Holding .itemTask (itemIds (prepared :: rest)) [])
        (call (.startTask prepared.id) >>= fun _ => executePreparedChatItem w prepared)
        (fun _ => Holding .itemTask (itemIds rest) []) (Holding .itemTask (itemIds rest) [])
        (Holding .itemTask (itemIds rest) []) := by
    intro prepared rest
    apply triple_bind (Q := fun _ => Holding .itemTask (itemIds (prepared :: rest)) [])
    · refine triple_await fun s hs ending hkeeps => ?_
      have hstarts := hkeeps.starts prepared.id rfl
      have hunheld : ending.isReturn = false → Holding .itemTask (itemIds rest) [] s := by
        intro hnot
        refine ⟨hs.cover, hs.ledger, fun id lease hheld => ?_, hs.listed, hs.beating⟩
        refine (List.mem_cons.mp (hs.owners id lease hheld)).resolve_left ?_
        rintro rfl
        have hreturn : ending.isReturn = true := hstarts (by rw [hheld]; rfl)
        rw [hnot] at hreturn
        cases hreturn
      cases ending with
      | returned => exact hs
      | raised | timedOut | cancelled => exact hunheld rfl
    · exact fun _ => executePrepared_handsBack w false prepared
  exact (triple_group (I := fun rest => Holding .itemTask (itemIds rest) []) hbody items).conseq
    (fun _ hs => hs) (fun _ _ hs => hs.settled) (fun _ hs => hs.settled) fun _ hs => hs.settled

theorem handleChatFailure_settled (w : ChunkWorker) (items : List (Prepared Unit))
    (error : WorkerError) :
    Triple KeepsChunk (Holding .nothing (itemIds items) beating) (handleChatFailure w items error)
      (fun _ => Settled) Settled Settled := by
  refine triple_bind stopAndClearHeartbeats_holding fun _ => triple_read_bind fun s hs => ?_
  have hpre : ∀ t, t = s → Holding .nothing (itemIds items) [] t := by
    rintro t rfl
    exact hs
  split
  · exact (fallbackItems_settled w items).pre hpre
  · exact (failChatChunk_settled w items _).pre hpre
  · exact (failChatChunk_settled w items _).pre hpre

theorem handleChatResults_exposed (w : ChunkWorker) (results : List (Prepared Unit × ItemResult)) :
    Triple KeepsChunk (Holding .nothing ids beating) (handleChatResults w results)
      (fun successes s => if successes.isSome then Holding .nothing ids beating s else Settled s)
      Settled C := by
  have hexposed : ∀ s, Holding .nothing ids beating s → Exposed s := fun _ hs => hs.exposed
  induction results with
  | nil => exact triple_pure fun _ hs => hs
  | cons first rest ih =>
      obtain ⟨prepared, result⟩ := first
      have hfailed : ∀ error, Triple KeepsChunk (Holding .nothing ids beating)
          (popHeartbeat prepared.id >>= fun _ => markItemFailed w prepared.item error >>= fun _ =>
            handleChatResults w rest)
          (fun successes s => if successes.isSome then Holding .nothing ids beating s
            else Settled s)
          Settled C := fun error =>
        triple_bind (popHeartbeat_kept _) fun _ =>
          triple_bind (markItemFailed_exposed w prepared.item error hexposed) fun _ => ih
      refine triple_bind leaseLostIsSet_exposed fun lost => ?_
      cases lost with
      | true => exact triple_bind stopAndClear_settled fun _ => triple_pure fun _ hs => hs
      | false =>
          cases result with
          | failed error => exact hfailed error
          | incomplete => exact hfailed incompleteResult
          | complete =>
              refine triple_bind (call_escaping rfl hexposed) fun _ => ?_
              refine triple_map ih fun successes s hs => ?_
              cases successes <;> exact hs

theorem confirmChatItems_exposed (items : List (Prepared Unit)) :
    Triple KeepsChunk (Holding .nothing ids beating) (confirmChatItems items)
      (fun confirmed s => if confirmed then Holding .nothing ids beating s else Settled s) E C := by
  induction items with
  | nil => exact triple_pure fun _ hs => hs
  | cons prepared rest ih =>
      refine triple_bind (ignoring_exposed (call_uncut
        (Exposed.uncovered fun _ hs => Holding.exposed hs))) fun _ => ?_
      refine triple_bind (keepsItemLease_exposed prepared) fun kept => ?_
      cases kept with
      | true => exact triple_bind (popHeartbeat_kept _) fun _ => ih
      | false => exact triple_bind stopAndClear_settled fun _ => triple_pure fun _ hs => hs

theorem persistChatRows_settled (items successes : List (Prepared Unit)) :
    Triple KeepsChunk (Holding .nothing (itemIds items) beating) (persistChatRows items successes)
      (fun _ => Settled) Settled Settled := by
  apply triple_bind (Q := fun _ => Holding .finalBlock (itemIds items) beating)
  · exact triple_modify fun s hs => ⟨rfl, hs.ledger, hs.owners, hs.listed, hs.beating⟩
  intro _
  refine lastly_settled items ?_
  split
  · exact preserves_pure _
  · exact (persistCompletionRows_kept _).map

theorem settleChatResults_settled (w : ChunkWorker) (items : List (Prepared Unit))
    (results : List ItemResult) :
    Triple KeepsChunk (Holding .nothing (itemIds items) beating) (settleChatResults w items results)
      (fun _ => Settled) Settled Settled := by
  refine triple_bind (handleChatResults_exposed w _) fun handled => ?_
  cases handled with
  | none => exact triple_pure fun _ hs => hs
  | some successes =>
      refine triple_bind (confirmChatItems_exposed successes) fun confirmed => ?_
      cases confirmed with
      | true => exact persistChatRows_settled items successes
      | false => exact triple_pure fun _ hs => hs

theorem executeChatChunk_settled (w : ChunkWorker) (items : List (Prepared Unit)) :
    Triple KeepsChunk (Holding .nothing (itemIds items) []) (executeChatChunk w items)
      (fun _ => Settled) Settled Settled := by
  refine triple_followedBy (callChatProvider_exposed w items (C := Settled)) fun ending => ?_
  cases ending with
  | returned results =>
      cases results with
      | none => exact stopAndClear_settled
      | some results => exact settleChatResults_settled w items results
  | raised error => exact handleChatFailure_settled w items error
  | timedOut | cancelled => exact fun _ hs => hs

/-! ## Embedding chunks -/

theorem callEmbeddingProvider_exposed (w : ChunkWorker)
    (items : List (Prepared PreparedEmbeddingItem)) :
    Triple KeepsChunk (Holding .nothing ids []) (callEmbeddingProvider w items)
      (fun served => Holding .nothing (if served then ids else []) (itemIds items))
      (Holding .nothing ids (itemIds items)) C := by
  refine triple_bind (startHeartbeats_holding items) fun _ => ?_
  refine triple_bind (awaitProvider_exposed w _) fun served => ?_
  cases served with
  | false => exact triple_pure fun _ hs => hs
  | true =>
      refine triple_map (call_uncut (Exposed.uncovered fun _ hs => Holding.exposed hs)) ?_
      exact fun _ _ hs => hs

theorem releaseFailedMicrobatch_exposed (w : ChunkWorker)
    (items : List (Prepared PreparedEmbeddingItem)) (error : BatchError) :
    Triple KeepsChunk (Holding .nothing ids beating) (releaseFailedMicrobatchForRetry w items error)
      (fun requeued => Holding .nothing ids (if requeued then [] else beating)) Settled C := by
  have hexposed : ∀ s, Holding .nothing ids beating s → Exposed s := fun _ hs => hs.exposed
  unfold releaseFailedMicrobatchForRetry
  split
  · exact triple_pure fun _ hs => hs
  · refine triple_bind (maybeDefer_exposed error hexposed) fun _ => ?_
    refine triple_bind (call_escaping rfl hexposed) fun fits => ?_
    dsimp only
    split
    · exact triple_pure fun _ hs => hs
    · refine triple_bind
        (releaseItemsForRetry_uncut _ (Exposed.uncovered hexposed)) fun released => ?_
      split
      · exact triple_pure fun _ hs => hs
      · refine triple_bind stopAndClearHeartbeats_holding fun _ => ?_
        refine triple_bind (call_escaping rfl fun _ hs => Holding.exposed hs) fun _ => ?_
        exact triple_pure fun _ hs => hs

/-- When an item is processed on its own, only the items after it hold something. -/
theorem isolateItems_settled (items : List (Prepared PreparedEmbeddingItem)) :
    Triple KeepsChunk (Holding .nothing (itemIds items) (itemIds items)) (isolateItems items)
      (fun _ => Settled) Settled C := by
  have hbody : ∀ (prepared : Prepared PreparedEmbeddingItem) rest,
      Triple KeepsChunk
        (Holding .nothing (itemIds (prepared :: rest)) (itemIds (prepared :: rest)))
        (popHeartbeat prepared.id >>= fun _ => releasePreparedPolicyLease prepared >>= fun _ =>
          call (.processItem prepared.id))
        (fun _ => Holding .nothing (itemIds rest) (itemIds rest)) Settled C := by
    intro prepared rest
    apply triple_bind (Q := fun _ => Holding .nothing (prepared.id :: itemIds rest) (itemIds rest))
    · refine (popHeartbeat_holding prepared.id).conseq (fun _ hs => hs) ?_ (fun _ hs => hs)
        fun _ hs => hs
      rintro _ s ⟨hs, hstopped⟩
      refine ⟨hs.cover, hs.ledger, hs.owners, hs.listed, fun id hid => ?_⟩
      refine (List.mem_cons.mp (hs.beating id hid)).resolve_left ?_
      rintro rfl
      exact hstopped hid
    · intro _
      refine triple_bind (releasePreparedPolicyLease_holding prepared nofun) fun _ => ?_
      exact call_escaping rfl fun _ hs => Holding.exposed hs
  exact (triple_forEach (I := fun rest => Holding .nothing (itemIds rest) (itemIds rest)) hbody
    items).conseq (fun _ hs => hs) (fun _ _ hs => hs.settled) (fun _ hs => hs) fun _ hs => hs

theorem handleEmbeddingFailure_settled (w : ChunkWorker)
    (items : List (Prepared PreparedEmbeddingItem)) (error : BatchError) :
    Triple KeepsChunk (Holding .nothing (itemIds items) (itemIds items))
      (handleEmbeddingFailure w items error) (fun _ => Settled) Settled C := by
  have hexposed : ∀ s, Holding .nothing (itemIds items) (itemIds items) s → Exposed s :=
    fun _ hs => hs.exposed
  refine triple_bind (ignoring_exposed (call_uncut (Exposed.uncovered hexposed))) fun _ => ?_
  apply triple_bind (Q := fun requeued : Bool =>
    Holding .nothing (itemIds items) (if requeued then [] else itemIds items))
  · unfold requeueEmbeddingChunk
    split
    · exact triple_pure fun _ hs => hs
    · exact releaseFailedMicrobatch_exposed w items error
  · intro requeued
    cases requeued with
    | true => exact releasePreparedPolicyLeases_settled items nofun
    | false => exact isolateItems_settled items

theorem renewEmbeddingItems_kept (items : List (Prepared PreparedEmbeddingItem)) :
    Preserves KeepsChunk (Holding cover ids beating) (renewEmbeddingItems items) := by
  induction items with
  | nil => exact preserves_pure _
  | cons prepared rest ih =>
      refine (keepsItemLease_kept prepared).bind fun kept => ?_
      split
      · exact ih
      · exact preserves_pure _

theorem persistEmbeddingRows_settled (items : List (Prepared PreparedEmbeddingItem)) :
    Triple KeepsChunk (Holding .nothing (itemIds items) beating) (persistEmbeddingRows items)
      (fun _ => Settled) Settled Settled := by
  apply triple_bind (Q := fun _ => Holding .finalBlock (itemIds items) beating)
  · exact triple_modify fun s hs => ⟨rfl, hs.ledger, hs.owners, hs.listed, hs.beating⟩
  intro _
  have hstop : Preserves KeepsChunk (Holding .finalBlock (itemIds items) beating)
      stopAndClearHeartbeats :=
    stopAndClearHeartbeats_holding.conseq (fun _ hs => hs) (fun _ _ hs => hs.quiet) (fun _ hs => hs)
      fun _ hs => hs
  refine lastly_settled items ?_
  refine ((call_kept _).handle fun _ => preserves_pure _).bind fun _ =>
    (call_kept _).bind fun _ => ?_
  refine (renewEmbeddingItems_kept items).bind fun kept => hstop.bind fun _ => ?_
  split
  · exact (persistCompletionRows_kept _).map
  · exact preserves_pure _

theorem executeEmbeddingChunk_settled (w : ChunkWorker)
    (items : List (Prepared PreparedEmbeddingItem)) :
    Triple KeepsChunk (Holding .nothing (itemIds items) []) (executeEmbeddingChunk w items)
      (fun _ => Settled) Settled Settled := by
  refine triple_followedBy (callEmbeddingProvider_exposed w items (C := Settled)) fun ending => ?_
  cases ending with
  | returned served =>
      cases served with
      | true => exact persistEmbeddingRows_settled items
      | false => exact stopAndClear_settled
  | raised error => exact handleEmbeddingFailure_settled w items error.error
  | timedOut | cancelled => exact fun _ hs => hs

/-! ## Whole chunks -/

/-- A prepared chunk of either kind. -/
inductive Chunk where
  | chat (items : List (Prepared Unit))
  | embedding (items : List (Prepared PreparedEmbeddingItem))

def executeChunk (w : ChunkWorker) : Chunk → Work Unit
  | .chat items => executePreparedChatMicrobatchChunk w items
  | .embedding items => executePreparedMicrobatchChunk w items

/-- What follows the acquisitions settles all three sizes of a chunk. -/
theorem executeAllowed_settled {single : Prepared π → Work Unit}
    {many : List (Prepared π) → Work Unit}
    (hsingle : ∀ prepared, Triple KeepsChunk (Holding .nothing [prepared.id] []) (single prepared)
      (fun _ => Holding .itemTask [] []) (Holding .itemTask [] []) (Holding .itemTask [] []))
    (hmany : ∀ items, Triple KeepsChunk (Holding .nothing (itemIds items) []) (many items)
      (fun _ => Settled) Settled Settled) (allowed : List (Prepared π)) :
    Triple KeepsChunk (Holding .nothing (itemIds allowed ++ []) [])
      (executeAllowed single many allowed) (fun _ => Settled) Settled Settled := by
  rw [List.append_nil]
  unfold executeAllowed
  split
  next => exact triple_pure fun _ hs => hs.settled
  next prepared =>
    exact (hsingle prepared).conseq (fun _ hs => hs) (fun _ _ hs => hs.settled)
      (fun _ hs => hs.settled) fun _ hs => hs.settled
  next => exact hmany allowed

theorem executeChunk_settled (w : ChunkWorker) (chunk : Chunk) :
    Triple KeepsChunk (Holding .nothing [] []) (executeChunk w chunk) (fun _ => Settled) Settled
      Settled := by
  cases chunk with
  | chat items =>
      refine triple_bind (acquirePolicyLeasesForChunk_exposed w items []) fun allowed => ?_
      exact executeAllowed_settled (fun prepared => executePrepared_handsBack w false prepared)
        (executeChatChunk_settled w) allowed
  | embedding items =>
      refine triple_bind (acquirePolicyLeasesForChunk_exposed w items []) fun allowed => ?_
      exact executeAllowed_settled (fun prepared => executePrepared_handsBack w true prepared)
        (executeEmbeddingChunk_settled w) allowed

instance (s : State) : Decidable (Settled s) :=
  decidable_of_iff ((∀ lease < s.leases.acquired, s.leases.releases lease = 1) ∧ s.running = [])
    ⟨fun h => ⟨h.1, h.2⟩, fun h => ⟨h.1, h.2⟩⟩

namespace TwoItems

def worker : ChunkWorker where
  worker :=
    ⟨1, 3, true, 2, 1, fun size => (size + 1) / 2,
      fun body => .ok ⟨"m1", body.get "input", none, none, none⟩⟩
  affectsDeploymentHealth _ := true

def row (itemId : String) (lineNumber : ℕ) : BatchItemRow :=
  { createdItem itemId "batch-1" lineNumber itemId [("model", .str "m1"), ("input", .str "hello")] 1
    with status := .inProgress, attempts := 1, claimEpoch := 1, lockedBy := some "worker-1" }

def embeddingItem (item : BatchItemRow) : PreparedEmbeddingItem :=
  ⟨item, ⟨"m1", item.requestBody.get "input", none, none, none⟩, [], 8,
    ⟨"m1", "m1", "dep-1", none, none, none, .string⟩⟩

def chatItems : List (Prepared Unit) := [⟨row "item-1" 1, (), true⟩, ⟨row "item-2" 2, (), true⟩]

def embeddingItems : List (Prepared PreparedEmbeddingItem) :=
  [⟨row "item-1" 1, embeddingItem (row "item-1" 1), true⟩,
    ⟨row "item-2" 2, embeddingItem (row "item-2" 2), true⟩]

/-- Every call returns, and the response has a result for each item. -/
def calm : (c : Call) → Ending WorkerError c.Reply
  | .acquirePolicyLease _ | .markItemFailed _ _ | .fitsJobDeadline | .renewItemLease _ _ =>
      .returned true
  | .heartbeats _ => .returned []
  | .executeWithFailover _ => .returned ⟨[], none⟩
  | .readResponse ids => .returned (ids.map fun _ => .complete)
  | .releaseItemsForRetry ids => .returned ids
  | .completeItemsWithOutbox _ => .returned .completed
  | .releasePolicyLease _ | .buildRows _ | .recordUpstreamSuccess _ | .recordUpstreamFailure _
  | .recordFailure _ | .deferModelGroup | .refreshJobProgress | .processItem _ | .startTask _ =>
      .returned ()

def leaseLost : (c : Call) → Ending WorkerError c.Reply
  | .heartbeats _ => .returned [("item-1", .lost)]
  | c => calm c

def rejected : (c : Call) → Ending WorkerError c.Reply
  | .readResponse _ => .returned [.failed ⟨.rateLimit, "RateLimitError", "rejected"⟩, .complete]
  | c => calm c

def databaseDown : (c : Call) → Ending WorkerError c.Reply
  | .markItemFailed _ _ => .raised (.failed ⟨.transport, "PoolTimeout", "no connection"⟩)
  | c => calm c

def play (chunk : Chunk) (replies : List ((c : Call) → Ending WorkerError c.Reply)) :
    List (Answer State Call.Reply WorkerError) × State × Ending WorkerError Unit :=
  (executeChunk worker chunk start).play calm replies

theorem runs (chunk : Chunk) (replies : List ((c : Call) → Ending WorkerError c.Reply)) :
    Runs (executeChunk worker chunk start) (play chunk replies).1 (play chunk replies).2.1
      (play chunk replies).2.2 :=
  Program.runs_play calm replies _

/-- A heartbeat of the chunk loses its item while the provider works. -/
def lostInCall : List ((c : Call) → Ending WorkerError c.Reply) :=
  [calm, calm, calm, calm, leaseLost]

/-- The provider rejects the first item, and the item cannot be marked as failed. -/
def failedWrite : List ((c : Call) → Ending WorkerError c.Reply) :=
  [calm, calm, calm, calm, calm, rejected, calm, calm, databaseDown]

end TwoItems

/-- In every run of a chunk that keeps the condition, every acquired lease is released once and
every heartbeat is stopped, whether the run returns or raises. -/
theorem chunk_hands_back {w : ChunkWorker} {chunk : Chunk}
    {answers : List (Answer State Call.Reply WorkerError)} {t : State}
    {last : Ending WorkerError Unit}
    (hrun : Runs (executeChunk w chunk start) answers t last)
    (hkeeps : ∀ answer ∈ answers, KeepsChunk answer) : Settled t := by
  have hends := (executeChunk_settled w chunk start holding_start).runs hrun hkeeps
  cases last <;> exact hends

open TwoItems in
theorem chunk_hands_back_served :
    (play (.chat chatItems) []).2.1.leases.acquired = 2 ∧
      Settled (play (.chat chatItems) []).2.1 := by
  have hkeeps : ∀ answer ∈ (play (.chat chatItems) []).1, KeepsChunk answer := by decide +kernel
  have hsettled := chunk_hands_back (runs (.chat chatItems) []) hkeeps
  exact ⟨by decide +kernel, hsettled⟩

open TwoItems in
/-- After a loss during the call both functions return with their leases held, and a write that
fails leaves a heartbeat too. -/
theorem lost_chunk_keeps_leases :
    Runs (executeChunk worker (.chat chatItems) start) (play (.chat chatItems) lostInCall).1
        (play (.chat chatItems) lostInCall).2.1 (play (.chat chatItems) lostInCall).2.2 ∧
      (play (.chat chatItems) lostInCall).2.1.leases.acquired = 2 ∧
      (play (.chat chatItems) lostInCall).2.1.leases.releases 0 = 0 ∧
      Runs (executeChunk worker (.embedding embeddingItems) start)
        (play (.embedding embeddingItems) lostInCall).1
        (play (.embedding embeddingItems) lostInCall).2.1
        (play (.embedding embeddingItems) lostInCall).2.2 ∧
      (play (.embedding embeddingItems) lostInCall).2.1.leases.acquired = 2 ∧
      (play (.embedding embeddingItems) lostInCall).2.1.leases.releases 0 = 0 ∧
      Runs (executeChunk worker (.chat chatItems) start) (play (.chat chatItems) failedWrite).1
        (play (.chat chatItems) failedWrite).2.1 (play (.chat chatItems) failedWrite).2.2 ∧
      (play (.chat chatItems) failedWrite).2.1.leases.releases 0 = 0 ∧
      (play (.chat chatItems) failedWrite).2.1.running = ["item-2"] :=
  ⟨runs _ _, by decide +kernel, by decide +kernel, runs _ _, by decide +kernel, by decide +kernel,
    runs _ _, by decide +kernel, by decide +kernel⟩

end ChunkReleases
