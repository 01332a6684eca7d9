import DeltaLLM.GovernanceInvalidation

/-! # Which governance a process has loaded

A request that returns leaves its own process with its write. What is published to a process that
listens is loaded there or waits to be, unless a reload raised; a message heard while a reload is
running can wait until the next message comes.
-/
namespace GovernanceRuns

open GovernanceInvalidation
open TransitionRuns

variable {i j : ℕ} {database database' : Target → ℕ} {g g' : Gateway} {e : GatewayEvent}
  {a : Applier} {job : Job} {target : Target} {rest : List Target} {version : ℕ}

/-! ## One reload at a time -/

structure LockInv (g : Gateway) : Prop where
  holder : ∀ a apply, g.jobs a = .applying apply → g.lock = some a
  sleeping : g.sleeping = true → g.jobs .flush = .idle
  idle : ∀ id, (g.requests id).stage ≠ .reloading → g.jobs (.request id) = .idle

/-- A request whose reload runs is reloading. -/
theorem LockInv.reloading (h : LockInv g) {id : ℕ} (hjob : g.jobs (.request id) ≠ .idle) :
    (g.requests id).stage = .reloading := by
  by_contra hother
  exact hjob (h.idle id hother)

theorem LockInv.setJob (h : LockInv g) (hholder : ∀ apply, job = .applying apply → g.lock = some a)
    (hflush : a = .flush → g.sleeping = true → job = .idle)
    (hrequest : ∀ id, a = .request id → (g.requests id).stage = .reloading) :
    LockInv (g.setJob a job) := by
  refine ⟨?_, ?_, ?_⟩
  · intro b apply hb
    rw [setJob_jobs] at hb
    split at hb
    · next heq => exact heq ▸ hholder apply hb
    · exact h.holder b apply hb
  · intro hsleeping
    rw [setJob_jobs]
    split
    · next heq => exact hflush heq.symm hsleeping
    · exact h.sleeping hsleeping
  · intro id hstage
    rw [setJob_jobs, if_neg fun heq => hstage (hrequest id heq.symm)]
    exact h.idle id hstage

theorem LockInv.release (h : LockInv g) {apply : Apply} (hjob : g.jobs a = .applying apply)
    (stage : Stage) : LockInv (g.release a stage) := by
  refine ⟨?_, ?_, ?_⟩
  · intro b x hb
    rw [release_jobs] at hb
    split at hb
    · cases hb
    · next hother =>
      -- the lock has one holder
      have hholder := (h.holder b x hb).symm.trans (h.holder a apply hjob)
      exact absurd (Option.some.inj hholder) hother
  · intro hsleeping
    rw [release_eq] at hsleeping
    rw [release_jobs, h.sleeping hsleeping, ite_self]
  · intro id hstage
    rw [release_requests] at hstage
    rw [release_jobs]
    by_cases heq : .request id = a
    · exact if_pos heq
    · rw [if_neg (Ne.symm heq)] at hstage
      rw [if_neg heq, h.idle id hstage]

theorem LockInv.load (h : LockInv g) (target : Target) (version : ℕ) :
    LockInv (g.load target version) :=
  ⟨h.holder, h.sleeping, h.idle⟩

theorem LockInv.drop (h : LockInv g) (database : Target → ℕ) (a : Applier) (apply : Apply) :
    LockInv (g.drop database a apply) :=
  ⟨h.holder, h.sleeping, h.idle⟩

theorem LockInv.move (h : LockInv g) (hmove : Move i database g e g') : LockInv g' := by
  cases hmove with
  | @write id target hidle =>
      have hwritten : LockInv (g.setRequest id ⟨target, database target + 1, .reloading⟩) := by
        refine ⟨h.holder, h.sleeping, ?_⟩
        intro other hstage
        rw [setRequest_requests] at hstage
        split at hstage
        · exact absurd rfl hstage
        · exact h.idle other hstage
      refine hwritten.setJob ?_ ?_ ?_
      · rintro apply ⟨⟩
      · rintro ⟨⟩
      · rintro other ⟨⟩
        rw [setRequest_requests, if_pos rfl]
  | @acquire a targets hjob hlock =>
      refine ⟨?_, ?_, ?_⟩
      · intro b apply hb
        rw [acquire_jobs] at hb
        split at hb
        · next heq => exact congrArg some heq.symm
        · have hheld := h.holder b apply hb
          rw [hlock] at hheld
          cases hheld
      · intro hsleeping
        have hnone := h.sleeping hsleeping
        rw [acquire_jobs, if_neg (by rintro rfl; simp [hjob] at hnone), hnone]
      · intro id hstage
        have hnone := h.idle id hstage
        rw [acquire_jobs, if_neg (by rintro rfl; simp [hjob] at hnone), hnone]
  | read hjob =>
      refine h.setJob (fun _ _ => h.holder _ _ hjob) ?_ ?_
      · rintro rfl hsleeping
        simp [h.sleeping hsleeping] at hjob
      · rintro id rfl
        exact h.reloading (by simp [hjob])
  | last hjob => exact (h.load _ _).release hjob .notifying
  | install hjob =>
      refine (h.load _ _).setJob (fun _ _ => h.holder _ _ hjob) ?_ ?_
      · rintro rfl hsleeping
        simp [h.sleeping hsleeping] at hjob
      · rintro id rfl
        exact h.reloading (by simp [hjob])
  | raise hjob => exact (h.drop _ _ _).release hjob .raised
  | @publish id published hstage =>
      refine ⟨h.holder, h.sleeping, ?_⟩
      intro other hother
      rw [setStage_requests] at hother
      split at hother
      · next heq =>
        rw [heq]
        exact h.idle id (by simp [hstage])
      · exact h.idle other hother
  | @hear message inbox hlistening hinbox =>
      rw [receive_eq]
      exact ⟨h.holder, fun hsleeping => (receive_sleeping _ hsleeping).elim h.sleeping fun hnone =>
        hnone, h.idle⟩
  | wake hsleeping =>
      have hawake : LockInv { g with remoteTargets := ∅, sleeping := false } :=
        ⟨h.holder, Bool.false_ne_true.elim, h.idle⟩
      refine hawake.setJob ?_ ?_ ?_
      · intro apply hjob
        split at hjob <;> cases hjob
      · rintro - ⟨⟩
      · rintro id ⟨⟩
  | stopListening => exact ⟨h.holder, h.sleeping, h.idle⟩

/-! ## Versions -/

/-- Nothing is newer than the tables, and a reload that has read them is not older than what its
process has loaded. -/
structure VersionInv (database : Target → ℕ) (g : Gateway) : Prop where
  loaded : ∀ target, g.loaded target ≤ database target
  notified : ∀ target, g.notified target ≤ database target
  versions : ∀ id, (g.requests id).stage ≠ .idle →
    (g.requests id).version ≤ database (g.requests id).target
  read : ∀ a target rest version, g.jobs a = .applying ⟨target :: rest, some version⟩ →
    g.loaded target ≤ version ∧ version ≤ database target

theorem VersionInv.mono (h : VersionInv database g)
    (hle : ∀ target, database target ≤ database' target) : VersionInv database' g := by
  refine ⟨?_, ?_, ?_, ?_⟩
  · exact fun target => (h.loaded target).trans (hle target)
  · exact fun target => (h.notified target).trans (hle target)
  · exact fun id hstage => (h.versions id hstage).trans (hle _)
  · exact fun a target rest version hjob =>
      (h.read a target rest version hjob).imp_right fun hread => hread.trans (hle target)

theorem VersionInv.setJob (h : VersionInv database g)
    (hread : ∀ target rest version, job = .applying ⟨target :: rest, some version⟩ →
      g.loaded target ≤ version ∧ version ≤ database target) :
    VersionInv database (g.setJob a job) := by
  refine ⟨h.loaded, h.notified, h.versions, ?_⟩
  intro b target rest version hb
  rw [setJob_jobs] at hb
  split at hb
  · exact hread target rest version hb
  · exact h.read b target rest version hb

theorem VersionInv.load (h : VersionInv database g) (hlock : LockInv g)
    (hjob : g.jobs a = .applying ⟨target :: rest, some version⟩) :
    VersionInv database (g.load target version) := by
  refine ⟨?_, h.notified, h.versions, ?_⟩
  · intro other
    show Function.update g.loaded target version other ≤ database other
    rw [Function.update_apply]
    split
    · next heq => exact heq ▸ (h.read a target rest version hjob).2
    · exact h.loaded other
  · intro b other left new hb
    -- no other reload of the process runs
    have hholder := (hlock.holder b _ hb).symm.trans (hlock.holder a _ hjob)
    obtain rfl := Option.some.inj hholder
    have hsame := hb.symm.trans hjob
    cases hsame
    refine ⟨?_, (h.read b target rest version hjob).2⟩
    exact (Function.update_self target version g.loaded).le

theorem VersionInv.release (h : VersionInv database g) (hlock : LockInv g)
    (hjob : g.jobs a ≠ .idle) (stage : Stage) : VersionInv database (g.release a stage) := by
  rw [release_eq]
  refine ⟨h.loaded, h.notified, ?_, ?_⟩
  · intro id hstage
    dsimp only at hstage ⊢
    rw [release_requests] at hstage ⊢
    split at hstage
    · next heq =>
      subst heq
      rw [if_pos rfl]
      exact h.versions id (by simp [hlock.reloading hjob])
    · next heq =>
      rw [if_neg heq]
      exact h.versions id hstage
  · intro b target rest version hb
    dsimp only at hb
    rw [release_jobs] at hb
    split at hb
    · cases hb
    · exact h.read b target rest version hb

theorem le_writtenBy (database : Target → ℕ) (e : GatewayEvent) (target : Target) :
    database target ≤ writtenBy database e target := by
  cases e with
  | write id written =>
      show database target ≤ Function.update database written (database written + 1) target
      rw [Function.update_apply]
      split
      · next heq =>
        rw [heq]
        exact Nat.le_succ _
      · exact le_rfl
  | acquire | read | install | raise | publish | hear | wake | stopListening => exact le_rfl

theorem VersionInv.move (h : VersionInv database g) (hlock : LockInv g)
    (hmove : Move i database g e g') : VersionInv (writtenBy database e) g' := by
  cases hmove with
  | @write id target hidle =>
      have hgrown := h.mono (le_writtenBy database (.write id target))
      refine VersionInv.setJob ⟨hgrown.loaded, hgrown.notified, ?_, hgrown.read⟩ (by simp)
      intro other hstage
      rw [setRequest_requests] at hstage ⊢
      split
      · exact (Function.update_self target (database target + 1) database).ge
      · next heq =>
        rw [if_neg heq] at hstage
        exact hgrown.versions other hstage
  | @acquire a targets hjob hfree =>
      have hset : VersionInv database (g.setJob a (.applying ⟨applyOrder targets, none⟩)) :=
        h.setJob (by simp)
      exact ⟨hset.loaded, hset.notified, hset.versions, hset.read⟩
  | @read a target rest hjob =>
      refine h.setJob ?_
      rintro other left version ⟨⟩
      exact ⟨h.loaded target, le_rfl⟩
  | last hjob =>
      refine (h.load hlock hjob).release (hlock.load _ _) ?_ .notifying
      exact fun hnone => by cases hjob.symm.trans hnone
  | install hjob => exact (h.load hlock hjob).setJob (by simp)
  | @raise a apply hjob =>
      have hdropped : VersionInv database (g.drop database a apply) :=
        ⟨h.loaded, h.notified, h.versions, h.read⟩
      refine hdropped.release (hlock.drop _ _ _) ?_ .raised
      exact fun hnone => by cases hjob.symm.trans hnone
  | @publish id published hstage =>
      refine ⟨h.loaded, h.notified, ?_, h.read⟩
      intro other hother
      rw [setStage_requests] at hother ⊢
      split
      · exact h.versions id (by simp [hstage])
      · next heq =>
        rw [if_neg heq] at hother
        exact h.versions other hother
  | hear hlistening hinbox =>
      rw [receive_eq]
      exact ⟨h.loaded, h.notified, h.versions, h.read⟩
  | wake hsleeping =>
      refine VersionInv.setJob ⟨h.loaded, h.notified, h.versions, h.read⟩ ?_
      intro target rest version hjob
      split at hjob <;> cases hjob
  | stopListening => exact ⟨h.loaded, h.notified, h.versions, h.read⟩

/-! ## The requests -/

/-- What the reload of a request is at. -/
def Reloads (request : Request) (job : Job) : Prop :=
  job = .waiting [request.target] ∨ ∃ read, job = .applying ⟨[request.target], read⟩ ∧
    ∀ version, read = some version → request.version ≤ version

/-- A request reloads what it has written, and has it loaded once its reload is done. -/
structure RequestInv (g : Gateway) : Prop where
  running : ∀ id, (g.requests id).stage = .reloading →
    Reloads (g.requests id) (g.jobs (.request id))
  done : ∀ id, (g.requests id).stage = .notifying ∨ (g.requests id).stage = .returned →
    (g.requests id).version ≤ g.loaded (g.requests id).target

theorem RequestInv.setJob (h : RequestInv g)
    (hrequest : ∀ id, a = .request id → (g.requests id).stage = .reloading →
      Reloads (g.requests id) job) : RequestInv (g.setJob a job) := by
  refine ⟨?_, h.done⟩
  intro id hstage
  rw [setJob_jobs]
  split
  · next heq => exact hrequest id heq.symm hstage
  · exact h.running id hstage

theorem RequestInv.load (h : RequestInv g) (hloaded : g.loaded target ≤ version) :
    RequestInv (g.load target version) := by
  refine ⟨h.running, ?_⟩
  intro id hstage
  refine (h.done id hstage).trans ?_
  show g.loaded _ ≤ Function.update g.loaded target version _
  rw [Function.update_apply]
  split
  · next heq => exact heq ▸ hloaded
  · exact le_rfl

theorem RequestInv.release (h : RequestInv g) {stage : Stage} (hstage : stage ≠ .reloading)
    (hdone : ∀ id, a = .request id → stage = .notifying →
      (g.requests id).version ≤ g.loaded (g.requests id).target) (hreturned : stage ≠ .returned) :
    RequestInv (g.release a stage) := by
  rw [release_eq]
  refine ⟨?_, ?_⟩
  · intro id hreloading
    dsimp only at hreloading ⊢
    rw [release_requests] at hreloading ⊢
    split at hreloading
    · exact absurd hreloading hstage
    · next heq =>
      rw [if_neg heq, release_jobs, if_neg (Ne.symm heq)]
      exact h.running id hreloading
  · intro id hend
    dsimp only at hend ⊢
    rw [release_requests] at hend ⊢
    split at hend
    · next heq =>
      rw [if_pos heq]
      exact hdone id heq (hend.resolve_right hreturned)
    · next heq =>
      rw [if_neg heq]
      exact h.done id hend

theorem applyOrder_singleton (target : Target) : applyOrder [target] = [target] := by
  cases target <;> rfl

theorem RequestInv.move (h : RequestInv g) (hlock : LockInv g) (hversion : VersionInv database g)
    (hmove : Move i database g e g') : RequestInv g' := by
  cases hmove with
  | @write id target hidle =>
      refine ⟨?_, ?_⟩
      · intro other hstage
        rw [write_requests] at hstage ⊢
        rw [write_jobs]
        by_cases heq : other = id
        · rw [if_pos heq, if_pos (congrArg _ heq)]
          exact .inl rfl
        · rw [if_neg heq] at hstage ⊢
          rw [if_neg (by simpa using heq)]
          exact h.running other hstage
      · intro other hend
        rw [write_requests] at hend ⊢
        split at hend
        · simp at hend
        · next heq =>
          rw [if_neg heq]
          exact h.done other hend
  | @acquire a targets hjob hfree =>
      have hset : RequestInv (g.setJob a (.applying ⟨applyOrder targets, none⟩)) := by
        refine h.setJob ?_
        rintro id rfl hstage
        rcases h.running id hstage with hwaiting | ⟨read, happlying, hread⟩
        · cases hwaiting.symm.trans hjob
          rw [applyOrder_singleton]
          exact .inr ⟨none, rfl, by simp⟩
        · cases happlying.symm.trans hjob
      exact ⟨hset.running, hset.done⟩
  | @read a target rest hjob =>
      refine h.setJob ?_
      rintro id rfl hstage
      rcases h.running id hstage with hwaiting | ⟨read, happlying, hread⟩
      · cases hwaiting.symm.trans hjob
      · cases happlying.symm.trans hjob
        refine .inr ⟨_, rfl, ?_⟩
        rintro version ⟨⟩
        exact hversion.versions id (by simp [hstage])
  | @last a target version hjob =>
      refine (h.load (hversion.read _ _ _ _ hjob).1).release (by decide) ?_ (by decide)
      rintro id rfl -
      have hstage : (g.requests id).stage = .reloading := hlock.reloading (by simp [hjob])
      rcases h.running id hstage with hwaiting | ⟨read, happlying, hread⟩
      · cases hwaiting.symm.trans hjob
      · obtain ⟨htarget, rfl⟩ : (g.requests id).target = target ∧ read = some version := by
          have hsame := happlying.symm.trans hjob
          simpa using hsame
        show (g.requests id).version ≤
          Function.update g.loaded target version (g.requests id).target
        rw [htarget, Function.update_self]
        exact hread version rfl
  | install hjob =>
      refine (h.load (hversion.read _ _ _ _ hjob).1).setJob ?_
      rintro id rfl hstage
      rcases h.running id hstage with hwaiting | ⟨read, happlying, hread⟩
      · cases hwaiting.symm.trans hjob
      · cases happlying.symm.trans hjob
  | @raise a apply hjob =>
      have hdropped : RequestInv (g.drop database a apply) := ⟨h.running, h.done⟩
      refine hdropped.release ?_ ?_ ?_
      · decide
      · rintro id - ⟨⟩
      · decide
  | @publish id published hstage =>
      refine ⟨?_, ?_⟩
      · intro other hother
        rw [setStage_requests] at hother ⊢
        split at hother
        · cases hother
        · next heq =>
          rw [if_neg heq]
          exact h.running other hother
      · intro other hother
        rw [setStage_requests] at hother ⊢
        split at hother
        · next heq =>
          rw [if_pos heq]
          exact h.done id (.inl hstage)
        · next heq =>
          rw [if_neg heq]
          exact h.done other hother
  | hear hlistening hinbox =>
      rw [receive_eq]
      exact ⟨h.running, h.done⟩
  | wake hsleeping =>
      refine RequestInv.setJob ⟨h.running, h.done⟩ ?_
      rintro id ⟨⟩
  | stopListening => exact ⟨h.running, h.done⟩

/-! ## What was published -/

/-- The flush has not read the tables of the target since its version was `newest`. -/
def Brings (job : Job) (target : Target) (newest : ℕ) : Prop :=
  match job with
  | .idle => False
  | .waiting targets => target ∈ targets
  | .applying apply => target ∈ apply.todo.tail ∨ apply.todo.head? = some target ∧
      ∀ version, apply.read = some version → newest ≤ version

/-- Something will still make the process `i` read the tables of the target: a message to it, a
queued target, or the flush. -/
def Pending (i : ℕ) (g : Gateway) (target : Target) : Prop :=
  (∃ message ∈ g.inbox, message.sourceInstance ≠ i ∧ target ∈ normalizeTargets message.targets) ∨
    target ∈ g.remoteTargets ∨ Brings (g.jobs .flush) target (g.notified target)

/-- What was published to a process is loaded there or pending, unless a flush raised or the process
no longer listens. -/
def Settled (i : ℕ) (g : Gateway) (target : Target) : Prop :=
  g.notified target ≤ g.loaded target ∨ g.notified target ≤ g.lost target ∨
    g.listening = false ∨ Pending i g target

theorem brings_of_mem {targets : List Target} {newest : ℕ} (h : target ∈ targets) :
    Brings (.applying ⟨targets, none⟩) target newest := by
  cases targets with
  | nil => exact absurd h List.not_mem_nil
  | cons first rest =>
      rcases List.mem_cons.mp h with rfl | hrest
      · exact .inr ⟨rfl, by simp⟩
      · exact .inl hrest

theorem mem_of_brings {apply : Apply} {newest : ℕ} (h : Brings (.applying apply) target newest) :
    target ∈ apply.todo := by
  rcases h with htail | ⟨hhead, hread⟩
  · exact List.mem_of_mem_tail htail
  · exact List.mem_of_mem_head? hhead

/-- The flush goes on with what it brings, or has brought or lost it. -/
theorem Settled.flush (h : Settled i g target)
    (hjob : Brings (g.jobs .flush) target (g.notified target) →
      g.notified target ≤ g.loaded target ∨ g.notified target ≤ g.lost target ∨
        Brings job target (g.notified target)) :
    Settled i (g.setJob .flush job) target := by
  have hflush : (g.setJob .flush job).jobs .flush = job := by
    rw [setJob_jobs, if_pos rfl]
  rcases h with hloaded | hlost | hdeaf | hinbox | hremote | hbrings
  · exact .inl hloaded
  · exact .inr (.inl hlost)
  · exact .inr (.inr (.inl hdeaf))
  · exact .inr (.inr (.inr (.inl hinbox)))
  · exact .inr (.inr (.inr (.inr (.inl hremote))))
  · rcases hjob hbrings with hloaded | hlost | hlater
    · exact .inl hloaded
    · exact .inr (.inl hlost)
    · exact .inr (.inr (.inr (.inr (.inr (hflush.symm ▸ hlater)))))

theorem Settled.load (h : Settled i g target) {first : Target}
    (hloaded : g.loaded first ≤ version) : Settled i (g.load first version) target := by
  refine h.imp_left fun hle => hle.trans ?_
  show g.loaded target ≤ Function.update g.loaded first version target
  rw [Function.update_apply]
  split
  · next heq => exact heq ▸ hloaded
  · exact le_rfl

theorem settled_acquire (h : Settled i g target) {targets : List Target}
    (hjob : g.jobs a = .waiting targets) : Settled i (g.acquire a targets) target := by
  cases a with
  | request id => exact h
  | flush =>
      have hset : Settled i (g.setJob .flush (.applying ⟨applyOrder targets, none⟩)) target := by
        refine h.flush ?_
        intro hbrings
        rw [hjob] at hbrings
        exact .inr (.inr (brings_of_mem (mem_applyOrder.mpr hbrings)))
      exact hset

theorem settled_read (h : Settled i g target) (hversion : VersionInv database g) {first : Target}
    (hjob : g.jobs a = .applying ⟨first :: rest, none⟩) :
    Settled i (g.setJob a (.applying ⟨first :: rest, some (database first)⟩)) target := by
  cases a with
  | request id => exact h
  | flush =>
      refine h.flush ?_
      intro hbrings
      rw [hjob] at hbrings
      refine .inr (.inr (hbrings.imp_right ?_))
      rintro ⟨hhead, hread⟩
      refine ⟨hhead, ?_⟩
      rintro version ⟨⟩
      cases hhead
      exact hversion.notified target

/-- The first reload of a flush ends: it has brought its target, or brings another one later. -/
theorem settled_install (h : Settled i g target) {first : Target}
    (hloaded : g.loaded first ≤ version)
    (hflush : g.jobs .flush = .applying ⟨first :: rest, some version⟩)
    (hjob : target ∈ rest → Brings job target (g.notified target)) :
    Settled i ((g.load first version).setJob .flush job) target := by
  refine (h.load hloaded).flush ?_
  intro hbrings
  have hbrings : Brings (g.jobs .flush) target (g.notified target) := hbrings
  rw [hflush] at hbrings
  rcases hbrings with htail | ⟨hhead, hread⟩
  · exact .inr (.inr (hjob htail))
  · cases hhead
    left
    show g.notified target ≤ Function.update g.loaded target version target
    rw [Function.update_self]
    exact hread version rfl

theorem settled_raise (h : Settled i g target) (hversion : VersionInv database g) {apply : Apply}
    (hjob : g.jobs a = .applying apply) :
    Settled i ((g.drop database a apply).release a .raised) target := by
  have hlost (hmem : target ∈ apply.todo) (hflush : a = .flush) :
      (g.drop database a apply).lost target = database target := if_pos ⟨hmem, hflush⟩
  have hdropped : Settled i (g.drop database a apply) target := by
    refine h.imp_right fun h => h.imp_left fun hle => ?_
    show g.notified target ≤ if target ∈ apply.todo ∧ a = .flush then _ else _
    split
    · exact hversion.notified target
    · exact hle
  cases a with
  | request id => exact hdropped
  | flush =>
      have hset : Settled i ((g.drop database .flush apply).setJob .flush .idle) target := by
        refine hdropped.flush ?_
        intro hbrings
        have hbrings : Brings (g.jobs .flush) target (g.notified target) := hbrings
        rw [hjob] at hbrings
        right; left
        rw [hlost (mem_of_brings hbrings) rfl]
        exact hversion.notified target
      exact hset

theorem settled_hear (h : Settled i g target) {message : Message} {inbox : List Message}
    (hinbox : g.inbox = message :: inbox) :
    Settled i ({ g with inbox := inbox }.receive i message) target := by
  have hkept := receive_kept { g with inbox := inbox } i message
  have hqueued (hsource : message.sourceInstance ≠ i)
      (htarget : target ∈ normalizeTargets message.targets) :=
    receive_queued { g with inbox := inbox } hsource htarget
  rw [receive_eq]
  refine h.imp_right fun h => h.imp_right fun h => h.imp_right fun h => ?_
  rcases h with ⟨other, hmem, hsource, htarget⟩ | hremote | hflush
  · rw [hinbox] at hmem
    rcases List.mem_cons.mp hmem with rfl | hlater
    · exact .inr (.inl (hqueued hsource htarget))
    · exact .inl ⟨other, hlater, hsource, htarget⟩
  · exact .inr (.inl (hkept hremote))
  · exact .inr (.inr hflush)

theorem settled_wake (h : Settled i g target) (hnone : g.jobs .flush = .idle) :
    Settled i g.wake target := by
  have hflush : g.wake.jobs .flush =
      if g.queuedTargets = [] then .idle else .waiting g.queuedTargets :=
    (setJob_jobs _ _ _ _).trans (if_pos rfl)
  refine h.imp_right fun h => h.imp_right fun h => h.imp_right fun h => ?_
  rcases h with hinbox | hremote | hbrings
  · exact .inl hinbox
  · have hmem := mem_queuedTargets.mpr hremote
    right; right
    rw [hflush, if_neg (List.ne_nil_of_mem hmem)]
    exact hmem
  · rw [hnone] at hbrings
    exact hbrings.elim

theorem settled_move (hlock : LockInv g) (hversion : VersionInv database g)
    (hmove : Move i database g e g') (h : Settled i g target) : Settled i g' target := by
  cases hmove with
  | write target hidle => exact h
  | acquire hjob hfree => exact settled_acquire h hjob
  | read hjob => exact settled_read h hversion hjob
  | @last a first version hjob =>
      have hloaded := (hversion.read _ _ _ _ hjob).1
      cases a with
      | request id => exact h.load hloaded
      | flush =>
          have hrest : target ∈ ([] : List Target) → Brings .idle target (g.notified target) :=
            fun hmem => absurd hmem List.not_mem_nil
          exact settled_install h hloaded hjob hrest
  | @install a first following rest version hjob =>
      have hloaded := (hversion.read _ _ _ _ hjob).1
      cases a with
      | request id => exact h.load hloaded
      | flush => exact settled_install h hloaded hjob brings_of_mem
  | raise hjob => exact settled_raise h hversion hjob
  | publish published hstage => exact h
  | hear hlistening hinbox => exact settled_hear h hinbox
  | wake hsleeping => exact settled_wake h (hlock.sleeping hsleeping)
  | stopListening => exact .inr (.inr (.inl rfl))

/-! ## All processes -/

structure GatewayInv (i : ℕ) (database : Target → ℕ) (g : Gateway) : Prop where
  lock : LockInv g
  version : VersionInv database g
  request : RequestInv g
  settled : ∀ target, Settled i g target

theorem GatewayInv.move (h : GatewayInv i database g) (hmove : Move i database g e g') :
    GatewayInv i (writtenBy database e) g' where
  lock := h.lock.move hmove
  version := h.version.move h.lock hmove
  request := h.request.move h.lock h.version hmove
  settled _ := settled_move h.lock h.version hmove (h.settled _)

theorem GatewayInv.mono (h : GatewayInv i database g)
    (hle : ∀ target, database target ≤ database' target) : GatewayInv i database' g :=
  ⟨h.lock, h.version.mono hle, h.request, h.settled⟩

theorem VersionInv.deliver (h : VersionInv database g) {message : Option Request}
    (hmessage : ∀ request, message = some request → request.version ≤ database request.target) :
    VersionInv database (g.deliver i j message) := by
  rw [deliver_eq]
  refine ⟨h.loaded, ?_, h.versions, h.read⟩
  intro target
  cases message with
  | none => exact h.notified target
  | some request =>
      unfold Gateway.deliver
      dsimp only
      split
      · dsimp only
        split
        · exact h.notified target
        · rw [Function.update_apply]
          split
          · next heq =>
            rw [heq]
            exact max_le (h.notified _) (hmessage request rfl)
          · exact h.notified target
      · exact h.notified target

/-- A process to which another one publishes the target has the message pending. -/
theorem Settled.deliver (h : Settled j g target) (message : Option Request) :
    Settled j (g.deliver i j message) target := by
  cases message with
  | none => exact h
  | some request =>
      unfold Gateway.deliver
      dsimp only
      split
      case isFalse => exact h
      by_cases hown : i = j ∨ target ≠ request.target
      · -- what is notified of the target stays
        have hnotified : (if i = j then g.notified else Function.update g.notified
            request.target (max (g.notified request.target) request.version)) target =
              g.notified target := by
          split
          · rfl
          · next hother => exact Function.update_of_ne (hown.resolve_left hother) _ _
        unfold Settled Pending
        dsimp only
        rw [hnotified]
        refine h.imp_right fun h => h.imp_right fun h => h.imp_right fun h => h.imp_left ?_
        rintro ⟨message, hmem, hsource⟩
        exact ⟨message, List.mem_append_left _ hmem, hsource⟩
      · obtain ⟨hother, htarget⟩ := not_or.mp hown
        refine .inr (.inr (.inr (.inl ⟨⟨i, [request.target.name]⟩, ?_, hother, ?_⟩)))
        · exact List.mem_append_right _ (List.mem_singleton_self _)
        · rw [normalizeTargets_name, not_not.mp htarget]
          exact List.mem_singleton_self _

theorem GatewayInv.deliver (h : GatewayInv j database g) {message : Option Request}
    (hmessage : ∀ request, message = some request → request.version ≤ database request.target) :
    GatewayInv j database (g.deliver i j message) where
  lock := by
    rw [deliver_eq]
    exact ⟨h.lock.holder, h.lock.sleeping, h.lock.idle⟩
  version := h.version.deliver hmessage
  request := by
    rw [deliver_eq]
    exact ⟨h.request.running, h.request.done⟩
  settled _ := (h.settled _).deliver message

theorem publishedBy_version (h : VersionInv database g) (hmove : Move i database g e g')
    {request : Request} (hrequest : publishedBy g e = some request) :
    request.version ≤ writtenBy database e request.target := by
  cases hmove with
  | @publish id published hstage =>
      cases published with
      | false => cases hrequest
      | true =>
          cases hrequest
          exact h.versions id (by simp [hstage])
  | write | acquire | read | last | install | raise | hear | wake | stopListening => cases hrequest

theorem gatewayInv {s : GovernanceState} (hs : Reachable governanceSystem s) (i : ℕ) :
    GatewayInv i s.database (s.gateways i) := by
  refine hs.invariant (P := fun s => ∀ i, GatewayInv i s.database (s.gateways i)) ?_ ?_ i
  · intro s hstart i
    rw [hstart i]
    refine ⟨⟨?_, ?_, ?_⟩, ⟨?_, ?_, ?_, ?_⟩, ⟨?_, ?_⟩, ?_⟩
    · rintro a apply ⟨⟩
    · rintro ⟨⟩
    · exact fun _ _ => rfl
    · exact fun _ => le_rfl
    · exact fun _ => Nat.zero_le _
    · exact fun _ hstage => absurd rfl hstage
    · rintro a target rest version ⟨⟩
    · rintro id ⟨⟩
    · rintro id (⟨⟨⟩⟩ | ⟨⟨⟩⟩)
    · exact fun _ => .inl (Nat.zero_le _)
  · intro s e h he j
    obtain ⟨g, hmove, hnext⟩ := next_commit he
    rw [hnext]
    refine GatewayInv.deliver ?_ fun request hrequest =>
      publishedBy_version (h e.1).version hmove hrequest
    split
    · next heq => exact heq ▸ (h e.1).move hmove
    · exact (h j).mono (le_writtenBy s.database e.2)

/-! ## A run

The second change is heard while the flush of the first one has read the tables.
-/

def startedProcesses : GovernanceState where
  database := fun _ => 0
  gateways := fun _ => startedGateway fun _ => 0

/-- The request on process 0 from its write to its publication. -/
def change (id : ℕ) : List (ℕ × GatewayEvent) :=
  [(0, .write id .callableTarget), (0, .acquire (.request id)), (0, .read (.request id)),
    (0, .install (.request id)), (0, .publish id true)]

def overlookedRun : List (ℕ × GatewayEvent) :=
  change 0 ++ [(1, .hear), (1, .wake), (1, .acquire .flush), (1, .read .flush)] ++ change 1 ++
    [(1, .hear), (1, .install .flush)]

def overlookedEnd : GovernanceState := overlookedRun.foldl governanceSystem.next startedProcesses

instance (s : GovernanceState) (e : ℕ × GatewayEvent) : Decidable (governanceSystem.enabled s e) :=
  inferInstanceAs (Decidable (_ = true))

theorem overlookedEnd_reachable : Reachable governanceSystem overlookedEnd := by
  have hstart : Reachable governanceSystem startedProcesses := .initial fun _ => rfl
  exact ReachableBy.fires hstart (by decide)

/-! ## Results -/

/-- A request that returns leaves its process with its write loaded. What was published to another
process that listens is loaded there too, or a message, a queued target or a running flush is still
to bring it; only a flush that raises drops it. -/
theorem governance_settles {s : GovernanceState} (hs : Reachable governanceSystem s) (i : ℕ) :
    (∀ id, ((s.gateways i).requests id).stage = .returned →
      ((s.gateways i).requests id).version ≤
        (s.gateways i).loaded ((s.gateways i).requests id).target) ∧
      ∀ target, Settled i (s.gateways i) target :=
  ⟨fun id hstage => (gatewayInv hs i).request.done id (.inr hstage), (gatewayInv hs i).settled⟩

theorem changes_settle : 2 ≤ (overlookedEnd.gateways 0).loaded .callableTarget ∧
    Settled 1 (overlookedEnd.gateways 1) .callableTarget :=
  ⟨(governance_settles overlookedEnd_reachable 0).1 1 rfl,
    (governance_settles overlookedEnd_reachable 1).2 .callableTarget⟩

/-! ## A target that nothing flushes -/

/-- The process `i` hears no message and none of its requests ends a reload. -/
def Quiet (i : ℕ) (_ : GovernanceState) (e : ℕ × GatewayEvent) : Prop :=
  e.1 = i → e.2 ≠ .hear ∧ ∀ id, e.2 ≠ .install (.request id)

/-- The target is queued and no task is there to flush it. -/
structure Overlooked (g : Gateway) (target : Target) : Prop where
  queued : target ∈ g.remoteTargets
  awake : g.sleeping = false
  idle : g.jobs .flush = .idle

theorem Overlooked.setJob (h : Overlooked g target) {current : Job} (hjob : g.jobs a = current)
    (hbusy : current ≠ .idle) (job : Job) : Overlooked (g.setJob a job) target := by
  refine ⟨h.queued, h.awake, ?_⟩
  rw [setJob_jobs, if_neg, h.idle]
  rintro rfl
  exact hbusy (hjob.symm.trans h.idle)

theorem Overlooked.release (h : Overlooked g target) (stage : Stage) :
    Overlooked (g.release a stage) target := by
  rw [release_eq]
  refine ⟨h.queued, h.awake, ?_⟩
  dsimp only
  rw [release_jobs, h.idle, ite_self]

/-- Only a message or the end of a request's reload changes what the process has loaded. -/
theorem Overlooked.move (h : Overlooked g target) (hmove : Move i database g e g')
    (hhear : e ≠ .hear) (hinstall : ∀ id, e ≠ .install (.request id)) :
    Overlooked g' target ∧ g'.loaded = g.loaded := by
  have hbusy {apply : Apply} (hjob : g.jobs .flush = .applying apply) : False := by
    cases h.idle.symm.trans hjob
  cases hmove with
  | write written hidle => exact ⟨⟨h.queued, h.awake, h.idle⟩, rfl⟩
  | @acquire a targets hjob hfree =>
      have hset := h.setJob hjob (by simp) (.applying ⟨applyOrder targets, none⟩)
      exact ⟨⟨hset.queued, hset.awake, hset.idle⟩, rfl⟩
  | read hjob => exact ⟨h.setJob hjob (by simp) _, rfl⟩
  | @last a first version hjob | @install a first following rest version hjob =>
      cases a with
      | flush => exact (hbusy hjob).elim
      | request id => exact absurd rfl (hinstall id)
  | @raise a apply hjob =>
      have hdropped : Overlooked (g.drop database a apply) target := ⟨h.queued, h.awake, h.idle⟩
      refine ⟨hdropped.release .raised, ?_⟩
      rw [release_eq]
      rfl
  | publish published hstage => exact ⟨⟨h.queued, h.awake, h.idle⟩, rfl⟩
  | hear hlistening hinbox => exact absurd rfl hhear
  | wake hsleeping =>
      rw [h.awake] at hsleeping
      cases hsleeping
  | stopListening => exact ⟨⟨h.queued, h.awake, h.idle⟩, rfl⟩

theorem Overlooked.deliver (h : Overlooked g target) (message : Option Request) :
    Overlooked (g.deliver i j message) target ∧ (g.deliver i j message).loaded = g.loaded := by
  rw [deliver_eq]
  exact ⟨⟨h.queued, h.awake, h.idle⟩, rfl⟩

end GovernanceRuns
