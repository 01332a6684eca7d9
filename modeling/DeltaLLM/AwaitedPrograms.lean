import Mathlib.Data.List.Basic

/-! # Programs that wait for calls

A program keeps a state and waits for one call after the other; what it does next depends on how the
call ended. Handlers catch exceptions and let a cancellation pass, final blocks run at every end.
-/
namespace AwaitedPrograms

/-- How a call or a program ends. The deadline of an enclosing wait and every other cancellation of
the task are no exceptions. -/
inductive Ending (ε α : Type) where
  | returned (value : α)
  | raised (error : ε)
  | timedOut
  | cancelled

def Ending.isCancellation {ε α : Type} : Ending ε α → Bool
  | .timedOut | .cancelled => true
  | .returned _ | .raised _ => false

def Ending.isReturn {ε α : Type} : Ending ε α → Bool
  | .returned _ => true
  | .raised _ | .timedOut | .cancelled => false

inductive Program {κ : Type} (σ : Type) (ρ : κ → Type) (ε α : Type) where
  | ended (state : σ) (ending : Ending ε α)
  | waiting (state : σ) (call : κ) (resume : Ending ε (ρ call) → Program σ ρ ε α)

/-- A call of a run, the state in which it was made and how it ended. -/
structure Answer {κ : Type} (σ : Type) (ρ : κ → Type) (ε : Type) where
  state : σ
  call : κ
  ending : Ending ε (ρ call)

variable {κ σ ε α β : Type} {ρ : κ → Type}

/-- What follows gets the state and the ending. -/
def Program.andThen (p : Program σ ρ ε α) (rest : σ → Ending ε α → Program σ ρ ε β) :
    Program σ ρ ε β :=
  match p with
  | .ended s ending => rest s ending
  | .waiting s call resume => .waiting s call fun ending => (resume ending).andThen rest

/-- The run of a program along the given answers. -/
inductive Runs : Program σ ρ ε α → List (Answer σ ρ ε) → σ → Ending ε α → Prop where
  | ended (s : σ) (ending : Ending ε α) : Runs (.ended s ending) [] s ending
  | waiting {s t : σ} {call : κ} {resume : Ending ε (ρ call) → Program σ ρ ε α}
      {ending : Ending ε (ρ call)} {answers : List (Answer σ ρ ε)} {last : Ending ε α} :
      Runs (resume ending) answers t last →
        Runs (.waiting s call resume) (⟨s, call, ending⟩ :: answers) t last

/-- The run in which the calls end as listed, and as `fallback` says after that. -/
def Program.play (fallback : (call : κ) → Ending ε (ρ call)) :
    List ((call : κ) → Ending ε (ρ call)) → Program σ ρ ε α →
      List (Answer σ ρ ε) × σ × Ending ε α
  | _, .ended s ending => ([], s, ending)
  | replies, .waiting s call resume =>
      let ending := replies.headD fallback call
      let (answers, last) := (resume ending).play fallback replies.tail
      (⟨s, call, ending⟩ :: answers, last)

theorem Program.runs_play (fallback : (call : κ) → Ending ε (ρ call))
    (replies : List ((call : κ) → Ending ε (ρ call))) (p : Program σ ρ ε α) :
    Runs p (p.play fallback replies).1 (p.play fallback replies).2.1
      (p.play fallback replies).2.2 := by
  induction p generalizing replies with
  | ended s ending => exact .ended s ending
  | waiting s call resume ih => exact .waiting (ih _ replies.tail)

/-- Every run whose answers are allowed ends in `Q`. -/
def Program.Ensures (allowed : Answer σ ρ ε → Prop) (Q : σ → Ending ε α → Prop) :
    Program σ ρ ε α → Prop
  | .ended s ending => Q s ending
  | .waiting s call resume =>
      ∀ ending, allowed ⟨s, call, ending⟩ → (resume ending).Ensures allowed Q

variable {allowed : Answer σ ρ ε → Prop} {Q R : σ → Ending ε α → Prop}

/-- The judgement is about the runs. -/
theorem Program.Ensures.runs {p : Program σ ρ ε α} (h : p.Ensures allowed Q)
    {answers : List (Answer σ ρ ε)} {t : σ} {last : Ending ε α} (hrun : Runs p answers t last)
    (hallowed : ∀ answer ∈ answers, allowed answer) : Q t last := by
  induction hrun with
  | ended s ending => exact h
  | waiting _ ih =>
      refine ih (h _ (hallowed _ List.mem_cons_self)) fun answer hmem => ?_
      exact hallowed answer (List.mem_cons_of_mem _ hmem)

theorem Program.Ensures.mono {p : Program σ ρ ε α} (h : p.Ensures allowed Q)
    (himp : ∀ s ending, Q s ending → R s ending) : p.Ensures allowed R := by
  induction p with
  | ended s ending => exact himp s ending h
  | waiting s call resume ih => exact fun ending hending => ih ending (h ending hending)

theorem Program.ensures_andThen {p : Program σ ρ ε α} {rest : σ → Ending ε α → Program σ ρ ε β}
    {S : σ → Ending ε β → Prop} :
    (p.andThen rest).Ensures allowed S ↔
      p.Ensures allowed fun s ending => (rest s ending).Ensures allowed S := by
  induction p with
  | ended s ending => exact Iff.rfl
  | waiting s call resume ih =>
      constructor
      · exact fun h ending hending => (ih ending).mp (h ending hending)
      · exact fun h ending hending => (ih ending).mpr (h ending hending)

/-! ## Tasks -/

/-- A program that is given its state when it starts. -/
def Task {κ : Type} (σ : Type) (ρ : κ → Type) (ε α : Type) : Type := σ → Program σ ρ ε α

namespace Task

def finish (ending : Ending ε α) : Task σ ρ ε α := fun s => .ended s ending

def raise (error : ε) : Task σ ρ ε α := finish (.raised error)

def read : Task σ ρ ε σ := fun s => .ended s (.returned s)

def modify (f : σ → σ) : Task σ ρ ε Unit := fun s => .ended (f s) (.returned ())

def await (call : κ) : Task σ ρ ε (ρ call) := fun s => .waiting s call fun ending => .ended s ending

/-- What follows a task, however it ends. -/
def followedBy (t : Task σ ρ ε α) (rest : Ending ε α → Task σ ρ ε β) : Task σ ρ ε β := fun s =>
  (t s).andThen fun s ending => rest ending s

def bind (t : Task σ ρ ε α) (rest : α → Task σ ρ ε β) : Task σ ρ ε β :=
  t.followedBy fun
    | .returned value => rest value
    | .raised error => finish (.raised error)
    | .timedOut => finish .timedOut
    | .cancelled => finish .cancelled

instance : Monad (Task σ ρ ε) where
  pure value := finish (.returned value)
  bind := bind

/-- `except Exception`. -/
def handle (t : Task σ ρ ε α) (handler : ε → Task σ ρ ε α) : Task σ ρ ε α :=
  t.followedBy fun
    | .raised error => handler error
    | ending => finish ending

/-- `finally`: an end of the block that is no return takes the place of the earlier one. -/
def lastly (t : Task σ ρ ε α) (block : Task σ ρ ε Unit) : Task σ ρ ε α :=
  t.followedBy fun ending => block.bind fun _ => finish ending

/-- A wait with a deadline, which is an exception outside of it. -/
def withDeadline (t : Task σ ρ ε α) (expired : ε) : Task σ ρ ε α :=
  t.followedBy fun
    | .timedOut => raise expired
    | ending => finish ending

/-- An exception is logged and passed over. -/
def ignoring (t : Task σ ρ ε Unit) : Task σ ρ ε Unit := t.handle fun _ => pure ()

/-- `for x in xs`. -/
def forEach {τ : Type} (body : τ → Task σ ρ ε Unit) : List τ → Task σ ρ ε Unit
  | [] => pure ()
  | x :: xs => body x >>= fun _ => forEach body xs

/-- Tasks that do not look at each other's part of the state, in any order: an exception of one is
raised when all have ended, and a task that was cancelled is passed over. -/
def group {τ : Type} (body : τ → Task σ ρ ε Unit) : List τ → Task σ ρ ε Unit
  | [] => pure ()
  | x :: xs => (body x).followedBy fun ending => (group body xs).followedBy fun rest =>
      match ending with
      | .raised error => raise error
      | _ => finish rest

/-- What holds after a return, an exception and a cancellation. -/
def After (Q : α → σ → Prop) (E C : σ → Prop) (s : σ) : Ending ε α → Prop
  | .returned value => Q value s
  | .raised _ => E s
  | .timedOut | .cancelled => C s

/-- From states with `P`, every allowed run of the task ends as the three conditions say. -/
def Triple (allowed : Answer σ ρ ε → Prop) (P : σ → Prop) (t : Task σ ρ ε α) (Q : α → σ → Prop)
    (E C : σ → Prop) : Prop :=
  ∀ s, P s → (t s).Ensures allowed (After Q E C)

variable {P P' E E' C C' : σ → Prop} {t : Task σ ρ ε α} {Q Q' : α → σ → Prop}
  {S : β → σ → Prop}

theorem After.mono {s : σ} {ending : Ending ε α} (h : After Q E C s ending)
    (hreturned : ∀ value, Q value s → Q' value s) (hraised : E s → E' s) (hcut : C s → C' s) :
    After Q' E' C' s ending := by
  cases ending with
  | returned value => exact hreturned value h
  | raised error => exact hraised h
  | timedOut | cancelled => exact hcut h

theorem Triple.pre (h : Triple allowed P t Q E C) (hpre : ∀ s, P' s → P s) :
    Triple allowed P' t Q E C :=
  fun s hs => h s (hpre s hs)

theorem Triple.conseq (h : Triple allowed P t Q E C) (hpre : ∀ s, P' s → P s)
    (hreturned : ∀ value s, Q value s → Q' value s) (hraised : ∀ s, E s → E' s)
    (hcut : ∀ s, C s → C' s) : Triple allowed P' t Q' E' C' :=
  fun s hs => (h s (hpre s hs)).mono fun t _ hafter =>
    hafter.mono (fun value => hreturned value t) (hraised t) (hcut t)

theorem triple_pure {value : α} (h : ∀ s, P s → Q value s) :
    Triple allowed P (pure value : Task σ ρ ε α) Q E C := h

theorem triple_raise {error : ε} (h : ∀ s, P s → E s) :
    Triple allowed P (raise error) Q E C := h

theorem triple_modify {f : σ → σ} {Q : Unit → σ → Prop} (h : ∀ s, P s → Q () (f s)) :
    Triple allowed P (modify f) Q E C := h

theorem triple_await {call : κ} {Q : ρ call → σ → Prop}
    (h : ∀ s, P s → ∀ ending, allowed ⟨s, call, ending⟩ → After Q E C s ending) :
    Triple allowed P (await call) Q E C := h

theorem triple_followedBy {rest : Ending ε α → Task σ ρ ε β} (ht : Triple allowed P t Q E C)
    (hrest : ∀ ending, Triple allowed (fun s => After Q E C s ending) (rest ending) S E' C') :
    Triple allowed P (t.followedBy rest) S E' C' := fun s hs =>
  Program.ensures_andThen.mpr ((ht s hs).mono fun s' ending hQ => hrest ending s' hQ)

theorem triple_bind {rest : α → Task σ ρ ε β} (ht : Triple allowed P t Q E C)
    (hrest : ∀ value, Triple allowed (Q value) (rest value) S E C) :
    Triple allowed P (t >>= rest) S E C := by
  refine triple_followedBy ht fun ending => ?_
  cases ending with
  | returned value => exact hrest value
  | raised error => exact fun s hs => hs
  | timedOut => exact fun s hs => hs
  | cancelled => exact fun s hs => hs

theorem triple_handle {handler : ε → Task σ ρ ε α} (ht : Triple allowed P t Q E C)
    (hhandler : ∀ error, Triple allowed E (handler error) Q E' C) :
    Triple allowed P (t.handle handler) Q E' C := by
  refine triple_followedBy ht fun ending => ?_
  cases ending with
  | raised error => exact hhandler error
  | returned value => exact fun s hs => hs
  | timedOut => exact fun s hs => hs
  | cancelled => exact fun s hs => hs

/-- The block starts from each of the three ends and leads to that end or to one of its own. -/
theorem triple_lastly {block : Task σ ρ ε Unit} (ht : Triple allowed P t Q E C)
    (hreturned : ∀ value, Triple allowed (Q value) block (fun _ => Q' value) E' C')
    (hraised : Triple allowed E block (fun _ => E') E' C')
    (hcut : Triple allowed C block (fun _ => C') E' C') :
    Triple allowed P (t.lastly block) Q' E' C' := by
  refine triple_followedBy ht fun ending => ?_
  cases ending with
  | returned value => exact triple_bind (hreturned value) fun _ => triple_pure fun s hs => hs
  | raised error => exact triple_bind hraised fun _ s hs => hs
  | timedOut => exact triple_bind hcut fun _ s hs => hs
  | cancelled => exact triple_bind hcut fun _ s hs => hs

theorem triple_ignoring {t : Task σ ρ ε Unit} {Q : Unit → σ → Prop} (ht : Triple allowed P t Q E C)
    (hraised : ∀ s, E s → Q () s) : Triple allowed P (ignoring t) Q E' C :=
  triple_handle ht fun _ => triple_pure hraised

/-- The loop invariant speaks of what is left. -/
theorem triple_forEach {τ : Type} {body : τ → Task σ ρ ε Unit} {I : List τ → σ → Prop}
    (hbody : ∀ x xs, Triple allowed (I (x :: xs)) (body x) (fun _ => I xs) E C) (xs : List τ) :
    Triple allowed (I xs) (forEach body xs) (fun _ => I []) E C := by
  induction xs with
  | nil => exact triple_pure fun s hs => hs
  | cons x xs ih => exact triple_bind (hbody x xs) fun _ => ih

/-- However the tasks of a group end, each has done its part. -/
theorem triple_group {τ : Type} {body : τ → Task σ ρ ε Unit} {I : List τ → σ → Prop}
    (hbody : ∀ x xs, Triple allowed (I (x :: xs)) (body x) (fun _ => I xs) (I xs) (I xs))
    (xs : List τ) : Triple allowed (I xs) (group body xs) (fun _ => I []) (I []) (I []) := by
  induction xs with
  | nil => exact triple_pure fun s hs => hs
  | cons x xs ih =>
      refine triple_followedBy (hbody x xs) fun ending => ?_
      have hrest : Triple allowed (fun s => After (fun _ => I xs) (I xs) (I xs) s ending)
          (group body xs) (fun _ => I []) (I []) (I []) := by
        refine ih.pre fun s hs => ?_
        cases ending <;> exact hs
      refine triple_followedBy hrest fun rest s hs => ?_
      cases ending <;> cases rest <;> exact hs

theorem triple_withDeadline {expired : ε} (ht : Triple allowed P t Q E C)
    (hexpired : ∀ s, C s → E s) : Triple allowed P (t.withDeadline expired) Q E C := by
  refine triple_followedBy ht fun ending => ?_
  cases ending with
  | returned value => exact fun s hs => hs
  | raised error => exact fun s hs => hs
  | timedOut => exact hexpired
  | cancelled => exact fun s hs => hs

theorem triple_map {f : α → β} (ht : Triple allowed P t Q E C)
    (h : ∀ value s, Q value s → S (f value) s) : Triple allowed P (f <$> t) S E C :=
  triple_bind ht fun value => triple_pure fun s hs => h value s hs

/-- What the task does depends on the state it starts in. -/
theorem triple_read_bind {rest : σ → Task σ ρ ε β}
    (h : ∀ s, P s → Triple allowed (fun s' => s' = s) (rest s) S E C) :
    Triple allowed P (read >>= rest) S E C :=
  fun s hs => h s hs s rfl

/-! ## What a task keeps however it ends -/

def Preserves (allowed : Answer σ ρ ε → Prop) (I : σ → Prop) (t : Task σ ρ ε α) : Prop :=
  Triple allowed I t (fun _ => I) I I

variable {I : σ → Prop}

theorem preserves_pure (value : α) : Preserves allowed I (pure value : Task σ ρ ε α) :=
  fun _ hs => hs

theorem preserves_raise (error : ε) : Preserves allowed I (raise error : Task σ ρ ε α) :=
  fun _ hs => hs

theorem preserves_finish (ending : Ending ε α) :
    Preserves allowed I (finish ending : Task σ ρ ε α) := by
  intro s hs
  cases ending <;> exact hs

theorem preserves_read : Preserves allowed I (read : Task σ ρ ε σ) := fun _ hs => hs

theorem preserves_modify {f : σ → σ} (h : ∀ s, I s → I (f s)) :
    Preserves allowed I (modify f : Task σ ρ ε Unit) := h

theorem preserves_await (call : κ) : Preserves allowed I (await call : Task σ ρ ε (ρ call)) := by
  intro s hs ending _
  cases ending <;> exact hs

theorem Preserves.followedBy {rest : Ending ε α → Task σ ρ ε β} (ht : Preserves allowed I t)
    (hrest : ∀ ending, Preserves allowed I (rest ending)) :
    Preserves allowed I (t.followedBy rest) := by
  refine triple_followedBy ht fun ending => ?_
  cases ending <;> exact hrest _

theorem Preserves.bind {rest : α → Task σ ρ ε β} (ht : Preserves allowed I t)
    (hrest : ∀ value, Preserves allowed I (rest value)) : Preserves allowed I (t >>= rest) :=
  triple_bind ht hrest

theorem Preserves.map {f : α → β} (ht : Preserves allowed I t) : Preserves allowed I (f <$> t) :=
  ht.bind fun value => preserves_pure (f value)

theorem Preserves.handle {handler : ε → Task σ ρ ε α} (ht : Preserves allowed I t)
    (hhandler : ∀ error, Preserves allowed I (handler error)) :
    Preserves allowed I (t.handle handler) :=
  triple_handle ht hhandler

theorem Preserves.lastly {block : Task σ ρ ε Unit} (ht : Preserves allowed I t)
    (hblock : Preserves allowed I block) : Preserves allowed I (t.lastly block) :=
  triple_lastly ht (fun _ => hblock) hblock hblock

theorem Preserves.withDeadline {expired : ε} (ht : Preserves allowed I t) :
    Preserves allowed I (t.withDeadline expired) :=
  triple_withDeadline ht fun _ hs => hs

end Task

end AwaitedPrograms
