import DeltaLLM.ChatStreams

/-! # Stream contexts are exited once

A context is held by the attempt that entered it until its stream is handed to the generator, whose
`finally` block exits it. In between only exceptions of the opening itself exit it.
-/
namespace StreamContexts

open AwaitedPrograms AwaitedPrograms.Task
open ChatStreams
open DeploymentRouting (Deployment)
open FailoverAttempts (UpstreamError)

/-- Every context but the held one was exited once; the held one and those to come never. -/
structure Held (held : Option ℕ) (s : State) : Prop where
  exited : ∀ c < s.entered, some c ≠ held → s.exits c = 1
  notYet : ∀ c, some c = held ∨ s.entered ≤ c → s.exits c = 0
  entered : ∀ c ∈ held, c < s.entered

/-- While the stream of an entered context waits to be handed over, a read is not cut short and
every other call returns. -/
def KeepsContext (answer : Answer State Call.Reply UpstreamError) : Prop :=
  answer.state.opened.isNone → (∃ c < answer.state.entered, answer.state.exits c = 0) →
    match answer.call with
    | .readLine _ => answer.ending.isCancellation = false
    | _ => answer.ending.isReturn = true

instance (answer : Answer State Call.Reply UpstreamError) : Decidable (KeepsContext answer) := by
  unfold KeepsContext
  split <;> exact inferInstance

/-- An attempt, or the failover, holds this context and the generator none. -/
def Opening (held : Option ℕ) (s : State) : Prop := Held held s ∧ s.opened = none

theorem opening_start : Opening none start := by
  refine ⟨⟨fun c hc => absurd hc (Nat.not_lt_zero c), fun c _ => rfl, ?_⟩, rfl⟩
  intro c hc
  cases hc

theorem Held.exit {s : State} {c : ℕ} (h : Held (some c) s) : Held none (s.exit c) := by
  have hlt := h.entered c rfl
  refine ⟨fun d hd _ => ?_, fun d hd => ?_, fun d hd => by cases hd⟩
  · by_cases heq : d = c
    · subst heq
      simp [State.exit, h.notYet d (.inl rfl)]
    · have hne : some d ≠ some c := fun h => heq (Option.some.inj h)
      simpa [State.exit, Function.update_of_ne heq] using h.exited d hd hne
  · have hle : s.entered ≤ d := hd.resolve_left nofun
    have heq : d ≠ c := by omega
    simpa [State.exit, Function.update_of_ne heq] using h.notYet d (.inr hle)

theorem Held.enter {s : State} (h : Held none s) (stream : List AnthropicStream.StreamStep)
    (lines : List String) : Held (some s.entered) (s.enter stream lines) := by
  refine ⟨fun d hd hne => ?_, fun d hd => h.notYet d (.inr ?_), fun d hd => ?_⟩
  · have hlt : d < s.entered := by
      have hne' : d ≠ s.entered := fun heq => hne (heq ▸ rfl)
      have hd' : d < s.entered + 1 := hd
      omega
    exact h.exited d hlt nofun
  · rcases hd with heq | hle
    · exact le_of_eq (Option.some.inj heq).symm
    · exact (Nat.le_succ _).trans hle
  · cases hd
    exact Nat.lt_succ_self _

theorem Opening.setStream {held : Option ℕ} {s : State} (h : Opening held s) (c : ℕ)
    (stream : List AnthropicStream.StreamStep) : Opening held (s.setStream c stream) :=
  ⟨⟨h.1.exited, h.1.notYet, h.1.entered⟩, h.2⟩

/-! ## Opening a stream -/

theorem call_idle (c : Call) : Preserves KeepsContext (Opening none) (ChatStreams.call c) :=
  preserves_await c

/-- A call while a context is held returns. -/
theorem call_held {held : ℕ} {c : Call} (hc : ∀ context, c ≠ .readLine context) :
    Triple KeepsContext (Opening (some held)) (ChatStreams.call c) (fun _ => Opening (some held))
      (Opening none) (Opening none) := by
  refine triple_await fun s hs ending hkeeps => ?_
  have hpending : ∃ c < s.entered, s.exits c = 0 :=
    ⟨held, hs.1.entered held rfl, hs.1.notYet held (.inl rfl)⟩
  have hreturn : ending.isReturn = true := by
    have hcase := hkeeps (by rw [hs.2]; rfl) hpending
    revert hcase
    dsimp only
    split
    · exact absurd rfl (hc _)
    · exact id
  cases ending with
  | returned value => exact hs
  | raised | timedOut | cancelled => cases hreturn

theorem readLine_held {held : ℕ} (context : ℕ) :
    Triple KeepsContext (Opening (some held)) (ChatStreams.call (.readLine context))
      (fun _ => Opening (some held)) (Opening (some held)) (Opening none) := by
  refine triple_await fun s hs ending hkeeps => ?_
  have hcut : ending.isCancellation = false := hkeeps (by rw [hs.2]; rfl)
    ⟨held, hs.1.entered held rfl, hs.1.notYet held (.inl rfl)⟩
  cases ending with
  | returned | raised => exact hs
  | timedOut | cancelled => cases hcut

theorem exitContext_held {held : ℕ} (failed : Bool) :
    Triple KeepsContext (Opening (some held)) (exitContext held failed) (fun _ => Opening none)
      (Opening none) (Opening none) := by
  apply triple_bind (Q := fun _ => Opening none)
  · exact triple_modify fun s hs => ⟨hs.1.exit, hs.2⟩
  · exact fun _ => call_idle _

theorem firstLine_held {held : ℕ} (context : ℕ) (steps : List AnthropicStream.StreamStep) :
    Triple KeepsContext (Opening (some held)) (firstLine context steps)
      (fun _ => Opening (some held)) (Opening (some held)) (Opening none) := by
  have hset : ∀ steps, Triple KeepsContext (Opening (some held))
      (modify fun s => s.setStream context steps) (fun _ => Opening (some held))
      (Opening (some held)) (Opening none) :=
    fun steps => triple_modify fun s hs => hs.setStream context steps
  induction steps with
  | nil => exact triple_pure fun s hs => hs
  | cons step steps ih =>
      cases step with
      | read line =>
          apply triple_bind (readLine_held context)
          exact fun _ => triple_bind (hset steps) fun _ => ih
      | yield line =>
          apply triple_bind (hset steps)
          intro _
          split
          · exact ih
          · exact triple_pure fun s hs => hs
      | fail message => exact triple_raise fun s hs => hs

theorem firstChunk_held (g : Gateway) (d : Deployment) {held : ℕ} (response : Response) :
    Triple KeepsContext (Opening (some held)) (firstChunk g d held response)
      (fun opened => Opening (some opened.context)) (Opening (some held)) (Opening none) := by
  unfold firstChunk
  split
  · exact triple_raise fun s hs => hs
  · refine triple_bind (firstLine_held held _) fun first => ?_
    cases first with
    | none => exact triple_raise fun s hs => hs
    | some line => exact triple_pure fun s hs => hs

theorem openStream_opening (g : Gateway) (d : Deployment) :
    Triple KeepsContext (Opening none) (openStreamWithFirstChunk g d)
      (fun opened => Opening (some opened.context)) (Opening none) (Opening none) := by
  refine triple_bind (call_idle _) fun _ => triple_bind (call_idle _) fun response => ?_
  refine triple_read_bind fun s hs => ?_
  apply triple_bind (Q := fun _ => Opening (some s.entered))
  · refine triple_modify fun s' heq => ?_
    subst heq
    exact ⟨hs.1.enter _ _, hs.2⟩
  · intro _
    apply triple_handle (firstChunk_held g d response)
    intro error
    apply triple_bind (exitContext_held true)
    exact fun _ => triple_raise fun s hs => hs

theorem attempts_opening (g : Gateway) :
    Attempts g KeepsContext (Opening none) fun opened => Opening (some opened.context) where
  call := call_idle
  opening := openStream_opening g
  held _ _ hc := call_held hc

/-! ## The client's stream -/

/-- The generator holds the context of its stream. -/
def Serving (opened : Opened) (s : State) : Prop :=
  Held (some opened.context) s ∧ s.opened = some opened

theorem Held.frame {held : Option ℕ} {s t : State} (h : Held held s) (hsame : SameContexts s t) :
    Held held t := by
  refine ⟨?_, ?_, ?_⟩
  · rw [hsame.entered, hsame.exits]
    exact h.exited
  · rw [hsame.entered, hsame.exits]
    exact h.notYet
  · rw [hsame.entered]
    exact h.entered

theorem Serving.frame {opened : Opened} (s t : State) (h : Serving opened s)
    (hsame : SameContexts s t) : Serving opened t :=
  ⟨h.1.frame hsame, hsame.opened.trans h.2⟩

/-- Nothing is open, or the generator's stream is. -/
def Owned (s : State) : Prop := Opening none s ∨ ∃ opened, Serving opened s

theorem Owned.frame {s t : State} (h : Owned s) (hsame : SameContexts s t) : Owned t := by
  rcases h with h | ⟨opened, h⟩
  · exact .inl ⟨h.1.frame hsame, hsame.opened.trans h.2⟩
  · exact .inr ⟨opened, h.frame s t hsame⟩

theorem streamBody_owned (g : Gateway) :
    Triple KeepsContext (Opening none) (streamBody g) (fun _ => Owned) Owned Owned := by
  have hopen : Triple KeepsContext (Opening none) (executeWithFailover g)
      (fun opened => Opening (some opened.context)) Owned Owned :=
    (attempts_opening g).executeWithFailover.conseq (fun _ hs => hs) (fun _ _ hs => hs)
    (fun _ hs => .inl hs)
      fun _ hs => .inl hs
  refine triple_bind hopen fun opened => ?_
  apply triple_bind (Q := fun _ => Serving opened)
  · exact triple_modify fun s hs => ⟨⟨hs.1.exited, hs.1.notYet, hs.1.entered⟩, rfl⟩
  · intro _
    exact (preserves_serve Serving.frame opened).conseq (fun _ hs => hs)
      (fun _ _ hs => .inr ⟨opened, hs⟩)
      (fun _ hs => .inr ⟨opened, hs⟩) fun _ hs => .inr ⟨opened, hs⟩

theorem streamFailed_owned (error : UpstreamError) :
    Preserves KeepsContext Owned (streamFailed error) := by
  refine Preserves.bind ?_ fun _ => (preserves_await _).bind fun _ => preserves_raise _
  exact preserves_modify fun s hs => hs.frame ⟨rfl, rfl, rfl, rfl⟩

/-- Every entered context was exited once. -/
def ExitedOnce (s : State) : Prop := ∀ c < s.entered, s.exits c = 1

theorem Held.exitedOnce {s : State} (h : Held none s) : ExitedOnce s :=
  fun c hc => h.exited c hc nofun

theorem closeOpened_owned :
    Triple KeepsContext Owned closeOpened (fun _ => ExitedOnce) ExitedOnce ExitedOnce := by
  refine triple_read_bind fun s hs => ?_
  rcases hs with hs | ⟨opened, hs⟩
  · rw [hs.2]
    refine triple_pure fun s' heq => ?_
    subst heq
    exact hs.1.exitedOnce
  · rw [hs.2]
    apply triple_bind (Q := fun _ => ExitedOnce)
    · refine triple_modify fun s' heq => ?_
      subst heq
      exact hs.1.exit.exitedOnce
    · exact fun _ => preserves_await _

theorem streamSse_exitedOnce (g : Gateway) :
    Triple KeepsContext (Opening none) (streamSse g)
      (fun _ => ExitedOnce) ExitedOnce ExitedOnce := by
  apply triple_lastly (Q := fun _ => Owned) (E := Owned) (C := Owned)
  · exact triple_handle (streamBody_owned g) streamFailed_owned
  · exact fun _ => closeOpened_owned
  · exact closeOpened_owned
  · exact closeOpened_owned

instance (s : State) : Decidable (ExitedOnce s) := Nat.decidableBallLT s.entered _

namespace OneDeployment

def deployment : Deployment :=
  ⟨"claude-1", "chat", 1, 0, [], none, none, none, none, none, none⟩

def gateway : Gateway where
  execution := ⟨⟨0, fun _ => [], fun _ => [], fun _ => []⟩, fun _ => [deployment], "claude",
    none, none⟩
  primary := deployment
  translateStream _ :=
    AnthropicStream.translateStream ⟨fun _ => none, fun _ => ""⟩ 1700000000 1700000000000
  mapError _ _ := .other "rejected"
  py := ⟨fun _ => none, fun _ => ""⟩
  limits := ⟨262144, 2048⟩
  model := "claude"
  enableStreamCache := true
  path := "/v1/chat/completions"
  cacheContext := none
  hasStreamHandler := true
  cacheTtl := 3600
  modelInfo _ := []
  provider _ := "anthropic"
  deploymentModel _ := none
  lineTransform := none
  uuid := "0"
  now := 1700000000

/-- The deployment is available and answers with an end mark; every call returns. -/
def calm : (c : Call) → Ending UpstreamError c.Reply
  | .isCooledDown _ => .returned false
  | .getHealth _ => .returned true
  | .enter _ => .returned ⟨200, ["data: [DONE]"]⟩
  | .incrementActive _ | .decrementActive _ | .recordLatency _ | .recordSuccess _
  | .recordFailure _ _ | .sleep _ | .translateRequest _ | .readLine _ | .exit _ _ | .send _
  | .store _ | .recordUsage _ _ | .emitSuccess _ | .emitFailure => .returned ()

/-- The attempt's deadline passes while its first line is awaited. -/
def slowStart : List ((c : Call) → Ending UpstreamError c.Reply) :=
  [calm, calm, calm, calm, calm, fun _ => .timedOut]

def play (replies : List ((c : Call) → Ending UpstreamError c.Reply)) :
    List (Answer State Call.Reply UpstreamError) × State × Ending UpstreamError Unit :=
  (streamSse gateway start).play calm replies

end OneDeployment

/-- In every run of a streaming request in which no stream that was entered is lost before it is
handed to the generator, every entered context is exited once. -/
theorem contexts_exited_once {g : Gateway} {answers : List (Answer State Call.Reply UpstreamError)}
    {t : State} {last : Ending UpstreamError Unit} (hrun : Runs (streamSse g start) answers t last)
    (hkeeps : ∀ answer ∈ answers, KeepsContext answer) : ExitedOnce t := by
  have hends := (streamSse_exitedOnce g start opening_start).runs hrun hkeeps
  cases last <;> exact hends

open OneDeployment in
theorem contexts_exited_once_served : (play []).2.1.entered = 1 ∧ ExitedOnce (play []).2.1 :=
  ⟨by decide +kernel, contexts_exited_once (Program.runs_play calm [] _) (by decide +kernel)⟩

open OneDeployment in
/-- The context of an attempt that times out before its first line is never exited. -/
theorem timed_out_context_left :
    Runs (streamSse gateway start) (play slowStart).1 (play slowStart).2.1 (play slowStart).2.2 ∧
      (play slowStart).2.1.entered = 1 ∧ (play slowStart).2.1.exits 0 = 0 ∧
      ¬ExitedOnce (play slowStart).2.1 :=
  ⟨Program.runs_play calm slowStart _, by decide +kernel, by decide +kernel, by decide +kernel⟩

end StreamContexts
