import DeltaLLM.ChatStreams

/-! # Incomplete streams and the cache

The adapter ends every stream with an end mark, and the generator stores what it has when it sees
one. An exception drops the accumulator of the request; a cancellation leaves it.
-/
namespace IncompleteStreams

open AnthropicStream AwaitedPrograms AwaitedPrograms.Task
open ChatStreams
open DeploymentRouting (Deployment)
open FailoverAttempts (UpstreamError)
open StreamingCache

/-- An end mark comes before the next read. -/
def endsNext : List StreamStep → Bool
  | .yield line :: steps => doneLine line || endsNext steps
  | _ => false

/-- The deployment's streams go through the Anthropic adapter. -/
def FromAnthropic (g : Gateway) (d : Deployment) : Prop :=
  ∃ created nowMs, ∀ lines,
    g.translateStream d lines = translateStream g.py created nowMs lines

/-- The accumulator has met a limit or a line that it cannot read. -/
def Disabled (s : State) : Prop := ∃ acc ∈ s.registered, acc.disabledReason.isSome

def readContext : Call → Option ℕ
  | .readLine context => some context
  | _ => none

/-- Where the request's stream is cached: nothing is cancelled while its accumulator is registered,
and no read makes the adapter end a stream that is not complete, unless the accumulator is
disabled. -/
def KeepsCache (g : Gateway) (answer : Answer State Call.Reply UpstreamError) : Prop :=
  g.streamKey.isSome →
    (answer.ending.isCancellation → answer.state.registered.isNone) ∧
    ∀ context ∈ readContext answer.call, answer.ending.isReturn →
      endsNext (answer.state.streams context).tail →
        Complete g.py (answer.state.lines context) ∨ Disabled answer.state

instance (s : State) : Decidable (Disabled s) :=
  inferInstanceAs (Decidable (∃ acc ∈ s.registered, acc.disabledReason.isSome))

instance (g : Gateway) (answer : Answer State Call.Reply UpstreamError) :
    Decidable (KeepsCache g answer) := by
  unfold KeepsCache
  exact inferInstance

/-! ## Before the client's stream -/

/-- The request has no accumulator, no entry and no stream. -/
structure Untouched (s : State) : Prop where
  registered : s.registered = none
  stored : s.stored = []
  opened : s.opened = none
  streamId : s.streamId = none

/-- What is known of the rest of a stream that the cache gets: it ends as the adapter ends streams,
and if that is before the next read, its lines are complete. -/
structure Tail (g : Gateway) (lines : List String) (steps : List StreamStep) : Prop where
  shaped : Shaped steps
  ends : endsNext steps → Complete g.py lines

/-- The request's stream is cached and is one of the Anthropic adapter. -/
def Watched (g : Gateway) (d : Deployment) : Prop := g.streamKey.isSome ∧ FromAnthropic g d

/-- An opened stream has a chunk as its first line. -/
def Ready (g : Gateway) (opened : Opened) (s : State) : Prop :=
  Untouched s ∧ (Watched g opened.deployment →
    (∃ fields, opened.firstLine = dataLine fields) ∧
      Tail g (s.lines opened.context) (s.streams opened.context))

/-- The generator of the adapter has these steps left. -/
structure Reading (context : ℕ) (lines : List String) (steps : List StreamStep) (s : State) :
    Prop where
  untouched : Untouched s
  streams : s.streams context = steps
  lines : s.lines context = lines

theorem Untouched.setStream {s : State} (h : Untouched s) (context : ℕ) (steps : List StreamStep) :
    Untouched (s.setStream context steps) := ⟨h.registered, h.stored, h.opened, h.streamId⟩

theorem Reading.setStream {context : ℕ} {lines : List String} {steps : List StreamStep} {s : State}
    (h : Reading context lines steps s) (rest : List StreamStep) :
    Reading context lines rest (s.setStream context rest) where
  untouched := h.untouched.setStream context rest
  streams := Function.update_self ..
  lines := h.lines

theorem doneLine_of_chunk {line : String} (h : ∃ fields, line = dataLine fields) :
    doneLine line = false := by
  obtain ⟨fields, rfl⟩ := h
  exact dataLine_not_done fields

variable {g : Gateway}

theorem call_untouched (c : Call) : Preserves (KeepsCache g) Untouched (ChatStreams.call c) :=
  preserves_await c

/-- Of a watched stream the first line is a chunk: an end mark in its place would end an incomplete
stream while no accumulator is there to be disabled. -/
theorem firstLine_reading (d : Deployment) (context : ℕ) (lines : List String)
    (steps : List StreamStep)
    (htail : Watched g d → Tail g lines steps ∧ (Complete g.py lines → StartsWithChunk steps)) :
    Triple (KeepsCache g) (Reading context lines steps) (firstLine context steps)
      (fun line s => Untouched s ∧ ∀ text ∈ line, Watched g d →
        (∃ fields, text = dataLine fields) ∧ Tail g (s.lines context) (s.streams context))
      Untouched Untouched := by
  induction steps with
  | nil => exact triple_pure fun s hs => ⟨hs.untouched, nofun⟩
  | cons step steps ih =>
      cases step with
      | read line =>
          have hread : Triple (KeepsCache g) (Reading context lines (.read line :: steps))
              (ChatStreams.call (.readLine context))
              (fun _ s => Reading context lines (.read line :: steps) s ∧
                (g.streamKey.isSome → endsNext steps → Complete g.py lines))
              Untouched Untouched := by
            refine triple_await fun s hs ending hkeeps => ?_
            cases ending with
            | raised | timedOut | cancelled => exact hs.untouched
            | returned value =>
                refine ⟨hs, fun hkey hends => ?_⟩
                have hcases := (hkeeps hkey).2 context rfl rfl (by rw [hs.streams]; exact hends)
                rcases hcases with hcomplete | ⟨acc, hacc, -⟩
                · rwa [hs.lines] at hcomplete
                · rw [hs.untouched.registered] at hacc
                  cases hacc
          refine triple_bind hread fun _ s hs => ?_
          have hrest : Watched g d →
              Tail g lines steps ∧ (Complete g.py lines → StartsWithChunk steps) := by
            intro hwatched
            obtain ⟨⟨hshaped, -⟩, hchunk⟩ := htail hwatched
            cases hshaped with
            | read _ hshaped => exact ⟨⟨hshaped, hs.2 hwatched.1⟩, hchunk⟩
          exact ih hrest _ (hs.1.setStream steps)
      | fail message => exact triple_raise fun s hs => hs.untouched
      | yield line =>
          have hline : Watched g d → (∃ fields, line = dataLine fields) ∧ Tail g lines steps := by
            intro hwatched
            obtain ⟨⟨hshaped, hends⟩, hchunk⟩ := htail hwatched
            cases hshaped with
            | chunk fields hshaped =>
                refine ⟨⟨fields, rfl⟩, hshaped, fun hnext => hends ?_⟩
                simp [endsNext, hnext]
            | mark =>
                have hdone := doneLine_of_chunk (hchunk (hends (by simp [endsNext, endMark_done])))
                rw [endMark_done] at hdone
                cases hdone
          apply triple_bind (Q := fun _ => Reading context lines steps)
          · exact triple_modify fun s hs => hs.setStream steps
          · intro _
            split
            next hempty =>
              apply ih
              intro hwatched
              obtain ⟨fields, rfl⟩ := (hline hwatched).1
              exact absurd hempty (dataLine_ne_empty fields)
            next =>
              refine triple_pure fun s hs => ⟨hs.untouched, fun text htext hwatched => ?_⟩
              cases htext
              rw [hs.lines, hs.streams]
              exact hline hwatched

theorem openStream_ready (d : Deployment) :
    Triple (KeepsCache g) Untouched (openStreamWithFirstChunk g d)
      (Ready g) Untouched Untouched := by
  refine triple_bind (call_untouched _) fun _ => triple_bind (call_untouched _) fun response => ?_
  refine triple_read_bind fun s hs => ?_
  apply triple_bind (Q := fun _ => Reading s.entered response.lines
    (g.translateStream d response.lines))
  · refine triple_modify fun s' heq => ?_
    subst heq
    exact ⟨⟨hs.registered, hs.stored, hs.opened, hs.streamId⟩, Function.update_self ..,
      Function.update_self ..⟩
  · intro _
    apply triple_handle (E := Untouched)
    · unfold firstChunk
      split
      · exact triple_raise fun s' hs' => hs'.untouched
      · apply triple_bind
        · apply firstLine_reading d
          rintro ⟨-, created, nowMs, htranslate⟩
          rw [htranslate]
          refine ⟨⟨translateLines_shaped .., fun hends => ?_⟩,
            translateLines_startsWithChunk created _⟩
          have hread : endsNext (translateStream g.py created nowMs response.lines) = false := by
            cases response.lines <;> rfl
          rw [hread] at hends
          cases hends
        · intro line
          cases line with
          | none => exact triple_raise fun s' hs' => hs'.1
          | some text => exact triple_pure fun s' hs' => ⟨hs'.1, hs'.2 text rfl⟩
    · intro error
      apply triple_bind (Q := fun _ => Untouched)
      · apply triple_bind (Q := fun _ => Untouched)
        · exact triple_modify fun s' hs' => ⟨hs'.registered, hs'.stored, hs'.opened, hs'.streamId⟩
        · exact fun _ => call_untouched _
      · exact fun _ => triple_raise fun s' hs' => hs'

theorem attempts_ready : Attempts g (KeepsCache g) Untouched (Ready g) where
  call := call_untouched
  opening := openStream_ready
  held opened c _ := by
    refine triple_await fun s hs ending _ => ?_
    cases ending with
    | returned => exact hs
    | raised | timedOut | cancelled => exact hs.1

/-! ## The client's stream -/

/-- A stored entry is that of a complete stream. -/
def StoredComplete (g : Gateway) (opened : Opened) (s : State) : Prop :=
  s.opened = some opened ∧ (s.stored = [] ∨ Complete g.py (s.lines opened.context))

/-- The accumulator is gone. -/
def Dropped (g : Gateway) (opened : Opened) (s : State) : Prop :=
  StoredComplete g opened s ∧ s.registered = none

/-- The accumulator is registered; the generator of the adapter has `rest` left, and if an end mark
comes next, of the steps `pending`, the accumulator is disabled or the stream complete. -/
structure Collecting (g : Gateway) (opened : Opened) (key : String) (pending rest : List StreamStep)
    (s : State) : Prop where
  serving : s.opened = some opened
  streamId : s.streamId = some key
  stored : s.stored = []
  streams : s.streams opened.context = rest
  registered : ∃ acc, s.registered = some acc ∧
    (endsNext pending → acc.disabledReason.isSome ∨ Complete g.py (s.lines opened.context))

variable {opened : Opened} {key : String} {pending rest : List StreamStep}

theorem Collecting.storedComplete {s : State} (h : Collecting g opened key pending rest s) :
    StoredComplete g opened s := ⟨h.serving, .inl h.stored⟩

/-- A call while the accumulator is registered is not cancelled. -/
theorem call_collecting (hkey : g.streamKey.isSome) (c : Call) :
    Triple (KeepsCache g) (Collecting g opened key pending rest) (ChatStreams.call c)
      (fun _ => Collecting g opened key pending rest) (StoredComplete g opened)
        (Dropped g opened) := by
  refine triple_await fun s hs ending hkeeps => ?_
  have hregistered : ending.isCancellation = true → s.registered.isNone = true := (hkeeps hkey).1
  obtain ⟨acc, hacc, -⟩ := hs.registered
  cases ending with
  | returned value => exact hs
  | raised error => exact hs.storedComplete
  | timedOut | cancelled =>
      rw [hacc] at hregistered
      cases hregistered rfl

theorem addLine_disabled {py : Python} {limits : Limits} {acc : Accumulator} (line : String)
    (h : acc.disabledReason.isSome) : acc.addLine py limits line = some acc := by
  unfold Accumulator.addLine
  split
  · rfl
  · simp [h]

theorem addChunkFromLine_collecting (line : String) :
    Triple (KeepsCache g) (Collecting g opened key pending rest) (addChunkFromLine g line)
      (fun _ => Collecting g opened key pending rest) (StoredComplete g opened)
        (Dropped g opened) := by
  refine triple_read_bind fun s hs => ?_
  obtain ⟨acc, hacc, hends⟩ := hs.registered
  rw [hacc]
  dsimp only
  split
  · refine triple_raise fun s' heq => ?_
    subst heq
    exact hs.storedComplete
  next acc' hadded =>
    refine triple_modify fun s' heq => ?_
    subst heq
    refine ⟨hs.serving, hs.streamId, hs.stored, hs.streams, acc', rfl, fun hnext => ?_⟩
    refine (hends hnext).imp_left fun hdisabled => ?_
    rw [addLine_disabled line hdisabled] at hadded
    cases hadded
    exact hdisabled

theorem sendLine_collecting (hkey : g.streamKey.isSome) (line : String) :
    Triple (KeepsCache g) (Collecting g opened key pending rest) (sendLine g line)
      (fun _ => Collecting g opened key pending rest) (StoredComplete g opened)
        (Dropped g opened) := by
  unfold sendLine
  split
  · exact call_collecting hkey _
  · split
    · exact triple_pure fun s hs => hs
    · exact call_collecting hkey _

theorem modify_collecting {f : State → State}
    (h : ∀ s, Collecting g opened key pending rest s → Collecting g opened key pending rest (f s)) :
    Triple (KeepsCache g) (Collecting g opened key pending rest) (modify f : Chat Unit)
      (fun _ => Collecting g opened key pending rest) (StoredComplete g opened)
        (Dropped g opened) :=
  triple_modify h

/-- A chunk is added and sent. -/
theorem relayChunk_collecting (hkey : g.streamKey.isSome) (d : Deployment)
    (fields : JsonValues.JsonObject) :
    Triple (KeepsCache g) (Collecting g opened key pending rest) (relayLine g d (dataLine fields))
      (fun _ => Collecting g opened key pending rest) (StoredComplete g opened)
        (Dropped g opened) := by
  apply triple_bind
  · exact modify_collecting fun s hs =>
      ⟨hs.serving, hs.streamId, hs.stored, hs.streams, hs.registered⟩
  · refine fun _ => triple_bind (addChunkFromLine_collecting _) fun _ => ?_
    apply triple_bind (Q := fun _ => Collecting g opened key pending rest)
    · refine triple_read_bind fun s hs => ?_
      rw [hs.streamId]
      simp only [dataLine_not_done, Bool.false_eq_true, if_false]
      refine triple_pure fun s' heq => ?_
      subst heq
      exact hs
    · exact fun _ => sendLine_collecting hkey _

theorem preserves_dropped (c : Call) :
    Triple (KeepsCache g) (Dropped g opened) (ChatStreams.call c) (fun _ => Dropped g opened)
      (StoredComplete g opened) (Dropped g opened) := by
  refine triple_await fun s hs ending _ => ?_
  cases ending with
  | returned | timedOut | cancelled => exact hs
  | raised error => exact hs.1

/-- The end mark of an incomplete stream finds a disabled accumulator, of which nothing is
stored. -/
theorem finalize_dropped (d : Deployment) :
    Triple (KeepsCache g) (Collecting g opened key [.yield endMark] rest) (finalizeAndStore g key d)
      (fun _ => Dropped g opened) (StoredComplete g opened) (Dropped g opened) := by
  refine triple_read_bind fun s hs => ?_
  obtain ⟨acc, hacc, hends⟩ := hs.registered
  apply triple_bind (Q := fun _ s' => s' = { s with registered := none })
  · refine triple_modify fun s' heq => ?_
    rw [heq]
  · intro _
    rw [hacc]
    have hdropped : Dropped g opened { s with registered := none } :=
      ⟨⟨hs.serving, .inl hs.stored⟩, rfl⟩
    dsimp only
    split
    · refine triple_pure fun s' heq => ?_
      subst heq
      exact hdropped
    next response hresponse =>
      have hcomplete : Complete g.py (s.lines opened.context) := by
        refine (hends (by simp [endsNext, endMark_done])).resolve_left fun hdisabled => ?_
        simp [Accumulator.buildResponse, hdisabled] at hresponse
      apply triple_followedBy (Q := fun _ s' => s' = { s with registered := none })
        (E := fun s' => s' = { s with registered := none })
        (C := fun s' => s' = { s with registered := none })
      · exact preserves_await _
      · intro ending
        cases ending with
        | raised error =>
            refine triple_pure fun s' heq => ?_
            rw [show s' = _ from heq]
            exact hdropped
        | returned value =>
            refine fun s' heq => ?_
            rw [show s' = _ from heq]
            exact ⟨⟨hs.serving, .inr hcomplete⟩, rfl⟩
        | timedOut | cancelled =>
            refine fun s' heq => ?_
            rw [show s' = _ from heq]
            exact ⟨⟨hs.serving, .inr hcomplete⟩, rfl⟩

theorem relayMark_dropped (d : Deployment) :
    Triple (KeepsCache g) (Collecting g opened key [.yield endMark] rest) (relayLine g d endMark)
      (fun _ => Dropped g opened) (StoredComplete g opened) (Dropped g opened) := by
  apply triple_bind
  · exact modify_collecting fun s hs =>
      ⟨hs.serving, hs.streamId, hs.stored, hs.streams, hs.registered⟩
  · refine fun _ => triple_bind (addChunkFromLine_collecting _) fun _ => ?_
    apply triple_bind (Q := fun _ => Dropped g opened)
    · refine triple_read_bind fun s hs => ?_
      rw [hs.streamId]
      simp only [endMark_done, if_true]
      exact (finalize_dropped d).pre fun s' heq => heq ▸ hs
    · intro _
      unfold sendLine
      split
      · exact preserves_dropped _
      · split
        · exact triple_pure fun s hs => hs
        · exact preserves_dropped _

/-- After a read an end mark comes next only if the stream is complete or the accumulator
disabled. -/
theorem readLine_collecting (hkey : g.streamKey.isSome) {line : Option String}
    {steps : List StreamStep} :
    Triple (KeepsCache g) (Collecting g opened key (.read line :: steps) (.read line :: steps))
      (ChatStreams.call (.readLine opened.context))
      (fun _ => Collecting g opened key steps (.read line :: steps)) (StoredComplete g opened)
      (Dropped g opened) := by
  refine triple_await fun s hs ending hkeeps => ?_
  have hafter := call_collecting hkey (.readLine opened.context) s hs ending hkeeps
  cases ending with
  | raised | timedOut | cancelled => exact hafter
  | returned value =>
      obtain ⟨acc, hacc, -⟩ := hs.registered
      refine ⟨hs.serving, hs.streamId, hs.stored, hs.streams, acc, hacc, fun hends => ?_⟩
      have hcases := (hkeeps hkey).2 opened.context rfl rfl (by rw [hs.streams]; exact hends)
      rcases hcases with hcomplete | ⟨acc', hacc', hdisabled⟩
      · exact .inr hcomplete
      · rw [hacc] at hacc'
        cases hacc'
        exact .inl hdisabled

/-- From the adapter's stream to the end mark. -/
theorem relay_dropped (hkey : g.streamKey.isSome) {steps : List StreamStep}
    (hshaped : Shaped steps) :
    Triple (KeepsCache g) (Collecting g opened key steps steps) (relay g opened steps)
      (fun _ => Dropped g opened) (StoredComplete g opened) (Dropped g opened) := by
  induction hshaped with
  | mark =>
      apply triple_bind (Q := fun _ => Collecting g opened key [.yield endMark] [])
      · refine triple_modify fun s hs => ?_
        exact ⟨hs.serving, hs.streamId, hs.stored, Function.update_self .., hs.registered⟩
      · intro _
        rw [if_neg (by decide)]
        exact triple_bind (relayMark_dropped _) fun _ => triple_pure fun s hs => hs
  | fail message => exact triple_raise fun s hs => hs.storedComplete
  | read line hshaped ih =>
      rename_i steps
      apply triple_bind (Q := fun _ => Collecting g opened key steps (.read line :: steps))
      · exact readLine_collecting hkey
      · intro _
        apply triple_bind (Q := fun _ => Collecting g opened key steps steps)
        · refine triple_modify fun s hs => ?_
          exact ⟨hs.serving, hs.streamId, hs.stored, Function.update_self .., hs.registered⟩
        · exact fun _ => ih
  | chunk fields hshaped ih =>
      rename_i steps
      apply triple_bind (Q := fun _ => Collecting g opened key steps steps)
      · refine triple_modify fun s hs => ?_
        obtain ⟨acc, hacc, hends⟩ := hs.registered
        refine ⟨hs.serving, hs.streamId, hs.stored, Function.update_self .., acc, hacc,
          fun hnext => ?_⟩
        exact hends (by simp [endsNext, hnext])
      · intro _
        rw [if_neg (dataLine_ne_empty fields)]
        exact triple_bind (relayChunk_collecting hkey _ fields) fun _ => ih

theorem serve_dropped (hwatched : Watched g opened.deployment) :
    Triple (KeepsCache g)
      (fun s => Ready g opened { s with opened := none } ∧ s.opened = some opened)
      (serve g opened) (fun _ => Dropped g opened) (StoredComplete g opened)
        (Dropped g opened) := by
  obtain ⟨key, hkey⟩ := Option.isSome_iff_exists.mp hwatched.1
  intro s hs
  obtain ⟨⟨huntouched, hready⟩, hopened⟩ := hs
  obtain ⟨⟨fields, hfirst⟩, hshaped, hends⟩ := hready hwatched
  have hcollecting : Collecting g opened key (s.streams opened.context) (s.streams opened.context)
      { s with streamId := some key, registered := some .fresh } :=
    ⟨hopened, rfl, huntouched.stored, rfl, .fresh, rfl, fun hnext => .inr (hends hnext)⟩
  have hserve : Triple (KeepsCache g) (fun s' => s' = s) (serve g opened)
      (fun _ => Dropped g opened) (StoredComplete g opened) (Dropped g opened) := by
    apply triple_bind (Q := fun _ =>
      Collecting g opened key (s.streams opened.context) (s.streams opened.context))
    · refine triple_modify fun s' heq => ?_
      subst heq
      simpa only [hkey] using hcollecting
    · intro _
      apply triple_bind (Q := fun _ =>
        Collecting g opened key (s.streams opened.context) (s.streams opened.context))
      · rw [hfirst]
        apply triple_bind
        · exact modify_collecting fun s hs =>
            ⟨hs.serving, hs.streamId, hs.stored, hs.streams, hs.registered⟩
        · refine fun _ => triple_bind (addChunkFromLine_collecting _) fun _ => ?_
          exact sendLine_collecting hwatched.1 _
      · intro _
        refine triple_read_bind fun s' hs' => ?_
        rw [hs'.streams]
        apply triple_bind ((relay_dropped hwatched.1 hshaped).pre fun _ heq => heq ▸ hs')
        intro _
        refine triple_read_bind fun s'' hs'' => ?_
        apply triple_bind ((preserves_dropped _).pre fun _ heq => heq ▸ hs'')
        exact fun _ => preserves_dropped _
  exact hserve s rfl

/-- What is true of the request when its generator has finished: an Anthropic stream that is not
complete has no entry, and no accumulator is left. -/
structure Clean (g : Gateway) (s : State) : Prop where
  unopened : s.opened = none → s.stored = [] ∧ s.registered = none
  served : ∀ opened, s.opened = some opened → FromAnthropic g opened.deployment →
    (s.stored = [] ∨ Complete g.py (s.lines opened.context)) ∧ s.registered = none

/-- What is true when the generator has raised: only the accumulator may still be there. -/
def Raised (g : Gateway) (s : State) : Prop := Clean g { s with registered := none }

theorem Clean.raised {s : State} (h : Clean g s) : Raised g s where
  unopened hopened := ⟨(h.unopened hopened).1, rfl⟩
  served opened hopened hanthropic := ⟨(h.served opened hopened hanthropic).1, rfl⟩

theorem Untouched.clean {s : State} (h : Untouched s) : Clean g s where
  unopened _ := ⟨h.stored, h.registered⟩
  served opened hopened := by
    rw [h.opened] at hopened
    cases hopened

/-- What holds of the stream that the generator serves. -/
theorem clean_of_serving {s : State} (hserving : s.opened = some opened)
    (h : FromAnthropic g opened.deployment →
      (s.stored = [] ∨ Complete g.py (s.lines opened.context)) ∧ s.registered = none) :
    Clean g s where
  unopened hopened := by
    rw [hserving] at hopened
    cases hopened
  served other hopened := by
    rw [hserving] at hopened
    cases hopened
    exact h

theorem Dropped.clean {s : State} (h : Dropped g opened s) : Clean g s :=
  clean_of_serving h.1.1 fun _ => ⟨h.1.2, h.2⟩

theorem StoredComplete.raised {s : State} (h : StoredComplete g opened s) : Raised g s :=
  clean_of_serving h.1 fun _ => ⟨h.2, rfl⟩

/-! ## A stream that is not cached -/

structure Uncached (opened : Opened) (s : State) : Prop where
  serving : s.opened = some opened
  streamId : s.streamId = none
  registered : s.registered = none
  stored : s.stored = []

theorem Uncached.clean {s : State} (h : Uncached opened s) : Clean g s :=
  clean_of_serving h.serving fun _ => ⟨.inl h.stored, h.registered⟩

theorem modify_uncached {f : State → State}
    (h : ∀ s, Uncached opened s → Uncached opened (f s) := by
      exact fun s hs => ⟨hs.serving, hs.streamId, hs.registered, hs.stored⟩) :
    Preserves (KeepsCache g) (Uncached opened) (modify f : Chat Unit) :=
  preserves_modify h

theorem addChunkFromLine_uncached (line : String) :
    Preserves (KeepsCache g) (Uncached opened) (addChunkFromLine g line) := by
  refine triple_read_bind fun s hs => ?_
  rw [hs.registered]
  exact triple_pure fun s' heq => heq ▸ hs

theorem relayLine_uncached (d : Deployment) (line : String) :
    Preserves (KeepsCache g) (Uncached opened) (relayLine g d line) := by
  refine Preserves.bind modify_uncached fun _ => ?_
  refine (addChunkFromLine_uncached line).bind fun _ => Preserves.bind ?_ fun _ =>
    preserves_sendLine line
  refine triple_read_bind fun s hs => ?_
  rw [hs.streamId]
  exact triple_pure fun s' heq => heq ▸ hs

theorem relay_uncached (steps : List StreamStep) :
    Preserves (KeepsCache g) (Uncached opened) (relay g opened steps) := by
  induction steps with
  | nil => exact preserves_pure ()
  | cons step steps ih =>
      cases step with
      | read line =>
          exact (preserves_await _).bind fun _ => Preserves.bind modify_uncached fun _ => ih
      | yield line =>
          refine Preserves.bind modify_uncached fun _ => ?_
          split
          · exact ih
          · exact (relayLine_uncached _ line).bind fun _ => ih
      | fail message => exact preserves_raise _

/-- Without a cached stream nothing is registered or stored. -/
theorem serve_uncached (hkey : g.streamKey = none) :
    Preserves (KeepsCache g) (Uncached opened) (serve g opened) := by
  refine Preserves.bind ?_ fun _ => Preserves.bind ?_ fun _ => ?_
  · refine modify_uncached fun s hs => ?_
    rw [hkey]
    exact hs
  · refine Preserves.bind modify_uncached fun _ => ?_
    exact (addChunkFromLine_uncached _).bind fun _ => preserves_sendLine _
  · refine preserves_read.bind fun s => (relay_uncached _).bind fun _ => ?_
    exact preserves_read.bind fun _ => (preserves_await _).bind fun _ => preserves_await _

/-! ## The whole run -/

theorem streamBody_clean (g : Gateway) :
    Triple (KeepsCache g) Untouched (streamBody g) (fun _ => Clean g) (Raised g) (Clean g) := by
  have hopen : Triple (KeepsCache g) Untouched (executeWithFailover g) (Ready g) (Raised g)
      (Clean g) :=
    attempts_ready.executeWithFailover.conseq (fun _ hs => hs) (fun _ _ hs => hs)
      (fun _ hs => hs.clean.raised) fun _ hs => hs.clean
  refine triple_bind hopen fun opened => ?_
  apply triple_bind (Q := fun _ s => Ready g opened { s with opened := none } ∧
    s.opened = some opened)
  · refine triple_modify fun s hs =>
      ⟨⟨⟨hs.1.registered, hs.1.stored, rfl, hs.1.streamId⟩, hs.2⟩, rfl⟩
  · intro _
    by_cases hwatched : Watched g opened.deployment
    · exact (serve_dropped hwatched).conseq (fun _ hs => hs) (fun _ _ hs => hs.clean)
        (fun _ hs => hs.raised) fun _ hs => hs.clean
    · cases hkey : g.streamKey with
      | none =>
          refine (serve_uncached hkey).conseq ?_ (fun _ _ hs => hs.clean)
            (fun _ hs => hs.clean.raised) fun _ hs => hs.clean
          exact fun s hs => ⟨hs.2, hs.1.1.streamId, hs.1.1.registered, hs.1.1.stored⟩
      | some key =>
          -- the deployment that serves the request has another adapter
          have hother : ¬FromAnthropic g opened.deployment := fun hanthropic =>
            hwatched ⟨by rw [hkey]; rfl, hanthropic⟩
          have hclean : ∀ s : State, s.opened = some opened → Clean g s := fun s hs =>
            clean_of_serving hs fun hanthropic => absurd hanthropic hother
          refine (preserves_serve (I := fun s => s.opened = some opened) ?_ opened).conseq
            (fun _ hs => hs.2) (fun _ s hs => hclean s hs) (fun s hs => (hclean s hs).raised)
            fun s hs => hclean s hs
          exact fun s t hs hsame => hsame.opened.trans hs

theorem streamFailed_clean (error : UpstreamError) :
    Triple (KeepsCache g) (Raised g) (streamFailed error) (fun _ => Clean g) (Clean g)
      (Clean g) := by
  apply triple_bind (Q := fun _ => Clean g)
  · exact triple_modify fun s hs => ⟨hs.unopened, hs.served⟩
  · exact fun _ => Preserves.bind (preserves_await _) fun _ => preserves_raise _

theorem closeOpened_clean : Preserves (KeepsCache g) (Clean g) closeOpened := by
  refine preserves_read.bind fun s => ?_
  split
  · exact preserves_pure ()
  · refine Preserves.bind (preserves_modify ?_) fun _ => preserves_await _
    exact fun s hs => ⟨hs.unopened, hs.served⟩

theorem streamSse_clean (g : Gateway) :
    Triple (KeepsCache g) Untouched (streamSse g) (fun _ => Clean g) (Clean g) (Clean g) :=
  triple_lastly (triple_handle (streamBody_clean g) streamFailed_clean) (fun _ => closeOpened_clean)
    closeOpened_clean closeOpened_clean

namespace CutStream

def deployment : Deployment :=
  ⟨"claude-1", "chat", 1, 0, [], none, none, none, none, none, none⟩

def startText : String := "\x7b\"type\":\"message_start\",\"message\":\x7b\"id\":\"m1\"\x7d\x7d"

def position : Position := ⟨"m1", "anthropic", true, none⟩

def roleChunk : JsonValues.JsonObject :=
  chunk position 1700000000 [("role", .str "assistant")] .null

def objectText (fields : JsonValues.JsonObject) : String :=
  String.ofList (JsonText.valueText (.dict fields))

def python : Python where
  loads text :=
    if text = startText then
      some (.dict [("type", .str "message_start"), ("message", .dict [("id", .str "m1")])])
    else if text = objectText roleChunk then some (.dict roleChunk)
    else none
  reprText _ := ""

/-- The provider's stream ends after its first event. -/
def lines : List String := ["data: " ++ startText]

def gateway : Gateway where
  execution := ⟨⟨0, fun _ => [], fun _ => [], fun _ => []⟩, fun _ => [deployment], "claude",
    none, none⟩
  primary := deployment
  translateStream _ := translateStream python 1700000000 1700000000000
  mapError _ _ := .other "rejected"
  py := python
  limits := ⟨262144, 2048⟩
  model := "claude"
  enableStreamCache := true
  path := "/v1/chat/completions"
  cacheContext := some ⟨"scope:key:k1:c0ffee", .default, none⟩
  hasStreamHandler := true
  cacheTtl := 3600
  modelInfo _ := []
  provider _ := "anthropic"
  deploymentModel _ := none
  lineTransform := none
  uuid := "0"
  now := 1700000000

/-- The deployment is available and answers with the lines; every call returns. -/
def calm : (c : Call) → Ending UpstreamError c.Reply
  | .isCooledDown _ => .returned false
  | .getHealth _ => .returned true
  | .enter _ => .returned ⟨200, lines⟩
  | .incrementActive _ | .decrementActive _ | .recordLatency _ | .recordSuccess _
  | .recordFailure _ _ | .sleep _ | .translateRequest _ | .readLine _ | .exit _ _ | .send _
  | .store _ | .recordUsage _ _ | .emitSuccess _ | .emitFailure => .returned ()

def play (replies : List ((c : Call) → Ending UpstreamError c.Reply)) :
    List (Answer State Call.Reply UpstreamError) × State × Ending UpstreamError Unit :=
  (streamSse gateway start).play calm replies

/-- The connection breaks where the stream would have gone on. -/
def severed : List ((c : Call) → Ending UpstreamError c.Reply) :=
  List.replicate 10 calm ++ [fun _ => .raised (.other "connection reset")]

/-- The client goes away at the first line. -/
def leaving : List ((c : Call) → Ending UpstreamError c.Reply) :=
  List.replicate 9 calm ++ [fun _ => .cancelled]

theorem fromAnthropic : FromAnthropic gateway deployment := ⟨_, _, fun _ => rfl⟩

theorem runs (replies : List ((c : Call) → Ending UpstreamError c.Reply)) :
    Runs (streamSse gateway start) (play replies).1 (play replies).2.1 (play replies).2.2 :=
  Program.runs_play calm replies _

end CutStream

/-- In every run that keeps the condition, an Anthropic stream that is not complete leaves no entry
in the cache, and no stream leaves an accumulator. -/
theorem incomplete_not_cached {g : Gateway} {answers : List (Answer State Call.Reply UpstreamError)}
    {t : State} {last : Ending UpstreamError Unit} (hrun : Runs (streamSse g start) answers t last)
    (hkeeps : ∀ answer ∈ answers, KeepsCache g answer) : Clean g t := by
  have hstart : Untouched start := ⟨rfl, rfl, rfl, rfl⟩
  have hends := (streamSse_clean g start hstart).runs hrun hkeeps
  cases last <;> exact hends

open CutStream in
theorem incomplete_not_cached_severed :
    (play severed).2.1.opened.map Opened.deployment = some deployment ∧
      Clean gateway (play severed).2.1 := by
  have hrun : (∀ answer ∈ (play severed).1, KeepsCache gateway answer) ∧
      (play severed).2.1.opened.map Opened.deployment = some deployment := by decide +kernel
  have hclean := incomplete_not_cached (runs severed) hrun.1
  exact ⟨hrun.2, hclean⟩

open CutStream in
/-- A stream that just ends is stored, and a client that leaves leaves the accumulator. -/
theorem cut_stream_cached :
    ¬Complete python lines ∧ FromAnthropic gateway deployment ∧
      Runs (streamSse gateway start) (play []).1 (play []).2.1 (play []).2.2 ∧
      (play []).2.1.opened.map Opened.deployment = some deployment ∧
      (play []).2.1.stored.length = 1 ∧
      Runs (streamSse gateway start) (play leaving).1 (play leaving).2.1 (play leaving).2.2 ∧
      (play leaving).2.1.registered.isSome := by
  have hended : (play []).2.1.opened.map Opened.deployment = some deployment ∧
      (play []).2.1.stored.length = 1 := by decide +kernel
  have hleft : (play leaving).2.1.registered.isSome := by decide +kernel
  exact ⟨by decide +kernel, fromAnthropic, runs [], hended.1, hended.2, runs leaving, hleft⟩

end IncompleteStreams
