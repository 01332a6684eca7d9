import DeltaLLM.StreamingCache
import DeltaLLM.TransitionRuns
import Mathlib.Logic.Function.Basic

/-! # Concurrent streams and the cache

The streaming handler under any number of chat streams whose events interleave. A stream is
addressed by its cache key; `contexts` gives the write context of each request. What a stream
delivered and who opened an accumulator is recorded beside the code's state.
-/
namespace StreamIsolation

open JsonValues
open StreamingCache
open TransitionRuns

structure StreamWriteContext where
  cacheKey : String
  ttl : ℤ
  model : String
  pricing : Option JsonObject
  deploymentId : Option String
  provider : Option String
  deploymentModel : Option String

structure CacheEntry where
  cacheKey : String
  response : JsonObject
  model : String
  cachedAt : ℤ
  ttl : ℤ
  tokenCount : ℤ
  pricing : Option JsonObject
  deploymentId : Option String
  provider : Option String
  deploymentModel : Option String

/-- Where the generator of a request stands; `writing` awaits the backend. -/
inductive Phase where
  | idle
  | streaming
  | writing (entry : CacheEntry)
  | closed

structure State where
  active : String → Option Accumulator
  phase : ℕ → Phase
  writes : List CacheEntry
  heard : ℕ → List String
  owner : String → Option ℕ

def initial : State := ⟨fun _ => none, fun _ => .idle, [], fun _ => [], fun _ => none⟩

structure Handler where
  py : Python
  limits : Limits
  contexts : ℕ → StreamWriteContext

/-- `finalize` carries the identifier and the clock that an entry without its own ones takes. -/
inductive Event where
  | start (r : ℕ) (first : String)
  | line (r : ℕ) (text : String) (uuid : String) (now : ℤ)
  | write (r : ℕ) (stored : Bool)
  | fail (r : ℕ)
  | leave (r : ℕ)

variable (H : Handler)

def Handler.key (r : ℕ) : String := (H.contexts r).cacheKey

def cacheEntry (ctx : StreamWriteContext) (acc : Accumulator) (response : JsonObject) (now : ℤ) :
    CacheEntry where
  cacheKey := ctx.cacheKey
  response := response
  model := ctx.model
  cachedAt := now
  ttl := ctx.ttl
  tokenCount := acc.usage.totalTokens
  pricing := ctx.pricing
  deploymentId := ctx.deploymentId
  provider := ctx.provider
  deploymentModel := ctx.deploymentModel

def State.discard (s : State) (key : String) (r : ℕ) : State :=
  { s with active := Function.update s.active key none, phase := Function.update s.phase r .closed }

def State.hear (s : State) (r : ℕ) (text : String) : State :=
  { s with heard := Function.update s.heard r (s.heard r ++ [text]) }

def startStream (s : State) (r : ℕ) : State :=
  { s with
    active := Function.update s.active (H.key r) (some .fresh)
    phase := Function.update s.phase r .streaming
    owner := Function.update s.owner (H.key r) (some r) }

/-- `add_chunk_from_line`, and the discard when it raises. -/
def addChunkFromLine (s : State) (r : ℕ) (text : String) : State :=
  match s.active (H.key r) with
  | none => s.hear r text
  | some acc =>
      match acc.addLine H.py H.limits text with
      | none => s.discard (H.key r) r
      | some acc => { s.hear r text with active := Function.update s.active (H.key r) (some acc) }

def finalizeAndStore (s : State) (r : ℕ) (uuid : String) (now : ℤ) : State :=
  match s.active (H.key r) with
  | none => s
  | some acc =>
      match acc.buildResponse (H.contexts r).model uuid now with
      | none => { s with active := Function.update s.active (H.key r) none }
      | some response =>
          { s with
            active := Function.update s.active (H.key r) none
            phase := Function.update s.phase r
              (.writing (cacheEntry (H.contexts r) acc response now)) }

def enabled (s : State) : Event → Prop
  | .start r _ => s.phase r = .idle
  | .line r text _ _ => s.phase r = .streaming ∧ text ≠ ""
  | .write r _ => ∃ entry, s.phase r = .writing entry
  | .fail r => s.phase r = .streaming
  | .leave r => s.phase r ≠ .idle

instance : (phase : Phase) → Decidable (phase = .idle)
  | .idle => .isTrue rfl
  | .streaming | .writing _ | .closed => .isFalse Phase.noConfusion

instance : (phase : Phase) → Decidable (phase = .streaming)
  | .streaming => .isTrue rfl
  | .idle | .writing _ | .closed => .isFalse Phase.noConfusion

instance : (phase : Phase) → Decidable (∃ entry, phase = .writing entry)
  | .writing entry => .isTrue ⟨entry, rfl⟩
  | .idle | .streaming | .closed => .isFalse fun ⟨_, h⟩ => Phase.noConfusion h

instance (s : State) : DecidablePred (enabled s)
  | .start r _ => inferInstanceAs (Decidable (s.phase r = .idle))
  | .line r text _ _ => inferInstanceAs (Decidable (s.phase r = .streaming ∧ text ≠ ""))
  | .write r _ => inferInstanceAs (Decidable (∃ entry, s.phase r = .writing entry))
  | .fail r => inferInstanceAs (Decidable (s.phase r = .streaming))
  | .leave r => inferInstanceAs (Decidable (s.phase r ≠ .idle))

def next (s : State) : Event → State
  | .start r first =>
      if first = "" then startStream H s r else addChunkFromLine H (startStream H s r) r first
  | .line r text uuid now =>
      let t := addChunkFromLine H s r text
      if doneLine text then finalizeAndStore H t r uuid now else t
  | .write r stored =>
      match s.phase r with
      | .writing entry =>
          { s with
            writes := if stored then s.writes ++ [entry] else s.writes
            phase := Function.update s.phase r .streaming }
      | _ => s
  | .fail r => s.discard (H.key r) r
  | .leave r => { s with phase := Function.update s.phase r .closed }

def streamSystem : TransitionSystem State Event where
  initial s := s = initial
  enabled := enabled
  next := next H

instance (s : State) (e : Event) : Decidable ((streamSystem H).enabled s e) :=
  inferInstanceAs (Decidable (enabled s e))

/-! ## One single stream -/

/-- The accumulator after the lines of one stream alone. -/
def Handler.feed (lines : List String) : Option Accumulator :=
  StreamingCache.feed H.py H.limits .fresh lines

/-- The entry is what the lines of one stream, up to a `[DONE]`, assemble to. -/
def FromOneStream (s : State) (entry : CacheEntry) : Prop :=
  ∃ r chunks last acc uuid now response,
    chunks ++ [last] <+: s.heard r ∧ doneLine last ∧ H.feed (chunks ++ [last]) = some acc ∧
      acc.buildResponse (H.contexts r).model uuid now = some response ∧
      entry = cacheEntry (H.contexts r) acc response now

/-- A line is handled only while the accumulator under its key, if there is one, was opened by the
stream of the line. -/
def OwnAccumulator (s : State) : Event → Prop
  | .line r _ _ _ => s.active (H.key r) ≠ none → s.owner (H.key r) = some r
  | _ => True

instance (s : State) : DecidablePred (OwnAccumulator H s)
  | .line r _ _ _ => inferInstanceAs
      (Decidable (s.active (H.key r) ≠ none → s.owner (H.key r) = some r))
  | .start _ _ | .write _ _ | .fail _ | .leave _ => .isTrue trivial

structure Isolated (s : State) : Prop where
  opened : ∀ key acc, s.active key = some acc →
    ∃ r, s.owner key = some r ∧ H.key r = key ∧ s.phase r ≠ .idle ∧ H.feed (s.heard r) = some acc
  silent : ∀ r, s.phase r = .idle → s.heard r = []
  writing : ∀ r entry, s.phase r = .writing entry → FromOneStream H s entry
  written : ∀ entry ∈ s.writes, FromOneStream H s entry

variable {H} {s : State}

theorem initial_isolated : Isolated H initial where
  opened key acc h := by cases h
  silent _ _ := rfl
  writing r entry h := by cases h
  written entry h := by cases h

theorem feed_snoc {lines : List String} {line : String} {acc : Accumulator}
    (h : H.feed lines = some acc) :
    H.feed (lines ++ [line]) = acc.addLine H.py H.limits line := by
  have hfold : lines.foldlM (fun acc line => acc.addLine H.py H.limits line) .fresh = some acc := h
  simp [Handler.feed, StreamingCache.feed, List.foldlM_append, hfold]

theorem FromOneStream.mono {t : State} {entry : CacheEntry} (h : FromOneStream H s entry)
    (hheard : ∀ r, s.heard r <+: t.heard r) : FromOneStream H t entry := by
  obtain ⟨r, chunks, last, acc, uuid, now, response, hlines, hrest⟩ := h
  exact ⟨r, chunks, last, acc, uuid, now, response, hlines.trans (hheard r), hrest⟩

theorem heard_hear (s : State) (r : ℕ) (text : String) (q : ℕ) :
    s.heard q <+: (s.hear r text).heard q := by
  by_cases hq : q = r
  · subst hq
    simp [State.hear]
  · simp [State.hear, Function.update_of_ne hq]

theorem Isolated.movePhase (hs : Isolated H s) {r : ℕ} {phase : Phase} (hphase : phase ≠ .idle)
    (hentry : ∀ entry, phase = .writing entry → FromOneStream H s entry) :
    Isolated H { s with phase := Function.update s.phase r phase } where
  opened key acc h := by
    obtain ⟨q, howner, hkey, hopen, hfeed⟩ := hs.opened key acc h
    refine ⟨q, howner, hkey, ?_, hfeed⟩
    by_cases hq : q = r
    · simpa [hq] using hphase
    · simpa [Function.update_of_ne hq] using hopen
  silent q h := by
    by_cases hq : q = r
    · exact absurd (by simpa [hq] using h) hphase
    · exact hs.silent q (by simpa [Function.update_of_ne hq] using h)
  writing q entry h := by
    by_cases hq : q = r
    · exact hentry entry (by simpa [hq] using h)
    · exact hs.writing q entry (by simpa [Function.update_of_ne hq] using h)
  written entry h := hs.written entry h

theorem Isolated.clear (hs : Isolated H s) (key : String) :
    Isolated H { s with active := Function.update s.active key none } where
  opened other acc h := by
    by_cases heq : other = key
    · simp [heq] at h
    · exact hs.opened other acc (by simpa [Function.update_of_ne heq] using h)
  silent := hs.silent
  writing q entry h := hs.writing q entry h
  written entry h := hs.written entry h

theorem Isolated.discard (hs : Isolated H s) (key : String) (r : ℕ) :
    Isolated H (s.discard key r) :=
  (hs.clear key).movePhase Phase.noConfusion fun _ h => Phase.noConfusion h

theorem Isolated.startStream (hs : Isolated H s) {r : ℕ} (hidle : s.phase r = .idle) :
    Isolated H (startStream H s r) := by
  have hmoved : Isolated H { s with phase := Function.update s.phase r .streaming } :=
    hs.movePhase Phase.noConfusion fun _ h => Phase.noConfusion h
  refine ⟨fun key acc h => ?_, hmoved.silent, hmoved.writing, hs.written⟩
  simp only [StreamIsolation.startStream] at h ⊢
  by_cases heq : key = H.key r
  · subst heq
    have hfresh : acc = .fresh := by simpa [eq_comm] using h
    refine ⟨r, by simp, rfl, by simp, ?_⟩
    rw [hs.silent r hidle, hfresh]
    rfl
  · obtain ⟨q, howner, hkey, hphase, hfeed⟩ :=
      hmoved.opened key acc (by simpa [Function.update_of_ne heq] using h)
    exact ⟨q, by simpa [Function.update_of_ne heq] using howner, hkey, hphase, hfeed⟩

theorem heard_hear_of_ne {q r : ℕ} (s : State) (text : String) (hq : q ≠ r) :
    (s.hear r text).heard q = s.heard q := by
  simp [State.hear, Function.update_of_ne hq]

/-- A line of `r` is only ever added to an accumulator that `r` opened. -/
theorem Isolated.addChunkFromLine (hs : Isolated H s) {r : ℕ} {text : String}
    (hown : s.active (H.key r) ≠ none → s.owner (H.key r) = some r) (hopen : s.phase r ≠ .idle) :
    Isolated H (addChunkFromLine H s r text) := by
  -- accumulators of other streams have heard nothing new
  have hothers : ∀ key acc, s.active key = some acc → key ≠ H.key r →
      ∃ q, s.owner key = some q ∧ H.key q = key ∧ s.phase q ≠ .idle ∧
        H.feed ((s.hear r text).heard q) = some acc := by
    intro key acc hacc hne
    obtain ⟨q, howner, hkey, hphase, hfeed⟩ := hs.opened key acc hacc
    have hq : q ≠ r := by
      rintro rfl
      exact hne hkey.symm
    exact ⟨q, howner, hkey, hphase, by rwa [heard_hear_of_ne s text hq]⟩
  have hsilent : ∀ q, s.phase q = .idle → (s.hear r text).heard q = [] := by
    intro q hq
    have hne : q ≠ r := by
      rintro rfl
      exact hopen hq
    rw [heard_hear_of_ne s text hne]
    exact hs.silent q hq
  unfold StreamIsolation.addChunkFromLine
  split
  next hnone =>
    refine ⟨fun key acc hacc => ?_, hsilent, fun q entry h => ?_, fun entry h => ?_⟩
    · refine hothers key acc hacc ?_
      rintro rfl
      cases hnone.symm.trans hacc
    · exact (hs.writing q entry h).mono (heard_hear s r text)
    · exact (hs.written entry h).mono (heard_hear s r text)
  next acc hacc =>
    split
    · exact hs.discard _ _
    next acc' hadd =>
      refine ⟨fun key acc'' hacc'' => ?_, hsilent, fun q entry h => ?_, fun entry h => ?_⟩
      · by_cases hkey : key = H.key r
        · subst hkey
          obtain ⟨q, howner, -, -, hfeed⟩ := hs.opened _ _ hacc
          have hq : q = r := Option.some.inj (howner.symm.trans (hown (by simp [hacc])))
          subst hq
          have hnew : acc'' = acc' := by simpa [eq_comm] using hacc''
          refine ⟨q, howner, rfl, hopen, ?_⟩
          have hheard : (s.hear q text).heard q = s.heard q ++ [text] := by simp [State.hear]
          change H.feed ((s.hear q text).heard q) = some acc''
          rw [hheard, feed_snoc hfeed, hadd, hnew]
        · exact hothers key acc'' (by simpa [Function.update_of_ne hkey] using hacc'') hkey
      · exact (hs.writing q entry h).mono (heard_hear s r text)
      · exact (hs.written entry h).mono (heard_hear s r text)

/-- What a finalized accumulator is written as comes from the stream that opened it. -/
theorem Isolated.finalizeAndStore (hs : Isolated H s) {r : ℕ} {last uuid : String} {now : ℤ}
    (hown : s.active (H.key r) ≠ none → s.owner (H.key r) = some r)
    (hheard : s.active (H.key r) ≠ none → ∃ chunks, s.heard r = chunks ++ [last])
    (hdone : doneLine last) :
    Isolated H (finalizeAndStore H s r uuid now) := by
  unfold StreamIsolation.finalizeAndStore
  split
  · exact hs
  next acc hacc =>
    obtain ⟨q, howner, -, hopen, hfeed⟩ := hs.opened _ _ hacc
    have hsome : s.active (H.key r) ≠ none := by simp [hacc]
    have hq : q = r := Option.some.inj (howner.symm.trans (hown hsome))
    subst hq
    obtain ⟨chunks, hlines⟩ := hheard hsome
    split
    · exact hs.clear _
    next response hresponse =>
      refine (hs.clear _).movePhase Phase.noConfusion fun entry hentry => ?_
      cases hentry
      refine ⟨q, chunks, last, acc, uuid, now, response, ?_, hdone, ?_, hresponse, rfl⟩
      · exact hlines ▸ List.prefix_refl _
      · exact hlines ▸ hfeed

theorem addChunkFromLine_owner (s : State) (r : ℕ) (text : String) :
    (addChunkFromLine H s r text).owner = s.owner := by
  unfold addChunkFromLine
  split
  · rfl
  · split <;> rfl

/-- After a line of `r` an accumulator is left under its key only where one was before, and then the
line has been recorded. -/
theorem active_addChunkFromLine {r : ℕ} {text : String}
    (h : (addChunkFromLine H s r text).active (H.key r) ≠ none) :
    s.active (H.key r) ≠ none ∧
      (addChunkFromLine H s r text).heard r = s.heard r ++ [text] := by
  unfold addChunkFromLine at h ⊢
  split
  next hnone => simp [hnone, State.hear] at h
  next acc hacc =>
    refine ⟨by simp [hacc], ?_⟩
    split
    next hraised => simp [hacc, hraised, State.discard] at h
    next => simp [State.hear]

theorem Isolated.next (hs : Isolated H s) {e : Event} (he : enabled s e)
    (hown : OwnAccumulator H s e) : Isolated H (next H s e) := by
  cases e with
  | start r first =>
      have hstarted := hs.startStream he
      simp only [StreamIsolation.next]
      split
      · exact hstarted
      · refine hstarted.addChunkFromLine (fun _ => ?_) ?_
        · simp [StreamIsolation.startStream]
        · simp [StreamIsolation.startStream]
  | line r text uuid now =>
      have hopen : s.phase r ≠ .idle := by simp [he.1]
      have hadded : Isolated H (StreamIsolation.addChunkFromLine H s r text) :=
        hs.addChunkFromLine hown hopen
      simp only [StreamIsolation.next]
      split
      next hdone =>
        refine hadded.finalizeAndStore (fun h => ?_) (fun h => ?_) hdone
        · rw [addChunkFromLine_owner]
          exact hown (active_addChunkFromLine h).1
        · exact ⟨s.heard r, (active_addChunkFromLine h).2⟩
      next => exact hadded
  | write r stored =>
      obtain ⟨entry, hwriting⟩ := he
      have hmoved : Isolated H { s with phase := Function.update s.phase r .streaming } :=
        hs.movePhase Phase.noConfusion fun _ h => Phase.noConfusion h
      simp only [StreamIsolation.next, hwriting]
      refine ⟨hmoved.opened, hmoved.silent, hmoved.writing, fun other h => ?_⟩
      cases stored with
      | false => exact hs.written other h
      | true =>
          rcases List.mem_append.mp h with h | h
          · exact hs.written other h
          · rw [List.mem_singleton.mp h]
            exact hs.writing r entry hwriting
  | fail r => exact hs.discard _ _
  | leave r => exact hs.movePhase Phase.noConfusion fun _ h => Phase.noConfusion h

/-- While every line goes to an accumulator of its own stream, each written entry is assembled from
the lines of one single completed stream. -/
theorem written_from_one_stream (hs : ReachableBy (streamSystem H) (OwnAccumulator H) s) :
    ∀ entry ∈ s.writes, FromOneStream H s entry := by
  have hisolated : Isolated H s := by
    refine hs.invariant ?_ ?_
    · rintro _ rfl
      exact initial_isolated
    · intro t e ht he hown
      exact ht.next he hown
  exact hisolated.written

/-! ## One stream of a key at a time -/

def Live (s : State) (r : ℕ) : Prop := s.phase r ≠ .idle ∧ s.phase r ≠ .closed

/-- A stream starts only when no other one with its cache key is in flight. -/
def OneAtATime (H : Handler) (s : State) : Event → Prop
  | .start r _ => ∀ q, Live s q → H.key q ≠ H.key r
  | _ => True

theorem finalizeAndStore_owner (s : State) (r : ℕ) (uuid : String) (now : ℤ) :
    (finalizeAndStore H s r uuid now).owner = s.owner := by
  unfold finalizeAndStore
  split
  · rfl
  · split <;> rfl

theorem addChunkFromLine_live {q r : ℕ} {text : String}
    (h : Live (addChunkFromLine H s r text) q) : q = r ∨ Live s q := by
  by_cases hq : q = r
  · exact .inl hq
  · right
    unfold addChunkFromLine at h
    split at h
    · exact h
    · split at h
      · simpa [Live, State.discard, Function.update_of_ne hq] using h
      · exact h

theorem finalizeAndStore_live {q r : ℕ} {uuid : String} {now : ℤ} (hq : q ≠ r)
    (h : Live (finalizeAndStore H s r uuid now) q) : Live s q := by
  unfold finalizeAndStore at h
  split at h
  · exact h
  · split at h
    · exact h
    · simpa [Live, Function.update_of_ne hq] using h

/-- Only the stream of the event can begin to be in flight. -/
theorem live_next {e : Event} {q : ℕ} (he : enabled s e) (h : Live (next H s e) q) :
    Live s q ∨ ∃ first, e = .start q first := by
  cases e with
  | start r first =>
      have hstarted : Live (startStream H s r) q → Live s q ∨ q = r := by
        intro h
        by_cases hq : q = r
        · exact .inr hq
        · exact .inl (by simpa [Live, startStream, Function.update_of_ne hq] using h)
      have hcases : Live s q ∨ q = r := by
        simp only [next] at h
        split at h
        · exact hstarted h
        · rcases addChunkFromLine_live h with hq | h
          · exact .inr hq
          · exact hstarted h
      rcases hcases with h | rfl
      · exact .inl h
      · exact .inr ⟨first, rfl⟩
  | line r text uuid now =>
      left
      by_cases hq : q = r
      · subst hq
        simp [Live, he.1]
      · simp only [next] at h
        have hadded : Live (addChunkFromLine H s r text) q := by
          split at h
          · exact finalizeAndStore_live hq h
          · exact h
        exact (addChunkFromLine_live hadded).resolve_left hq
  | write r stored =>
      left
      obtain ⟨entry, hwriting⟩ := he
      by_cases hq : q = r
      · subst hq
        simp [Live, hwriting]
      · simpa [next, hwriting, Live, Function.update_of_ne hq] using h
  | fail r =>
      left
      by_cases hq : q = r
      · subst hq
        simp [next, Live, State.discard] at h
      · simpa [next, Live, State.discard, Function.update_of_ne hq] using h
  | leave r =>
      left
      by_cases hq : q = r
      · subst hq
        simp [next, Live] at h
      · simpa [next, Live, Function.update_of_ne hq] using h

theorem owner_next {e : Event} (s : State) :
    (next H s e).owner = match e with
      | .start r _ => Function.update s.owner (H.key r) (some r)
      | _ => s.owner := by
  cases e with
  | start r first =>
      simp only [next]
      split
      · rfl
      · rw [addChunkFromLine_owner]
        rfl
  | line r text uuid now =>
      simp only [next]
      split
      · rw [finalizeAndStore_owner, addChunkFromLine_owner]
      · rw [addChunkFromLine_owner]
  | write r stored =>
      simp only [next]
      split <;> rfl
  | fail r => rfl
  | leave r => rfl

/-- Runs in which identical requests do not overlap meet the condition of
`written_from_one_stream`. -/
theorem ownAccumulator_of_oneAtATime (hs : ReachableBy (streamSystem H) (OneAtATime H) s) :
    ReachableBy (streamSystem H) (OwnAccumulator H) s ∧
      ∀ r, Live s r → s.owner (H.key r) = some r := by
  induction hs with
  | initial hi =>
      cases hi
      exact ⟨.initial rfl, fun r hr => absurd rfl hr.1⟩
  | step hrun he hallowed ih =>
      rename_i t e
      obtain ⟨hown, howner⟩ := ih
      refine ⟨hown.step he ?_, fun r hr => ?_⟩
      · cases e with
        | line r text uuid now => exact fun _ => howner r (by simp [Live, he.1])
        | start | write | fail | leave => trivial
      · change (next H t e).owner (H.key r) = some r
        rw [owner_next]
        rcases live_next he hr with hlive | ⟨first, rfl⟩
        · cases e with
          | start q first =>
              have hne : H.key r ≠ H.key q := hallowed r hlive
              simpa [Function.update_of_ne hne] using howner r hlive
          | line | write | fail | leave => exact howner r hlive
        · simp

namespace Counterexample

/-- `data: {"choices":[{"index":0,"delta":{"content":text}}]}`. -/
def payload (text : String) : String :=
  "\x7b\"choices\":[\x7b\"index\":0,\"delta\":\x7b\"content\":\"" ++ text ++ "\"\x7d\x7d]\x7d"

def chunk (text : String) : JsonValue :=
  .dict [("choices", .list [.dict [("index", .int 0), ("delta", .dict [("content", .str text)])]])]

def python : Python where
  loads text :=
    if text = payload "a" then some (chunk "a")
    else if text = payload "b" then some (chunk "b") else none
  reprText _ := ""

def handler : Handler where
  py := python
  limits := ⟨262144, 2048⟩
  contexts _ := ⟨"scope:key:k1:c0ffee", 3600, "gpt", none, none, none, none⟩

def lineOf (r : ℕ) (text : String) : Event := .line r ("data: " ++ text) "0" 1700000000

/-- Requests 0 and 1 are identical and in flight together. -/
def twoStreams : List Event :=
  [.start 0 "", .start 1 "", lineOf 0 (payload "a"), lineOf 1 (payload "b"), lineOf 0 "[DONE]",
    .write 0 true]

def oneStream : List Event :=
  [.start 0 ("data: " ++ payload "a"), lineOf 0 "[DONE]", .write 0 true]

def runOf (events : List Event) : State := events.foldl (next handler) initial

/-- The text of the first choice of a stored response. -/
def storedText (response : JsonObject) : Option String :=
  match JsonObject.get response "choices" with
  | .list (.dict choice :: _) =>
      match JsonObject.get choice "message" with
      | .dict message =>
          match JsonObject.get message "content" with
          | .str text => some text
          | _ => none
      | _ => none
  | _ => none

theorem storedText_buildResponse {acc : Accumulator} {fallback uuid : String} {now : ℤ}
    {response : JsonObject} (h : acc.buildResponse fallback uuid now = some response) :
    storedText response = some (String.join acc.contentParts) := by
  unfold Accumulator.buildResponse at h
  split at h
  · cases h
  · cases h
    rfl

theorem heard_twoStreams (r : ℕ) :
    (runOf twoStreams).heard r =
      if r = 0 then ["data: " ++ payload "a", "data: [DONE]"]
      else if r = 1 then ["data: " ++ payload "b"] else [] := by
  match r with
  | 0 => decide +kernel
  | 1 => decide +kernel
  | r + 2 => rfl

end Counterexample

open Counterexample in
theorem written_from_one_stream_alone :
    ReachableBy (streamSystem handler) (OwnAccumulator handler) (runOf oneStream) ∧
      (runOf oneStream).writes.map (fun entry => storedText entry.response) = [some "a"] ∧
      ∀ entry ∈ (runOf oneStream).writes, FromOneStream handler (runOf oneStream) entry := by
  have hrun : ReachableBy (streamSystem handler) (OwnAccumulator handler) (runOf oneStream) :=
    ReachableBy.fires (.initial rfl) (by decide +kernel)
  exact ⟨hrun, by decide +kernel, written_from_one_stream hrun⟩

open Counterexample in
/-- The cache gets the text of both streams under the one key they share. -/
theorem identical_streams_mixed :
    Reachable (streamSystem handler) (runOf twoStreams) ∧
      (runOf twoStreams).writes.map (fun entry => storedText entry.response) = [some "ab"] ∧
      ∃ entry ∈ (runOf twoStreams).writes,
        ¬FromOneStream handler (runOf twoStreams) entry := by
  have hwrites : (runOf twoStreams).writes.map (fun entry => storedText entry.response) =
      [some "ab"] := by decide +kernel
  refine ⟨ReachableBy.fires (.initial rfl) (by decide +kernel), hwrites, ?_⟩
  obtain ⟨entry, hentry⟩ : ∃ entry, entry ∈ (runOf twoStreams).writes := by
    apply List.exists_mem_of_ne_nil
    intro hnil
    simp [hnil] at hwrites
  have htext : storedText entry.response = some "ab" := by
    have hmem := List.mem_map_of_mem (f := fun entry => storedText entry.response) hentry
    rw [hwrites] at hmem
    exact List.mem_singleton.mp hmem
  refine ⟨entry, hentry, ?_⟩
  rintro ⟨r, chunks, last, acc, uuid, now, response, ⟨rest, hlines⟩, hdone, hfeed, hresponse, rfl⟩
  have hjoin : String.join acc.contentParts = "ab" :=
    Option.some.inj ((storedText_buildResponse hresponse).symm.trans htext)
  rw [heard_twoStreams] at hlines
  split at hlines
  · -- stream 0 heard its own text and then `[DONE]`
    match chunks with
    | [] =>
        have hlast : last = "data: " ++ payload "a" := by simpa using (List.cons.inj hlines).1
        subst hlast
        exact absurd hdone (by decide +kernel)
    | [first] =>
        have hfirst : first = "data: " ++ payload "a" := (List.cons.inj hlines).1
        have hlast : last = "data: [DONE]" := (List.cons.inj (List.cons.inj hlines).2).1
        subst hfirst hlast
        have hown : (handler.feed ["data: " ++ payload "a", "data: [DONE]"]).map
            (fun acc => String.join acc.contentParts) = some "a" := by decide +kernel
        have hacc := congrArg (Option.map fun acc => String.join acc.contentParts) hfeed
        rw [List.singleton_append, hown] at hacc
        have heq : "a" = "ab" := (Option.some.inj hacc).trans hjoin
        exact absurd heq (by decide)
    | _ :: _ :: _ => simp at hlines
  · split at hlines
    · match chunks with
      | [] =>
          have hlast : last = "data: " ++ payload "b" := by simpa using (List.cons.inj hlines).1
          subst hlast
          exact absurd hdone (by decide +kernel)
      | _ :: _ => simp at hlines
    · simp at hlines

end StreamIsolation
