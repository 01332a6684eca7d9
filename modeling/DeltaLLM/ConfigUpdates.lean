import Mathlib.Data.List.Permutation
import Mathlib.Logic.Function.Basic
import DeltaLLM.JsonValues
import DeltaLLM.TransitionRuns

/-! # Config updates by gateway instances that share one database

Each instance keeps a copy of the stored config. An update merges into that copy under a lock of
its own process and overwrites the whole row; reloads read the row and apply it outside the lock.
The database write and the return of the call that made it are separate events.
-/
namespace ConfigUpdates

open JsonValues TransitionRuns

mutual

/-- `deep_merge`: the values of the override take precedence. -/
def deepMerge (base : JsonObject) : JsonObject → JsonObject
  | [] => base
  | (key, value) :: override =>
      deepMerge (base.set key (mergeValue (base.get? key) value)) override

/-- The value a key gets: two objects are merged, anything else is replaced. -/
def mergeValue (existing : Option JsonValue) : JsonValue → JsonValue
  | .dict fields =>
      match existing with
      | some (.dict base) => .dict (deepMerge base fields)
      | _ => .dict fields
  | value => value

end

/-- What the text in `config_value` reads as. -/
inductive ConfigValue where
  | notJson
  | json (value : JsonValue)

/-- `_load_from_db` once the query has answered. -/
def loadFromDb : Option ConfigValue → JsonObject
  | some (.json (.dict payload)) => payload
  | _ => []

theorem loadFromDb_json (payload : JsonObject) :
    loadFromDb (some (.json (.dict payload))) = payload := rfl

/-- The files, secrets and schema that turn a stored config into the config of an instance. -/
structure Gateway (ι α : Type*) where
  fileConfig : ι → JsonObject
  resolveAppConfig : ι → JsonObject → Option α
  detectChanges : α → α → Bool

variable {ι α : Type*}

/-- `build_app_config`; `none` is a validation error. -/
def buildAppConfig (g : Gateway ι α) (i : ι) (dbConfig : JsonObject) : Option α :=
  g.resolveAppConfig i (deepMerge (g.fileConfig i) dbConfig)

/-- How far the `update_config` call that holds `_update_lock` has come. -/
inductive UpdateCall (α : Type*) where
  | idle
  | merged (base update next : JsonObject) (appConfig : α)
  | stored (update next : JsonObject) (appConfig : α)
  | applied (update : JsonObject)

inductive Source where
  | pubsub | poll
  deriving DecidableEq, Repr

inductive Message where
  | configUpdated | modelUpdated
  deriving DecidableEq, Repr

/-- A config read by a reload and not applied yet. -/
structure Reload where
  dbConfig : JsonObject
  forced : Bool

structure Instance (α : Type*) where
  dbConfig : JsonObject
  config : α
  generation : ℕ
  call : UpdateCall α
  reload : Source → Option Reload
  inbox : List Message

/-- The row, the instances, and the updates in the order in which they were stored and returned. -/
structure State (ι α : Type*) where
  row : Option ConfigValue
  instances : ι → Instance α
  committed : List (ι × JsonObject)
  returned : List (ι × JsonObject)

inductive Event (ι : Type*) where
  | merge (i : ι) (update : JsonObject)
  | rejectUpdate (i : ι) (update : JsonObject)
  | store (i : ι)
  | storeFails (i : ι)
  | apply (i : ι)
  | publish (i : ι) (delivered : ι → Bool)
  | publishModelUpdated (delivered : ι → Bool)
  | loadReload (i : ι) (source : Source)
  | loadFails (i : ι) (source : Source)
  | applyReload (i : ι) (source : Source)
  | rejectReload (i : ι) (source : Source)

/-- The events of `update_config` calls. -/
def Event.isUpdate : Event ι → Bool
  | .merge .. | .rejectUpdate .. | .store _ | .storeFails _ | .apply _ | .publish .. => true
  | _ => false

/-- `_apply_db_config`: the copy is replaced, and a difference raises the generation. -/
def Instance.applyDbConfig (g : Gateway ι α) (inst : Instance α) (dbConfig : JsonObject)
    (appConfig : α) (forced : Bool) : Instance α :=
  { inst with
    dbConfig := dbConfig
    config := appConfig
    generation :=
      if g.detectChanges inst.config appConfig || forced then inst.generation + 1
      else inst.generation }

def Instance.setReload (inst : Instance α) (source : Source) (reload : Option Reload) :
    Instance α :=
  { inst with reload := Function.update inst.reload source reload }

/-- A pub/sub reload answers the oldest message; a poll needs none. -/
def Instance.nextMessage (inst : Instance α) : Source → List Message × Bool
  | .poll => (inst.inbox, false)
  | .pubsub => (inst.inbox.tail, inst.inbox.head? = some .modelUpdated)

def Instance.mayReload (inst : Instance α) (source : Source) : Prop :=
  (inst.reload source).isNone ∧ (source = .pubsub → inst.inbox ≠ [])

instance (inst : Instance α) (source : Source) : Decidable (inst.mayReload source) :=
  inferInstanceAs (Decidable (_ ∧ (_ → _)))

variable [DecidableEq ι]

def State.setInstance (s : State ι α) (i : ι) (inst : Instance α) : State ι α :=
  { s with instances := Function.update s.instances i inst }

def State.deliver (s : State ι α) (message : Message) (delivered : ι → Bool) : State ι α :=
  { s with
    instances := fun j =>
      if delivered j then
        { s.instances j with inbox := (s.instances j).inbox ++ [message] }
      else s.instances j }

def Enabled (g : Gateway ι α) (s : State ι α) : Event ι → Prop
  | .merge i update =>
      ((s.instances i).call matches .idle) ∧
        (buildAppConfig g i (deepMerge (s.instances i).dbConfig update)).isSome
  | .rejectUpdate i update =>
      ((s.instances i).call matches .idle) ∧
        (buildAppConfig g i (deepMerge (s.instances i).dbConfig update)).isNone
  | .store i => ((s.instances i).call matches .merged ..)
  | .storeFails i => ((s.instances i).call matches .merged ..)
  | .apply i => ((s.instances i).call matches .stored ..)
  | .publish i _ => ((s.instances i).call matches .applied _)
  | .publishModelUpdated _ => True
  | .loadReload i source => (s.instances i).mayReload source
  | .loadFails i source => (s.instances i).mayReload source
  | .applyReload i source =>
      (((s.instances i).reload source).bind fun reload =>
        buildAppConfig g i reload.dbConfig).isSome
  | .rejectReload i source =>
      ((s.instances i).reload source).isSome ∧
        (((s.instances i).reload source).bind fun reload =>
          buildAppConfig g i reload.dbConfig).isNone

instance (g : Gateway ι α) (s : State ι α) (e : Event ι) : Decidable (Enabled g s e) := by
  cases e <;> simp only [Enabled] <;> infer_instance

def next (g : Gateway ι α) (s : State ι α) : Event ι → State ι α
  | .merge i update =>
      let inst := s.instances i
      let nextDbConfig := deepMerge inst.dbConfig update
      match buildAppConfig g i nextDbConfig with
      | some appConfig =>
          s.setInstance i { inst with call := .merged inst.dbConfig update nextDbConfig appConfig }
      | none => s
  | .rejectUpdate _ _ => s
  | .store i =>
      match (s.instances i).call with
      | .merged _ update nextDbConfig appConfig =>
          { s.setInstance i
              { s.instances i with call := .stored update nextDbConfig appConfig } with
            row := some (.json (.dict nextDbConfig))
            committed := s.committed ++ [(i, update)] }
      | _ => s
  | .storeFails i => s.setInstance i { s.instances i with call := .idle }
  | .apply i =>
      match (s.instances i).call with
      | .stored update nextDbConfig appConfig =>
          s.setInstance i
            { (s.instances i).applyDbConfig g nextDbConfig appConfig false with
              call := .applied update }
      | _ => s
  | .publish i delivered =>
      match (s.instances i).call with
      | .applied update =>
          ({ s.setInstance i { s.instances i with call := .idle } with
              returned := s.returned ++ [(i, update)] }).deliver .configUpdated delivered
      | _ => s
  | .publishModelUpdated delivered => s.deliver .modelUpdated delivered
  | .loadReload i source =>
      let inst := s.instances i
      let (inbox, forced) := inst.nextMessage source
      s.setInstance i
        { inst.setReload source (some ⟨loadFromDb s.row, forced⟩) with inbox := inbox }
  | .loadFails i source =>
      s.setInstance i
        { s.instances i with inbox := ((s.instances i).nextMessage source).1 }
  | .applyReload i source =>
      let inst := s.instances i
      match inst.reload source with
      | some reload =>
          match buildAppConfig g i reload.dbConfig with
          | some appConfig =>
              s.setInstance i
                ((inst.applyDbConfig g reload.dbConfig appConfig reload.forced).setReload source
                  none)
          | none => s
      | none => s
  | .rejectReload i source =>
      s.setInstance i ((s.instances i).setReload source none)

/-- Every instance is up, with any copy of the config, and has no call under way. -/
def gateways (g : Gateway ι α) (row : Option ConfigValue) :
    TransitionSystem (State ι α) (Event ι) where
  initial s :=
    s.row = row ∧ s.committed = [] ∧ s.returned = [] ∧
      ∀ i, (s.instances i).call = .idle ∧ (∀ source, (s.instances i).reload source = none) ∧
        buildAppConfig g i (s.instances i).dbConfig = some (s.instances i).config
  enabled := Enabled g
  next := next g

variable {g : Gateway ι α} {s : State ι α} {row : Option ConfigValue}

@[simp] theorem setInstance_row (i : ι) (inst : Instance α) :
    (s.setInstance i inst).row = s.row := rfl

@[simp] theorem setInstance_committed (i : ι) (inst : Instance α) :
    (s.setInstance i inst).committed = s.committed := rfl

@[simp] theorem setInstance_returned (i : ι) (inst : Instance α) :
    (s.setInstance i inst).returned = s.returned := rfl

theorem setInstance_instances (i j : ι) (inst : Instance α) :
    (s.setInstance i inst).instances j = if j = i then inst else s.instances j :=
  Function.update_apply ..

/-- What holds of every instance still does when the new value of the changed one has it. -/
theorem setInstance_forall {P : ι → Instance α → Prop} {i : ι} {inst : Instance α}
    (h : ∀ j, P j (s.instances j)) (hi : P i inst) (j : ι) :
    P j ((s.setInstance i inst).instances j) := by
  rw [setInstance_instances]
  by_cases hj : j = i
  · subst hj
    simpa using hi
  · simpa [hj] using h j

omit [DecidableEq ι] in
theorem deliver_forall {P : ι → Instance α → Prop} {message : Message} {delivered : ι → Bool}
    (h : ∀ j, P j (s.instances j))
    (hinbox : ∀ j inst inbox, P j inst → P j { inst with inbox := inbox }) (j : ι) :
    P j ((s.deliver message delivered).instances j) := by
  simp only [State.deliver]
  by_cases hj : delivered j
  · simpa [hj] using hinbox j _ _ (h j)
  · simpa [hj] using h j

/-! ## What is in memory -/

/-- The config of a pending call is the merge it announces and has been validated. -/
def UpdateCall.Valid (g : Gateway ι α) (i : ι) : UpdateCall α → Prop
  | .merged base update nextDbConfig appConfig =>
      nextDbConfig = deepMerge base update ∧ buildAppConfig g i nextDbConfig = some appConfig
  | .stored _ nextDbConfig appConfig => buildAppConfig g i nextDbConfig = some appConfig
  | _ => True

/-- The config in memory is built from the copy beside it. -/
structure Instance.Valid (g : Gateway ι α) (i : ι) (inst : Instance α) : Prop where
  built : buildAppConfig g i inst.dbConfig = some inst.config
  call : inst.call.Valid g i

theorem next_valid (h : ∀ j, (s.instances j).Valid g j) (e : Event ι) :
    ∀ j, ((next g s e).instances j).Valid g j := by
  cases e with
  | merge i update =>
      simp only [next]
      split
      next appConfig hbuild => exact setInstance_forall h ⟨(h i).built, rfl, hbuild⟩
      next => exact h
  | rejectUpdate i update => exact h
  | store i =>
      simp only [next]
      split
      next base update nextDbConfig appConfig hcall =>
        have hvalid := (h i).call
        rw [hcall] at hvalid
        exact setInstance_forall h ⟨(h i).built, hvalid.2⟩
      next => exact h
  | storeFails i => exact setInstance_forall h ⟨(h i).built, trivial⟩
  | apply i =>
      simp only [next]
      split
      next update nextDbConfig appConfig hcall =>
        have hvalid := (h i).call
        rw [hcall] at hvalid
        exact setInstance_forall h ⟨hvalid, trivial⟩
      next => exact h
  | publish i delivered =>
      simp only [next]
      split
      next =>
        refine deliver_forall (P := fun j inst => inst.Valid g j) ?_
          fun j inst inbox hinst => ⟨hinst.built, hinst.call⟩
        exact setInstance_forall h ⟨(h i).built, trivial⟩
      next => exact h
  | publishModelUpdated delivered =>
      exact deliver_forall (P := fun j inst => inst.Valid g j) h
        fun j inst inbox hinst => ⟨hinst.built, hinst.call⟩
  | loadReload i source => exact setInstance_forall h ⟨(h i).built, (h i).call⟩
  | loadFails i source => exact setInstance_forall h ⟨(h i).built, (h i).call⟩
  | applyReload i source =>
      simp only [next]
      split
      next reload hreload =>
        split
        next appConfig hbuild => exact setInstance_forall h ⟨hbuild, (h i).call⟩
        next => exact h
      next => exact h
  | rejectReload i source => exact setInstance_forall h ⟨(h i).built, (h i).call⟩

/-! ## Which updates are stored -/

/-- The update of a call that has stored its config and not returned. -/
def UpdateCall.unreturned : UpdateCall α → Option JsonObject
  | .stored update _ _ => some update
  | .applied update => some update
  | _ => none

/-- Every stored update has returned or belongs to the one call of its instance. -/
structure Accounted (s : State ι α) (pending : List (ι × JsonObject)) : Prop where
  perm : s.committed.Perm (s.returned ++ pending)
  nodup : pending.Nodup
  mem : ∀ j update, (j, update) ∈ pending ↔ (s.instances j).call.unreturned = some update

omit [DecidableEq ι] in
theorem Accounted.congr {s' : State ι α} {pending : List (ι × JsonObject)} (h : Accounted s pending)
    (hcommitted : s'.committed = s.committed) (hreturned : s'.returned = s.returned)
    (hcall : ∀ j, (s'.instances j).call.unreturned = (s.instances j).call.unreturned) :
    Accounted s' pending := by
  constructor
  · rw [hcommitted, hreturned]
    exact h.perm
  · exact h.nodup
  · intro j update
    rw [hcall]
    exact h.mem j update

theorem setInstance_unreturned {i : ι} {inst : Instance α}
    (h : inst.call.unreturned = (s.instances i).call.unreturned) (j : ι) :
    ((s.setInstance i inst).instances j).call.unreturned = (s.instances j).call.unreturned :=
  setInstance_forall (P := fun j inst => inst.call.unreturned = (s.instances j).call.unreturned)
    (fun _ => rfl) h j

omit [DecidableEq ι] in
theorem deliver_call (message : Message) (delivered : ι → Bool) (j : ι) :
    ((s.deliver message delivered).instances j).call = (s.instances j).call :=
  deliver_forall (P := fun j inst => inst.call = (s.instances j).call) (fun _ => rfl)
    (fun _ _ _ h => h) j

theorem Accounted.store {pending : List (ι × JsonObject)} (h : Accounted s pending) {i : ι}
    {base update nextDbConfig : JsonObject} {appConfig : α}
    (hcall : (s.instances i).call = .merged base update nextDbConfig appConfig) :
    Accounted (next g s (.store i)) (pending ++ [(i, update)]) := by
  have hfree : ∀ update', (i, update') ∉ pending := by
    intro update' hmem
    have hopen := (h.mem i update').mp hmem
    rw [hcall] at hopen
    cases hopen
  simp only [next, hcall]
  constructor
  · have hperm := h.perm.append_right [(i, update)]
    simpa using hperm
  · rw [List.nodup_append]
    refine ⟨h.nodup, by simp, ?_⟩
    rintro ⟨j, update'⟩ hmem _ hlast rfl
    obtain ⟨rfl, -⟩ := Prod.mk.inj (List.mem_singleton.mp hlast)
    exact hfree _ hmem
  · intro j update'
    rw [List.mem_append, h.mem, setInstance_instances]
    by_cases hj : j = i
    · subst hj
      simp [hcall, UpdateCall.unreturned, eq_comm]
    · simp [hj]

theorem Accounted.publish {pending : List (ι × JsonObject)} (h : Accounted s pending) {i : ι}
    {update : JsonObject} (hcall : (s.instances i).call = .applied update)
    (delivered : ι → Bool) : ∃ rest, Accounted (next g s (.publish i delivered)) rest := by
  have hmem : (i, update) ∈ pending := (h.mem i update).mpr (by rw [hcall]; rfl)
  obtain ⟨before, after, rfl⟩ := List.append_of_mem hmem
  have hnodup := List.perm_middle.nodup_iff.mp h.nodup
  refine ⟨before ++ after, ?_, (List.nodup_cons.mp hnodup).2, ?_⟩
  · have hperm := h.perm.trans (List.perm_middle.append_left s.returned)
    simpa [next, hcall, State.deliver] using hperm
  · intro j update'
    have hj := h.mem j update'
    simp only [next, hcall, deliver_call, setInstance_instances]
    by_cases hji : j = i
    · subst hji
      refine ⟨fun hin => ?_, fun hin => by simp [UpdateCall.unreturned] at hin⟩
      have hsome := hj.mp (by simp only [List.mem_append, List.mem_cons] at hin ⊢; tauto)
      rw [hcall] at hsome
      obtain rfl : update = update' := Option.some.inj hsome
      exact absurd hin (List.nodup_cons.mp hnodup).1
    · rw [if_neg hji, ← hj]
      simp [hji]

theorem next_accounted {pending : List (ι × JsonObject)} (h : Accounted s pending) {e : Event ι}
    (he : Enabled g s e) : ∃ pending', Accounted (next g s e) pending' := by
  cases e with
  | merge i update =>
      obtain ⟨hidle, -⟩ := he
      refine ⟨pending, ?_⟩
      simp only [next]
      split
      next =>
        refine h.congr rfl rfl (setInstance_unreturned ?_)
        generalize (s.instances i).call = call at hidle
        cases call <;> first | rfl | cases hidle
      next => exact h
  | rejectUpdate i update => exact ⟨pending, h⟩
  | store i =>
      cases hcall : (s.instances i).call with
      | merged base update nextDbConfig appConfig => exact ⟨_, h.store hcall⟩
      | _ => simp [Enabled, hcall] at he
  | storeFails i =>
      refine ⟨pending, h.congr rfl rfl (setInstance_unreturned ?_)⟩
      simp only [Enabled] at he
      generalize (s.instances i).call = call at he
      cases call <;> first | rfl | cases he
  | apply i =>
      refine ⟨pending, ?_⟩
      simp only [next]
      split
      next hcall =>
        refine h.congr rfl rfl (setInstance_unreturned ?_)
        rw [hcall]
        rfl
      next => exact h
  | publish i delivered =>
      cases hcall : (s.instances i).call with
      | applied update => exact h.publish hcall delivered
      | _ => simp [Enabled, hcall] at he
  | publishModelUpdated delivered =>
      exact ⟨pending, h.congr rfl rfl fun j =>
        congrArg UpdateCall.unreturned (deliver_call .modelUpdated delivered j)⟩
  | loadReload i source => exact ⟨pending, h.congr rfl rfl (setInstance_unreturned rfl)⟩
  | loadFails i source => exact ⟨pending, h.congr rfl rfl (setInstance_unreturned rfl)⟩
  | applyReload i source =>
      refine ⟨pending, ?_⟩
      simp only [next]
      split
      next =>
        split
        next => exact h.congr rfl rfl (setInstance_unreturned rfl)
        next => exact h
      next => exact h
  | rejectReload i source => exact ⟨pending, h.congr rfl rfl (setInstance_unreturned rfl)⟩

/-- A call stores its merge while the row is still the copy that it merged into, and a reload does
not put an older copy in the place of the stored one. -/
def KeepsStored (s : State ι α) : Event ι → Prop
  | .store i =>
      ∀ base update nextDbConfig appConfig,
        (s.instances i).call = .merged base update nextDbConfig appConfig →
          base = loadFromDb s.row
  | .applyReload i source =>
      ∀ reload, (s.instances i).reload source = some reload →
        (s.instances i).dbConfig = loadFromDb s.row → reload.dbConfig = loadFromDb s.row
  | _ => True

/-- The row changes only where a call stores its config. -/
theorem next_row {e : Event ι} (h : ∀ i, e ≠ .store i) :
    (next g s e).row = s.row ∧ (next g s e).committed = s.committed := by
  cases e with
  | store i => exact absurd rfl (h i)
  | merge i update => simp only [next]; split <;> exact ⟨rfl, rfl⟩
  | apply i => simp only [next]; split <;> exact ⟨rfl, rfl⟩
  | publish i delivered => simp only [next]; split <;> exact ⟨rfl, rfl⟩
  | applyReload i source =>
      simp only [next]
      split
      next => split <;> exact ⟨rfl, rfl⟩
      next => exact ⟨rfl, rfl⟩
  | _ => exact ⟨rfl, rfl⟩

/-- The row is the merge of all stored updates in the order of their writes. -/
def Folded (row : Option ConfigValue) (s : State ι α) : Prop :=
  loadFromDb s.row = (s.committed.map Prod.snd).foldl deepMerge (loadFromDb row)

theorem next_folded (h : Folded row s) (hvalid : ∀ j, (s.instances j).Valid g j) {e : Event ι}
    (hkeeps : KeepsStored s e) : Folded row (next g s e) := by
  by_cases he : ∃ i, e = .store i
  · obtain ⟨i, rfl⟩ := he
    cases hcall : (s.instances i).call with
    | merged base update nextDbConfig appConfig =>
        have hmerge := (hvalid i).call
        rw [hcall] at hmerge
        have hbase := hkeeps base update nextDbConfig appConfig hcall
        simp only [Folded, next, hcall, loadFromDb_json, List.map_append, List.map_cons,
          List.map_nil,
          List.foldl_append, List.foldl_cons, List.foldl_nil]
        rw [hmerge.1, hbase, h]
    | _ => simpa only [next, hcall] using h
  · have hrow := next_row (g := g) (s := s) fun i hi => he ⟨i, hi⟩
    unfold Folded
    rw [hrow.1, hrow.2]
    exact h

structure Inv (g : Gateway ι α) (row : Option ConfigValue) (s : State ι α) : Prop where
  valid : ∀ j, (s.instances j).Valid g j
  accounted : ∃ pending, Accounted s pending
  folded : Folded row s

theorem reachable_inv (hs : ReachableBy (gateways g row) KeepsStored s) : Inv g row s := by
  refine ReachableBy.invariant (P := Inv g row) ?_ ?_ hs
  · rintro s ⟨hrow, hcommitted, hreturned, hinst⟩
    constructor
    · intro j
      obtain ⟨hcall, -, hbuilt⟩ := hinst j
      exact ⟨hbuilt, by rw [hcall]; trivial⟩
    · refine ⟨[], ?_, List.nodup_nil, fun j update => ?_⟩
      · simp [hcommitted, hreturned]
      · simp [(hinst j).1, UpdateCall.unreturned]
    · simp [Folded, hcommitted, hrow]
  · intro s e hinv he hkeeps
    obtain ⟨pending, hpending⟩ := hinv.accounted
    exact ⟨next_valid hinv.valid e, next_accounted hpending he,
      next_folded hinv.folded hinv.valid hkeeps⟩

omit [DecidableEq ι] in
/-- Once all calls have returned, the stored updates are the returned ones. -/
theorem Inv.perm_of_idle (h : Inv g row s) (hidle : ∀ i, (s.instances i).call = .idle) :
    s.committed.Perm s.returned := by
  obtain ⟨pending, hperm, -, hmem⟩ := h.accounted
  cases pending with
  | nil => simpa using hperm
  | cons entry rest =>
      have hopen := (hmem entry.1 entry.2).mp List.mem_cons_self
      rw [hidle] at hopen
      cases hopen

/-! ## Reloads after the last call -/

/-- What an event outside of the calls leaves alone. -/
theorem next_frame {e : Event ι} (he : e.isUpdate = false) :
    (next g s e).row = s.row ∧ (next g s e).returned = s.returned ∧
      ∀ j, ((next g s e).instances j).call = (s.instances j).call := by
  have hset : ∀ (i : ι) (inst : Instance α), inst.call = (s.instances i).call →
      ∀ j, ((s.setInstance i inst).instances j).call = (s.instances j).call :=
    fun i inst hcall j =>
      setInstance_forall (P := fun j inst => inst.call = (s.instances j).call)
        (fun _ => rfl) hcall j
  cases e with
  | publishModelUpdated delivered => exact ⟨rfl, rfl, deliver_call .modelUpdated delivered⟩
  | loadReload i source => exact ⟨rfl, rfl, hset i _ rfl⟩
  | loadFails i source => exact ⟨rfl, rfl, hset i _ rfl⟩
  | applyReload i source =>
      simp only [next]
      split
      next =>
        split
        next => exact ⟨rfl, rfl, hset i _ rfl⟩
        next => exact ⟨rfl, rfl, fun _ => rfl⟩
      next => exact ⟨rfl, rfl, fun _ => rfl⟩
  | rejectReload i source => exact ⟨rfl, rfl, hset i _ rfl⟩
  | _ => cases he

/-- The copy of the instance is what is stored. -/
def UpToDate (i : ι) (s : State ι α) : Prop := (s.instances i).dbConfig = loadFromDb s.row

/-- What the reload has read is what is stored. -/
def FreshReload (i : ι) (source : Source) (s : State ι α) : Prop :=
  ∀ reload, (s.instances i).reload source = some reload → reload.dbConfig = loadFromDb s.row

theorem next_upToDate {i : ι} {e : Event ι} (he : e.isUpdate = false) (hkeeps : KeepsStored s e)
    (h : UpToDate i s) : UpToDate i (next g s e) := by
  unfold UpToDate
  rw [(next_frame (g := g) he).1]
  have hset : ∀ (j : ι) (inst : Instance α),
      (j = i → inst.dbConfig = loadFromDb s.row) →
        ((s.setInstance j inst).instances i).dbConfig = loadFromDb s.row := by
    intro j inst hinst
    rw [setInstance_instances]
    by_cases hij : i = j
    · rw [if_pos hij]
      exact hinst hij.symm
    · rw [if_neg hij]
      exact h
  cases e with
  | publishModelUpdated delivered =>
      exact deliver_forall (P := fun j inst => j = i → inst.dbConfig = loadFromDb s.row)
        (fun j hj => hj ▸ h) (fun _ _ _ h => h) i rfl
  | loadReload j source => exact hset j _ fun hj => hj ▸ h
  | loadFails j source => exact hset j _ fun hj => hj ▸ h
  | applyReload j source =>
      simp only [next]
      split
      next reload hreload =>
        split
        next =>
          apply hset
          rintro rfl
          exact hkeeps reload hreload h
        next => exact h
      next => exact h
  | rejectReload j source => exact hset j _ fun hj => hj ▸ h
  | _ => cases he

theorem setReload_reload (inst : Instance α) (source source' : Source) (reload : Option Reload) :
    (inst.setReload source reload).reload source' =
      if source' = source then reload else inst.reload source' :=
  Function.update_apply ..

theorem next_freshReload {i : ι} {source : Source} {e : Event ι} (he : e.isUpdate = false)
    (h : FreshReload i source s) : FreshReload i source (next g s e) := by
  unfold FreshReload
  rw [(next_frame (g := g) he).1]
  have hset : ∀ (j : ι) (inst : Instance α),
      (j = i → ∀ reload, inst.reload source = some reload →
        reload.dbConfig = loadFromDb s.row) →
        ∀ reload, ((s.setInstance j inst).instances i).reload source = some reload →
          reload.dbConfig = loadFromDb s.row := by
    intro j inst hinst
    rw [setInstance_instances]
    by_cases hij : i = j
    · rw [if_pos hij]
      exact hinst hij.symm
    · rw [if_neg hij]
      exact h
  have hclear : ∀ (j : ι) (source' : Source) (inst : Instance α),
    inst.reload = (s.instances j).reload →
      j = i → ∀ reload, (inst.setReload source' none).reload source = some reload →
        reload.dbConfig = loadFromDb s.row := by
    rintro j source' inst hinst rfl reload hreload
    rw [setReload_reload, hinst] at hreload
    by_cases hsource : source = source'
    · simp [hsource] at hreload
    · exact h reload (by simpa [hsource] using hreload)
  cases e with
  | publishModelUpdated delivered =>
      exact deliver_forall (P := fun j inst => j = i → ∀ reload, inst.reload source = some reload →
        reload.dbConfig = loadFromDb s.row) (fun j hj => hj ▸ h) (fun _ _ _ h => h) i rfl
  | loadReload j source' =>
      apply hset
      rintro rfl reload hreload
      change ((s.instances j).setReload source' _).reload source = some reload at hreload
      rw [setReload_reload] at hreload
      by_cases hsource : source = source'
      · obtain rfl := Option.some.inj (by simpa [hsource] using hreload)
        rfl
      · exact h reload (by simpa [hsource] using hreload)
  | loadFails j source' => exact hset j _ fun hj => hj ▸ h
  | applyReload j source' =>
      simp only [next]
      split
      next =>
        split
        next => exact hset j _ (hclear j source' _ rfl)
        next => exact h
      next => exact h
  | rejectReload j source' => exact hset j _ (hclear j source' _ rfl)
  | _ => cases he

/-- A reload reads what is stored. -/
theorem loadReload_fresh (i : ι) (source : Source) :
    FreshReload i source (next g s (.loadReload i source)) := by
  intro reload hreload
  simp only [next, setInstance_instances, if_pos] at hreload
  change ((s.instances i).setReload source _).reload source = some reload at hreload
  rw [setReload_reload, if_pos rfl] at hreload
  obtain rfl := Option.some.inj hreload
  rfl

/-- Applying what was read of the stored config brings the instance up to date. -/
theorem applyReload_upToDate {i : ι} {source : Source} (he : Enabled g s (.applyReload i source))
    (h : FreshReload i source s) : UpToDate i (next g s (.applyReload i source)) := by
  obtain ⟨appConfig, hbuild⟩ := Option.isSome_iff_exists.mp he
  obtain ⟨reload, hreload, hbuild⟩ := Option.bind_eq_some_iff.mp hbuild
  unfold UpToDate
  simp only [next, hreload, hbuild, setInstance_row, setInstance_instances, if_pos]
  exact h reload hreload

/-- Events outside of the calls, fired one after the other. -/
theorem fires_frame {es : List (Event ι)} (hes : ∀ e ∈ es, e.isUpdate = false) :
    (es.foldl (next g) s).row = s.row ∧ (es.foldl (next g) s).returned = s.returned := by
  induction es generalizing s with
  | nil => exact ⟨rfl, rfl⟩
  | cons e es ih =>
      rw [List.forall_mem_cons] at hes
      obtain ⟨hrow, hreturned, -⟩ := next_frame (g := g) (s := s) hes.1
      rw [List.foldl_cons, ← hrow, ← hreturned]
      exact ih hes.2

theorem fires_upToDate {i : ι} {es : List (Event ι)} (hes : ∀ e ∈ es, e.isUpdate = false)
    (hfires : Fires (gateways g row) KeepsStored s es) (h : UpToDate i s) :
    UpToDate i (es.foldl (next g) s) := by
  induction es generalizing s with
  | nil => exact h
  | cons e es ih =>
      rw [List.forall_mem_cons] at hes
      obtain ⟨-, hkeeps, hrest⟩ := hfires
      exact ih hes.2 hrest (next_upToDate hes.1 hkeeps h)

theorem fires_applied {i : ι} {source : Source} {es : List (Event ι)}
    (hes : ∀ e ∈ es, e.isUpdate = false) (hfires : Fires (gateways g row) KeepsStored s es)
    (h : FreshReload i source s) (happly : Event.applyReload i source ∈ es) :
    UpToDate i (es.foldl (next g) s) := by
  induction es generalizing s with
  | nil => cases happly
  | cons e es ih =>
      rw [List.forall_mem_cons] at hes
      obtain ⟨he, -, hrest⟩ := hfires
      rw [List.foldl_cons]
      rcases List.mem_cons.mp happly with rfl | hlater
      · exact fires_upToDate hes.2 hrest (applyReload_upToDate he h)
      · exact ih hes.2 hrest (next_freshReload hes.1 h) hlater

/-- An instance that reads and applies the config once more ends with what is stored. -/
theorem fires_reloaded {i : ι} {source : Source} {es : List (Event ι)}
    (hes : ∀ e ∈ es, e.isUpdate = false) (hfires : Fires (gateways g row) KeepsStored s es)
    (hreload : [Event.loadReload i source, .applyReload i source].Sublist es) :
    UpToDate i (es.foldl (next g) s) := by
  induction es generalizing s with
  | nil => cases hreload
  | cons e es ih =>
      rw [List.forall_mem_cons] at hes
      obtain ⟨-, -, hrest⟩ := hfires
      rw [List.foldl_cons]
      cases hreload with
      | cons _ hlater => exact ih hes.2 hrest hlater
      | cons_cons _ happly =>
          exact fires_applied hes.2 hrest (loadReload_fresh i source)
            (List.singleton_sublist.mp happly)

/-- All `update_config` calls have returned. -/
def Idle (s : State ι α) : Prop := ∀ i, (s.instances i).call = .idle

/-- Every instance reads the row and applies what it read; no update is made meanwhile. -/
def ReloadsOnceMore (es : List (Event ι)) : Prop :=
  (∀ e ∈ es, e.isUpdate = false) ∧
    ∀ i, ∃ source, [Event.loadReload i source, .applyReload i source].Sublist es

/-- The stored config is the merge of the returned updates in some order. -/
def NoUpdateLost (row : Option ConfigValue) (s : State ι α) : Prop :=
  ∃ order : List JsonObject, order.Perm (s.returned.map Prod.snd) ∧
    loadFromDb s.row = order.foldl deepMerge (loadFromDb row)

namespace TwoAdmins

/-- Two instances with an empty file config; any merged config is valid. -/
def gateway : Gateway Bool JsonObject where
  fileConfig := fun _ => []
  resolveAppConfig := fun _ merged => some merged
  detectChanges := fun _ _ => true

def start : State Bool JsonObject where
  row := none
  instances := fun _ => ⟨[], [], 1, .idle, fun _ => none, []⟩
  committed := []
  returned := []

def retries : JsonObject := [("router_settings", .dict [("num_retries", .int 2)])]

def poolSize : JsonObject := [("general_settings", .dict [("db_pool_size", .int 30)])]

/-- Both instances merge into the copy they started with, then both store. -/
def overlapping : List (Event Bool) :=
  [.merge false retries, .merge true poolSize, .store false, .store true, .apply false,
    .publish false fun _ => false, .apply true, .publish true fun _ => false]

/-- The second instance has reloaded when its update is made. -/
def oneAfterTheOther : List (Event Bool) :=
  [.merge false retries, .store false, .apply false, .publish false fun _ => true,
    .loadReload true .pubsub, .applyReload true .pubsub, .merge true poolSize, .store true,
    .apply true, .publish true fun _ => false]

def reloads : List (Event Bool) :=
  [.loadReload false .poll, .applyReload false .poll, .loadReload true .poll,
    .applyReload true .poll]

theorem start_initial : (gateways gateway none).initial start :=
  ⟨rfl, rfl, rfl, fun _ => ⟨rfl, fun _ => rfl, rfl⟩⟩

instance (s : State Bool JsonObject) (e : Event Bool) :
    Decidable ((gateways gateway none).enabled s e) :=
  inferInstanceAs (Decidable (Enabled gateway s e))

theorem reloads_once_more : ReloadsOnceMore reloads := by
  refine ⟨by decide, fun i => ⟨.poll, ?_⟩⟩
  cases i
  · exact .cons_cons _ (.cons_cons _ (.cons _ (.cons _ .slnil)))
  · exact .cons _ (.cons _ (.cons_cons _ (.cons_cons _ .slnil)))

end TwoAdmins

open TwoAdmins in
/-- Two overlapping updates: the second write drops the first one. -/
theorem overlapping_update_lost :
    ∃ s : State Bool JsonObject, Reachable (gateways gateway none) s ∧ Idle s ∧
      Fires (gateways gateway none) (fun _ _ => True) s reloads ∧ ReloadsOnceMore reloads ∧
        ¬NoUpdateLost none (reloads.foldl (next gateway) s) := by
  refine ⟨overlapping.foldl (next gateway) start,
    ReachableBy.fires (.initial start_initial) (by decide +kernel), ?_, by decide +kernel,
    reloads_once_more, ?_⟩
  · intro i
    cases i <;> rfl
  · rintro ⟨order, hperm, hstored⟩
    have horder : order = [retries, poolSize] ∨ order = [poolSize, retries] :=
      List.perm_pair.mp hperm
    have hlength := congrArg List.length hstored
    rcases horder with rfl | rfl <;> revert hlength <;> decide +kernel

/-- Where every store and reload meets `KeepsStored`, no returned update is lost, and an instance
that has reloaded once more has the stored config in memory. -/
theorem updates_kept {s : State ι α} {es : List (Event ι)}
    (hs : ReachableBy (gateways g row) KeepsStored s) (hidle : Idle s)
    (hfires : Fires (gateways g row) KeepsStored s es) (hes : ReloadsOnceMore es) :
    NoUpdateLost row (es.foldl (next g) s) ∧
      ∀ i, ((es.foldl (next g) s).instances i).dbConfig = loadFromDb (es.foldl (next g) s).row ∧
        buildAppConfig g i (loadFromDb (es.foldl (next g) s).row) =
          some ((es.foldl (next g) s).instances i).config := by
  have hinv := reachable_inv hs
  have hend := reachable_inv (hs.fires hfires)
  obtain ⟨hrow, hreturned⟩ := fires_frame (g := g) (s := s) hes.1
  constructor
  · refine ⟨s.committed.map Prod.snd, ?_, ?_⟩
    · rw [hreturned]
      exact (hinv.perm_of_idle hidle).map Prod.snd
    · rw [hrow]
      exact hinv.folded
  · intro i
    obtain ⟨source, hreload⟩ := hes.2 i
    have hupToDate : UpToDate i (es.foldl (next g) s) := fires_reloaded hes.1 hfires hreload
    refine ⟨hupToDate, ?_⟩
    rw [← hupToDate]
    exact (hend.valid i).built

open TwoAdmins in
theorem updates_kept_one_after_the_other :
    NoUpdateLost none
      (reloads.foldl (next gateway) (oneAfterTheOther.foldl (next gateway) start)) := by
  have hkept : ReachableBy (gateways gateway none) KeepsStored
      (oneAfterTheOther.foldl (next gateway) start) := by
    refine ReachableBy.fires (.initial start_initial)
      ⟨by decide +kernel, trivial, by decide +kernel, ?_, by decide +kernel, trivial,
        by decide +kernel, trivial, by decide +kernel, trivial, by decide +kernel, ?_,
        by decide +kernel, trivial, by decide +kernel, ?_, by decide +kernel, trivial,
        by decide +kernel, trivial, trivial⟩
    · rintro base update nextDbConfig appConfig ⟨⟩
      rfl
    · rintro reload ⟨⟩ -
      rfl
    · rintro base update nextDbConfig appConfig ⟨⟩
      rfl
  have hfires : Fires (gateways gateway none) KeepsStored
      (oneAfterTheOther.foldl (next gateway) start) reloads := by
    refine ⟨by decide +kernel, trivial, by decide +kernel, ?_, by decide +kernel, trivial,
      by decide +kernel, ?_, trivial⟩
    · rintro reload ⟨⟩ -
      rfl
    · rintro reload ⟨⟩ -
      rfl
  exact (updates_kept hkept (fun i => by cases i <;> rfl) hfires reloads_once_more).1

end ConfigUpdates
