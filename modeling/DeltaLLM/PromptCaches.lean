import Mathlib.Logic.Relation
import DeltaLLM.PromptResolution

/-! # The caches of resolved prompts

Every service has a cache of its own and all share one in Redis, both under the cache key of the
reference. Lookups interleave at every await, entries may go at any time, and the tables change
under them.
-/
namespace PromptCaches

open JsonValues PythonText PromptReferences PromptResolution
open Relation (ReflTransGen)
open StreamingCache (Python toInt orElse)

/-! ## Payloads -/

/-- `_prompt_to_cache`. -/
def promptToCache (record : PromptResolvedRecord) : JsonObject :=
  [("prompt_template_id", .str record.promptTemplateId),
   ("template_key", .str record.templateKey),
   ("prompt_version_id", .str record.promptVersionId),
   ("version", .int record.version),
   ("status", .str record.status),
   ("label", match record.label with
      | some label => .str label
      | none => .null),
   ("template_body", .dict record.templateBody)]

def textField (py : Python) (data : JsonObject) (field : String) : String :=
  py.text (orElse (JsonObject.get data field) (.str ""))

/-- `_prompt_from_cache`; a template body is only ever stored as a dictionary. -/
def promptFromCache (py : Python) (data : JsonObject) : Option PromptResolvedRecord :=
  match toInt (orElse (JsonObject.get data "version") (.int 0)),
      orElse (JsonObject.get data "template_body") (.dict []) with
  | .value version, .dict templateBody => some {
      promptTemplateId := textField py data "prompt_template_id"
      templateKey := textField py data "template_key"
      promptVersionId := textField py data "prompt_version_id"
      version := version
      status := textField py data "status"
      label := match JsonObject.get data "label" with
        | .null => none
        | label => some (py.text label)
      templateBody := templateBody }
  | _, _ => none

theorem text_orElse (py : Python) (text : String) :
    py.text (orElse (.str text) (.str "")) = text := by
  unfold orElse
  split
  · rfl
  next h =>
    simp only [JsonValue.truthy, ne_eq, decide_not, Bool.not_eq_true, Bool.not_eq_false',
      decide_eq_true_eq] at h
    rw [h]
    rfl

theorem promptFromCache_toCache (py : Python) (record : PromptResolvedRecord) :
    promptFromCache py (promptToCache record) = some record := by
  obtain ⟨templateId, templateKey, versionId, version, status, label, body⟩ := record
  have hversion : toInt (orElse (.int version) (.int 0)) = .value version := by
    unfold orElse
    split
    · rfl
    next h =>
      simp only [JsonValue.truthy, ne_eq, decide_not, Bool.not_eq_true, Bool.not_eq_false',
        decide_eq_true_eq] at h
      rw [h]
      rfl
  have hbody : orElse (.dict body) (.dict []) = .dict body := by
    cases body with
    | nil => rfl
    | cons field body => rfl
  cases label with
  | none => simp [promptFromCache, promptToCache, textField, JsonObject.get, JsonObject.get?,
      hversion, hbody, text_orElse]
  | some label =>
      have hlabel : py.text (.str label) = label := rfl
      simp [promptFromCache, promptToCache, textField, JsonObject.get, JsonObject.get?, hversion,
        hbody, text_orElse, hlabel]

/-! ## Keys of the other records -/

def promptBindingCachePrefix : String := "deltallm:promptbinding:v1"

def promptGroupDefaultCachePrefix : String := "deltallm:promptgroupdefault:v1"

/-- `_binding_cache_key`. -/
def bindingCacheKey (scopeType scopeId : String) : String :=
  promptBindingCachePrefix ++ ":" ++ normalizeScopeType scopeType ++ ":" ++ scopeId

/-- `_group_default_cache_key`. -/
def groupDefaultCacheKey (routeGroupKey : String) : String :=
  promptGroupDefaultCachePrefix ++ ":" ++ routeGroupKey

/-- No prompt is kept under a key of the other two kinds. -/
theorem cacheKey_ne_other {reference : PromptReference} {key : String}
    (h : reference.cacheKey = some key) :
    (∀ scopeType scopeId, key ≠ bindingCacheKey scopeType scopeId) ∧
      ∀ routeGroupKey, key ≠ groupDefaultCacheKey routeGroupKey := by
  obtain ⟨ending, -, hkey⟩ := cacheKey_eq_some.mp h
  have hmark : key.toList[15]? = some ':' := by
    rw [hkey]
    rfl
  constructor
  · intro scopeType scopeId heq
    rw [heq, bindingCacheKey, promptBindingCachePrefix] at hmark
    simp at hmark
  · intro routeGroupKey heq
    rw [heq, groupDefaultCacheKey, promptGroupDefaultCachePrefix] at hmark
    simp at hmark

/-! ## Lookups -/

inductive Phase where
  | started
  | missed
  | shared (payload : JsonObject)
  | absent
  | selected (record : PromptResolvedRecord)
  | stored (record : PromptResolvedRecord)
  | served (record : PromptResolvedRecord)
  | unresolved

/-- A call of `_resolve_prompt` in one of the services. -/
structure Lookup where
  service : ℕ
  reference : PromptReference
  key : String
  hasKey : reference.cacheKey = some key
  phase : Phase

structure State where
  registry : Registry
  l1 : ℕ → String → Option JsonObject
  l2 : String → Option JsonObject
  lookups : ℕ → Option Lookup

namespace State

def initial (registry : Registry) : State :=
  ⟨registry, fun _ _ => none, fun _ => none, fun _ => none⟩

variable (s : State)

def setLookup (id : ℕ) (lookup : Lookup) : State :=
  { s with lookups := Function.update s.lookups id (some lookup) }

def advance (id : ℕ) (lookup : Lookup) (phase : Phase) : State :=
  s.setLookup id { lookup with phase := phase }

def setL1 (service : ℕ) (key : String) (entry : Option JsonObject) : State :=
  { s with l1 := Function.update s.l1 service (Function.update (s.l1 service) key entry) }

def setL2 (key : String) (entry : Option JsonObject) : State :=
  { s with l2 := Function.update s.l2 key entry }

theorem setL1_l1 (service : ℕ) (key : String) (entry : Option JsonObject) (service' : ℕ)
    (key' : String) : (s.setL1 service key entry).l1 service' key' =
      if service' = service ∧ key' = key then entry else s.l1 service' key' := by
  by_cases hservice : service' = service
  · subst hservice
    by_cases hkey : key' = key
    · subst hkey
      simp [setL1]
    · simp [setL1, hkey]
  · simp [setL1, hservice]

theorem setL2_l2 (key : String) (entry : Option JsonObject) (key' : String) :
    (s.setL2 key entry).l2 key' = if key' = key then entry else s.l2 key' :=
  Function.update_apply _ _ _ _

theorem setLookup_lookups (id : ℕ) (lookup : Lookup) (id' : ℕ) :
    (s.setLookup id lookup).lookups id' = if id' = id then some lookup else s.lookups id' :=
  Function.update_apply _ _ _ _

end State

/-- What happens between two awaits. The first five happen to the tables and the caches; Redis may
fail at `absent` and at `unshared`. -/
inductive Step (py : Python) : State → State → Prop where
  | change (s : State) (registry : Registry) : Step py s { s with registry := registry }
  | dropL1 (s : State) (service : ℕ) (key : String) : Step py s (s.setL1 service key none)
  | dropL2 (s : State) (key : String) : Step py s (s.setL2 key none)
  | cacheBinding (s : State) (scopeType scopeId : String) (payload : JsonObject) :
      Step py s (s.setL2 (bindingCacheKey scopeType scopeId) (some payload))
  | cacheGroupDefault (s : State) (routeGroupKey : String) (payload : JsonObject) :
      Step py s (s.setL2 (groupDefaultCacheKey routeGroupKey) (some payload))
  | start (s : State) (id : ℕ) (lookup : Lookup) :
      s.lookups id = none → lookup.phase = .started → Step py s (s.setLookup id lookup)
  | hit (s : State) (id : ℕ) (lookup : Lookup) (payload : JsonObject)
      (record : PromptResolvedRecord) :
      s.lookups id = some lookup → lookup.phase = .started →
      s.l1 lookup.service lookup.key = some payload → promptFromCache py payload = some record →
      Step py s (s.advance id lookup (.served record))
  | miss (s : State) (id : ℕ) (lookup : Lookup) :
      s.lookups id = some lookup → lookup.phase = .started →
      s.l1 lookup.service lookup.key = none → Step py s (s.advance id lookup .missed)
  | read (s : State) (id : ℕ) (lookup : Lookup) (payload : JsonObject) :
      s.lookups id = some lookup → lookup.phase = .missed → s.l2 lookup.key = some payload →
      Step py s (s.advance id lookup (.shared payload))
  | absent (s : State) (id : ℕ) (lookup : Lookup) :
      s.lookups id = some lookup → lookup.phase = .missed →
      Step py s (s.advance id lookup .absent)
  | keep (s : State) (id : ℕ) (lookup : Lookup) (payload : JsonObject)
      (record : PromptResolvedRecord) :
      s.lookups id = some lookup → lookup.phase = .shared payload →
      promptFromCache py payload = some record →
      Step py s ((s.setL1 lookup.service lookup.key (some payload)).advance id lookup
        (.served record))
  | select (s : State) (id : ℕ) (lookup : Lookup) (record : PromptResolvedRecord) :
      s.lookups id = some lookup → lookup.phase = .absent →
      s.registry.resolvePrompt lookup.reference.templateKey lookup.reference.label
        lookup.reference.version = some record →
      Step py s (s.advance id lookup (.selected record))
  | nothing (s : State) (id : ℕ) (lookup : Lookup) :
      s.lookups id = some lookup → lookup.phase = .absent →
      s.registry.resolvePrompt lookup.reference.templateKey lookup.reference.label
        lookup.reference.version = none →
      Step py s (s.advance id lookup .unresolved)
  | store (s : State) (id : ℕ) (lookup : Lookup) (record : PromptResolvedRecord) :
      s.lookups id = some lookup → lookup.phase = .selected record →
      Step py s ((s.setL1 lookup.service lookup.key (some (promptToCache record))).advance id lookup
        (.stored record))
  | share (s : State) (id : ℕ) (lookup : Lookup) (record : PromptResolvedRecord) :
      s.lookups id = some lookup → lookup.phase = .stored record →
      Step py s ((s.setL2 lookup.key (some (promptToCache record))).advance id lookup
        (.served record))
  | unshared (s : State) (id : ℕ) (lookup : Lookup) (record : PromptResolvedRecord) :
      s.lookups id = some lookup → lookup.phase = .stored record →
      Step py s (s.advance id lookup (.served record))

/-- `Run py s s'`. -/
abbrev Run (py : Python) : State → State → Prop := ReflTransGen (Step py)

/-! ## What the caches hold -/

/-- The record is of the template, and of the version or the label, that the reference names. -/
def Answers (reference : PromptReference) (record : PromptResolvedRecord) : Prop :=
  record.templateKey = reference.templateKey ∧
    match reference.version with
    | some version => record.version = version
    | none => record.label = some (labelOrProduction reference.label)

theorem answers_congr {r s : PromptReference} {record : PromptResolvedRecord}
    (h : r.denotes = s.denotes) (hr : Answers r record) : Answers s record := by
  obtain ⟨hkey, hwhich⟩ := Prod.mk.inj h
  obtain ⟨hrecord, hread⟩ := hr
  refine ⟨hrecord.trans hkey, ?_⟩
  cases hv : r.version with
  | some version =>
      cases hw : s.version with
      | some version' =>
          rw [hv, hw] at hwhich
          rw [hv] at hread
          exact hread.trans (Sum.inr.inj hwhich)
      | none =>
          rw [hv, hw] at hwhich
          cases hwhich
  | none =>
      cases hw : s.version with
      | some version' =>
          rw [hv, hw] at hwhich
          cases hwhich
      | none =>
          rw [hv, hw] at hwhich
          rw [hv] at hread
          exact hread.trans (congrArg some (Sum.inl.inj hwhich))

theorem answers_of_resolved {registry : Registry} {reference : PromptReference}
    {record : PromptResolvedRecord}
    (h : registry.resolvePrompt reference.templateKey reference.label reference.version =
      some record) : Answers reference record := by
  unfold Answers
  cases hversion : reference.version with
  | some version =>
      rw [hversion] at h
      exact resolvePrompt_version h
  | none =>
      rw [hversion] at h
      exact resolvePrompt_label h

def Requested (s : State) (reference : PromptReference) : Prop :=
  ∃ id lookup, s.lookups id = some lookup ∧ lookup.reference = reference

/-- The record answers a reference that was asked for and has that cache key. -/
def Known (s : State) (key : String) (record : PromptResolvedRecord) : Prop :=
  ∃ reference, Requested s reference ∧ reference.cacheKey = some key ∧ Answers reference record

def Stored (s : State) (key : String) (payload : JsonObject) : Prop :=
  ∃ record, Known s key record ∧ payload = promptToCache record

def PhaseHolds (s : State) (lookup : Lookup) : Phase → Prop
  | .shared payload => Stored s lookup.key payload
  | .selected record | .stored record => Answers lookup.reference record
  | .served record => Known s lookup.key record
  | .started | .missed | .absent | .unresolved => True

structure Sound (s : State) : Prop where
  own : ∀ service key payload, s.l1 service key = some payload → Stored s key payload
  common : ∀ reference key payload, PromptReference.cacheKey reference = some key →
    s.l2 key = some payload → Stored s key payload
  phases : ∀ id lookup, s.lookups id = some lookup → PhaseHolds s lookup lookup.phase

theorem sound_initial (registry : Registry) : Sound (State.initial registry) where
  own := by
    intro service key payload h
    cases h
  common := by
    intro reference key payload hkey h
    cases h
  phases := by
    intro id lookup h
    cases h

section Preservation

variable {py : Python} {s s' : State}

theorem Stored.mono {key : String} {payload : JsonObject} (h : Stored s key payload)
    (hmono : ∀ reference, Requested s reference → Requested s' reference) :
    Stored s' key payload := by
  obtain ⟨record, ⟨reference, hrequested, hkey, hanswers⟩, rfl⟩ := h
  exact ⟨record, ⟨reference, hmono reference hrequested, hkey, hanswers⟩, rfl⟩

theorem PhaseHolds.mono {lookup : Lookup} {phase : Phase} (h : PhaseHolds s lookup phase)
    (hmono : ∀ reference, Requested s reference → Requested s' reference) :
    PhaseHolds s' lookup phase := by
  cases phase with
  | shared payload => exact Stored.mono h hmono
  | served record =>
      obtain ⟨reference, hrequested, hkey, hanswers⟩ := h
      exact ⟨reference, hmono reference hrequested, hkey, hanswers⟩
  | selected record => exact h
  | stored record => exact h
  | started => trivial
  | missed => trivial
  | absent => trivial
  | unresolved => trivial

/-- What is read back from a stored payload is what was stored. -/
theorem Stored.known {key : String} {payload : JsonObject} {record : PromptResolvedRecord}
    (h : Stored s key payload) (hread : promptFromCache py payload = some record) :
    Known s key record := by
  obtain ⟨stored, hknown, rfl⟩ := h
  rw [promptFromCache_toCache] at hread
  cases hread
  exact hknown

theorem Sound.change (h : Sound s) (registry : Registry) :
    Sound { s with registry := registry } where
  own := h.own
  common := h.common
  phases := fun id lookup hlookup =>
    (h.phases id lookup hlookup).mono fun _ hrequested => hrequested

theorem Sound.setL1 (h : Sound s) {service : ℕ} {key : String} {entry : Option JsonObject}
    (hentry : ∀ payload, entry = some payload → Stored s key payload) :
    Sound (s.setL1 service key entry) where
  own := by
    intro service' key' payload hpayload
    rw [State.setL1_l1] at hpayload
    split at hpayload
    next heq => exact heq.2 ▸ hentry payload hpayload
    · exact h.own _ _ _ hpayload
  common := h.common
  phases := h.phases

theorem Sound.setL2 (h : Sound s) {key : String} {entry : Option JsonObject}
    (hentry : ∀ reference payload, PromptReference.cacheKey reference = some key →
      entry = some payload → Stored s key payload) :
    Sound (s.setL2 key entry) where
  own := h.own
  common := by
    intro reference key' payload hkey hpayload
    rw [State.setL2_l2] at hpayload
    split at hpayload
    next heq =>
      subst heq
      exact hentry reference payload hkey hpayload
    · exact h.common _ _ _ hkey hpayload
  phases := h.phases

theorem Sound.setLookup (h : Sound s) {id : ℕ} {lookup : Lookup}
    (hmono : ∀ reference, Requested s reference → Requested (s.setLookup id lookup) reference)
    (hphase : PhaseHolds (s.setLookup id lookup) lookup lookup.phase) :
    Sound (s.setLookup id lookup) where
  own := fun service key payload hpayload => (h.own service key payload hpayload).mono hmono
  common := fun reference key payload hkey hpayload =>
    (h.common reference key payload hkey hpayload).mono hmono
  phases := by
    intro id' lookup' hlookup
    rw [State.setLookup_lookups] at hlookup
    split at hlookup
    · cases hlookup
      exact hphase
    · exact (h.phases id' lookup' hlookup).mono hmono

theorem requested_start {id : ℕ} (lookup : Lookup) (hfresh : s.lookups id = none)
    {reference : PromptReference} (h : Requested s reference) :
    Requested (s.setLookup id lookup) reference := by
  obtain ⟨id', lookup', hlookup, href⟩ := h
  have hne : id' ≠ id := by
    rintro rfl
    rw [hfresh] at hlookup
    cases hlookup
  exact ⟨id', lookup', (Function.update_of_ne hne _ _).trans hlookup, href⟩

theorem requested_advance {id : ℕ} {lookup : Lookup} (hlookup : s.lookups id = some lookup)
    (phase : Phase) {reference : PromptReference} (h : Requested s reference) :
    Requested (s.advance id lookup phase) reference := by
  obtain ⟨id', lookup', hlookup', rfl⟩ := h
  by_cases hid : id' = id
  · subst hid
    rw [hlookup] at hlookup'
    cases hlookup'
    exact ⟨id', _, Function.update_self _ _ _, rfl⟩
  · exact ⟨id', lookup', (Function.update_of_ne hid _ _).trans hlookup', rfl⟩

theorem Sound.advance (h : Sound s) {id : ℕ} {lookup : Lookup}
    (hlookup : s.lookups id = some lookup) {phase : Phase} (hphase : PhaseHolds s lookup phase) :
    Sound (s.advance id lookup phase) := by
  have hnext : PhaseHolds s { lookup with phase := phase } phase := hphase
  exact h.setLookup (fun _ => requested_advance hlookup phase)
    (hnext.mono fun _ => requested_advance hlookup phase)

theorem Known.of_lookup {id : ℕ} {lookup : Lookup} {record : PromptResolvedRecord}
    (hlookup : s.lookups id = some lookup) (h : Answers lookup.reference record) :
    Known s lookup.key record :=
  ⟨lookup.reference, ⟨id, lookup, hlookup, rfl⟩, lookup.hasKey, h⟩

theorem Sound.step (h : Sound s) (hstep : Step py s s') : Sound s' := by
  cases hstep with
  | change registry => exact h.change registry
  | dropL1 service key => exact h.setL1 fun payload hpayload => by cases hpayload
  | dropL2 key => exact h.setL2 fun reference payload hkey hpayload => by cases hpayload
  | cacheBinding scopeType scopeId payload =>
      apply h.setL2
      intro reference payload hkey
      exact absurd rfl ((cacheKey_ne_other hkey).1 scopeType scopeId)
  | cacheGroupDefault routeGroupKey payload =>
      apply h.setL2
      intro reference payload hkey
      exact absurd rfl ((cacheKey_ne_other hkey).2 routeGroupKey)
  | start id lookup hfresh hphase =>
      apply h.setLookup fun _ => requested_start lookup hfresh
      rw [hphase]
      trivial
  | hit id lookup payload record hlookup hphase hpayload hread =>
      exact h.advance hlookup ((h.own _ _ _ hpayload).known hread)
  | miss id lookup hlookup hphase hpayload => exact h.advance hlookup trivial
  | read id lookup payload hlookup hphase hpayload =>
      exact h.advance hlookup (h.common _ _ _ lookup.hasKey hpayload)
  | absent id lookup hlookup hphase => exact h.advance hlookup trivial
  | keep id lookup payload record hlookup hphase hread =>
      have hstored : Stored s lookup.key payload := by
        have hholds := h.phases id lookup hlookup
        rwa [hphase] at hholds
      have hcached : Sound (s.setL1 lookup.service lookup.key (some payload)) := by
        apply h.setL1
        rintro payload' heq
        cases heq
        exact hstored
      exact hcached.advance hlookup (hstored.known hread)
  | select id lookup record hlookup hphase hresolved =>
      exact h.advance hlookup (answers_of_resolved hresolved)
  | nothing id lookup hlookup hphase hresolved => exact h.advance hlookup trivial
  | store id lookup record hlookup hphase =>
      have hanswers : Answers lookup.reference record := by
        have hholds := h.phases id lookup hlookup
        rwa [hphase] at hholds
      have hcached : Sound (s.setL1 lookup.service lookup.key (some (promptToCache record))) := by
        apply h.setL1
        rintro payload heq
        cases heq
        exact ⟨record, Known.of_lookup hlookup hanswers, rfl⟩
      exact hcached.advance hlookup hanswers
  | share id lookup record hlookup hphase =>
      have hanswers : Answers lookup.reference record := by
        have hholds := h.phases id lookup hlookup
        rwa [hphase] at hholds
      have hcached : Sound (s.setL2 lookup.key (some (promptToCache record))) := by
        apply h.setL2
        rintro reference payload hkey heq
        cases heq
        exact ⟨record, Known.of_lookup hlookup hanswers, rfl⟩
      exact hcached.advance hlookup (Known.of_lookup hlookup hanswers)
  | unshared id lookup record hlookup hphase =>
      have hanswers : Answers lookup.reference record := by
        have hholds := h.phases id lookup hlookup
        rwa [hphase] at hholds
      exact h.advance hlookup (Known.of_lookup hlookup hanswers)

end Preservation

theorem sound_run {py : Python} {registry : Registry} {s : State}
    (h : Run py (State.initial registry) s) : Sound s := by
  induction h with
  | refl => exact sound_initial registry
  | tail _ hstep ih => exact ih.step hstep

/-! ## Ambiguity -/

/-- No lookup was served a record of another template, version or label. -/
def ServedOwn (s : State) : Prop :=
  ∀ id lookup record, s.lookups id = some lookup → lookup.phase = .served record →
    Answers lookup.reference record

theorem servedOwn_of_apart {py : Python} {registry : Registry} {s : State}
    (hrun : Run py (State.initial registry) s)
    (hapart : ∀ r t, Requested s r → Requested s t → ¬Overlaps r t) : ServedOwn s := by
  intro id lookup record hlookup hphase
  have hholds := (sound_run hrun).phases id lookup hlookup
  rw [hphase] at hholds
  obtain ⟨reference, hrequested, hkey, hanswers⟩ := hholds
  have hown : Requested s lookup.reference := ⟨id, lookup, hlookup, rfl⟩
  have hkept : KeptApart reference lookup.reference :=
    keptApart_iff.mpr ⟨hapart _ _ hrequested hown, hapart _ _ hown hrequested⟩
  exact answers_congr (hkept lookup.key hkey lookup.hasKey) hanswers

/-- Cache keys keep admitted references apart unless they overlap, their texts are read back where
the separators allow it, and a run without overlapping requests serves each its own prompt. -/
theorem unambiguous_iff (py : Python) (registry : Registry) :
    (∀ r t, Admitted r → Admitted t → (KeptApart r t ↔ ¬Overlaps r t ∧ ¬Overlaps t r)) ∧
      (∀ r, Admitted r → (RoundTrips py r ↔ Separable r)) ∧
      ∀ s, Run py (State.initial registry) s →
        (∀ r t, Requested s r → Requested s t → ¬Overlaps r t) → ServedOwn s :=
  ⟨fun _ _ _ _ => keptApart_iff, fun _ hr => roundTrips_iff py hr,
    fun _ hrun hapart => servedOwn_of_apart hrun hapart⟩

namespace Counterexample

def python : Python := ⟨fun _ => none, fun _ => ""⟩

def first : PromptReference := ⟨"kk", some "x:label:y", none, none⟩

def second : PromptReference := ⟨"kk:label:x", some "y", none, none⟩

def spaced : PromptReference := ⟨"team:welcome", some "production", none, none⟩

def firstRecord : PromptResolvedRecord :=
  ⟨"t1", "kk", "v1", 1, "published", some "x:label:y", []⟩

def registry : Registry where
  templates := [⟨"t1", "kk"⟩, ⟨"t2", "kk:label:x"⟩]
  versions := [⟨"v1", "t1", 1, "published", []⟩, ⟨"v2", "t2", 1, "published", []⟩]
  labels := [⟨"t1", "x:label:y", "v1"⟩, ⟨"t2", "y", "v2"⟩]
  bindings := []
  routeGroups := none

def sharedKey : String := "deltallm:prompt:v1:kk:label:x:label:y"

def firstLookup : Lookup := ⟨0, first, sharedKey, by decide +kernel, .started⟩

def secondLookup : Lookup := ⟨0, second, sharedKey, by decide +kernel, .started⟩

theorem admitted : Admitted first ∧ Admitted second ∧ Admitted spaced := by
  refine ⟨⟨by decide +kernel, ?_⟩, ⟨by decide +kernel, ?_⟩, ⟨by decide +kernel, ?_⟩⟩
  · rintro label ⟨⟩
    decide +kernel
  · rintro label ⟨⟩
    decide +kernel
  · rintro label ⟨⟩
    decide +kernel

def firstAt (phase : Phase) : Lookup := { firstLookup with phase := phase }

def secondAt (phase : Phase) : Lookup := { secondLookup with phase := phase }

theorem requested_setLookup {s : State} {id : ℕ} {lookup : Lookup} {r : PromptReference}
    (h : Requested (s.setLookup id lookup) r) : Requested s r ∨ r = lookup.reference := by
  obtain ⟨id', lookup', hlookup, rfl⟩ := h
  rw [State.setLookup_lookups] at hlookup
  split at hlookup
  · cases hlookup
    exact .inr rfl
  · exact .inl ⟨id', lookup', hlookup, rfl⟩

/-- The first lookup is answered from the tables and fills the cache of its service. -/
theorem run_filled : ∃ s, Run python (State.initial registry) s ∧
    s.lookups 0 = some (firstAt (.served firstRecord)) ∧ s.lookups 1 = none ∧
    s.l1 0 sharedKey = some (promptToCache firstRecord) ∧ ∀ r, Requested s r → r = first := by
  refine ⟨_, (((((ReflTransGen.refl.tail
      (Step.start _ 0 (firstAt .started) rfl rfl)).tail
      (Step.miss _ 0 (firstAt .started) rfl rfl rfl)).tail
      (Step.absent _ 0 (firstAt .missed) rfl rfl)).tail
      (Step.select _ 0 (firstAt .absent) firstRecord rfl rfl rfl)).tail
      (Step.store _ 0 (firstAt (.selected firstRecord)) firstRecord rfl rfl)).tail
      (Step.unshared _ 0 (firstAt (.stored firstRecord)) firstRecord rfl rfl), rfl, rfl, rfl, ?_⟩
  intro r hserved
  rcases requested_setLookup hserved with hstored | hr
  · rcases requested_setLookup hstored with hselected | hr
    · rcases requested_setLookup hselected with habsent | hr
      · rcases requested_setLookup habsent with hmissed | hr
        · rcases requested_setLookup hmissed with hstarted | hr
          · rcases requested_setLookup hstarted with ⟨id, lookup, hlookup, -⟩ | hr
            · cases hlookup
            · exact hr
          · exact hr
        · exact hr
      · exact hr
    · exact hr
  · exact hr

/-- A second lookup in the service finds the first one's prompt. -/
theorem run_shared : ∃ s, Run python (State.initial registry) s ∧
    s.lookups 1 = some (secondAt (.served firstRecord)) := by
  obtain ⟨s, hrun, -, hfresh, hcached, -⟩ := run_filled
  have hstart := hrun.tail (Step.start s 1 (secondAt .started) hfresh rfl)
  exact ⟨_, hstart.tail (Step.hit _ 1 (secondAt .started) (promptToCache firstRecord) firstRecord
    rfl rfl hcached (promptFromCache_toCache python firstRecord)), rfl⟩

/-- Two admitted references share a cache key, an admitted reference is read back as one of another
template, and a request is served the prompt of another template. -/
theorem references_ambiguous :
    (Admitted first ∧ Admitted second ∧ first.cacheKey = second.cacheKey ∧
      first.denotes ≠ second.denotes ∧ ¬KeptApart first second) ∧
    (Admitted spaced ∧ ¬RoundTrips python spaced) ∧
    ∃ s, Run python (State.initial registry) s ∧
      s.lookups 1 = some (secondAt (.served firstRecord)) ∧
      firstRecord.templateKey ≠ second.templateKey := by
  have hdenotes : first.denotes ≠ second.denotes := by decide +kernel
  obtain ⟨hfirst, hsecond, hspaced⟩ := admitted
  refine ⟨⟨hfirst, hsecond, firstLookup.hasKey.trans secondLookup.hasKey.symm, hdenotes, ?_⟩,
    ⟨hspaced, ?_⟩, ?_⟩
  · intro hapart
    exact hdenotes (hapart sharedKey firstLookup.hasKey secondLookup.hasKey)
  · intro hround
    obtain ⟨read, hread, hsame⟩ := hround "team:welcome:production" (by decide +kernel)
    have hparsed : (parseToken "team:welcome:production").map PromptReference.denotes =
        some ("team", .inl "welcome:production") := by decide +kernel
    rw [show parseToken "team:welcome:production" = some read from Option.some.inj hread,
      Option.map_some, hsame] at hparsed
    revert hparsed
    decide +kernel
  · obtain ⟨s, hrun, hserved⟩ := run_shared
    exact ⟨s, hrun, hserved, by decide +kernel⟩

def plain : PromptReference := ⟨"team.welcome", some "production", none, none⟩

/-- References whose keys do not go on with a label's mark are kept apart, read back and served
their own prompts. -/
theorem plain_unambiguous :
    KeptApart first plain ∧ RoundTrips python plain ∧
      ∃ s, Run python (State.initial registry) s ∧
        s.lookups 0 = some (firstAt (.served firstRecord)) ∧ ServedOwn s := by
  obtain ⟨hkeys, htexts, hruns⟩ := unambiguous_iff python registry
  have hplain : Admitted plain := by
    refine ⟨by decide +kernel, ?_⟩
    rintro label ⟨⟩
    decide +kernel
  refine ⟨(hkeys first plain admitted.1 hplain).mpr ⟨?_, ?_⟩, (htexts plain hplain).mpr ?_, ?_⟩
  · rintro ⟨-, rest, ending, hkey, -⟩
    cases hkey
  · rintro ⟨-, rest, ending, hkey, -⟩
    cases hkey
  · rintro - label ⟨⟩
    decide +kernel
  · obtain ⟨s, hrun, hserved, -, -, honly⟩ := run_filled
    refine ⟨s, hrun, hserved, hruns s hrun ?_⟩
    intro r t hr ht
    rw [honly r hr, honly t ht]
    rintro ⟨-, rest, ending, hkey, -⟩
    cases hkey

end Counterexample

end PromptCaches
