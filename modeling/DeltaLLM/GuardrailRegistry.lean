import DeltaLLM.RoutingConfiguration

/-! # The registry of active guardrails

Guardrails by name, and for each mode the list of those that run in it. Loading registers one
guardrail after the other and removes none, so what is active depends on everything loaded before.
-/
namespace GuardrailRegistry

open JsonValues PythonText Dictionaries RoutingConfiguration

inductive GuardrailMode where
  | preCall | postCall
  deriving DecidableEq, Repr

inductive GuardrailAction where
  | block | log
  deriving DecidableEq, Repr

structure Guardrail where
  name : String
  mode : GuardrailMode
  defaultOn : Bool
  action : GuardrailAction
  classPath : String
  params : JsonObject

structure Registry where
  guardrails : Dict String Guardrail
  byMode : GuardrailMode → List Guardrail

def Registry.empty : Registry := ⟨[], fun _ => []⟩

def Registry.unregister (r : Registry) (name : String) : Registry :=
  match r.guardrails.get? name with
  | some existing =>
      { guardrails := r.guardrails.pop name
        byMode := Function.update r.byMode existing.mode
          ((r.byMode existing.mode).filter (·.name ≠ name)) }
  | none => r

def Registry.register (r : Registry) (guardrail : Guardrail) : Registry :=
  let cleared := if (r.guardrails.get? guardrail.name).isSome then r.unregister guardrail.name
    else r
  { guardrails := cleared.guardrails.set guardrail.name guardrail
    byMode := Function.update cleared.byMode guardrail.mode
      (cleared.byMode guardrail.mode ++ [guardrail]) }

/-- `GuardrailMode(params.pop("mode", GuardrailMode.PRE_CALL))`. -/
def modeOf (params : JsonObject) : Option GuardrailMode :=
  match params.get? "mode" with
  | none => some .preCall
  | some (.str "pre_call") => some .preCall
  | some (.str "post_call") => some .postCall
  | some _ => none

/-- `GuardrailAction(params.pop("default_action", GuardrailAction.BLOCK))`. -/
def actionOf (params : JsonObject) : Option GuardrailAction :=
  match params.get? "default_action" with
  | none => some .block
  | some (.str "block") => some .block
  | some (.str "log") => some .log
  | some _ => none

/-- `params.pop("guardrail", None)`, which must be a class path. -/
def classPathOf (params : JsonObject) : Option String :=
  match params.get "guardrail" with
  | .str path => if path = "" then none else some path
  | _ => none

/-- The guardrail that one entry of the config asks for; none where loading it raises. -/
def buildGuardrail (env : Environment) (item : GuardrailConfig) : Option Guardrail := do
  let params := item.deltallmParams
  let classPath ← classPathOf params
  let mode ← modeOf params
  let action ← actionOf params
  let defaultOn := ((params.get? "default_on").getD (.bool true)).truthy
  let rest := (((params.pop "guardrail").pop "mode").pop "default_action").pop "default_on"
  if env.instantiates classPath item.guardrailName rest then
    return ⟨item.guardrailName, mode, defaultOn, action, classPath, rest⟩
  else none

/-- The guardrails that a load registers: those before the first entry that raises. -/
def loadable (env : Environment) : List GuardrailConfig → List Guardrail
  | [] => []
  | item :: items =>
      match buildGuardrail env item with
      | some guardrail => guardrail :: loadable env items
      | none => []

/-- `load_from_config`: the registry afterwards and whether it came to the end of the list. -/
def Registry.loadFromConfig (env : Environment) (r : Registry) :
    List GuardrailConfig → Registry × Bool
  | [] => (r, true)
  | item :: items =>
      match buildGuardrail env item with
      | some guardrail => (r.register guardrail).loadFromConfig env items
      | none => (r, false)

variable {env : Environment} {r r' : Registry} {guardrail : Guardrail}

theorem loadFromConfig_fst (items : List GuardrailConfig) :
    (r.loadFromConfig env items).1 = (loadable env items).foldl Registry.register r := by
  induction items generalizing r with
  | nil => rfl
  | cons item items ih =>
      simp only [Registry.loadFromConfig, loadable]
      cases buildGuardrail env item with
      | none => rfl
      | some guardrail => exact ih

theorem buildGuardrail_name {item : GuardrailConfig}
    (h : buildGuardrail env item = some guardrail) :
    guardrail.name = item.guardrailName := by
  simp only [buildGuardrail, Option.bind_eq_bind, Option.bind_eq_some_iff] at h
  obtain ⟨_, _, _, _, _, _, h⟩ := h
  split at h
  next => exact (Option.some.inj h) ▸ rfl
  next => cases h

/-- A load that comes to the end registers every name of the list. -/
theorem loadable_names {items : List GuardrailConfig}
    (h : (r.loadFromConfig env items).2 = true) :
    (loadable env items).map (·.name) = items.map (·.guardrailName) := by
  induction items generalizing r with
  | nil => rfl
  | cons item items ih =>
      simp only [Registry.loadFromConfig] at h
      simp only [loadable, List.map_cons]
      cases hbuild : buildGuardrail env item with
      | none => simp [hbuild] at h
      | some guardrail =>
          simp only [hbuild] at h
          rw [List.map_cons, ih h, buildGuardrail_name hbuild]

/-! ## What is registered -/

/-- The lists of the modes hold what is registered, and nothing else. -/
def Registry.Coherent (r : Registry) : Prop :=
  ∀ mode guardrail, guardrail ∈ r.byMode mode ↔
    r.guardrails.get? guardrail.name = some guardrail ∧ guardrail.mode = mode

theorem empty_coherent : Registry.empty.Coherent := by
  intro mode guardrail
  simp [Registry.empty, Dict.get?]

theorem unregister_get? (name key : String) :
    (r.unregister name).guardrails.get? key =
      if name = key then none else r.guardrails.get? key := by
  unfold Registry.unregister
  cases hget : r.guardrails.get? name with
  | none =>
      by_cases hkey : name = key
      · subst hkey
        simpa using hget
      · simp [hkey]
  | some existing => exact Dict.get?_pop ..

theorem unregister_coherent (h : r.Coherent) (name : String) : (r.unregister name).Coherent := by
  intro mode guardrail
  rw [unregister_get?]
  unfold Registry.unregister
  cases hget : r.guardrails.get? name with
  | none =>
      by_cases hname : name = guardrail.name
      · have hmem := h mode guardrail
        rw [← hname, hget] at hmem
        simpa [hname] using hmem
      · simpa [hname] using h mode guardrail
  | some existing =>
      by_cases hmode : mode = existing.mode
      · subst hmode
        simp only [Function.update_self, List.mem_filter, h existing.mode guardrail]
        by_cases hname : name = guardrail.name
        · simp [hname]
        · simp [hname, Ne.symm hname]
      · simp only [Function.update_of_ne hmode, h mode guardrail]
        by_cases hname : name = guardrail.name
        · subst hname
          rw [hget]
          simp only [if_pos, Option.some.injEq, reduceCtorEq, false_and, iff_false, not_and]
          rintro rfl
          exact Ne.symm hmode
        · simp [hname]

theorem register_get? (key : String) :
    (r.register guardrail).guardrails.get? key =
      if guardrail.name = key then some guardrail else r.guardrails.get? key := by
  unfold Registry.register
  simp only [Dict.get?_set]
  by_cases hkey : guardrail.name = key
  · simp [hkey]
  · rw [if_neg hkey, if_neg hkey]
    split
    · rw [unregister_get?, if_neg hkey]
    · rfl

theorem register_coherent (h : r.Coherent) : (r.register guardrail).Coherent := by
  intro mode other
  rw [register_get?]
  -- Before the new guardrail is appended no list has one of its name.
  have hcleared : ∃ cleared : Registry, cleared.Coherent ∧
      cleared.guardrails.get? guardrail.name = none ∧
      (∀ key, guardrail.name ≠ key → cleared.guardrails.get? key = r.guardrails.get? key) ∧
      (r.register guardrail).byMode = Function.update cleared.byMode guardrail.mode
        (cleared.byMode guardrail.mode ++ [guardrail]) := by
    by_cases hname : (r.guardrails.get? guardrail.name).isSome
    · refine ⟨r.unregister guardrail.name, unregister_coherent h _, ?_, ?_, ?_⟩
      · simp [unregister_get?]
      · intro key hkey
        rw [unregister_get?, if_neg hkey]
      · simp only [Registry.register, if_pos hname]
    · refine ⟨r, h, by simpa using hname, fun _ _ => rfl, ?_⟩
      simp only [Registry.register, if_neg hname]
  obtain ⟨cleared, hcoherent, hnone, hkept, hbyMode⟩ := hcleared
  rw [hbyMode]
  have hother := hcoherent mode other
  by_cases hname : guardrail.name = other.name
  · rw [← hname, hnone] at hother
    rw [if_pos hname]
    by_cases hmode : mode = guardrail.mode
    · subst hmode
      simp only [Function.update_self, List.mem_append, List.mem_singleton]
      constructor
      · rintro (hmem | rfl)
        · simpa using hother.mp hmem
        · simp
      · rintro ⟨heq, -⟩
        exact .inr (Option.some.inj heq).symm
    · simp only [Function.update_of_ne hmode]
      constructor
      · intro hmem
        simpa using hother.mp hmem
      · rintro ⟨heq, rfl⟩
        exact absurd (congrArg Guardrail.mode (Option.some.inj heq)).symm hmode
  · rw [hkept _ hname] at hother
    rw [if_neg hname]
    by_cases hmode : mode = guardrail.mode
    · subst hmode
      simp only [Function.update_self, List.mem_append, List.mem_singleton]
      constructor
      · rintro (hmem | rfl)
        · exact hother.mp hmem
        · exact absurd rfl hname
      · exact fun hget => .inl (hother.mpr hget)
    · simpa only [Function.update_of_ne hmode] using hother

theorem registered_coherent (h : r.Coherent) (guardrails : List Guardrail) :
    (guardrails.foldl Registry.register r).Coherent := by
  induction guardrails generalizing r with
  | nil => exact h
  | cons guardrail guardrails ih => exact ih (register_coherent h)

/-- Names outside of the list keep their answer. -/
theorem registered_get?_of_notMem {guardrails : List Guardrail} {name : String}
    (h : name ∉ guardrails.map (·.name)) :
    (guardrails.foldl Registry.register r).guardrails.get? name = r.guardrails.get? name := by
  induction guardrails generalizing r with
  | nil => rfl
  | cons guardrail guardrails ih =>
      rw [List.map_cons, List.mem_cons, not_or] at h
      rw [List.foldl_cons, ih h.2, register_get?, if_neg (Ne.symm h.1)]

variable (r r') in
/-- A name of the list is registered, whatever was before, with the same guardrail. -/
theorem registered_get?_of_mem {guardrails : List Guardrail} {name : String}
    (h : name ∈ guardrails.map (·.name)) :
    ((guardrails.foldl Registry.register r).guardrails.get? name).isSome ∧
      (guardrails.foldl Registry.register r).guardrails.get? name =
        (guardrails.foldl Registry.register r').guardrails.get? name := by
  induction guardrails generalizing r r' with
  | nil => cases h
  | cons guardrail guardrails ih =>
      rw [List.foldl_cons, List.foldl_cons]
      by_cases hlater : name ∈ guardrails.map (·.name)
      · exact ih _ _ hlater
      · have hname : guardrail.name = name := by
          rcases List.mem_cons.mp h with rfl | hmem
          · rfl
          · exact absurd hmem hlater
        rw [registered_get?_of_notMem hlater, registered_get?_of_notMem hlater, register_get?,
          register_get?, if_pos hname, if_pos hname]
        exact ⟨rfl, rfl⟩

/-- The two registries have the same active guardrails, by name and in each mode. -/
def SameActive (r r' : Registry) : Prop :=
  Dict.Same r.guardrails r'.guardrails ∧
    ∀ mode guardrail, guardrail ∈ r.byMode mode ↔ guardrail ∈ r'.byMode mode

theorem sameActive_iff (h : r.Coherent) (h' : r'.Coherent) :
    SameActive r r' ↔ Dict.Same r.guardrails r'.guardrails := by
  constructor
  · exact And.left
  · intro hsame
    refine ⟨hsame, fun mode guardrail => ?_⟩
    rw [h, h', hsame guardrail.name]

/-- What was registered earlier stays active unless a later guardrail takes its name. -/
theorem sameActive_registered_iff (earlier later : List Guardrail) :
    SameActive ((earlier ++ later).foldl Registry.register .empty)
        (later.foldl Registry.register .empty) ↔
      ∀ guardrail ∈ earlier, guardrail.name ∈ later.map (·.name) := by
  rw [sameActive_iff (registered_coherent empty_coherent _) (registered_coherent empty_coherent _)]
  constructor
  · intro hsame guardrail hmem
    by_contra hname
    have hkept : guardrail.name ∈ (earlier ++ later).map (·.name) :=
      List.mem_map_of_mem (List.mem_append_left later hmem)
    have hactive := (registered_get?_of_mem .empty .empty hkept).1
    rw [hsame, registered_get?_of_notMem hname] at hactive
    cases hactive
  · intro hnames key
    by_cases hkey : key ∈ later.map (·.name)
    · rw [List.foldl_append]
      exact (registered_get?_of_mem _ _ hkey).2
    · rw [registered_get?_of_notMem hkey, registered_get?_of_notMem]
      intro hmem
      rw [List.map_append, List.mem_append] at hmem
      rcases hmem with hearlier | hlater
      · obtain ⟨guardrail, hguardrail, rfl⟩ := List.mem_map.mp hearlier
        exact hkey (hnames guardrail hguardrail)
      · exact hkey hlater

end GuardrailRegistry
