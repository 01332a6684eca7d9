import DeltaLLM.JsonValues
import DeltaLLM.TableStatements
import DeltaLLM.TransitionRuns

/-! # Route policies

Publishing a route policy archives the published one in one statement and writes the new one in
another. The statements of several operations on one group interleave, and an operation may die
between any two of its own.
-/
namespace RoutePolicies

open JsonValues (JsonObject)
open TableStatements
open TransitionRuns

abbrev Timestamp := ℕ

inductive PolicyStatus where
  | draft
  | published
  | archived
  deriving DecidableEq

/-- A row of `deltallm_routepolicy`. -/
structure RoutePolicyRecord where
  routePolicyId : String
  routeGroupId : String
  version : ℕ
  status : PolicyStatus
  policyJson : JsonObject
  publishedAt : Option Timestamp
  publishedBy : Option String
  createdAt : Timestamp
  updatedAt : Timestamp

/-! ## Statements -/

section Statements

variable (groupId : String) (now : Timestamp) (policies : List RoutePolicyRecord)

def Published (row : RoutePolicyRecord) : Prop :=
  row.routeGroupId = groupId ∧ row.status = .published

instance : DecidablePred (Published groupId) := by
  intro row
  unfold Published
  exact inferInstance

def Draft (row : RoutePolicyRecord) : Prop :=
  row.routeGroupId = groupId ∧ row.status = .draft

instance : DecidablePred (Draft groupId) := by
  intro row
  unfold Draft
  exact inferInstance

/-- `ORDER BY version DESC`. -/
def newestFirst (a b : RoutePolicyRecord) : Prop := b.version ≤ a.version

instance : DecidableRel newestFirst := fun a b =>
    inferInstanceAs (Decidable (b.version ≤ a.version))

/-- `COALESCE(MAX(version), 0) + 1`. -/
def nextVersion : ℕ :=
  ((policies.filter fun row => row.routeGroupId = groupId).map RoutePolicyRecord.version).foldr
    max 0 + 1

/-- The newest policy of the group with a property. -/
def newest (p : RoutePolicyRecord → Prop) [DecidablePred p] : Option RoutePolicyRecord :=
  (selectFirst p newestFirst 1 policies).head?

/-- `get_published_policy`, and the lateral join of `list_runtime_groups`. -/
def getPublishedPolicy : Option RoutePolicyRecord := newest policies (Published groupId)

def latestDraft : Option RoutePolicyRecord := newest policies (Draft groupId)

/-- The source row of a rollback. -/
def policyOfVersion (version : ℕ) : Option RoutePolicyRecord :=
  policies.find? fun row => row.routeGroupId = groupId ∧ row.version = version

def archiveRow (row : RoutePolicyRecord) : RoutePolicyRecord :=
  { row with status := .archived, updatedAt := now }

def archivePublished : List RoutePolicyRecord :=
  updateWhere (Published groupId) (archiveRow now) policies

/-- The unique index on group and version. -/
def VersionFree (version : ℕ) : Prop :=
  ∀ row ∈ policies, row.routeGroupId = groupId → row.version ≠ version

instance (version : ℕ) : Decidable (VersionFree groupId policies version) := by
  unfold VersionFree
  exact inferInstance

def publishedRow (routePolicyId : String) (version : ℕ) (policyJson : JsonObject)
    (publishedBy : Option String) : RoutePolicyRecord :=
  { routePolicyId, routeGroupId := groupId, version, status := .published, policyJson,
    publishedAt := some now, publishedBy, createdAt := now, updatedAt := now }

def draftRow (routePolicyId : String) (version : ℕ) (policyJson : JsonObject) : RoutePolicyRecord :=
  { routePolicyId, routeGroupId := groupId, version, status := .draft, policyJson,
    publishedAt := none, publishedBy := none, createdAt := now, updatedAt := now }

/-- The second UPDATE of `publish_latest_draft`, by primary key alone. -/
def publishById (routePolicyId : String) (publishedBy : Option String) : List RoutePolicyRecord :=
  updateWhere (fun row => row.routePolicyId = routePolicyId)
    (fun row => { row with
      status := .published, publishedAt := some now, publishedBy, updatedAt := now }) policies

/-- The UPDATE of `save_draft_policy`, by primary key alone. -/
def rewriteById (routePolicyId : String) (policyJson : JsonObject) : List RoutePolicyRecord :=
  updateWhere (fun row => row.routePolicyId = routePolicyId)
    (fun row => { row with policyJson, updatedAt := now }) policies

end Statements

/-! ## Operations -/

/-- The calls of the repository on the group. -/
inductive PolicyRequest where
  | publishPolicy (policyJson : JsonObject) (publishedBy : Option String)
  | saveDraftPolicy (policyJson : JsonObject)
  | publishLatestDraft (publishedBy : Option String)
  | rollbackPolicy (targetVersion : ℕ) (publishedBy : Option String)

/-- What a publishing operation writes after its archive. -/
inductive PublishWrite where
  | insert (policyJson : JsonObject) (publishedBy : Option String) (version : ℕ)
  | promote (draftId : String) (publishedBy : Option String)

/-- The next statement of an operation, with the variables that it uses. -/
inductive PolicyPhase where
  | readingVersion (policyJson : JsonObject) (publishedBy : Option String)
  | archiving (write : PublishWrite)
  | writing (write : PublishWrite)
  | findingDraft (policyJson : JsonObject)
  | rewritingDraft (draftId : String) (policyJson : JsonObject)
  | readingDraftVersion (policyJson : JsonObject)
  | insertingDraft (version : ℕ) (policyJson : JsonObject)
  | findingLatest (publishedBy : Option String)
  | findingTarget (targetVersion : ℕ) (publishedBy : Option String)

/-- Every operation resolves the group's id first; the group exists throughout. -/
def PolicyRequest.start : PolicyRequest → PolicyPhase
  | .publishPolicy policyJson publishedBy => .readingVersion policyJson publishedBy
  | .saveDraftPolicy policyJson => .findingDraft policyJson
  | .publishLatestDraft publishedBy => .findingLatest publishedBy
  | .rollbackPolicy targetVersion publishedBy => .findingTarget targetVersion publishedBy

/-- How an operation goes on after a statement. -/
inductive PolicyProgress where
  | next (phase : PolicyPhase)
  | returned (record : Option RoutePolicyRecord)
  | uniqueViolation

def PolicyProgress.phase? : PolicyProgress → Option PolicyPhase
  | .next phase => some phase
  | _ => none

section Steps

variable (groupId : String) (now : Timestamp) (newId : String) (policies : List RoutePolicyRecord)

/-- An INSERT … RETURNING under the unique index. -/
def insertPolicy (row : RoutePolicyRecord) : List RoutePolicyRecord × PolicyProgress :=
  if VersionFree row.routeGroupId policies row.version then
    (policies ++ [row], .returned (some row))
  else (policies, .uniqueViolation)

/-- The table after an UPDATE by primary key, which returns the row. -/
def updated (routePolicyId : String) (policies : List RoutePolicyRecord) :
    List RoutePolicyRecord × PolicyProgress :=
  (policies, .returned (rowWithKey RoutePolicyRecord.routePolicyId routePolicyId policies))

/-- One statement of an operation; an inserted row gets the new id. -/
def runStatement : PolicyPhase → List RoutePolicyRecord × PolicyProgress
  | .readingVersion policyJson publishedBy =>
      (policies, .next (.archiving (.insert policyJson publishedBy (nextVersion groupId policies))))
  | .archiving write => (archivePublished groupId now policies, .next (.writing write))
  | .writing (.insert policyJson publishedBy version) =>
      insertPolicy policies (publishedRow groupId now newId version policyJson publishedBy)
  | .writing (.promote draftId publishedBy) =>
      updated draftId (publishById now policies draftId publishedBy)
  | .findingDraft policyJson => match latestDraft groupId policies with
      | some draft => (policies, .next (.rewritingDraft draft.routePolicyId policyJson))
      | none => (policies, .next (.readingDraftVersion policyJson))
  | .rewritingDraft draftId policyJson =>
      updated draftId (rewriteById now policies draftId policyJson)
  | .readingDraftVersion policyJson =>
      (policies, .next (.insertingDraft (nextVersion groupId policies) policyJson))
  | .insertingDraft version policyJson =>
      insertPolicy policies (draftRow groupId now newId version policyJson)
  | .findingLatest publishedBy => match latestDraft groupId policies with
      | some draft => (policies, .next (.archiving (.promote draft.routePolicyId publishedBy)))
      | none => (policies, .returned none)
  | .findingTarget targetVersion publishedBy =>
      match policyOfVersion groupId policies targetVersion with
      | some source =>
          if source.policyJson = [] then (policies, .returned none)
          else (policies, .next (.readingVersion source.policyJson publishedBy))
      | none => (policies, .returned none)

end Steps

/-! ## The system -/

/-- What somebody saw as the group's policy, once it had one or before. -/
structure PolicyObservation where
  hadPublished : Bool
  found : Option RoutePolicyRecord

/-- A row that a draft save rewrote, and its new content. -/
structure DraftSave where
  before : RoutePolicyRecord
  policyJson : JsonObject

/-- `hadPublished`, `observations` and `draftSaves` record what happened. -/
structure PolicyState where
  policies : List RoutePolicyRecord
  operations : ℕ → Option PolicyPhase
  hadPublished : Bool
  observations : List PolicyObservation
  draftSaves : List DraftSave

inductive PolicyEvent where
  | start (pid : ℕ) (request : PolicyRequest)
  | statement (pid : ℕ) (now : Timestamp) (newId : String)
  | crash (pid : ℕ)
  | observe

section System

variable (groupId : String) (s : PolicyState)

/-- The rows that a statement rewrites as a draft. -/
def savedDrafts (policies : List RoutePolicyRecord) : PolicyPhase → List DraftSave
  | .rewritingDraft draftId policyJson =>
      (policies.filter fun row => row.routePolicyId = draftId).map fun row => ⟨row, policyJson⟩
  | _ => []

def PolicyState.run (pid : ℕ) (now : Timestamp) (newId : String) (phase : PolicyPhase) :
    PolicyState :=
  let result := runStatement groupId now newId s.policies phase
  { policies := result.1
    operations := Function.update s.operations pid result.2.phase?
    hadPublished := s.hadPublished || result.1.any fun row => Published groupId row
    observations := s.observations
    draftSaves := s.draftSaves ++ savedDrafts s.policies phase }

def policyEnabled : PolicyEvent → Prop
  | .start pid _ => s.operations pid = none
  | .statement pid _ newId => s.operations pid ≠ none ∧
      ∀ row ∈ s.policies, row.routePolicyId ≠ newId
  | .crash pid => s.operations pid ≠ none
  | .observe => True

def policyNext : PolicyEvent → PolicyState
  | .start pid request =>
      { s with operations := Function.update s.operations pid (some request.start) }
  | .statement pid now newId => match s.operations pid with
      | some phase => s.run groupId pid now newId phase
      | none => s
  | .crash pid => { s with operations := Function.update s.operations pid none }
  | .observe =>
      { s with observations := s.observations ++
          [⟨s.hadPublished, getPublishedPolicy groupId s.policies⟩] }

/-- The policies of the group that are published. -/
def publishedPolicies : List RoutePolicyRecord := s.policies.filter fun row => Published groupId row

/-- Any table with primary keys and at most one published policy of the group. -/
def policySystem : TransitionSystem PolicyState PolicyEvent where
  initial s := (s.policies.map RoutePolicyRecord.routePolicyId).Nodup ∧
    (publishedPolicies groupId s).length ≤ 1 ∧ s.operations = (fun _ => none) ∧
    (s.hadPublished = true → publishedPolicies groupId s ≠ []) ∧ s.observations = [] ∧
    s.draftSaves = []
  enabled := policyEnabled
  next := policyNext groupId

end System

end RoutePolicies
