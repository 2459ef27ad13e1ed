import Cogniform.Protocol.Message

/-!
# Scene queries

A query names an exact revision and filters by identity and component kind; its result lists the
matching entities in strictly increasing order of identity, each with its components in strictly
increasing order of kind.
-/

namespace Cogniform

structure SceneQuery where
  schemaVersion : SchemaVersion
  sceneRevision : SceneRevision
  entityIds : List StableEntityId
  componentKinds : List ComponentKind
  limit : NonZeroU32
  deriving DecidableEq

def allUnique {α : Type} [DecidableEq α] (values : List α) : Bool := decide values.Nodup

namespace SceneQuery

def logicalSizeBytes (query : SceneQuery) : ℕ :=
  satAdd (satAdd (satAdd (satAdd (satAdd (satAdd 2 8) 4) (count query.entityIds.length * 16)) 4)
    (count query.componentKinds.length)) 4

def validate (query : SceneQuery) (limits : RuntimeLimits) : Except ValidationError Unit := do
  validateSchema query.schemaVersion
  if limits.maxQueryEntities.get < query.limit.get
      ∨ query.limit.get < count query.entityIds.length
      ∨ limits.maxQueryEntities.get < count query.entityIds.length then
    .error ⟨.queryEntityLimitExceeded, "query.entity_ids"⟩
  else if !allUnique query.entityIds || !allUnique query.componentKinds then
    .error ⟨.duplicateQueryFilter, "query.filters"⟩
  else if limits.maxDecodedBytes.get < query.logicalSizeBytes then
    .error ⟨.decodedSizeLimitExceeded, "query"⟩
  else .ok ()

end SceneQuery

structure SceneEntityView where
  entityId : StableEntityId
  parentId : Option StableEntityId
  components : List ComponentValue
  deriving DecidableEq

structure SceneQueryResult where
  schemaVersion : SchemaVersion
  sceneRevision : SceneRevision
  entities : List SceneEntityView
  deriving DecidableEq

/-- Check the components of one entity in order; `previous` is the kind before. The numbers of
components and of text bytes are accumulated. -/
def validateQueriedComponents : List ComponentValue → Option ComponentKind → ℕ → ℕ →
    Except ValidationError (ℕ × ℕ)
  | [], _, componentCount, textBytes => .ok (componentCount, textBytes)
  | component :: components, previous, componentCount, textBytes =>
    if previous.any fun kind => component.kind.ctorIdx ≤ kind.ctorIdx then
      .error ⟨.nonCanonicalQueryResult, "query_result.entities[].components"⟩
    else
      match component.validate with
      | .error error => .error error
      | .ok () =>
        validateQueriedComponents components (some component.kind) (satAdd componentCount 1)
          (satAdd textBytes (count64 component.textBytes))

/-- Check entities in order; `previous` is the identity before. -/
def validateQueriedEntities (limits : RuntimeLimits) : List SceneEntityView →
    Option StableEntityId → ℕ → ℕ → Except ValidationError (ℕ × ℕ)
  | [], _, componentCount, textBytes => .ok (componentCount, textBytes)
  | entity :: entities, previous, componentCount, textBytes => do
    if previous.any fun id => entity.entityId.get ≤ id.get then
      .error ⟨.nonCanonicalQueryResult, "query_result.entities"⟩
    else if limits.maxComponentsPerEntity.get < count entity.components.length then
      .error ⟨.componentLimitExceeded, "query_result.entities[].components"⟩
    else
      let (componentCount, textBytes) ←
        validateQueriedComponents entity.components none componentCount textBytes
      validateQueriedEntities limits entities (some entity.entityId) componentCount textBytes

namespace SceneQueryResult

def logicalSizeBytes (result : SceneQueryResult) : ℕ :=
  result.entities.foldl (fun total entity =>
    entity.components.foldl (fun total component => satAdd total component.logicalSizeBytes)
      (satAdd (satAdd (satAdd total 16) (1 + entity.parentId.isSome.toNat * 16)) 4)) (2 + 8 + 4)

def validate (result : SceneQueryResult) (limits : RuntimeLimits) :
    Except ValidationError Unit := do
  validateSchema result.schemaVersion
  if limits.maxQueryEntities.get < count result.entities.length then
    .error ⟨.queryEntityLimitExceeded, "query_result.entities"⟩
  else
    let (componentCount, textBytes) ← validateQueriedEntities limits result.entities none 0 0
    if limits.maxComponents.get < componentCount then
      .error ⟨.componentLimitExceeded, "query_result.entities[].components"⟩
    else if limits.maxTextBytes.get < textBytes then
      .error ⟨.textLimitExceeded, "query_result.entities[].components"⟩
    else if limits.maxDecodedBytes.get < result.logicalSizeBytes then
      .error ⟨.decodedSizeLimitExceeded, "query_result"⟩
    else .ok ()

end SceneQueryResult

end Cogniform
