import Cogniform.Protocol.Codec

/-!
# Imaginations

The semantic request that is compiled into one patch: primitive entities under local keys, relations
between them and preconditions on the scene. Validation bounds the request and, from the counts
alone, the patch that compiling it will produce.
-/

namespace Cogniform

structure ImaginationBudget where
  maxEntities : NonZeroU32
  maxRelations : NonZeroU32
  maxConstraints : NonZeroU32
  patch : PatchBudget
  deriving DecidableEq

def ImaginationBudget.default : ImaginationBudget where
  maxEntities := .lit 64
  maxRelations := .lit 128
  maxConstraints := .lit 64
  patch := .default

structure ImaginedEntity where
  key : SceneText
  preferredId : Option StableEntityId
  name : Option SceneText
  primitive : PrimitiveComponent
  transform : Option LocalTransform
  material : Option MaterialComponent
  deriving DecidableEq

inductive ImaginationRelation where
  | parent (child parent : SceneText)
  | above (subject anchor : SceneText) (clearance : NonNegativeF32)
  | rightOf (subject anchor : SceneText) (gap : NonNegativeF32)
  deriving DecidableEq

inductive ImaginationConstraint where
  | entityExists (entityId : StableEntityId)
  | entityAbsent (entityId : StableEntityId)
  deriving DecidableEq

structure ImaginationEnvelope where
  schemaVersion : SchemaVersion
  imaginationId : ImaginationId
  transactionId : TransactionId
  idempotencyKey : IdempotencyKey
  baseRevision : SceneRevision
  delivery : DeliverySemantic
  seed : UInt64
  declaredBudget : ImaginationBudget
  entities : List ImaginedEntity
  relations : List ImaginationRelation
  constraints : List ImaginationConstraint
  deriving DecidableEq

def textLen (text : SceneText) : ℕ := count64 text.lenBytes

namespace ImaginationRelation

def textBytes : ImaginationRelation → ℕ
  | .parent first second | .above first second _ | .rightOf first second _ =>
    satAdd (textLen first) (textLen second)

def logicalSizeBytes (relation : ImaginationRelation) : ℕ :=
  let scalar := match relation with
    | .parent _ _ => 0
    | .above _ _ _ | .rightOf _ _ _ => 4
  satAdd (satAdd (satAdd 1 8) relation.textBytes) scalar

def addsPatchOperation : ImaginationRelation → Bool
  | .parent _ _ => true
  | .above _ _ _ | .rightOf _ _ _ => false

end ImaginationRelation

namespace ImaginationEnvelope

def reparents (imagination : ImaginationEnvelope) : ℕ :=
  count (imagination.relations.filter ImaginationRelation.addsPatchOperation).length

def normalizedPatchSizeBytes (imagination : ImaginationEnvelope) : ℕ :=
  let patchFixedBytes := 2 + 16 + 16 + 8 + 1 + 24 + 4
  let createFixedBytes := 1 + 16 + 4
  let transformComponentBytes := 1 + 10 * 4
  let primitiveComponentBytes := 1 + 1 + 3 * 4
  let materialComponentBytes := 1 + 6 * 4
  let reparentOperationBytes := 1 + 16 + 1 + 16
  let creates := imagination.entities.foldl (fun total entity =>
    satAdd (satAdd (satAdd (satAdd (satAdd total createFixedBytes)
      (1 + 4 + textLen (entity.name.getD entity.key))) transformComponentBytes)
      primitiveComponentBytes) materialComponentBytes) 0
  satAdd (satAdd (satAdd patchFixedBytes imagination.delivery.logicalSizeBytes) creates)
    (satMul imagination.reparents reparentOperationBytes)

def logicalSizeBytes (imagination : ImaginationEnvelope) : ℕ :=
  let entities := imagination.entities.foldl (fun total entity =>
    satAdd (satAdd (satAdd (satAdd (satAdd (satAdd (satAdd total 16) (textLen entity.key))
      (entity.name.elim 0 textLen)) (1 + entity.preferredId.isSome.toNat * 16)) (1 + 3 * 4))
      (1 + entity.transform.isSome.toNat * (10 * 4)))
      (1 + entity.material.isSome.toNat * (6 * 4))) 0
  let relations := imagination.relations.foldl (fun total relation =>
    satAdd total relation.logicalSizeBytes) 0
  satAdd (satAdd (satAdd (satAdd (satAdd (satAdd (satAdd (satAdd 2 (16 * 3)) (8 * 2))
    imagination.delivery.logicalSizeBytes) 40) (4 * 3)) entities) relations)
    (count imagination.constraints.length * 17)

end ImaginationEnvelope

/-! ### Validation -/

def validatePatchBudget (budget : PatchBudget) (limits : RuntimeLimits) :
    Except ValidationError Unit :=
  if limits.maxOperations.get < budget.maxOperations.get then
    .error ⟨.operationLimitExceeded, "declared_budget.patch.max_operations"⟩
  else if limits.maxComponents.get < budget.maxComponents.get then
    .error ⟨.componentLimitExceeded, "declared_budget.patch.max_components"⟩
  else if limits.maxTextBytes.get < budget.maxTextBytes.get then
    .error ⟨.textLimitExceeded, "declared_budget.patch.max_text_bytes"⟩
  else if limits.maxDecodedBytes.get < budget.maxDecodedBytes.get then
    .error ⟨.decodedSizeLimitExceeded, "declared_budget.patch.max_decoded_bytes"⟩
  else .ok ()

def exceedsCollection (length : ℕ) (declared limit : NonZeroU32) : Prop :=
  declared.get < count length ∨ limit.get < count length ∨ limit.get < declared.get

instance (length : ℕ) (declared limit : NonZeroU32) :
    Decidable (exceedsCollection length declared limit) :=
  inferInstanceAs (Decidable (_ ∨ _ ∨ _))

def ImaginedEntity.validate (entity : ImaginedEntity) : Except ValidationError Unit := do
  (ComponentValue.primitive entity.primitive).validate
  entity.transform.elim (.ok ()) fun transform => (ComponentValue.localTransform transform).validate
  entity.material.elim (.ok ()) fun material => (ComponentValue.material material).validate

/-- Validate entities in order. `keys` are those already seen; the text of the request and that of
the patch are accumulated. -/
def validateEntities : List ImaginedEntity → List SceneText → ℕ → ℕ →
    Except ValidationError (ℕ × ℕ)
  | [], _, textBytes, outputTextBytes => .ok (textBytes, outputTextBytes)
  | entity :: entities, keys, textBytes, outputTextBytes =>
    if entity.key ∈ keys then .error ⟨.duplicateImaginationEntity, "entities[].key"⟩
    else
      match entity.validate with
      | .error error => .error error
      | .ok () =>
        validateEntities entities (entity.key :: keys)
          (satAdd (satAdd textBytes (textLen entity.key)) (entity.name.elim 0 textLen))
          (satAdd outputTextBytes (textLen (entity.name.getD entity.key)))

namespace ImaginationEnvelope

variable (imagination : ImaginationEnvelope) (limits : RuntimeLimits)

def validateCollectionLimits : Except ValidationError Unit :=
  let budget := imagination.declaredBudget
  if count imagination.entities.length = 0 then .error ⟨.emptyImagination, "entities"⟩
  else if exceedsCollection imagination.entities.length budget.maxEntities
      limits.maxImaginationEntities then
    .error ⟨.imaginationEntityLimitExceeded, "entities"⟩
  else if exceedsCollection imagination.relations.length budget.maxRelations
      limits.maxImaginationRelations then
    .error ⟨.imaginationRelationLimitExceeded, "relations"⟩
  else if exceedsCollection imagination.constraints.length budget.maxConstraints
      limits.maxImaginationConstraints then
    .error ⟨.imaginationConstraintLimitExceeded, "constraints"⟩
  else .ok ()

def validateEntitiesAndOutput : Except ValidationError Unit := do
  let budget := imagination.declaredBudget.patch
  let delivered := count64 imagination.delivery.textBytes
  let (entityText, outputTextBytes) ← validateEntities imagination.entities [] delivered delivered
  let textBytes := imagination.relations.foldl
    (fun total relation => satAdd total relation.textBytes) entityText
  let outputOperations := count (count imagination.entities.length + imagination.reparents)
  let outputComponents := count (count imagination.entities.length * 4)
  if limits.maxTextBytes.get < textBytes then .error ⟨.textLimitExceeded, "imagination.text"⟩
  else if budget.maxTextBytes.get < outputTextBytes then
    .error ⟨.textLimitExceeded, "declared_budget.patch.max_text_bytes"⟩
  else if budget.maxOperations.get < outputOperations
      ∨ limits.maxOperations.get < outputOperations then
    .error ⟨.operationLimitExceeded, "declared_budget.patch.max_operations"⟩
  else if limits.maxComponentsPerEntity.get < 4 ∨ budget.maxComponents.get < outputComponents
      ∨ limits.maxComponents.get < outputComponents then
    .error ⟨.componentLimitExceeded, "declared_budget.patch.max_components"⟩
  else if budget.maxDecodedBytes.get < imagination.normalizedPatchSizeBytes then
    .error ⟨.decodedSizeLimitExceeded, "declared_budget.patch.max_decoded_bytes"⟩
  else .ok ()

def validate : Except ValidationError Unit := do
  validateSchema imagination.schemaVersion
  imagination.validateCollectionLimits limits
  validatePatchBudget imagination.declaredBudget.patch limits
  imagination.validateEntitiesAndOutput limits
  if limits.maxDecodedBytes.get < imagination.logicalSizeBytes then
    .error ⟨.decodedSizeLimitExceeded, "imagination"⟩
  else .ok ()

end ImaginationEnvelope

def ImaginationEnvelope.toCanonicalJson (serde : Serde ImaginationEnvelope)
    (imagination : ImaginationEnvelope) (limits : RuntimeLimits) :
    Except CodecError (List UInt8) :=
  encode serde ImaginationEnvelope.validate imagination limits

end Cogniform
