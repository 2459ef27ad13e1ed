import Cogniform.Protocol.Imagination

/-!
# What compilation takes and returns

The compiler turns an imagination and a view of the scene into a patch, or into the list of what it
could not resolve, with an explanation of every choice. It is pure, so callers are modelled over any
function of that type.
-/

namespace Cogniform

structure CompilationSceneView where
  revision : SceneRevision
  entityIds : Std.ExtTreeSet StableEntityId

def CompilationSceneView.new (revision : SceneRevision) (entityIds : List StableEntityId) :
    CompilationSceneView :=
  ⟨revision, .ofList entityIds⟩

inductive CompilationDecisionCode where
  | generatedEntityId | preferredEntityIdSubstituted | defaultName | defaultTransform
  | defaultMaterial | parentRelationApplied | aboveRelationApplied | rightOfRelationApplied
  deriving DecidableEq

structure CompilationDecision where
  code : CompilationDecisionCode
  entityKey : SceneText
  relationIndex : Option UInt32
  entityId : Option StableEntityId
  deriving DecidableEq

inductive UnresolvedConstraintCode where
  | unknownEntityReference | selfRelation | conflictingRelation | hierarchyCycle | placementCycle
  | requiredEntityMissing | requiredEntityPresent | nonFinitePlacement | unsupportedSpatialRotation
  deriving DecidableEq

structure UnresolvedConstraint where
  code : UnresolvedConstraintCode
  relationIndex : Option UInt32
  constraintIndex : Option UInt32
  entityKey : Option SceneText
  relatedKey : Option SceneText
  entityId : Option StableEntityId
  deriving DecidableEq

structure CompilationResult where
  schemaVersion : SchemaVersion
  imaginationId : ImaginationId
  sceneRevision : SceneRevision
  patch : Option ScenePatch
  decisions : List CompilationDecision
  unresolved : List UnresolvedConstraint
  deriving DecidableEq

inductive CompilationValidationKind where
  | unsupportedSchema | decisionLimitExceeded | unresolvedLimitExceeded | textLimitExceeded
  | decodedSizeLimitExceeded | invalidPatch | invalidOutcome | patchSchemaMismatch
  | patchRevisionMismatch | invalidDecisionShape | invalidUnresolvedShape
  | nonCanonicalDecisionOrder | duplicateDecision | nonCanonicalUnresolvedOrder
  | duplicateUnresolved
  deriving DecidableEq

structure CompilationValidationError where
  kind : CompilationValidationKind
  field : String
  protocolError : Option ValidationError
  deriving DecidableEq

inductive CompilationCodecError where
  | encodedSizeExceeded (actual limit : ℕ)
  | nestingLimitExceeded (actual limit : ℕ)
  | malformedJson (error : JsonError)
  | invalidResult (error : CompilationValidationError)
  | nonCanonicalResult
  | serializationFailed
  | allocationFailed
  deriving DecidableEq

inductive CompileError where
  | invalidImagination (error : ValidationError)
  | sceneRevisionMismatch (requested actual : SceneRevision)
  | entityIdDerivationExhausted (entityIndex attempts : ℕ)
  | invalidNormalizedPatch (error : ValidationError)
  | invalidCompilationResult (error : CompilationValidationError)
  | invalidCompilationEncoding (error : CompilationCodecError)
  deriving DecidableEq

abbrev Compiler := ImaginationEnvelope → CompilationSceneView → Exec CompileError CompilationResult

end Cogniform
