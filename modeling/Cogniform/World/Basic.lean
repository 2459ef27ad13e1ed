import Cogniform.Lib.Exec
import Cogniform.World.Transform

/-!
# World configuration and failures

The bounds a world is created with and the ways its operations are refused. An operation index is
the zero-based position of the offending operation in its patch.
-/

namespace Cogniform

structure WorldConfig where
  runtimeLimits : RuntimeLimits
  maxEntities : NonZeroU32
  maxIdempotencyRecords : NonZeroU32
  maxPendingRenderChanges : NonZeroU32
  maxHierarchyDepth : NonZeroU32
  deriving DecidableEq

def WorldConfig.default : WorldConfig where
  runtimeLimits := .default
  maxEntities := .lit 65_536
  maxIdempotencyRecords := .lit 4_096
  maxPendingRenderChanges := .lit 65_536
  maxHierarchyDepth := .lit 256

inductive WorldInvariantErrorKind where
  | entityCountMismatch | missingStorageEntity | stableIdMismatch | hierarchyEntityMissing
  | hierarchyIndexMismatch | hierarchyTopologyInvalid | worldTransformMissing
  | worldTransformOrphan
  deriving DecidableEq

structure WorldInvariantError where
  kind : WorldInvariantErrorKind
  entityId : Option StableEntityId
  deriving DecidableEq

inductive WorldApplyError where
  | invalidPatch (error : ValidationError)
  | baseRevisionMismatch (current supplied : SceneRevision)
  | revisionOverflow
  | idempotencyKeyConflict (idempotencyKey : IdempotencyKey)
      (recordedTransaction suppliedTransaction : TransactionId)
  | idempotencyCapacityExceeded (limit : ℕ)
  | entityCapacityExceeded (operationIndex : ℕ) (entityId : StableEntityId) (limit : ℕ)
  | entityAlreadyExists (operationIndex : ℕ) (entityId : StableEntityId)
  | entityNotFound (operationIndex : ℕ) (entityId : StableEntityId)
  | componentNotFound (operationIndex : ℕ) (entityId : StableEntityId) (component : ComponentKind)
  | hierarchyParentNotFound (entityId parentId : StableEntityId)
  | hierarchyCycle (entityId : StableEntityId)
  | hierarchyDepthExceeded (entityId : StableEntityId) (depth limit : ℕ)
  | transformOverflow (entityId : StableEntityId)
  | transformGenerationOverflow
  | renderExtractionCapacityExceeded (limit : ℕ)
  | renderExtractionGenerationOverflow
  | invariantViolation (error : WorldInvariantError)
  deriving DecidableEq

def WorldApplyError.operationIndex? : WorldApplyError → Option ℕ
  | .entityCapacityExceeded operationIndex _ _ | .entityAlreadyExists operationIndex _
  | .entityNotFound operationIndex _ | .componentNotFound operationIndex _ _ => some operationIndex
  | _ => none

inductive WorldExtractionError where
  | generationOverflow
  | invariantViolation (error : WorldInvariantError)
  | invalidRenderData (error : RenderContractError)
  deriving DecidableEq

end Cogniform
