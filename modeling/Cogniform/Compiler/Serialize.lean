import Cogniform.Compiler.Codec
import Cogniform.Protocol.Serialize

/-!
# How compilation results are written
-/

namespace Cogniform

def CompilationDecisionCode.snakeName : CompilationDecisionCode → String
  | .generatedEntityId => "generated_entity_id"
  | .preferredEntityIdSubstituted => "preferred_entity_id_substituted"
  | .defaultName => "default_name"
  | .defaultTransform => "default_transform"
  | .defaultMaterial => "default_material"
  | .parentRelationApplied => "parent_relation_applied"
  | .aboveRelationApplied => "above_relation_applied"
  | .rightOfRelationApplied => "right_of_relation_applied"

def UnresolvedConstraintCode.snakeName : UnresolvedConstraintCode → String
  | .unknownEntityReference => "unknown_entity_reference"
  | .selfRelation => "self_relation"
  | .conflictingRelation => "conflicting_relation"
  | .hierarchyCycle => "hierarchy_cycle"
  | .placementCycle => "placement_cycle"
  | .requiredEntityMissing => "required_entity_missing"
  | .requiredEntityPresent => "required_entity_present"
  | .nonFinitePlacement => "non_finite_placement"
  | .unsupportedSpatialRotation => "unsupported_spatial_rotation"

def CompilationDecision.serialize (decision : CompilationDecision) : Json :=
  .object [("code", .text decision.code.snakeName), ("entity_key", decision.entityKey.serialize),
    ("relation_index", .nullable (fun index => .nat index.toNat) decision.relationIndex),
    ("entity_id", .nullable OpaqueId.serialize decision.entityId)]

def UnresolvedConstraint.serialize (issue : UnresolvedConstraint) : Json :=
  .object [("code", .text issue.code.snakeName),
    ("relation_index", .nullable (fun index => .nat index.toNat) issue.relationIndex),
    ("constraint_index", .nullable (fun index => .nat index.toNat) issue.constraintIndex),
    ("entity_key", .nullable SceneText.serialize issue.entityKey),
    ("related_key", .nullable SceneText.serialize issue.relatedKey),
    ("entity_id", .nullable OpaqueId.serialize issue.entityId)]

def CompilationResult.serialize (floats : FloatText) (result : CompilationResult) : Json :=
  .object [("schema_version", result.schemaVersion.serialize),
    ("imagination_id", result.imaginationId.serialize),
    ("scene_revision", result.sceneRevision.serialize),
    ("patch", .nullable (ScenePatch.serialize floats) result.patch),
    ("decisions", .array (result.decisions.map CompilationDecision.serialize)),
    ("unresolved", .array (result.unresolved.map UnresolvedConstraint.serialize))]

def CompilationResult.serde (floats : FloatText) : SerdeWriter CompilationResult :=
  ⟨fun result => ([(result.serialize floats).write], true), fun _ => .error ⟨.data, 1, 1⟩⟩

end Cogniform
