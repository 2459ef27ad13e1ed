import Cogniform.Protocol.Value

/-!
# Scene components

The seven component types of the version-one scene contract, the tagged value a message carries
and the tag itself.

Floating-point fields are validated patterns, so the derived comparison of a component, which in
the source goes through `PartialEq` for `f32`, is equality.
-/

namespace Cogniform

/-- The `f32` nearest to pi, `core::f32::consts::PI`. -/
def pi32 : F32 := ⟨false, 0x40490fdb, by decide⟩

structure Vec3 where
  x : FiniteF32
  y : FiniteF32
  z : FiniteF32
  deriving BEq, ReflBEq, LawfulBEq, DecidableEq

structure PositiveVec3 where
  x : PositiveF32
  y : PositiveF32
  z : PositiveF32
  deriving BEq, ReflBEq, LawfulBEq, DecidableEq

structure Quaternion where
  x : FiniteF32
  y : FiniteF32
  z : FiniteF32
  w : FiniteF32
  deriving BEq, ReflBEq, LawfulBEq, DecidableEq

def Quaternion.isNonZero (q : Quaternion) : Bool :=
  let square (value : FiniteF32) : F64 := value.get.convert.mul value.get.convert
  Binary.zero.flt ([q.x, q.y, q.z, q.w].foldl (fun sum value => sum.add (square value)) Binary.zero)

structure ColorRgb where
  r : UnitF32
  g : UnitF32
  b : UnitF32
  deriving BEq, ReflBEq, LawfulBEq, DecidableEq

structure ColorRgba where
  r : UnitF32
  g : UnitF32
  b : UnitF32
  a : UnitF32
  deriving BEq, ReflBEq, LawfulBEq, DecidableEq

structure NameComponent where
  value : SceneText
  deriving DecidableEq

structure LocalTransform where
  translation : Vec3
  rotation : Quaternion
  scale : PositiveVec3
  deriving BEq, ReflBEq, LawfulBEq, DecidableEq

inductive PrimitiveShape where
  | cuboid | plane | sphere
  deriving DecidableEq

structure PrimitiveComponent where
  shape : PrimitiveShape
  dimensions : PositiveVec3
  deriving DecidableEq

structure MaterialComponent where
  baseColor : ColorRgba
  metallic : UnitF32
  roughness : UnitF32
  deriving DecidableEq

structure CameraComponent where
  verticalFovRadians : PositiveF32
  near : PositiveF32
  far : PositiveF32
  deriving DecidableEq

inductive LightKind where
  | directional | point
  deriving DecidableEq

structure LightComponent where
  kind : LightKind
  color : ColorRgb
  intensity : NonNegativeF32
  deriving DecidableEq

abbrev Digest := Vector UInt8 32

structure AssetMeshComponent where
  contentHash : Digest
  meshIndex : UInt32
  deriving DecidableEq

inductive ComponentKind where
  | name | localTransform | primitive | material | camera | light | assetMesh
  deriving DecidableEq

inductive ComponentValue where
  | name (value : NameComponent)
  | localTransform (value : LocalTransform)
  | primitive (value : PrimitiveComponent)
  | material (value : MaterialComponent)
  | camera (value : CameraComponent)
  | light (value : LightComponent)
  | assetMesh (value : AssetMeshComponent)
  deriving DecidableEq

inductive DiagnosticCode where
  | unsupportedSchema | emptyPatch | operationLimitExceeded | componentLimitExceeded
  | textLimitExceeded | decodedSizeLimitExceeded | diagnosticLimitExceeded | queueCapacityExceeded
  | emptyImagination | imaginationEntityLimitExceeded | imaginationRelationLimitExceeded
  | imaginationConstraintLimitExceeded | duplicateImaginationEntity | duplicateQueryFilter
  | queryEntityLimitExceeded | nonCanonicalQueryResult | invalidComponentValue
  | duplicateComponent | selfParent | invalidReceiptRevision | invalidReceiptOperationCount
  | invalidObservationDimensions | observationPixelLimitExceeded | invalidObservationStaleness
  deriving DecidableEq

structure ValidationError where
  code : DiagnosticCode
  field : String
  deriving DecidableEq

namespace ComponentValue

def kind : ComponentValue → ComponentKind
  | .name _ => .name
  | .localTransform _ => .localTransform
  | .primitive _ => .primitive
  | .material _ => .material
  | .camera _ => .camera
  | .light _ => .light
  | .assetMesh _ => .assetMesh

def textBytes : ComponentValue → ℕ
  | .name value => value.value.lenBytes
  | _ => 0

def logicalSizeBytes : ComponentValue → ℕ
  | .name value => satAdd (satAdd 1 4) (count64 value.value.lenBytes)
  | .localTransform _ => 1 + 10 * 4
  | .primitive _ => 1 + 1 + 3 * 4
  | .material _ => 1 + 6 * 4
  | .camera _ => 1 + 3 * 4
  | .light _ => 1 + 1 + 4 * 4
  | .assetMesh _ => 1 + 32 + 4

def validate : ComponentValue → Except ValidationError Unit
  | .localTransform value =>
    if !value.rotation.isNonZero then
      .error ⟨.invalidComponentValue, "component.rotation"⟩
    else .ok ()
  | .camera value =>
    if pi32.fle value.verticalFovRadians.get || value.far.get.fle value.near.get then
      .error ⟨.invalidComponentValue, "component.camera"⟩
    else .ok ()
  | _ => .ok ()

end ComponentValue

end Cogniform
