import Cogniform.Protocol.Component

/-!
# Asset values

What the asset store and the renderer exchange. A material has up to twelve textures, one for each
role. The source spells the twelve out in every type; here they are indexed by the role.
-/

namespace Cogniform

structure AssetLimits where
  maxSourceBytes : NonZeroU64
  maxPendingSourceBytes : NonZeroU64
  maxJsonBytes : NonZeroU64
  maxBinBytes : NonZeroU64
  maxAssets : NonZeroU32
  maxPendingImports : NonZeroU32
  maxMeshes : NonZeroU32
  maxBufferViews : NonZeroU32
  maxAccessors : NonZeroU32
  maxMaterials : NonZeroU32
  maxTextureDimension2d : NonZeroU32
  maxTexturePixels : NonZeroU64
  maxTextureDecodedBytes : NonZeroU64
  maxTextureDecoderBytes : NonZeroU64
  maxPrimitivesPerMesh : NonZeroU32
  maxVerticesPerMesh : NonZeroU32
  maxIndicesPerMesh : NonZeroU32
  maxAssetDecodedBytes : NonZeroU64
  maxResidentCpuBytes : NonZeroU64

def AssetLimits.default : AssetLimits where
  maxSourceBytes := .lit (16 * 1024 * 1024)
  maxPendingSourceBytes := .lit (32 * 1024 * 1024)
  maxJsonBytes := .lit (1024 * 1024)
  maxBinBytes := .lit (16 * 1024 * 1024)
  maxAssets := .lit 256
  maxPendingImports := .lit 64
  maxMeshes := .lit 64
  maxBufferViews := .lit 256
  maxAccessors := .lit 256
  maxMaterials := .lit 256
  maxTextureDimension2d := .lit 2_048
  maxTexturePixels := .lit 4_194_304
  maxTextureDecodedBytes := .lit (16 * 1024 * 1024)
  maxTextureDecoderBytes := .lit (4 * 1024 * 1024)
  maxPrimitivesPerMesh := .lit 1
  maxVerticesPerMesh := .lit 262_144
  maxIndicesPerMesh := .lit 786_432
  maxAssetDecodedBytes := .lit (16 * 1024 * 1024)
  maxResidentCpuBytes := .lit (64 * 1024 * 1024)

inductive UnsupportedAssetPolicy where
  | reject
  | proxyCuboid
  deriving DecidableEq

structure AssetStoreConfig where
  limits : AssetLimits
  unsupportedPolicy : UnsupportedAssetPolicy

def AssetStoreConfig.default : AssetStoreConfig := ⟨.default, .reject⟩

inductive AssetDiagnosticCode where
  | invalidGlb | invalidLength | invalidJson | unsupportedExtension | unsupportedFeature
  | invalidBufferRange | unsupportedAccessor | unsupportedPrimitiveMode | nonFiniteVertex
  | invalidNormal | invalidTangent | invalidTexcoord | invalidColor | invalidImage | invalidIndex
  | collectionLimitExceeded | byteLimitExceeded
  deriving DecidableEq

def AssetDiagnosticCode.permitsProxy : AssetDiagnosticCode → Bool
  | .unsupportedExtension | .unsupportedFeature | .unsupportedAccessor
  | .unsupportedPrimitiveMode => true
  | _ => false

structure AssetDiagnostic where
  code : AssetDiagnosticCode
  location : String
  index : Option UInt32
  deriving DecidableEq

/-! ### Materials -/

inductive AssetTextureRole where
  | baseColor | emissive | metallicRoughness | normal | specular | specularColor | clearcoat
  | clearcoatRoughness | clearcoatNormal | sheenColor | sheenRoughness | anisotropy
  deriving DecidableEq

namespace AssetTextureRole

def all : List AssetTextureRole :=
  [.baseColor, .emissive, .metallicRoughness, .normal, .specular, .specularColor, .clearcoat,
    .clearcoatRoughness, .clearcoatNormal, .sheenColor, .sheenRoughness, .anisotropy]

/-- The index of a role: `BASE_COLOR_SAMPLER` and its siblings. -/
def index : AssetTextureRole → Fin 12
  | .baseColor => 0
  | .emissive => 1
  | .metallicRoughness => 2
  | .normal => 3
  | .specular => 4
  | .specularColor => 5
  | .clearcoat => 6
  | .clearcoatRoughness => 7
  | .clearcoatNormal => 8
  | .sheenColor => 9
  | .sheenRoughness => 10
  | .anisotropy => 11

/-- The bit of a role: `BASE_COLOR_TEXTURE` and its siblings. -/
def mask (role : AssetTextureRole) : UInt16 := 1 <<< UInt16.ofNat role.index.val

end AssetTextureRole

inductive AssetAlphaMode where
  | opaqueCoverage | mask
  deriving DecidableEq

inductive AssetShadingModel where
  | metallicRoughness | unlit
  deriving DecidableEq

inductive AssetSamplerFilter where
  | nearest | linear
  deriving DecidableEq

inductive AssetSamplerMinFilter where
  | nearest | linear | nearestMipmapNearest | linearMipmapNearest | nearestMipmapLinear
  | linearMipmapLinear
  deriving DecidableEq

inductive AssetSamplerWrap where
  | clampToEdge | mirroredRepeat | repeating
  deriving DecidableEq

structure AssetSampler where
  magFilter : AssetSamplerFilter
  minFilter : AssetSamplerMinFilter
  wrapS : AssetSamplerWrap
  wrapT : AssetSamplerWrap
  deriving DecidableEq

def AssetSampler.linearRepeat : AssetSampler := ⟨.linear, .linear, .repeating, .repeating⟩

structure AssetTextureTransform where
  affineRows : Vector (Vector F32 4) 2
  deriving DecidableEq

namespace AssetTextureTransform

def identity : AssetTextureTransform :=
  ⟨#v[#v[.ofNat 1, .zero, .zero, .zero], #v[.zero, .ofNat 1, .zero, .zero]]⟩

/-- One row of `AssetTextureTransform::transform`. -/
def transformRow (row : Vector F32 4) (coordinate : Vector F32 2) : Option F32 :=
  let u := (row.get 0).mul (coordinate.get 0)
  let v := (row.get 1).mul (coordinate.get 1)
  let value := (u.add v).add (row.get 2)
  if u.isFinite && v.isFinite && value.isFinite then some value else none

def transform (self : AssetTextureTransform) (coordinate : Vector F32 2) :
    Option (Vector F32 2) := do
  let first ← transformRow (self.affineRows.get 0) coordinate
  let second ← transformRow (self.affineRows.get 1) coordinate
  some #v[first, second]

end AssetTextureTransform

structure AssetMaterial where
  baseColor : Vector UnitF32 4
  metallic : UnitF32
  roughness : UnitF32
  emissive : Vector F32 3
  emissiveStrength : F32
  ior : F32
  dielectricF0 : F32
  specularFactor : F32
  specularColorFactor : Vector F32 3
  clearcoatFactor : F32
  clearcoatRoughnessFactor : F32
  sheenColorFactor : Vector F32 3
  sheenRoughnessFactor : F32
  anisotropyPresent : Bool
  anisotropyStrength : F32
  anisotropyRotation : F32
  anisotropyRotationCosSin : Vector F32 2
  textureRoles : UInt16
  textureCoordinateSets : UInt16
  textureSamplers : Vector AssetSampler 12
  textureTransforms : Vector AssetTextureTransform 12
  normalScale : F32
  clearcoatNormalScale : F32
  alphaMode : AssetAlphaMode
  alphaCutoff : F32
  doubleSided : Bool
  shadingModel : AssetShadingModel
  deriving DecidableEq

namespace AssetMaterial

def new (baseColor : Vector UnitF32 4) (metallic roughness : UnitF32) : AssetMaterial where
  baseColor
  metallic
  roughness
  emissive := .replicate 3 .zero
  emissiveStrength := .ofNat 1
  ior := F32.literal 3 2
  dielectricF0 := F32.literal 4 100
  specularFactor := .ofNat 1
  specularColorFactor := .replicate 3 (.ofNat 1)
  clearcoatFactor := .zero
  clearcoatRoughnessFactor := .zero
  sheenColorFactor := .replicate 3 .zero
  sheenRoughnessFactor := .zero
  anisotropyPresent := false
  anisotropyStrength := .zero
  anisotropyRotation := .zero
  anisotropyRotationCosSin := #v[.ofNat 1, .zero]
  textureRoles := 0
  textureCoordinateSets := 0
  textureSamplers := .replicate 12 .linearRepeat
  textureTransforms := .replicate 12 .identity
  normalScale := .ofNat 1
  clearcoatNormalScale := .ofNat 1
  alphaMode := .opaqueCoverage
  alphaCutoff := F32.literal 1 2
  doubleSided := false
  shadingModel := .metallicRoughness

/-- `has_base_color_texture` and its siblings. -/
def hasTexture (material : AssetMaterial) (role : AssetTextureRole) : Bool :=
  material.textureRoles &&& role.mask != 0

end AssetMaterial

/-! ### Meshes and textures -/

def assetVertexBytes : ℕ := 72

structure AssetVertex where
  position : Vector FiniteF32 3
  normal : Vector FiniteF32 3
  tangent : Vector FiniteF32 4
  texcoord0 : Vector FiniteF32 2
  color0 : Vector UnitF32 4
  texcoord1 : Vector FiniteF32 2
  deriving DecidableEq

structure AssetMeshKey where
  contentHash : Digest
  meshIndex : UInt32
  deriving DecidableEq

structure AssetTexture where
  width : NonZeroU32
  height : NonZeroU32
  rgba8 : List UInt8
  deriving DecidableEq

def AssetTexture.byteLen (texture : AssetTexture) : ℕ := count64 texture.rgba8.length

structure DecodedMesh where
  vertices : List AssetVertex
  material : AssetMaterial

structure DecodedAsset where
  meshes : List DecodedMesh
  texture : AssetTextureRole → Option AssetTexture
  byteLen : ℕ
  byteLen_lt : byteLen < 2 ^ 64

def DecodedAsset.textureCount (asset : DecodedAsset) : ℕ :=
  (AssetTextureRole.all.map fun role => (asset.texture role).isSome.toNat).sum

structure AssetUploadJob where
  key : AssetMeshKey
  vertices : List AssetVertex
  material : AssetMaterial
  texture : AssetTextureRole → Option AssetTexture

def AssetUploadJob.byteLen (job : AssetUploadJob) : ℕ :=
  satMul (count64 job.vertices.length) assetVertexBytes

end Cogniform
