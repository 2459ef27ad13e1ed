import Cogniform.Assets.Types
import Cogniform.Lib.Exec

/-!
# The proxy cuboid

A source with an unsupported feature may be replaced by a unit cube. Its faces get their normals
from the same code as those of a decoded mesh, in double precision.
-/

namespace Cogniform

/-- A double-precision vector scaled to unit length and rounded. Both a zero vector and one whose
length overflows are refused. -/
def normalizeVector (code : AssetDiagnosticCode) (vector : Vector F64 3) (location : String)
    (index : Option UInt32) : Except AssetDiagnostic (Vector FiniteF32 3) :=
  let lengthSquared := vector.foldl (fun sum value => sum.add (value.mul value)) Binary.zero
  if !lengthSquared.isFinite || lengthSquared.feq Binary.zero then .error ⟨code, location, index⟩
  else
    let inverseLength := lengthSquared.sqrt.recip
    vector.mapM fun value =>
      match FloatValue.new? (value.mul inverseLength).convert with
      | some scaled => .ok scaled
      | none => .error ⟨code, location, index⟩

def normalizeF64Vector := normalizeVector .invalidNormal

def normalizeF64TangentVector := normalizeVector .invalidTangent

def widen (position : Vector FiniteF32 3) : Vector F64 3 :=
  position.map fun value => value.get.convert

def normalizeTangentVector (vector : Vector FiniteF32 3) (location : String)
    (index : Option UInt32) : Except AssetDiagnostic (Vector FiniteF32 3) :=
  normalizeF64TangentVector (widen vector) location index

def faceNormal (first second third : Vector FiniteF32 3) :
    Except AssetDiagnostic (Vector FiniteF32 3) :=
  let a := (widen second).zipWith Binary.sub (widen first)
  let b := (widen third).zipWith Binary.sub (widen first)
  let cross (i j : Fin 3) := ((a.get i).mul (b.get j)).sub ((a.get j).mul (b.get i))
  normalizeF64Vector #v[cross 1 2, cross 2 0, cross 0 1]
    "glb.decoded.triangle_normal" none

abbrev Corner := Bool × Bool × Bool

/-- `POSITIONS`, by triangle. -/
def proxyTriangles : List (Corner × Corner × Corner) :=
  let below := false
  let above := true
  [((below, below, below), (above, below, below), (above, above, below)),
    ((below, below, below), (above, above, below), (below, above, below)),
    ((above, below, above), (below, below, above), (below, above, above)),
    ((above, below, above), (below, above, above), (above, above, above)),
    ((below, below, above), (below, below, below), (below, above, below)),
    ((below, below, above), (below, above, below), (below, above, above)),
    ((above, below, below), (above, below, above), (above, above, above)),
    ((above, below, below), (above, above, above), (above, above, below)),
    ((below, above, below), (above, above, below), (above, above, above)),
    ((below, above, below), (above, above, above), (below, above, above)),
    ((below, below, above), (above, below, above), (above, below, below)),
    ((below, below, above), (above, below, below), (below, below, below))]

def proxyCoordinate (above : Bool) : Exec Empty FiniteF32 :=
  Exec.expect "proxy is finite"
    (FloatValue.new? (if above then F32.literal 1 2 else (F32.literal 1 2).neg))

def proxyPosition (corner : Corner) : Exec Empty (Vector FiniteF32 3) := do
  let x ← proxyCoordinate corner.1
  let y ← proxyCoordinate corner.2.1
  let z ← proxyCoordinate corner.2.2
  .ok #v[x, y, z]

def proxyVertices (triangle : Corner × Corner × Corner) : Exec Empty (List AssetVertex) := do
  let first ← proxyPosition triangle.1
  let second ← proxyPosition triangle.2.1
  let third ← proxyPosition triangle.2.2
  let normal ← Exec.expect "proxy triangles are non-degenerate"
    (faceNormal first second third).toOption
  [first, second, third].mapM fun position => do
    let one ← Exec.expect "one is finite" (FloatValue.new? (.ofNat 1))
    let zero ← Exec.expect "zero is finite" (FloatValue.new? .zero)
    let unit ← Exec.expect "one is in range" (FloatValue.new? (.ofNat 1))
    .ok ⟨position, normal, #v[one, zero, zero, one], .replicate 2 zero, .replicate 4 unit,
      .replicate 2 zero⟩

def proxyAsset : Exec Empty DecodedAsset := do
  let triangles ← proxyTriangles.mapM proxyVertices
  let one ← Exec.expect "constant is in range" (FloatValue.new? (.ofNat 1))
  let zero ← Exec.expect "constant is in range" (FloatValue.new? .zero)
  let roughness ← Exec.expect "constant is in range" (FloatValue.new? (F32.literal 4 5))
  .ok
    { meshes := [⟨triangles.flatten, .new #v[one, zero, one, one] zero roughness⟩]
      texture := fun _ => none
      byteLen := 36 * assetVertexBytes
      byteLen_lt := by decide }

theorem proxyAsset_eq_ok :
    ∃ asset, proxyAsset = .ok asset ∧ asset.meshes.length = 1 ∧
      asset.byteLen = 36 * assetVertexBytes := by
  have h : proxyAsset.toOption.any fun asset =>
      asset.meshes.length = 1 ∧ asset.byteLen = 36 * assetVertexBytes := by
    decide +kernel
  obtain ⟨asset, hasset, hfacts⟩ := Exec.exists_ok_of_any h
  exact ⟨asset, hasset, of_decide_eq_true hfacts⟩

end Cogniform
