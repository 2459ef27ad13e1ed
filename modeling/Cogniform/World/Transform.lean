import Cogniform.World.Components

/-!
# Derived world transforms

`fromLocal` turns a validated local transform into a double-precision matrix, `compose` multiplies
the parent's matrix by it; each refuses a result that is not finite. Both only stamp the generation
on the result, which is why the matrix part is a function of its own.
-/

namespace Cogniform

structure WorldTransform where
  matrix : Matrix4
  generation : UInt64
  deriving DecidableEq

namespace WorldTransform

/-- The literal `1.0`. -/
def one : F64 := ⟨false, 0x3ff0000000000000, by decide⟩

/-- The literal `2.0`. -/
def two : F64 := ⟨false, 0x4000000000000000, by decide⟩

def identityMatrix : Matrix4 :=
  let zero : F64 := Binary.zero
  #v[one, zero, zero, zero,
     zero, one, zero, zero,
     zero, zero, one, zero,
     zero, zero, zero, one]

/-- The matrix of a local transform, or `none` when it is not finite. -/
def matrixOfLocal (transform : LocalTransform) : Option Matrix4 :=
  let x : F64 := transform.rotation.x.get.convert
  let y : F64 := transform.rotation.y.get.convert
  let z : F64 := transform.rotation.z.get.convert
  let w : F64 := transform.rotation.w.get.convert
  let inverseNorm := ((((x.mul x).add (y.mul y)).add (z.mul z)).add (w.mul w)).sqrt.recip
  if !inverseNorm.isFinite then none
  else
    let x := x.mul inverseNorm
    let y := y.mul inverseNorm
    let z := z.mul inverseNorm
    let w := w.mul inverseNorm
    let sx : F64 := transform.scale.x.get.convert
    let sy : F64 := transform.scale.y.get.convert
    let sz : F64 := transform.scale.z.get.convert
    let matrix : Matrix4 :=
      #v[(one.sub (two.mul ((y.mul y).add (z.mul z)))).mul sx,
         (two.mul ((x.mul y).add (z.mul w))).mul sx,
         (two.mul ((x.mul z).sub (y.mul w))).mul sx,
         Binary.zero,
         (two.mul ((x.mul y).sub (z.mul w))).mul sy,
         (one.sub (two.mul ((x.mul x).add (z.mul z)))).mul sy,
         (two.mul ((y.mul z).add (x.mul w))).mul sy,
         Binary.zero,
         (two.mul ((x.mul z).add (y.mul w))).mul sz,
         (two.mul ((y.mul z).sub (x.mul w))).mul sz,
         (one.sub (two.mul ((x.mul x).add (y.mul y)))).mul sz,
         Binary.zero,
         transform.translation.x.get.convert,
         transform.translation.y.get.convert,
         transform.translation.z.get.convert,
         one]
    if matrix.isFinite then some matrix else none

/-- `from_local`: an absent local transform is the identity. -/
def fromLocal (transform : Option LocalTransform) (generation : UInt64) : Option WorldTransform :=
  match transform with
  | none => some ⟨identityMatrix, generation⟩
  | some transform => (matrixOfLocal transform).map fun matrix => ⟨matrix, generation⟩

def productElement (left right : Matrix4) (column row : Fin 4) : F64 :=
  (List.finRange 4).foldl
    (fun sum (index : Fin 4) =>
      sum.add ((left.get ⟨index * 4 + row, by omega⟩).mul
        (right.get ⟨column * 4 + index, by omega⟩)))
    Binary.zero

/-- The product of two matrices, or `none` when an element is not finite. -/
def matrixProduct (left right : Matrix4) : Option Matrix4 :=
  let matrix : Matrix4 :=
    Vector.ofFn fun i => productElement left right ⟨i / 4, by omega⟩ ⟨i % 4, by omega⟩
  if matrix.isFinite then some matrix else none

def compose (parent transform : WorldTransform) (generation : UInt64) : Option WorldTransform :=
  (matrixProduct parent.matrix transform.matrix).map fun matrix => ⟨matrix, generation⟩

theorem fromLocal_generation {transform : Option LocalTransform} {generation : UInt64}
    {t : WorldTransform} (h : fromLocal transform generation = some t) :
    t.generation = generation := by
  cases transform with
  | none =>
    rw [fromLocal, Option.some.injEq] at h
    rw [← h]
  | some transform =>
    rw [fromLocal, Option.map_eq_some_iff] at h
    obtain ⟨matrix, -, rfl⟩ := h
    rfl

theorem compose_generation {parent transform t : WorldTransform} {generation : UInt64}
    (h : compose parent transform generation = some t) : t.generation = generation := by
  rw [compose, Option.map_eq_some_iff] at h
  obtain ⟨matrix, -, rfl⟩ := h
  rfl

theorem identityMatrix_isFinite : identityMatrix.isFinite = true := by decide +kernel

theorem matrixOfLocal_isFinite {transform : LocalTransform} {matrix : Matrix4}
    (h : matrixOfLocal transform = some matrix) : matrix.isFinite = true := by
  simp only [matrixOfLocal, Option.ite_none_left_eq_some, Option.ite_none_right_eq_some,
    Option.some.injEq] at h
  obtain ⟨-, hfinite, rfl⟩ := h
  exact hfinite

theorem matrixProduct_isFinite {left right matrix : Matrix4}
    (h : matrixProduct left right = some matrix) : matrix.isFinite = true := by
  simp only [matrixProduct, Option.ite_none_right_eq_some, Option.some.injEq] at h
  obtain ⟨hfinite, rfl⟩ := h
  exact hfinite

theorem fromLocal_isFinite {transform : Option LocalTransform} {generation : UInt64}
    {t : WorldTransform} (h : fromLocal transform generation = some t) :
    t.matrix.isFinite = true := by
  cases transform with
  | none =>
    rw [fromLocal, Option.some.injEq] at h
    rw [← h]
    exact identityMatrix_isFinite
  | some transform =>
    rw [fromLocal, Option.map_eq_some_iff] at h
    obtain ⟨matrix, hmatrix, rfl⟩ := h
    exact matrixOfLocal_isFinite hmatrix

theorem compose_isFinite {parent transform t : WorldTransform} {generation : UInt64}
    (h : compose parent transform generation = some t) : t.matrix.isFinite = true := by
  rw [compose, Option.map_eq_some_iff] at h
  obtain ⟨matrix, hmatrix, rfl⟩ := h
  exact matrixProduct_isFinite hmatrix

end WorldTransform

end Cogniform
