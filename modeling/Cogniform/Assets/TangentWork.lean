import Cogniform.Assets.Types
import Cogniform.Lib.Classes
import Cogniform.Lib.Ledger

/-!
# Work of tangent generation

Before tangents are generated, the work is bounded: the vertices that will be welded together form
groups, each of which costs the cube of its size, and every degenerate triangle searches the others.
Both amounts are computed in 64 bits with every overflow checked. The source has one diagnostic for
an overflow and for an amount beyond its limit; here the two are told apart.
-/

namespace Cogniform

def generatedTangentGroupWorkLimit : ℕ := 268435456

def generatedTangentDegenerateSearchLimit : ℕ := 16777216

/-- `u64::checked_mul`. -/
def mulChecked (a b : ℕ) : Option ℕ := if a * b < 2 ^ 64 then some (a * b) else none

def cubeChecked (n : ℕ) : Option ℕ := (mulChecked n n).bind (mulChecked · n)

def vertexTextureCoordinate (vertex : AssetVertex) (textureCoordinateSet : UInt32) :
    Exec AssetDiagnostic (Vector F32 2) :=
  if textureCoordinateSet = 0 then .ok (vertex.texcoord0.map FloatValue.get)
  else if textureCoordinateSet = 1 then .ok (vertex.texcoord1.map FloatValue.get)
  else .error (.panic "supported material selectors are zero or one")

def generatedTangentWeldKey (vertex : AssetVertex) (textureTransform : AssetTextureTransform)
    (textureCoordinateSet : UInt32) : Exec AssetDiagnostic (Vector ℕ 8) := do
  let coordinate ← vertexTextureCoordinate vertex textureCoordinateSet
  let texcoord ← Exec.expect "texture transforms are validated before tangent generation"
    (textureTransform.transform coordinate)
  .ok (vertex.position.map (fun value => value.get.toBits) ++
    vertex.normal.map (fun value => value.get.toBits) ++ texcoord.map Binary.toBits)

def generatedTangentPositionKey (vertex : AssetVertex) : Vector ℕ 3 :=
  vertex.position.map fun value =>
    if value.get.feq .zero then (Binary.zero : F32).toBits else value.get.toBits

def generatedTangentWorkDiagnostic (meshIndex : UInt32) : AssetDiagnostic :=
  ⟨.collectionLimitExceeded, "glb.decoded.generated_tangent_work", some meshIndex⟩

structure WeldScan where
  multiplicities : Std.ExtTreeMap (Vector ℕ 8) ℕ
  groupWork : ℕ

/-- `chunks_exact(3)`. -/
def triangles {α : Type} : List α → List (α × α × α)
  | first :: second :: third :: rest => (first, second, third) :: triangles rest
  | _ => []

def isDegenerate (triangle : AssetVertex × AssetVertex × AssetVertex) : Bool :=
  let first := generatedTangentPositionKey triangle.1
  let second := generatedTangentPositionKey triangle.2.1
  let third := generatedTangentPositionKey triangle.2.2
  first == second || second == third || third == first

section

variable (overflow exceeded : AssetDiagnostic)

def WeldScan.next (scan : WeldScan) (key : Vector ℕ 8) : Exec AssetDiagnostic WeldScan := do
  let count := scan.multiplicities[key]?.getD 0
  let next ← Exec.okOr overflow (addChecked 64 count 1)
  let previousCube ← Exec.okOr overflow (cubeChecked count)
  let nextCube ← Exec.okOr overflow (cubeChecked next)
  let groupWork ← Exec.okOr overflow (addChecked 64 scan.groupWork (nextCube - previousCube))
  if generatedTangentGroupWorkLimit < groupWork then Exec.fail exceeded
  else .ok ⟨scan.multiplicities.insert key next, groupWork⟩

def countFace (counts : ℕ × ℕ) (triangle : AssetVertex × AssetVertex × AssetVertex) :
    Exec AssetDiagnostic (ℕ × ℕ) :=
  if isDegenerate triangle then do
    .ok (← Exec.okOr overflow (addChecked 64 counts.1 1), counts.2)
  else do
    .ok (counts.1, ← Exec.okOr overflow (addChecked 64 counts.2 1))

def preflightTangentWork (vertices : List AssetVertex) (textureTransform : AssetTextureTransform)
    (textureCoordinateSet : UInt32) : Exec AssetDiagnostic Unit := do
  let _ ← vertices.foldlM (fun scan vertex => do
    let key ← generatedTangentWeldKey vertex textureTransform textureCoordinateSet
    scan.next overflow exceeded key) (WeldScan.mk ∅ 0)
  let counts ← (triangles vertices).foldlM (countFace overflow) (0, 0)
  let searchWork ← Exec.okOr overflow ((mulChecked counts.1 counts.2).bind (mulChecked · 9))
  if generatedTangentDegenerateSearchLimit < searchWork then Exec.fail exceeded else .ok ()

end

def preflightGeneratedTangentWork (vertices : List AssetVertex)
    (textureTransform : AssetTextureTransform) (textureCoordinateSet meshIndex : UInt32) :
    Exec AssetDiagnostic Unit :=
  preflightTangentWork (generatedTangentWorkDiagnostic meshIndex)
    (generatedTangentWorkDiagnostic meshIndex) vertices textureTransform textureCoordinateSet

section

variable {overflow exceeded : AssetDiagnostic} {scan : WeldScan} {seen keys : List (Vector ℕ 8)}
  {key : Vector ℕ 8} {vertices : List AssetVertex}

structure WeldScan.Counts (scan : WeldScan) (seen : List (Vector ℕ 8)) : Prop where
  multiplicities : ∀ key : Vector ℕ 8, scan.multiplicities[key]?.getD 0 = classSize seen key
  groupWork : scan.groupWork = cubeWork seen
  bounded : cubeWork seen ≤ generatedTangentGroupWorkLimit

theorem cubeChecked_of_le {n : ℕ} (h : n ≤ 646) : cubeChecked n = some (n ^ 3) := by
  have hsquare : n * n ≤ 646 * 646 := Nat.mul_le_mul h h
  have hcube : n * n * n ≤ 646 * 646 * 646 := Nat.mul_le_mul hsquare h
  rw [cubeChecked, mulChecked, if_pos (by omega), Option.bind_some, mulChecked, if_pos (by omega)]
  congr 1
  ring

/-- **One more vertex** overflows nothing: a group within the limit has at most 645 vertices. -/
theorem WeldScan.Counts.next (h : scan.Counts seen) (key : Vector ℕ 8) :
    (generatedTangentGroupWorkLimit < cubeWork (seen ++ [key]) ∧
      scan.next overflow exceeded key = Exec.fail exceeded) ∨
    ∃ scan', scan.next overflow exceeded key = .ok scan' ∧ scan'.Counts (seen ++ [key]) := by
  have hcount : classSize seen key ≤ 645 := by
    have hcube := (classSize_pow_le_cubeWork seen key).trans h.bounded
    refine Nat.le_of_lt_succ (lt_of_pow_lt_pow_left₀ 3 (Nat.zero_le _) (hcube.trans_lt ?_))
    decide
  have hbounded := h.bounded
  have hnext : (classSize seen key + 1) ^ 3 ≤ 646 ^ 3 := Nat.pow_le_pow_left (by omega) 3
  have hwork := cubeWork_concat seen key
  rw [generatedTangentGroupWorkLimit] at hbounded
  rw [WeldScan.next]
  simp only [h.multiplicities, h.groupWork]
  rw [addChecked_of_lt (by omega), Exec.okOr_some, Exec.ok_bind, cubeChecked_of_le (by omega),
    Exec.okOr_some, Exec.ok_bind, cubeChecked_of_le (by omega), Exec.okOr_some, Exec.ok_bind,
    addChecked_of_lt (by omega), Exec.okOr_some, Exec.ok_bind, ← hwork]
  by_cases hlimit : generatedTangentGroupWorkLimit < cubeWork (seen ++ [key])
  · rw [if_pos hlimit]
    exact .inl ⟨hlimit, rfl⟩
  · rw [if_neg hlimit]
    refine .inr ⟨_, rfl, fun other => ?_, rfl, Nat.not_lt.mp hlimit⟩
    rw [TreeMap.getElem?_insert, classSize_concat]
    by_cases hother : other = key
    · rw [if_pos hother, if_pos hother, hother]
      rfl
    · rw [if_neg hother, if_neg hother, h.multiplicities, Nat.add_zero]

theorem foldlM_next {weldKey : AssetVertex → Exec AssetDiagnostic (Vector ℕ 8)}
    {keyOf : AssetVertex → Vector ℕ 8} :
    ∀ {scan : WeldScan} {seen : List (Vector ℕ 8)}, scan.Counts seen →
      (∀ vertex ∈ vertices, weldKey vertex = .ok (keyOf vertex)) →
      (generatedTangentGroupWorkLimit < cubeWork (seen ++ vertices.map keyOf) ∧
        vertices.foldlM (fun scan vertex => do
          WeldScan.next overflow exceeded scan (← weldKey vertex)) scan = Exec.fail exceeded) ∨
      (cubeWork (seen ++ vertices.map keyOf) ≤ generatedTangentGroupWorkLimit ∧
        ∃ scan', vertices.foldlM (fun scan vertex => do
          WeldScan.next overflow exceeded scan (← weldKey vertex)) scan = .ok scan') := by
  induction vertices with
  | nil =>
    intro scan seen h _
    rw [List.map_nil, List.append_nil]
    exact .inr ⟨h.bounded, scan, rfl⟩
  | cons vertex vertices ih =>
    intro scan seen h hkeys
    have hsplit : seen ++ (vertex :: vertices).map keyOf =
        seen ++ [keyOf vertex] ++ vertices.map keyOf := by simp
    rw [List.foldlM_cons, hkeys vertex (by simp), Exec.ok_bind, hsplit]
    rcases h.next (keyOf vertex) with ⟨hlimit, hnext⟩ | ⟨scan', hnext, hcounts⟩
    · refine .inl ⟨hlimit.trans_le (cubeWork_le_append _ _), ?_⟩
      rw [hnext]
      rfl
    · rw [hnext, Exec.ok_bind]
      exact ih hcounts fun vertex hvertex => hkeys vertex (by simp [hvertex])

theorem length_triangles_le {α : Type} (vertices : List α) :
    (triangles vertices).length ≤ vertices.length := by
  fun_induction triangles vertices with
  | case1 first second third rest ih =>
    simp only [List.length_cons]
    omega
  | case2 => exact Nat.zero_le _

theorem foldlM_countFace (faces : List (AssetVertex × AssetVertex × AssetVertex)) :
    ∀ counts : ℕ × ℕ, counts.1 + counts.2 + faces.length < 2 ^ 64 →
      faces.foldlM (countFace overflow) counts =
        .ok (counts.1 + faces.countP isDegenerate,
          counts.2 + faces.countP fun face => !isDegenerate face) := by
  induction faces with
  | nil => exact fun _ _ => rfl
  | cons face faces ih =>
    intro counts hfits
    rw [List.length_cons] at hfits
    rw [List.foldlM_cons, countFace]
    by_cases hface : isDegenerate face = true
    · rw [if_pos hface, addChecked_of_lt (by omega), Exec.okOr_some, Exec.ok_bind, Exec.ok_bind,
        ih _ (by dsimp only; omega)]
      simp only [List.countP_cons, hface, if_true, Bool.not_true, Bool.false_eq_true, if_false]
      congr 2
      omega
    · rw [if_neg hface, addChecked_of_lt (by omega), Exec.okOr_some, Exec.ok_bind, Exec.ok_bind,
        ih _ (by dsimp only; omega)]
      simp only [List.countP_cons, hface, if_true, Bool.not_false, Bool.false_eq_true, if_false]
      congr 2
      omega

theorem searchWork_eq {degenerate good : ℕ} (hdegenerate : degenerate ≤ 268435456)
    (hgood : good ≤ 268435456) :
    (mulChecked degenerate good).bind (mulChecked · 9) = some (9 * degenerate * good) := by
  have hproduct : degenerate * good ≤ 268435456 * 268435456 := Nat.mul_le_mul hdegenerate hgood
  rw [mulChecked, if_pos (by omega), Option.bind_some, mulChecked, if_pos (by omega),
    Nat.mul_comm (degenerate * good), Nat.mul_assoc]

def corners {α : Type} (faces : List (α × α × α)) : List α :=
  faces.flatMap fun face => [face.1, face.2.1, face.2.2]

theorem triangles_corners {α : Type} {rest : List α} (hrest : rest.length < 3)
    (faces : List (α × α × α)) : triangles (corners faces ++ rest) = faces := by
  induction faces with
  | nil =>
    rw [corners, List.flatMap_nil, List.nil_append, triangles.eq_2]
    rintro first second third rest rfl
    simp only [List.length_cons] at hrest
    omega
  | cons face faces ih =>
    exact congrArg (face :: ·) ih

end

def CoordinatesDefined (vertices : List AssetVertex) (textureTransform : AssetTextureTransform)
    (textureCoordinateSet : UInt32) : Prop :=
  ∀ vertex ∈ vertices, ∃ coordinate, vertexTextureCoordinate vertex textureCoordinateSet =
    .ok coordinate ∧ (textureTransform.transform coordinate).isSome = true

def WithinTangentLimits (keys : List (Vector ℕ 8)) (vertices : List AssetVertex) : Prop :=
  cubeWork keys ≤ generatedTangentGroupWorkLimit ∧
    9 * (triangles vertices).countP isDegenerate *
      (triangles vertices).countP (fun face => !isDegenerate face) ≤
        generatedTangentDegenerateSearchLimit

instance (keys : List (Vector ℕ 8)) (vertices : List AssetVertex) :
    Decidable (WithinTangentLimits keys vertices) :=
  inferInstanceAs (Decidable (_ ∧ _))

section

variable {vertices : List AssetVertex} {textureTransform : AssetTextureTransform}
  {textureCoordinateSet : UInt32}

theorem CoordinatesDefined.exists_keys
    (h : CoordinatesDefined vertices textureTransform textureCoordinateSet) :
    ∃ keyOf : AssetVertex → Vector ℕ 8, ∀ vertex ∈ vertices,
      generatedTangentWeldKey vertex textureTransform textureCoordinateSet =
        .ok (keyOf vertex) := by
  have hkey : ∀ vertex, ∃ key, vertex ∈ vertices →
      generatedTangentWeldKey vertex textureTransform textureCoordinateSet = .ok key := by
    intro vertex
    by_cases hvertex : vertex ∈ vertices
    · obtain ⟨coordinate, hcoordinate, hdefined⟩ := h vertex hvertex
      obtain ⟨texcoord, htexcoord⟩ := Option.isSome_iff_exists.mp hdefined
      have hreturns : ∃ key, generatedTangentWeldKey vertex textureTransform
          textureCoordinateSet = .ok key := by
        rw [generatedTangentWeldKey, hcoordinate, Exec.ok_bind, htexcoord]
        exact ⟨_, rfl⟩
      exact hreturns.imp fun _ hkey _ => hkey
    · exact ⟨default, fun hmem => absurd hmem hvertex⟩
  obtain ⟨keyOf, hkeyOf⟩ := Classical.axiomOfChoice hkey
  exact ⟨keyOf, hkeyOf⟩

theorem preflightTangentWork_eq {keyOf : AssetVertex → Vector ℕ 8}
    (hkeys : ∀ vertex ∈ vertices,
      generatedTangentWeldKey vertex textureTransform textureCoordinateSet = .ok (keyOf vertex))
    (overflow exceeded : AssetDiagnostic) :
    preflightTangentWork overflow exceeded vertices textureTransform textureCoordinateSet =
      if WithinTangentLimits (vertices.map keyOf) vertices then .ok () else Exec.fail exceeded := by
  have hempty : (WeldScan.mk ∅ 0).Counts [] := ⟨by simp [classSize], rfl, Nat.zero_le _⟩
  rw [preflightTangentWork]
  rcases @foldlM_next overflow exceeded _ _ _ _ _ hempty hkeys with
    ⟨hlimit, hfold⟩ | ⟨hlimit, scan, hfold⟩
  · rw [hfold, if_neg fun hwithin => Nat.not_le.mpr hlimit hwithin.1]
    rfl
  have hlength : vertices.length ≤ 268435456 :=
    calc vertices.length
      _ = (vertices.map keyOf).length := (List.length_map _).symm
      _ ≤ cubeWork (vertices.map keyOf) := length_le_cubeWork _
      _ ≤ 268435456 := hlimit
  have hfaces := (length_triangles_le vertices).trans hlength
  have hdegenerate := (List.countP_le_length (p := isDegenerate)).trans hfaces
  have hgood :=
    (List.countP_le_length (p := fun face => !isDegenerate face)).trans hfaces
  rw [hfold, Exec.ok_bind, foldlM_countFace _ _ (by dsimp only; omega), Exec.ok_bind]
  simp only [Nat.zero_add]
  rw [searchWork_eq hdegenerate hgood, Exec.okOr_some, Exec.ok_bind]
  split_ifs with hsearch hwithin hwithin
  · exact absurd hsearch (Nat.not_lt.mpr hwithin.2)
  · rfl
  · rfl
  · exact absurd ⟨hlimit, Nat.not_lt.mp hsearch⟩ hwithin

/-- **The tangent work bound is exact**: it passes exactly when the cubes of the weld groups and nine
times the pairs of a degenerate and a good triangle are within their limits. No overflow decides it,
and neither does the order of the triangles. -/
theorem preflightGeneratedTangentWork_exact
    (hdefined : CoordinatesDefined vertices textureTransform textureCoordinateSet)
    (meshIndex : UInt32) :
    ∃ keys, vertices.mapM (fun vertex =>
        generatedTangentWeldKey vertex textureTransform textureCoordinateSet) = .ok keys ∧
      (preflightGeneratedTangentWork vertices textureTransform textureCoordinateSet meshIndex =
        .ok () ↔ WithinTangentLimits keys vertices) ∧
      (∀ overflow exceeded,
        preflightTangentWork overflow exceeded vertices textureTransform textureCoordinateSet =
          if WithinTangentLimits keys vertices then .ok () else Exec.fail exceeded) ∧
      ∀ faces faces' rest, vertices = corners faces ++ rest → rest.length < 3 →
        faces.Perm faces' →
          preflightGeneratedTangentWork (corners faces' ++ rest) textureTransform
              textureCoordinateSet meshIndex =
            preflightGeneratedTangentWork vertices textureTransform textureCoordinateSet
              meshIndex := by
  obtain ⟨keyOf, hkeys⟩ := hdefined.exists_keys
  refine ⟨vertices.map keyOf, ?_, ?_, preflightTangentWork_eq hkeys, ?_⟩
  · rw [Exec.mapM_eq_ok, List.forall₂_map_right_iff, List.forall₂_same]
    exact hkeys
  · rw [preflightGeneratedTangentWork, preflightTangentWork_eq hkeys]
    split_ifs with hwithin
    · exact iff_of_true rfl hwithin
    · exact iff_of_false (fun h => by cases h) hwithin
  · rintro faces faces' rest rfl hrest hperm
    have hcorners : (corners faces' ++ rest).Perm (corners faces ++ rest) :=
      (hperm.symm.flatMap_right _).append_right _
    have hkeys' : ∀ vertex ∈ corners faces' ++ rest,
        generatedTangentWeldKey vertex textureTransform textureCoordinateSet =
          .ok (keyOf vertex) :=
      fun vertex hvertex => hkeys vertex (hcorners.mem_iff.mp hvertex)
    rw [preflightGeneratedTangentWork, preflightGeneratedTangentWork,
      preflightTangentWork_eq hkeys, preflightTangentWork_eq hkeys']
    simp only [WithinTangentLimits, triangles_corners hrest, cubeWork_perm (hcorners.map keyOf),
      hperm.countP_eq]

def originVertex : AssetVertex where
  position := .replicate 3 (.lit .zero)
  normal := .replicate 3 (.lit .zero)
  tangent := .replicate 4 (.lit .zero)
  texcoord0 := .replicate 2 (.lit .zero)
  color0 := .replicate 4 (.lit .zero)
  texcoord1 := .replicate 2 (.lit .zero)

theorem preflightGeneratedTangentWork_origin :
    ∃ keys, (List.replicate 3 originVertex).mapM (fun vertex =>
        generatedTangentWeldKey vertex .identity 0) = .ok keys ∧
      (preflightGeneratedTangentWork (.replicate 3 originVertex) .identity 0 7 = .ok () ↔
        WithinTangentLimits keys (.replicate 3 originVertex)) := by
  have hdefined : CoordinatesDefined (.replicate 3 originVertex) .identity 0 := by
    intro vertex hvertex
    rw [List.eq_of_mem_replicate hvertex]
    exact ⟨_, rfl, by decide +kernel⟩
  obtain ⟨keys, hkeys, hexact, -⟩ := preflightGeneratedTangentWork_exact hdefined 7
  exact ⟨keys, hkeys, hexact⟩

end

end Cogniform
