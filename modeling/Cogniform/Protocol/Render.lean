import Cogniform.Lib.TreeMap
import Cogniform.Protocol.Component
import Mathlib.Data.List.Chain

/-!
# Render extraction packets

A record keeps a finite matrix and at least one render component; a packet does not move its
revision backwards and lists its changes in strictly increasing entity order. Both are carried by
the types; `RenderEntity.new` and `RenderExtraction.new` are where they are checked.
-/

namespace Cogniform

abbrev Matrix4 := Vector F64 16

def Matrix4.isFinite (matrix : Matrix4) : Bool := matrix.all Binary.isFinite

structure RenderComponents where
  primitive : Option PrimitiveComponent
  material : Option MaterialComponent
  camera : Option CameraComponent
  light : Option LightComponent
  assetMesh : Option AssetMeshComponent
  deriving DecidableEq

def RenderComponents.isEmpty (components : RenderComponents) : Bool :=
  components.primitive.isNone && components.material.isNone && components.camera.isNone
    && components.light.isNone && components.assetMesh.isNone

inductive RenderContractError where
  | nonFiniteWorldTransform (entityId : StableEntityId)
  | emptyRenderEntity (entityId : StableEntityId)
  | revisionRegressed (baseRevision sceneRevision : SceneRevision)
  | changesNotStrictlyOrdered (previous current : StableEntityId)
  deriving DecidableEq

structure RenderEntity where
  entityId : StableEntityId
  worldTransform : Matrix4
  worldTransformGeneration : UInt64
  components : RenderComponents
  finite : worldTransform.isFinite = true
  nonempty : components.isEmpty = false
  deriving DecidableEq

namespace RenderEntity

def new (entityId : StableEntityId) (worldTransform : Matrix4) (worldTransformGeneration : UInt64)
    (components : RenderComponents) : Except RenderContractError RenderEntity :=
  if hfinite : worldTransform.isFinite = true then
    if hempty : components.isEmpty = false then
      .ok ⟨entityId, worldTransform, worldTransformGeneration, components, hfinite, hempty⟩
    else .error (.emptyRenderEntity entityId)
  else .error (.nonFiniteWorldTransform entityId)

theorem new_eq_ok {entityId : StableEntityId} {worldTransform : Matrix4}
    {worldTransformGeneration : UInt64} {components : RenderComponents}
    (hfinite : worldTransform.isFinite = true) (hempty : components.isEmpty = false) :
    new entityId worldTransform worldTransformGeneration components =
      .ok ⟨entityId, worldTransform, worldTransformGeneration, components, hfinite, hempty⟩ := by
  rw [new, dif_pos hfinite, dif_pos hempty]

end RenderEntity

inductive RenderChange where
  | upsert (entity : RenderEntity)
  | remove (entityId : StableEntityId)
  deriving DecidableEq

def RenderChange.entityId : RenderChange → StableEntityId
  | .upsert entity => entity.entityId
  | .remove entityId => entityId

@[simp] theorem RenderChange.entityId_upsert (entity : RenderEntity) :
    (RenderChange.upsert entity).entityId = entity.entityId := rfl

@[simp] theorem RenderChange.entityId_remove (entityId : StableEntityId) :
    (RenderChange.remove entityId).entityId = entityId := rfl

def firstUnordered : List RenderChange → Option (StableEntityId × StableEntityId)
  | previous :: current :: rest =>
    if current.entityId.get ≤ previous.entityId.get then some (previous.entityId, current.entityId)
    else firstUnordered (current :: rest)
  | [_] | [] => none

def StrictlyOrdered (changes : List RenderChange) : Prop :=
  changes.Pairwise fun a b => a.entityId.get < b.entityId.get

instance (changes : List RenderChange) : Decidable (StrictlyOrdered changes) :=
  inferInstanceAs (Decidable (changes.Pairwise _))

theorem firstUnordered_eq_none {changes : List RenderChange} :
    firstUnordered changes = none ↔ StrictlyOrdered changes := by
  have htrans : IsTrans RenderChange fun a b => a.entityId.get < b.entityId.get :=
    ⟨fun _ _ _ => Nat.lt_trans⟩
  rw [StrictlyOrdered, ← List.isChain_iff_pairwise]
  induction changes with
  | nil => simp [firstUnordered]
  | cons previous rest ih =>
    cases rest with
    | nil => simp [firstUnordered]
    | cons current rest =>
      rw [firstUnordered, List.isChain_cons_cons]
      split
      · simp only [reduceCtorEq, false_iff, not_and]
        omega
      · rename_i h
        exact ⟨fun hrest => ⟨Nat.not_le.mp h, ih.mp hrest⟩, fun hrest => ih.mpr hrest.2⟩

structure RenderExtraction where
  generation : NonZeroU64
  baseRevision : SceneRevision
  sceneRevision : SceneRevision
  changes : List RenderChange
  revision_le : baseRevision.get.toNat ≤ sceneRevision.get.toNat
  ordered : StrictlyOrdered changes
  deriving DecidableEq

namespace RenderExtraction

def new (generation : NonZeroU64) (baseRevision sceneRevision : SceneRevision)
    (changes : List RenderChange) : Except RenderContractError RenderExtraction :=
  if hrevision : baseRevision.get.toNat ≤ sceneRevision.get.toNat then
    match hordered : firstUnordered changes with
    | some (previous, current) => .error (.changesNotStrictlyOrdered previous current)
    | none =>
      .ok ⟨generation, baseRevision, sceneRevision, changes, hrevision,
        firstUnordered_eq_none.mp hordered⟩
  else .error (.revisionRegressed baseRevision sceneRevision)

theorem new_eq_ok {generation : NonZeroU64} {baseRevision sceneRevision : SceneRevision}
    {changes : List RenderChange} (hrevision : baseRevision.get.toNat ≤ sceneRevision.get.toNat)
    (hordered : StrictlyOrdered changes) :
    new generation baseRevision sceneRevision changes =
      .ok ⟨generation, baseRevision, sceneRevision, changes, hrevision, hordered⟩ := by
  rw [new, dif_pos hrevision]
  split
  · rename_i h
    rw [firstUnordered_eq_none.mpr hordered] at h
    cases h
  · rfl

end RenderExtraction

abbrev RenderMap := Std.ExtTreeMap StableEntityId RenderEntity

def RenderChange.consume (records : RenderMap) : RenderChange → RenderMap
  | .upsert entity => records.insert entity.entityId entity
  | .remove entityId => records.erase entityId

def RenderExtraction.consume (records : RenderMap) (extraction : RenderExtraction) : RenderMap :=
  extraction.changes.foldl RenderChange.consume records

def RenderChange.outcome : RenderChange → Option RenderEntity
  | .upsert entity => some entity
  | .remove _ => none

theorem getElem?_consume (records : RenderMap) (change : RenderChange) (id : StableEntityId) :
    (change.consume records)[id]? =
      if id = change.entityId then change.outcome else records[id]? := by
  cases change with
  | upsert entity => exact TreeMap.getElem?_insert records entity.entityId id entity
  | remove entityId => exact TreeMap.getElem?_erase records entityId id

theorem getElem?_foldl_consume {target : StableEntityId → Option RenderEntity}
    {changes : List RenderChange} (id : StableEntityId) :
    ∀ {records : RenderMap}, (∀ change ∈ changes, change.outcome = target change.entityId) →
      (changes.foldl RenderChange.consume records)[id]? =
        if id ∈ changes.map RenderChange.entityId then target id else records[id]? := by
  induction changes with
  | nil => intro records _; simp
  | cons change changes ih =>
    intro records h
    rw [List.foldl_cons, ih fun other hother => h other (List.mem_cons_of_mem _ hother),
      getElem?_consume, List.map_cons]
    have hchange := h change (List.mem_cons_self ..)
    by_cases hrest : id ∈ changes.map RenderChange.entityId
    · rw [if_pos hrest, if_pos (List.mem_cons_of_mem _ hrest)]
    · rw [if_neg hrest]
      by_cases hid : id = change.entityId
      · rw [if_pos hid, if_pos (by rw [hid]; exact List.mem_cons_self ..), hchange, hid]
      · rw [if_neg hid, if_neg (by simpa [hid] using hrest)]

end Cogniform
