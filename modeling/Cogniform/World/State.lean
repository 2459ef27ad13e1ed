import Cogniform.Lib.Arena
import Cogniform.Lib.Bytes
import Cogniform.World.Hierarchy
import Mathlib.Data.List.Nodup

/-!
# The authoritative world

The store is an arena of component records; the stable index maps identities to handles; parents and
children are two indexes of one hierarchy; the transform cache and the pending render set are
derived. `validateInvariants` is the source's own check, and `Consistent` what it is meant to
establish.
-/

namespace Cogniform

structure RecordedApply where
  transactionId : TransactionId
  receipt : ApplyReceipt
  deriving DecidableEq

structure AuthoritativeWorld where
  storage : Arena StoredRecord
  stableIndex : Std.ExtTreeMap StableEntityId ℕ
  parents : ParentMap
  children : ChildMap
  worldTransforms : Std.ExtTreeMap StableEntityId WorldTransform
  transformGeneration : UInt64
  revision : SceneRevision
  pendingRenderChanges : EntitySet
  lastExtractedRevision : SceneRevision
  renderExtractionGeneration : UInt64
  idempotencyRecords : Std.ExtTreeMap IdempotencyKey RecordedApply
  config : WorldConfig

structure EntitySnapshot where
  entityId : StableEntityId
  parentId : Option StableEntityId
  components : List ComponentValue
  deriving DecidableEq

structure WorldSnapshot where
  revision : SceneRevision
  entities : List EntitySnapshot
  deriving DecidableEq

structure Indexed (storage : Arena StoredRecord) (index : Std.ExtTreeMap StableEntityId ℕ) :
    Prop where
  len_eq : storage.len = index.size
  /-- An indexed handle is live and carries the identity it is indexed under. -/
  marked : ∀ id handle : _, index[id]? = some handle →
    ∃ record, storage.get? handle = some record ∧ record.stableId = some id
  /-- A stored record is indexed under the identity it carries. -/
  indexed : ∀ handle record, storage.get? handle = some record →
    ∃ id : StableEntityId, record.stableId = some id ∧ index[id]? = some handle

namespace AuthoritativeWorld

def new (config : WorldConfig) : AuthoritativeWorld where
  storage := .empty
  stableIndex := ∅
  parents := ∅
  children := ∅
  worldTransforms := ∅
  transformGeneration := 0
  revision := .initial
  pendingRenderChanges := ∅
  lastExtractedRevision := .initial
  renderExtractionGeneration := 0
  idempotencyRecords := ∅
  config := config

def liveIds (world : AuthoritativeWorld) : EntitySet := Std.ExtTreeSet.ofList world.stableIndex.keys

def record? (world : AuthoritativeWorld) (entityId : StableEntityId) : Option StoredRecord :=
  world.stableIndex[entityId]?.bind world.storage.get?

/-! ### The consistency check -/

def entryError (world : AuthoritativeWorld) (entityId : StableEntityId) (handle : ℕ) :
    Option WorldInvariantError :=
  match world.storage.get? handle with
  | none => some ⟨.missingStorageEntity, some entityId⟩
  | some record =>
    if record.stableId ≠ some entityId then some ⟨.stableIdMismatch, some entityId⟩
    else if entityId ∉ world.worldTransforms then some ⟨.worldTransformMissing, some entityId⟩
    else none

def orphanError (world : AuthoritativeWorld) (entityId : StableEntityId) :
    Option WorldInvariantError :=
  if entityId ∉ world.stableIndex then some ⟨.worldTransformOrphan, some entityId⟩ else none

def edgeError (world : AuthoritativeWorld) (childId parentId : StableEntityId) :
    Option WorldInvariantError :=
  if childId ∉ world.stableIndex ∨ parentId ∉ world.stableIndex then
    some ⟨.hierarchyEntityMissing, some childId⟩
  else if childId ∉ world.children.list parentId then some ⟨.hierarchyIndexMismatch, some childId⟩
  else none

def indexedChildren (world : AuthoritativeWorld) : ℕ :=
  (world.children.toList.map fun entry => entry.2.size).sum

def indexError (world : AuthoritativeWorld) : Option WorldInvariantError :=
  if world.storage.len ≠ world.stableIndex.size then some ⟨.entityCountMismatch, none⟩
  else
    world.stableIndex.toList.findSome? (fun entry => world.entryError entry.1 entry.2)
      <|> world.worldTransforms.keys.findSome? world.orphanError
      <|> world.parents.toList.findSome? (fun edge => world.edgeError edge.1 edge.2)
      <|> if world.indexedChildren ≠ world.parents.size then some ⟨.hierarchyIndexMismatch, none⟩
        else none

def validateInvariants (world : AuthoritativeWorld) : Exec WorldInvariantError Unit :=
  match world.indexError with
  | some error => Exec.fail error
  | none =>
    match hierarchyDepths world.liveIds world.parents world.config.maxHierarchyDepth.get with
    | .ok _ => .ok ()
    | .error (.error _) => Exec.fail ⟨.hierarchyTopologyInvalid, none⟩
    | .error (.panic message) => .error (.panic message)
    | .error .diverge => .error .diverge

structure Consistent (world : AuthoritativeWorld) : Prop
    extends Indexed world.storage world.stableIndex where
  cached : ∀ id, id ∈ world.worldTransforms ↔ id ∈ world.stableIndex
  reciprocal : Reciprocal world.parents world.children
  /-- The hierarchy has live endpoints, no cycle and bounded depth. -/
  topology : ∃ depths,
    hierarchyDepths world.liveIds world.parents world.config.maxHierarchyDepth.get = .ok depths

section Consistent

variable {world : AuthoritativeWorld}

theorem mem_liveIds {id : StableEntityId} : id ∈ world.liveIds ↔ id ∈ world.stableIndex := by
  rw [liveIds, Std.ExtTreeSet.mem_ofList, List.contains_iff_mem, Std.ExtTreeMap.mem_keys]

theorem Consistent.edges (h : world.Consistent) {child parent : StableEntityId}
    (hedge : world.parents[child]? = some parent) :
    child ∈ world.stableIndex ∧ parent ∈ world.stableIndex := by
  obtain ⟨depths, hdepths⟩ := h.topology
  simpa only [mem_liveIds] using (hierarchyDepths_sound hdepths).1 child parent hedge

theorem indexedChildren_eq_size (h : Reciprocal world.parents world.children) :
    world.indexedChildren = world.parents.size := by
  have hlist : ∀ entry ∈ world.children.toList, entry.2.toList = world.children.list entry.1 := by
    intro entry hentry
    rw [ChildMap.list, Std.ExtTreeMap.mem_toList_iff_getElem?_eq_some.mp hentry]
  have hnodup : (world.children.toList.flatMap fun entry => entry.2.toList).Nodup := by
    rw [List.nodup_flatMap]
    refine ⟨fun entry _ => ?_, ?_⟩
    · exact Std.ExtTreeSet.distinct_toList.imp fun hne heq => hne (by rw [heq]; simp)
    · refine Std.ExtTreeMap.distinct_keys_toList.imp_of_mem fun {a b} ha hb hne => ?_
      intro y hya hyb
      have ha' : world.parents[y]? = some a.1 := (h a.1 y).mp (hlist a ha ▸ hya)
      have hb' : world.parents[y]? = some b.1 := (h b.1 y).mp (hlist b hb ▸ hyb)
      rw [ha', Option.some.injEq] at hb'
      exact hne (by rw [hb']; simp)
  have hmem : ∀ y, y ∈ (world.children.toList.flatMap fun entry => entry.2.toList) ↔
      y ∈ world.parents.keys := by
    intro y
    rw [List.mem_flatMap, Std.ExtTreeMap.mem_keys, Std.ExtTreeMap.mem_iff_isSome_getElem?,
      Option.isSome_iff_exists]
    constructor
    · rintro ⟨entry, hentry, hy⟩
      rw [hlist entry hentry, h] at hy
      exact ⟨entry.1, hy⟩
    · rintro ⟨p, hp⟩
      have hy := (h p y).mpr hp
      cases hchildren : world.children[p]? with
      | none => simp [ChildMap.list, hchildren] at hy
      | some descendants =>
        simp only [ChildMap.list, hchildren] at hy
        exact ⟨(p, descendants), Std.ExtTreeMap.mem_toList_iff_getElem?_eq_some.mpr hchildren, hy⟩
  have hperm := (List.perm_ext_iff_of_nodup hnodup Std.ExtTreeMap.nodup_keys).mpr hmem
  have hlength := hperm.length_eq
  rw [List.length_flatMap, Std.ExtTreeMap.length_keys] at hlength
  rw [indexedChildren, ← hlength]
  simp only [Std.ExtTreeSet.length_toList]

theorem Consistent.indexError_eq_none (h : world.Consistent) : world.indexError = none := by
  have hentries : world.stableIndex.toList.findSome?
      (fun entry => world.entryError entry.1 entry.2) = none := by
    rw [List.findSome?_eq_none_iff]
    rintro ⟨id, handle⟩ hentry
    have hindex := Std.ExtTreeMap.mem_toList_iff_getElem?_eq_some.mp hentry
    obtain ⟨record, hrecord, hmarker⟩ := h.marked id handle hindex
    have hcached : id ∈ world.worldTransforms :=
      (h.cached id).mpr (Std.ExtTreeMap.mem_iff_isSome_getElem?.mpr (by rw [hindex]; rfl))
    simp [entryError, hrecord, hmarker, hcached]
  have horphans : world.worldTransforms.keys.findSome? world.orphanError = none := by
    rw [List.findSome?_eq_none_iff]
    intro id hid
    simp [orphanError, (h.cached id).mp (Std.ExtTreeMap.mem_keys.mp hid)]
  have hedges : world.parents.toList.findSome?
      (fun edge => world.edgeError edge.1 edge.2) = none := by
    rw [List.findSome?_eq_none_iff]
    rintro ⟨child, parent⟩ hedge
    have hparent := Std.ExtTreeMap.mem_toList_iff_getElem?_eq_some.mp hedge
    obtain ⟨hchild, hlive⟩ := h.edges hparent
    simp [edgeError, hchild, hlive, (h.reciprocal parent child).mpr hparent]
  simp [indexError, h.len_eq, hentries, horphans, hedges, indexedChildren_eq_size h.reciprocal]

theorem validateInvariants_of_consistent (h : world.Consistent) :
    world.validateInvariants = .ok () := by
  obtain ⟨depths, hdepths⟩ := h.topology
  simp [validateInvariants, h.indexError_eq_none, hdepths]

end Consistent

def snapshotComponents (world : AuthoritativeWorld) (handle : ℕ) : List ComponentValue :=
  match world.storage.get? handle with
  | some record => record.components.values
  | none => []

def snapshot (world : AuthoritativeWorld) : Exec WorldInvariantError WorldSnapshot := do
  world.validateInvariants
  .ok {
    revision := world.revision
    entities := world.stableIndex.toList.map fun entry =>
      ⟨entry.1, world.parents[entry.1]?, world.snapshotComponents entry.2⟩ }

theorem Consistent.exists_snapshot {world : AuthoritativeWorld} (h : world.Consistent) :
    ∃ view, world.snapshot = .ok view := by
  rw [snapshot, validateInvariants_of_consistent h]
  exact ⟨_, rfl⟩

end AuthoritativeWorld

/-! ### The canonical hash input -/

def lengthBytes {ε : Type} (message : String) (length : ℕ) : Exec ε (List UInt8) :=
  if length < 2 ^ 32 then .ok (bigEndian 4 length) else .error (.panic message)

def entityIdBytes (entityId : StableEntityId) : List UInt8 := bigEndian 16 entityId.get

def f32Bytes (value : F32) : List UInt8 := bigEndian 4 value.toBits

def PrimitiveShape.tag : PrimitiveShape → UInt8
  | .cuboid => 1
  | .plane => 2
  | .sphere => 3

def LightKind.tag : LightKind → UInt8
  | .directional => 1
  | .point => 2

/-- `update_component`: the hash input of one component value. -/
def ComponentValue.hashBytes {ε : Type} : ComponentValue → Exec ε (List UInt8)
  | .name value => do
    let bytes := value.value.value.toUTF8.toList
    let length ← lengthBytes "validated scene text length fits u32" bytes.length
    .ok (1 :: length ++ bytes)
  | .localTransform value =>
    .ok (2 :: [value.translation.x.get, value.translation.y.get, value.translation.z.get,
      value.rotation.x.get, value.rotation.y.get, value.rotation.z.get, value.rotation.w.get,
      value.scale.x.get, value.scale.y.get, value.scale.z.get].flatMap f32Bytes)
  | .primitive value =>
    .ok (3 :: value.shape.tag ::
      [value.dimensions.x.get, value.dimensions.y.get, value.dimensions.z.get].flatMap f32Bytes)
  | .material value =>
    .ok (4 :: [value.baseColor.r.get, value.baseColor.g.get, value.baseColor.b.get,
      value.baseColor.a.get, value.metallic.get, value.roughness.get].flatMap f32Bytes)
  | .camera value =>
    .ok (5 :: [value.verticalFovRadians.get, value.near.get, value.far.get].flatMap f32Bytes)
  | .light value =>
    .ok (6 :: value.kind.tag :: [value.color.r.get, value.color.g.get, value.color.b.get,
      value.intensity.get].flatMap f32Bytes)
  | .assetMesh value =>
    .ok (7 :: value.contentHash.toList ++ bigEndian 4 value.meshIndex.toNat)

def EntitySnapshot.hashBytes {ε : Type} (entity : EntitySnapshot) : Exec ε (List UInt8) := do
  let parent := match entity.parentId with
    | some parentId => 1 :: entityIdBytes parentId
    | none => [0]
  let count ← lengthBytes "component bound fits u32" entity.components.length
  let components ← entity.components.mapM ComponentValue.hashBytes
  .ok (entityIdBytes entity.entityId ++ parent ++ count ++ components.flatten)

/-- Everything `logical_hash` feeds to SHA-256. -/
def WorldSnapshot.hashBytes {ε : Type} (snapshot : WorldSnapshot) : Exec ε (List UInt8) := do
  let count ← lengthBytes "world entity bound fits u32" snapshot.entities.length
  let entities ← snapshot.entities.mapM EntitySnapshot.hashBytes
  .ok (asciiBytes "cogniform.logical-scene\x00" ++ bigEndian 2 1 ++ count ++ entities.flatten)

def AuthoritativeWorld.logicalHash (sha256 : List UInt8 → Digest) (world : AuthoritativeWorld) :
    Exec WorldInvariantError Digest := do
  let snapshot ← world.snapshot
  let bytes ← snapshot.hashBytes
  .ok (sha256 bytes)

end Cogniform
