import Cogniform.World.State

/-!
# Preflight

The part of `apply_patch` that decides whether a patch can be committed, without touching the world.
Operations run in order against an overlay of what they name. When every operation passes, the final
hierarchy is checked, the transforms are recomputed and the pending render set is bounded; the
result is a plan that commit carries out.
-/

namespace Cogniform

inductive Cow (α : Type) where
  | borrowed (value : α)
  | owned (value : α)

def Cow.get {α : Type} : Cow α → α
  | .borrowed value | .owned value => value

def Cow.modify {α : Type} (cow : Cow α) (change : α → α) : Cow α := .owned (change cow.get)

@[simp] theorem Cow.get_modify {α : Type} (cow : Cow α) (change : α → α) :
    (cow.modify change).get = change cow.get := rfl

structure EntityState where
  live : Bool
  components : ComponentMask
  deriving DecidableEq

def EntityState.missing : EntityState := ⟨false, .empty⟩

structure CommitPlan where
  previousRevision : SceneRevision
  newRevision : SceneRevision
  operations : List SceneOperation
  parents : Option ParentMap
  children : Option ChildMap
  transformUpdates : Std.ExtTreeMap StableEntityId WorldTransform
  transformGeneration : UInt64
  renderChangedIds : EntitySet

structure PreflightState where
  overlay : Std.ExtTreeMap StableEntityId EntityState
  parents : Cow ParentMap
  localOverrides : Std.ExtTreeMap StableEntityId (Option LocalTransform)
  dirtyRoots : EntitySet
  renderChangedIds : EntitySet
  hierarchyChanged : Bool
  liveEntities : ℕ
  operations : List SceneOperation

def ChildMap.insertEdge (children : ChildMap) (child parent : StableEntityId) : ChildMap :=
  children.insert parent ((children[parent]?.getD ∅).insert child)

def ParentMap.setParent (parents : ParentMap) (entityId : StableEntityId) :
    Option StableEntityId → ParentMap
  | some parentId => parents.insert entityId parentId
  | none => parents.erase entityId

def ParentMap.rebuildChildren (parents : ParentMap) : ChildMap :=
  parents.toList.foldl (fun children edge => children.insertEdge edge.1 edge.2) ∅

namespace AuthoritativeWorld

variable (world : AuthoritativeWorld)

def storedEntityState (entityId : StableEntityId) : Exec WorldApplyError EntityState :=
  match world.stableIndex[entityId]? with
  | none => .ok .missing
  | some handle =>
    match world.storage.get? handle with
    | none => Exec.fail (.invariantViolation ⟨.missingStorageEntity, some entityId⟩)
    | some record =>
      if record.stableId ≠ some entityId then
        Exec.fail (.invariantViolation ⟨.stableIdMismatch, some entityId⟩)
      else .ok ⟨true, .ofComponents record.components⟩

def overlayState (overlay : Std.ExtTreeMap StableEntityId EntityState)
    (entityId : StableEntityId) : Exec WorldApplyError EntityState :=
  match overlay[entityId]? with
  | some state => .ok state
  | none => world.storedEntityState entityId

def effectiveLocalTransform (overrides : Std.ExtTreeMap StableEntityId (Option LocalTransform))
    (entityId : StableEntityId) : Option LocalTransform :=
  match overrides[entityId]? with
  | some value => value
  | none => (world.record? entityId).bind fun record => record.components.localTransform

/-! ### Operations -/

def preflightCreate (state : PreflightState) (entityId : StableEntityId)
    (components : List ComponentValue) (operationIndex : ℕ) :
    Exec WorldApplyError PreflightState := do
  let entity ← world.overlayState state.overlay entityId
  if entity.live then Exec.fail (.entityAlreadyExists operationIndex entityId)
  else if 2 ^ 32 ≤ state.liveEntities + 1 ∨ world.config.maxEntities.get < state.liveEntities + 1 then
    Exec.fail (.entityCapacityExceeded operationIndex entityId world.config.maxEntities.get)
  else
    .ok { state with
      liveEntities := state.liveEntities + 1
      overlay := state.overlay.insert entityId ⟨true, .fromValues components⟩
      hierarchyChanged := true
      localOverrides := state.localOverrides.insert entityId (findLocalTransform components)
      dirtyRoots := state.dirtyRoots.insert entityId
      renderChangedIds := state.renderChangedIds.insert entityId }

def preflightDelete (state : PreflightState) (entityId : StableEntityId) (operationIndex : ℕ) :
    Exec WorldApplyError PreflightState := do
  let entity ← world.overlayState state.overlay entityId
  if !entity.live then Exec.fail (.entityNotFound operationIndex entityId)
  else if state.liveEntities = 0 then
    .error (.panic "preflight live count follows entity state")
  else
    .ok { state with
      liveEntities := state.liveEntities - 1
      overlay := state.overlay.insert entityId .missing
      parents := if entityId ∈ state.parents.get then state.parents.modify (·.erase entityId)
        else state.parents
      hierarchyChanged := true
      localOverrides := state.localOverrides.erase entityId
      dirtyRoots := state.dirtyRoots.erase entityId
      renderChangedIds := state.renderChangedIds.insert entityId }

def overrideTransform (state : PreflightState) (entityId : StableEntityId)
    (component : ComponentValue) : PreflightState :=
  match component with
  | .localTransform value =>
    { state with
      dirtyRoots :=
        if world.effectiveLocalTransform state.localOverrides entityId ≠ some value then
          state.dirtyRoots.insert entityId
        else state.dirtyRoots
      localOverrides := state.localOverrides.insert entityId (some value) }
  | _ => state

def preflightSet (state : PreflightState) (entityId : StableEntityId) (component : ComponentValue)
    (operationIndex : ℕ) : Exec WorldApplyError PreflightState := do
  let entity ← world.overlayState state.overlay entityId
  if !entity.live then Exec.fail (.entityNotFound operationIndex entityId)
  else
    let state := world.overrideTransform state entityId component
    .ok { state with
      renderChangedIds :=
        if component.kind ≠ .name then state.renderChangedIds.insert entityId
        else state.renderChangedIds
      overlay := state.overlay.insert entityId
        { entity with components := entity.components.insert component.kind } }

def preflightRemove (state : PreflightState) (entityId : StableEntityId)
    (component : ComponentKind) (operationIndex : ℕ) : Exec WorldApplyError PreflightState := do
  let entity ← world.overlayState state.overlay entityId
  if !entity.live then Exec.fail (.entityNotFound operationIndex entityId)
  else if !entity.components.contains component then
    Exec.fail (.componentNotFound operationIndex entityId component)
  else
    .ok { state with
      localOverrides :=
        if component = .localTransform then state.localOverrides.insert entityId none
        else state.localOverrides
      dirtyRoots :=
        if component = .localTransform then state.dirtyRoots.insert entityId else state.dirtyRoots
      renderChangedIds :=
        if component ≠ .name then state.renderChangedIds.insert entityId
        else state.renderChangedIds
      overlay := state.overlay.insert entityId
        { entity with components := entity.components.remove component } }

def checkParent (state : PreflightState) (parentId : Option StableEntityId) (operationIndex : ℕ) :
    Exec WorldApplyError Unit :=
  match parentId with
  | none => .ok ()
  | some parentId => do
    let parent ← world.overlayState state.overlay parentId
    if !parent.live then Exec.fail (.entityNotFound operationIndex parentId) else .ok ()

def writeParent (state : PreflightState) (entityId : StableEntityId)
    (parentId : Option StableEntityId) : PreflightState :=
  if state.parents.get[entityId]? ≠ parentId then
    { state with
      parents := state.parents.modify fun parents => parents.setParent entityId parentId
      dirtyRoots := state.dirtyRoots.insert entityId
      hierarchyChanged := true }
  else state

def preflightReparent (state : PreflightState) (entityId : StableEntityId)
    (parentId : Option StableEntityId) (operationIndex : ℕ) :
    Exec WorldApplyError PreflightState := do
  let entity ← world.overlayState state.overlay entityId
  if !entity.live then Exec.fail (.entityNotFound operationIndex entityId)
  else
    world.checkParent state parentId operationIndex
    .ok (writeParent state entityId parentId)

def preflightOperation (state : PreflightState) (operation : SceneOperation)
    (operationIndex : ℕ) : Exec WorldApplyError PreflightState :=
  match operation with
  | .create entityId components => world.preflightCreate state entityId components operationIndex
  | .delete entityId => world.preflightDelete state entityId operationIndex
  | .setComponent entityId component => world.preflightSet state entityId component operationIndex
  | .removeComponent entityId component =>
    world.preflightRemove state entityId component operationIndex
  | .reparent entityId parentId => world.preflightReparent state entityId parentId operationIndex

def preflightOperations : List SceneOperation → ℕ → PreflightState →
    Exec WorldApplyError PreflightState
  | [], _, state => .ok state
  | operation :: operations, position, state =>
    if 2 ^ 32 ≤ position then .error (.panic "validated operation count fits u32")
    else do
      let state ← world.preflightOperation state operation position
      preflightOperations operations (position + 1)
        { state with operations := state.operations ++ [operation] }

/-! ### The final state -/

def overlayLiveIds (overlay : Std.ExtTreeMap StableEntityId EntityState) : EntitySet :=
  overlay.toList.foldl
    (fun liveIds entry => if entry.2.live then liveIds.insert entry.1 else liveIds.erase entry.1)
    world.liveIds

def composeWorldTransform (entityId : StableEntityId) (transform : WorldTransform)
    (generation : UInt64) (parents : ParentMap)
    (updates : Std.ExtTreeMap StableEntityId WorldTransform) :
    Exec WorldApplyError WorldTransform :=
  match parents[entityId]? with
  | none => .ok transform
  | some parentId =>
    match updates[parentId]?.or world.worldTransforms[parentId]? with
    | none => Exec.fail (.invariantViolation ⟨.worldTransformMissing, some parentId⟩)
    | some parent => Exec.okOr (.transformOverflow entityId) (parent.compose transform generation)

def updateTransform (parents : ParentMap)
    (localOverrides : Std.ExtTreeMap StableEntityId (Option LocalTransform)) (generation : UInt64)
    (updates : Std.ExtTreeMap StableEntityId WorldTransform) (entityId : StableEntityId) :
    Exec WorldApplyError (Std.ExtTreeMap StableEntityId WorldTransform) := do
  let transform ← Exec.okOr (.transformOverflow entityId)
    (WorldTransform.fromLocal (world.effectiveLocalTransform localOverrides entityId) generation)
  let composed ← world.composeWorldTransform entityId transform generation parents updates
  .ok (updates.insert entityId composed)

def nextTransformGeneration (ordered : List StableEntityId) : Exec WorldApplyError UInt64 :=
  if ordered.isEmpty then .ok world.transformGeneration
  else Exec.okOr .transformGenerationOverflow (checkedSucc world.transformGeneration)

def planTransformUpdates (parents : ParentMap) (children : ChildMap)
    (localOverrides : Std.ExtTreeMap StableEntityId (Option LocalTransform))
    (dirtyRoots : EntitySet) :
    Exec WorldApplyError (Std.ExtTreeMap StableEntityId WorldTransform × UInt64) :=
  match affectedEntities parents children dirtyRoots with
  | none => .error .diverge
  | some ordered => do
    let generation ← world.nextTransformGeneration ordered
    let updates ←
      ordered.foldlM (world.updateTransform parents localOverrides generation) ∅
    .ok (updates, generation)

def checkHierarchy (state : PreflightState) : Exec WorldApplyError (Option ChildMap) :=
  if state.hierarchyChanged then do
    let _ ← hierarchyDepths (world.overlayLiveIds state.overlay) state.parents.get
      world.config.maxHierarchyDepth.get
    .ok (some state.parents.get.rebuildChildren)
  else .ok none

def completePreflight (state : PreflightState) (newRevision : SceneRevision) :
    Exec WorldApplyError CommitPlan := do
  let rebuiltChildren ← world.checkHierarchy state
  let (transformUpdates, transformGeneration) ← world.planTransformUpdates state.parents.get
    (rebuiltChildren.getD world.children) state.localOverrides state.dirtyRoots
  let renderChangedIds := state.renderChangedIds.insertMany transformUpdates.keys
  if world.config.maxPendingRenderChanges.get <
      (world.pendingRenderChanges ∪ renderChangedIds).size then
    Exec.fail (.renderExtractionCapacityExceeded world.config.maxPendingRenderChanges.get)
  else
    .ok {
      previousRevision := world.revision
      newRevision := newRevision
      operations := state.operations
      parents := match state.parents with
        | .borrowed _ => none
        | .owned parents => some parents
      children := rebuiltChildren
      transformUpdates := transformUpdates
      transformGeneration := transformGeneration
      renderChangedIds := renderChangedIds }

def initialPreflight : PreflightState where
  overlay := ∅
  parents := .borrowed world.parents
  localOverrides := ∅
  dirtyRoots := ∅
  renderChangedIds := ∅
  hierarchyChanged := false
  liveEntities := world.stableIndex.size
  operations := []

def preflight (patch : ScenePatch) (newRevision : SceneRevision) :
    Exec WorldApplyError CommitPlan :=
  if 2 ^ 32 ≤ world.stableIndex.size then
    Exec.fail (.invariantViolation ⟨.entityCountMismatch, none⟩)
  else do
    let state ← world.preflightOperations patch.operations 0 world.initialPreflight
    world.completePreflight state newRevision

end AuthoritativeWorld

end Cogniform
