import Cogniform.World.Preflight

/-!
# Commit, apply and extraction

The three operations that change a world. In `applyPatch` every refusal comes before the first
write. A call returns the world it leaves behind together with its outcome, on failure too; the
clock readings are arguments. A panic inside `commit` would leave a partly written world; here it
leaves the old one, and that it cannot happen is a theorem.
-/

namespace Cogniform

namespace AuthoritativeWorld

def commitOperation {ε : Type} (world : AuthoritativeWorld) :
    SceneOperation → Exec ε AuthoritativeWorld
  | .create entityId components =>
    let spawned := world.storage.spawn ⟨some entityId, .ofValues components⟩
    if entityId ∈ world.stableIndex then .error (.panic "preflight rejected duplicate stable ID")
    else
      .ok { world with
        storage := spawned.2
        stableIndex := world.stableIndex.insert entityId spawned.1 }
  | .delete entityId => do
    let handle ← Exec.expect "preflight resolved deleted entity" world.stableIndex[entityId]?
    let storage ← Exec.expect "preflight resolved live storage entity"
      (world.storage.despawn handle)
    .ok { world with
      storage := storage
      stableIndex := world.stableIndex.erase entityId }
  | .setComponent entityId component => do
    let handle ← Exec.expect "no entry found for key" world.stableIndex[entityId]?
    let storage ← Exec.expect "preflight resolved live storage entity"
      (world.storage.update handle (StoredRecord.insertOne component))
    .ok { world with storage := storage }
  | .removeComponent entityId component => do
    let handle ← Exec.expect "no entry found for key" world.stableIndex[entityId]?
    let storage ← Exec.expect "preflight resolved present component"
      (world.storage.update handle (StoredRecord.removeOne component))
    .ok { world with storage := storage }
  | .reparent _ _ => .ok world

def install (world : AuthoritativeWorld) (plan : CommitPlan) : AuthoritativeWorld :=
  { world with
    worldTransforms :=
      world.worldTransforms.filter (fun entityId _ => world.stableIndex.contains entityId)
        ∪ plan.transformUpdates
    parents := plan.parents.getD world.parents
    children := plan.children.getD world.children
    transformGeneration := plan.transformGeneration
    revision := plan.newRevision
    pendingRenderChanges := world.pendingRenderChanges ∪ plan.renderChangedIds }

def commit {ε : Type} (world : AuthoritativeWorld) (plan : CommitPlan) :
    Exec ε AuthoritativeWorld := do
  let world ← plan.operations.foldlM commitOperation world
  .ok (world.install plan)

/-! ### Applying a patch -/

inductive Admission where
  | replay (receipt : ApplyReceipt)
  | commit (plan : CommitPlan) (newRevision : SceneRevision) (operationCount : NonZeroU32)

def operationCount {ε : Type} (length : ℕ) : Exec ε NonZeroU32 :=
  if hlt : length < 2 ^ 32 then
    if hpos : 0 < length then .ok ⟨length, hpos, hlt⟩
    else .error (.panic "validated patch is non-empty")
  else .error (.panic "validated operation count fits u32")

theorem operationCount_ok {ε : Type} {length : ℕ} {count : NonZeroU32}
    (h : (operationCount length : Exec ε NonZeroU32) = .ok count) : count.get = length := by
  rw [operationCount] at h
  split at h
  · split at h
    · cases h
      rfl
    · cases h
  · cases h

def admitNew (world : AuthoritativeWorld) (patch : ScenePatch) : Exec WorldApplyError Admission :=
  if world.renderExtractionGeneration.toNat = 2 ^ 64 - 1 then
    Exec.fail .renderExtractionGenerationOverflow
  else if world.config.maxIdempotencyRecords.get ≤ world.idempotencyRecords.size then
    Exec.fail (.idempotencyCapacityExceeded world.config.maxIdempotencyRecords.get)
  else if patch.conflictPolicy = .requireExactBase ∧ patch.baseRevision ≠ world.revision then
    Exec.fail (.baseRevisionMismatch world.revision patch.baseRevision)
  else do
    let newRevision ← Exec.okOr .revisionOverflow world.revision.checkedNext
    let plan ← world.preflight patch newRevision
    let operationCount ← operationCount plan.operations.length
    .ok (.commit plan newRevision operationCount)

def admitPatch (world : AuthoritativeWorld) (patch : ScenePatch) : Exec WorldApplyError Admission :=
  match patch.validate world.config.runtimeLimits with
  | .error error => Exec.fail (.invalidPatch error)
  | .ok () =>
    match world.idempotencyRecords[patch.idempotencyKey]? with
    | some recorded =>
      if recorded.transactionId ≠ patch.transactionId then
        Exec.fail (.idempotencyKeyConflict patch.idempotencyKey recorded.transactionId
          patch.transactionId)
      else .ok (.replay { recorded.receipt with status := .idempotentReplay })
    | none => world.admitNew patch

structure ApplyClock where
  validateMicros : UInt64
  commitMicros : UInt64
  deriving DecidableEq

def receiptOf (patch : ScenePatch) (plan : CommitPlan) (newRevision : SceneRevision)
    (operationCount : NonZeroU32) (estimatedVisibleFrame : FrameId) (clock : ApplyClock) :
    ApplyReceipt where
  schemaVersion := patch.schemaVersion
  transactionId := patch.transactionId
  idempotencyKey := patch.idempotencyKey
  status := .applied
  previousRevision := plan.previousRevision
  newRevision := newRevision
  operationCount := operationCount
  diagnostics := []
  timing := ⟨0, clock.validateMicros, clock.commitMicros⟩
  estimatedVisibleFrame := estimatedVisibleFrame

def record (world : AuthoritativeWorld) (patch : ScenePatch) (receipt : ApplyReceipt) :
    AuthoritativeWorld :=
  { world with
    idempotencyRecords :=
      world.idempotencyRecords.insert patch.idempotencyKey ⟨patch.transactionId, receipt⟩ }

def applyPatch (world : AuthoritativeWorld) (patch : ScenePatch) (estimatedVisibleFrame : FrameId)
    (clock : ApplyClock) : AuthoritativeWorld × Exec WorldApplyError ApplyReceipt :=
  match world.admitPatch patch with
  | .error abort => (world, .error abort)
  | .ok (.replay receipt) => (world, .ok receipt)
  | .ok (.commit plan newRevision operationCount) =>
    match world.commit plan with
    | .error abort => (world, .error abort)
    | .ok committed =>
      let receipt := receiptOf patch plan newRevision operationCount estimatedVisibleFrame clock
      (committed.record patch receipt, .ok receipt)

/-! ### Render extraction -/

def renderComponents (world : AuthoritativeWorld) (handle : ℕ) : RenderComponents :=
  match world.storage.get? handle with
  | some record => record.components.render
  | none => Components.empty.render

def renderEntity (world : AuthoritativeWorld) (entityId : StableEntityId) :
    Exec WorldExtractionError (Option RenderEntity) :=
  match world.stableIndex[entityId]? with
  | none => .ok none
  | some handle =>
    match world.worldTransforms[entityId]? with
    | none => Exec.fail (.invariantViolation ⟨.worldTransformMissing, some entityId⟩)
    | some transform =>
      let components := world.renderComponents handle
      if components.isEmpty then .ok none
      else
        match RenderEntity.new entityId transform.matrix transform.generation components with
        | .ok entity => .ok (some entity)
        | .error error => Exec.fail (.invalidRenderData error)

def renderChange (world : AuthoritativeWorld) (entityId : StableEntityId) :
    Exec WorldExtractionError RenderChange := do
  let entity ← world.renderEntity entityId
  match entity with
  | some entity => .ok (.upsert entity)
  | none => .ok (.remove entityId)

def nextExtraction (world : AuthoritativeWorld) : Exec WorldExtractionError RenderExtraction := do
  world.validateInvariants.mapError .invariantViolation
  let generation ← Exec.okOr .generationOverflow
    (checkedSuccNonZero world.renderExtractionGeneration)
  let changes ← world.pendingRenderChanges.toList.mapM world.renderChange
  match RenderExtraction.new generation world.lastExtractedRevision world.revision changes with
  | .ok extraction => .ok extraction
  | .error error => Exec.fail (.invalidRenderData error)

def drain (world : AuthoritativeWorld) (extraction : RenderExtraction) : AuthoritativeWorld :=
  { world with
    pendingRenderChanges := ∅
    lastExtractedRevision := world.revision
    renderExtractionGeneration := extraction.generation.toUInt64 }

def takeRenderExtraction (world : AuthoritativeWorld) :
    AuthoritativeWorld × Exec WorldExtractionError RenderExtraction :=
  match world.nextExtraction with
  | .error abort => (world, .error abort)
  | .ok extraction => (world.drain extraction, .ok extraction)

end AuthoritativeWorld

inductive WorldCall where
  | applyPatch (patch : ScenePatch) (estimatedVisibleFrame : FrameId)
      (clock : AuthoritativeWorld.ApplyClock)
  | takeRenderExtraction

namespace AuthoritativeWorld

def after (world : AuthoritativeWorld) : WorldCall → AuthoritativeWorld
  | .applyPatch patch frame clock => (world.applyPatch patch frame clock).1
  | .takeRenderExtraction => world.takeRenderExtraction.1

inductive Reachable (config : WorldConfig) : AuthoritativeWorld → Prop where
  | new : Reachable config (new config)
  | call {world : AuthoritativeWorld} (h : Reachable config world) (call : WorldCall) :
      Reachable config (world.after call)

end AuthoritativeWorld

end Cogniform
