import Cogniform.World.Invariant

/-!
# Operational state

No logical query reads the identities that wait for a renderer, the two extraction counters and the
retained receipts. Preflight and commit depend on them in one place only, the bound on the pending
set. So two worlds that differ in nothing else accept the same patches and leave the same scene,
unless the bound stops one of them.
-/

namespace Cogniform

structure Operational where
  pendingRenderChanges : EntitySet
  lastExtractedRevision : SceneRevision
  renderExtractionGeneration : UInt64
  idempotencyRecords : Std.ExtTreeMap IdempotencyKey RecordedApply

namespace AuthoritativeWorld

variable {world : AuthoritativeWorld} {operational : Operational} {patch : ScenePatch}
  {newRevision : SceneRevision} {plan : CommitPlan}

def withOperational (world : AuthoritativeWorld) (operational : Operational) :
    AuthoritativeWorld :=
  { world with
    pendingRenderChanges := operational.pendingRenderChanges
    lastExtractedRevision := operational.lastExtractedRevision
    renderExtractionGeneration := operational.renderExtractionGeneration
    idempotencyRecords := operational.idempotencyRecords }

def operationalState (world : AuthoritativeWorld) : Operational :=
  ⟨world.pendingRenderChanges, world.lastExtractedRevision, world.renderExtractionGeneration,
    world.idempotencyRecords⟩

/-! ### Preflight -/

def draftState (world : AuthoritativeWorld) (state : PreflightState) (newRevision : SceneRevision) :
    Exec WorldApplyError CommitPlan := do
  let rebuiltChildren ← world.checkHierarchy state
  let (transformUpdates, transformGeneration) ← world.planTransformUpdates state.parents.get
    (rebuiltChildren.getD world.children) state.localOverrides state.dirtyRoots
  .ok {
    previousRevision := world.revision
    newRevision := newRevision
    operations := state.operations
    parents := match state.parents with
      | .borrowed _ => none
      | .owned parents => some parents
    children := rebuiltChildren
    transformUpdates := transformUpdates
    transformGeneration := transformGeneration
    renderChangedIds := state.renderChangedIds.insertMany transformUpdates.keys }

def draft (world : AuthoritativeWorld) (patch : ScenePatch) (newRevision : SceneRevision) :
    Exec WorldApplyError CommitPlan :=
  if 2 ^ 32 ≤ world.stableIndex.size then
    Exec.fail (.invariantViolation ⟨.entityCountMismatch, none⟩)
  else do
    let state ← world.preflightOperations patch.operations 0 world.initialPreflight
    world.draftState state newRevision

def boundPending (world : AuthoritativeWorld) (plan : CommitPlan) :
    Exec WorldApplyError CommitPlan :=
  if world.config.maxPendingRenderChanges.get <
      (world.pendingRenderChanges ∪ plan.renderChangedIds).size then
    Exec.fail (.renderExtractionCapacityExceeded world.config.maxPendingRenderChanges.get)
  else .ok plan

theorem completePreflight_eq (state : PreflightState) :
    world.completePreflight state newRevision =
      world.draftState state newRevision >>= world.boundPending := by
  rw [completePreflight, draftState]
  cases world.checkHierarchy state with
  | error abort => rfl
  | ok rebuilt =>
    rw [Exec.ok_bind, Exec.ok_bind]
    cases world.planTransformUpdates state.parents.get (rebuilt.getD world.children)
        state.localOverrides state.dirtyRoots with
    | error abort => rfl
    | ok planned => rfl

theorem preflight_eq :
    world.preflight patch newRevision = world.draft patch newRevision >>= world.boundPending := by
  rw [preflight, draft]
  split
  · rfl
  · cases world.preflightOperations patch.operations 0 world.initialPreflight with
    | error abort => rfl
    | ok state => exact completePreflight_eq state

theorem preflightOperations_withOperational (operations : List SceneOperation) :
    ∀ (position : ℕ) (state : PreflightState),
      (world.withOperational operational).preflightOperations operations position state =
        world.preflightOperations operations position state := by
  induction operations with
  | nil => exact fun _ _ => rfl
  | cons operation operations ih =>
    intro position state
    rw [preflightOperations, preflightOperations]
    simp only [ih]
    rfl

theorem draft_withOperational :
    (world.withOperational operational).draft patch newRevision = world.draft patch newRevision := by
  rw [draft, draft, preflightOperations_withOperational]
  rfl

theorem preflight_withOperational (h : world.preflight patch newRevision = .ok plan) :
    (world.withOperational operational).preflight patch newRevision =
      (world.withOperational operational).boundPending plan := by
  rw [preflight_eq] at h
  obtain ⟨draft, hdraft, hbound⟩ := Exec.bind_eq_ok.mp h
  rw [boundPending] at hbound
  split at hbound
  · cases hbound
  · cases hbound
    rw [preflight_eq, draft_withOperational, hdraft, Exec.ok_bind]

theorem commitOperation_withOperational {ε : Type} (operation : SceneOperation) :
    (commitOperation (world.withOperational operational) operation : Exec ε AuthoritativeWorld) =
      (commitOperation world operation).map (·.withOperational operational) := by
  cases operation with
  | create entityId components =>
    rw [commitOperation, commitOperation]
    change (if entityId ∈ world.stableIndex then _ else _) = _
    split <;> rfl
  | delete entityId =>
    rw [commitOperation, commitOperation]
    change (do let handle ← Exec.expect _ world.stableIndex[entityId]?; _) = _
    cases world.stableIndex[entityId]? with
    | none => rfl
    | some handle =>
      change (do let storage ← Exec.expect _ (world.storage.despawn handle); _) =
        Except.map _ (do let storage ← Exec.expect _ (world.storage.despawn handle); _)
      cases world.storage.despawn handle <;> rfl
  | setComponent entityId component =>
    rw [commitOperation, commitOperation]
    change (do let handle ← Exec.expect _ world.stableIndex[entityId]?; _) = _
    cases world.stableIndex[entityId]? with
    | none => rfl
    | some handle =>
      change (do let storage ← Exec.expect _ (world.storage.update handle _); _) =
        Except.map _ (do let storage ← Exec.expect _ (world.storage.update handle _); _)
      cases world.storage.update handle (StoredRecord.insertOne component) <;> rfl
  | removeComponent entityId component =>
    rw [commitOperation, commitOperation]
    change (do let handle ← Exec.expect _ world.stableIndex[entityId]?; _) = _
    cases world.stableIndex[entityId]? with
    | none => rfl
    | some handle =>
      change (do let storage ← Exec.expect _ (world.storage.update handle _); _) =
        Except.map _ (do let storage ← Exec.expect _ (world.storage.update handle _); _)
      cases world.storage.update handle (StoredRecord.removeOne component) <;> rfl
  | reparent entityId parentId => rfl

theorem commitOperations_withOperational {ε : Type} (operations : List SceneOperation) :
    ∀ world : AuthoritativeWorld,
      (operations.foldlM commitOperation (world.withOperational operational) :
        Exec ε AuthoritativeWorld) =
        (operations.foldlM commitOperation world).map (·.withOperational operational) := by
  induction operations with
  | nil => exact fun _ => rfl
  | cons operation operations ih =>
    intro world
    rw [List.foldlM_cons, List.foldlM_cons, commitOperation_withOperational]
    cases (commitOperation world operation : Exec ε AuthoritativeWorld) with
    | error abort => rfl
    | ok middle => exact ih middle

theorem commit_withOperational {ε : Type} {storage : Arena StoredRecord}
    {index : Std.ExtTreeMap StableEntityId ℕ}
    (h : (world.commit plan : Exec ε AuthoritativeWorld) =
      .ok (world.committed plan storage index)) :
    ((world.withOperational operational).commit plan : Exec ε AuthoritativeWorld) =
      .ok ((world.withOperational operational).committed plan storage index) := by
  rw [commit] at h ⊢
  obtain ⟨stored, hstored, h⟩ := Exec.bind_eq_ok.mp h
  rw [commitOperations_withOperational, hstored]
  -- `install` writes the same into both, and every other field but the operational ones is in `h`
  have hinstall := Except.ok.inj h
  change Except.ok ((stored.withOperational operational).install plan) = _
  simp only [committed, install, withOperational, mk.injEq, Except.ok.injEq, true_and]
    at hinstall ⊢
  obtain ⟨hstorage, hindex, hparents, hchildren, htransforms, -, -, -, -, hconfig⟩ := hinstall
  exact ⟨hstorage, hindex, hparents, hchildren, htransforms, hconfig⟩

theorem admitPatch_eq (hvalid : patch.validate world.config.runtimeLimits = .ok ())
    (hfresh : world.idempotencyRecords[patch.idempotencyKey]? = none)
    (hgeneration : world.renderExtractionGeneration.toNat ≠ 2 ^ 64 - 1)
    (hcapacity : world.idempotencyRecords.size < world.config.maxIdempotencyRecords.get)
    (hbase : patch.conflictPolicy = .requireExactBase → patch.baseRevision = world.revision)
    (hnext : world.revision.checkedNext = some newRevision) :
    world.admitPatch patch = (do
      let plan ← world.preflight patch newRevision
      let operationCount ← operationCount plan.operations.length
      .ok (.commit plan newRevision operationCount)) := by
  rw [admitPatch, hvalid]
  simp only [hfresh]
  rw [admitNew, if_neg hgeneration, if_neg (Nat.not_le.mpr hcapacity),
    if_neg fun hconflict => hconflict.2 (hbase hconflict.1), hnext, Exec.okOr_some, Exec.ok_bind]

/-- **An accepted patch on a world with other operational state.** When that state has no record of
the key and room for one, the same plan is committed, unless the pending set would outgrow its
bound. -/
theorem applyPatch_withOperational {count : NonZeroU32} {scene : Scene}
    {storage : Arena StoredRecord} {index : Std.ExtTreeMap StableEntityId ℕ}
    (h : Accepted world patch plan newRevision count scene storage index)
    (hfresh : operational.idempotencyRecords[patch.idempotencyKey]? = none)
    (hgeneration : operational.renderExtractionGeneration.toNat ≠ 2 ^ 64 - 1)
    (hsize : operational.idempotencyRecords.size = world.idempotencyRecords.size)
    (frame : FrameId) (clock : ApplyClock) :
    (world.withOperational operational).applyPatch patch frame clock =
      if world.config.maxPendingRenderChanges.get <
          (operational.pendingRenderChanges ∪ plan.renderChangedIds).size then
        (world.withOperational operational,
          Exec.fail (.renderExtractionCapacityExceeded world.config.maxPendingRenderChanges.get))
      else
        (((world.withOperational operational).committed plan storage index).record patch
            (receiptOf patch plan newRevision count frame clock),
          .ok (receiptOf patch plan newRevision count frame clock)) := by
  have hcapacity : (world.withOperational operational).idempotencyRecords.size <
      (world.withOperational operational).config.maxIdempotencyRecords.get :=
    hsize.trans_lt h.capacity
  have hplan := @admitPatch_eq (world.withOperational operational) patch newRevision h.valid hfresh
    hgeneration hcapacity h.base h.revision
  rw [preflight_withOperational h.preflight] at hplan
  have hcommit : ((world.withOperational operational).commit plan :
      Exec WorldApplyError AuthoritativeWorld) =
      .ok ((world.withOperational operational).committed plan storage index) :=
    commit_withOperational h.commit
  by_cases hbound : world.config.maxPendingRenderChanges.get <
      (operational.pendingRenderChanges ∪ plan.renderChangedIds).size
  · have hfail : (world.withOperational operational).boundPending plan =
        Exec.fail (.renderExtractionCapacityExceeded world.config.maxPendingRenderChanges.get) :=
      if_pos hbound
    rw [hfail, Exec.fail, Exec.error_bind] at hplan
    rw [if_pos hbound, applyPatch, hplan]
    rfl
  · have hok : (world.withOperational operational).boundPending plan = .ok plan := if_neg hbound
    rw [hok, Exec.ok_bind, h.count, Exec.ok_bind] at hplan
    rw [if_neg hbound, applyPatch, hplan]
    simp only [hcommit]

end AuthoritativeWorld

def SceneOperation.target : SceneOperation → StableEntityId
  | .create entityId _ | .delete entityId | .setComponent entityId _ | .removeComponent entityId _
  | .reparent entityId _ => entityId

def SceneOperation.created? : SceneOperation → Option StableEntityId
  | .create entityId _ => some entityId
  | _ => none

def Creates (operations : List SceneOperation) (id : StableEntityId) : Prop :=
  ∃ operation ∈ operations, operation.created? = some id

theorem Creates.cons {operation : SceneOperation} {operations : List SceneOperation}
    {id : StableEntityId} :
    Creates (operation :: operations) id ↔ operation.created? = some id ∨ Creates operations id := by
  simp [Creates]

namespace Scene

variable {maxEntities : ℕ} {scene scene' : Scene} {operation : SceneOperation} {id : StableEntityId}

theorem step_created (h : scene.step maxEntities operation = .ok scene') :
    (operation.target ∈ scene.entities ∨ operation.created? = some operation.target) ∧
      ∀ id ∈ scene'.entities, id ∈ scene.entities ∨ operation.created? = some id := by
  cases operation with
  | create entityId components =>
    rw [step] at h
    split at h
    · cases h
    split at h
    · cases h
    cases h
    refine ⟨.inr rfl, fun id hid => ?_⟩
    rcases TreeMap.mem_insert.mp hid with rfl | hid
    · exact .inr rfl
    · exact .inl hid
  | delete entityId =>
    rw [step] at h
    split at h
    · cases h
    rename_i hlive
    cases h
    exact ⟨.inl (Decidable.not_not.mp hlive), fun id hid => .inl (TreeMap.mem_erase.mp hid).2⟩
  | setComponent entityId component =>
    rw [step] at h
    split at h
    · cases h
    rename_i hget
    cases h
    refine ⟨.inl (TreeMap.mem_of_get hget), fun id hid => .inl ?_⟩
    rcases TreeMap.mem_insert.mp hid with rfl | hid
    · exact TreeMap.mem_of_get hget
    · exact hid
  | removeComponent entityId component =>
    rw [step] at h
    split at h
    · cases h
    rename_i hget
    split at h
    · cases h
      refine ⟨.inl (TreeMap.mem_of_get hget), fun id hid => .inl ?_⟩
      rcases TreeMap.mem_insert.mp hid with rfl | hid
      · exact TreeMap.mem_of_get hget
      · exact hid
    · cases h
  | reparent entityId parentId =>
    cases parentId with
    | none =>
      rw [step] at h
      split at h
      · cases h
      rename_i hlive
      cases h
      exact ⟨.inl (Decidable.not_not.mp hlive), fun id hid => .inl hid⟩
    | some parentId =>
      rw [step] at h
      split at h
      · cases h
      rename_i hlive
      split at h
      · cases h
      cases h
      exact ⟨.inl (Decidable.not_not.mp hlive), fun id hid => .inl hid⟩

theorem run_created {operations : List SceneOperation} :
    ∀ {scene : Scene}, scene.run maxEntities operations = .ok scene' →
      (∀ operation ∈ operations, operation.target ∈ scene.entities ∨
        Creates operations operation.target) ∧
      ∀ id ∈ scene'.entities, id ∈ scene.entities ∨ Creates operations id := by
  induction operations with
  | nil =>
    intro scene h
    cases h
    exact ⟨by simp, fun id hid => .inl hid⟩
  | cons operation operations ih =>
    intro scene h
    rw [run, List.foldlM_cons] at h
    cases hstep : scene.step maxEntities operation with
    | error obstacle => rw [hstep] at h; cases h
    | ok middle =>
      rw [hstep] at h
      obtain ⟨htarget, hbrought⟩ := step_created hstep
      obtain ⟨htargets, hrest⟩ := ih h
      -- what is live or created after the first operation is live or created before it
      have hback : ∀ id, id ∈ middle.entities ∨ Creates operations id →
          id ∈ scene.entities ∨ Creates (operation :: operations) id := by
        rintro id (hid | hid)
        · exact (hbrought id hid).imp_right fun hcreated => Creates.cons.mpr (.inl hcreated)
        · exact .inr (Creates.cons.mpr (.inr hid))
      refine ⟨fun other hother => ?_, fun id hid => hback id (hrest id hid)⟩
      rcases List.mem_cons.mp hother with rfl | hother
      · exact htarget.imp_right fun hcreated => Creates.cons.mpr (.inl hcreated)
      · exact hback _ (htargets other hother)

end Scene

/-! ### What a patch makes pending -/

namespace AuthoritativeWorld

variable {world : AuthoritativeWorld} {state state' : PreflightState} {operation : SceneOperation}
  {operationIndex : ℕ}

structure Renders (state state' : PreflightState) (operation : SceneOperation) : Prop where
  mono : ∀ id ∈ state.renderChangedIds, id ∈ state'.renderChangedIds
  added : ∀ id ∈ state'.renderChangedIds, id ∈ state.renderChangedIds ∨ id = operation.target
  created : ∀ id, operation.created? = some id → id ∈ state'.renderChangedIds

theorem Renders.insert (hrender : state'.renderChangedIds =
    state.renderChangedIds.insert operation.target) : Renders state state' operation := by
  refine ⟨fun id hid => ?_, fun id hid => ?_, fun id hid => ?_⟩
  · rw [hrender]
    exact TreeSet.mem_insert.mpr (.inr hid)
  · rw [hrender] at hid
    exact (TreeSet.mem_insert.mp hid).symm
  · rw [hrender]
    refine TreeSet.mem_insert.mpr (.inl ?_)
    cases operation with
    | create entityId components => exact (Option.some.inj hid).symm
    | _ => cases hid

theorem Renders.same (hcreated : operation.created? = none)
    (hrender : state'.renderChangedIds = state.renderChangedIds) :
    Renders state state' operation := by
  refine ⟨fun id hid => hrender ▸ hid, fun id hid => .inl (hrender ▸ hid), fun id hid => ?_⟩
  rw [hcreated] at hid
  cases hid

theorem overrideTransform_renderChangedIds (state : PreflightState) (entityId : StableEntityId)
    (component : ComponentValue) :
    (world.overrideTransform state entityId component).renderChangedIds =
      state.renderChangedIds := by
  cases component <;> rfl

theorem preflightOperation_renders
    (h : world.preflightOperation state operation operationIndex = .ok state') :
    Renders state state' operation := by
  cases operation with
  | create entityId components =>
    rw [preflightOperation, preflightCreate] at h
    obtain ⟨entity, -, h⟩ := Exec.bind_eq_ok.mp h
    split at h
    · cases h
    split at h
    · cases h
    cases h
    exact .insert rfl
  | delete entityId =>
    rw [preflightOperation, preflightDelete] at h
    obtain ⟨entity, -, h⟩ := Exec.bind_eq_ok.mp h
    split at h
    · cases h
    split at h
    · cases h
    cases h
    exact .insert rfl
  | setComponent entityId component =>
    rw [preflightOperation, preflightSet] at h
    obtain ⟨entity, -, h⟩ := Exec.bind_eq_ok.mp h
    split at h
    · cases h
    cases h
    by_cases hname : component.kind ≠ .name
    · exact .insert (by simp only [if_pos hname, overrideTransform_renderChangedIds]; rfl)
    · exact .same rfl (by simp only [if_neg hname, overrideTransform_renderChangedIds])
  | removeComponent entityId component =>
    rw [preflightOperation, preflightRemove] at h
    obtain ⟨entity, -, h⟩ := Exec.bind_eq_ok.mp h
    split at h
    · cases h
    split at h
    · cases h
    cases h
    by_cases hname : component ≠ .name
    · exact .insert (by simp only [if_pos hname]; rfl)
    · exact .same rfl (by simp only [if_neg hname])
  | reparent entityId parentId =>
    rw [preflightOperation, preflightReparent] at h
    obtain ⟨entity, -, h⟩ := Exec.bind_eq_ok.mp h
    split at h
    · cases h
    obtain ⟨_, -, h⟩ := Exec.bind_eq_ok.mp h
    cases h
    refine .same rfl ?_
    rw [writeParent]
    split <;> rfl

theorem preflightOperations_renders {operations : List SceneOperation} :
    ∀ {position : ℕ} {state : PreflightState},
      world.preflightOperations operations position state = .ok state' →
      (∀ id ∈ state.renderChangedIds, id ∈ state'.renderChangedIds) ∧
        (∀ id ∈ state'.renderChangedIds, id ∈ state.renderChangedIds ∨
          ∃ operation ∈ operations, id = operation.target) ∧
        ∀ id, Creates operations id → id ∈ state'.renderChangedIds := by
  induction operations with
  | nil =>
    intro position state h
    cases h
    exact ⟨fun _ hid => hid, fun _ hid => .inl hid, by simp [Creates]⟩
  | cons operation operations ih =>
    intro position state h
    rw [preflightOperations] at h
    split at h
    · cases h
    obtain ⟨middle, hmiddle, h⟩ := Exec.bind_eq_ok.mp h
    have hfirst := preflightOperation_renders hmiddle
    obtain ⟨hmono, hadded, hcreated⟩ := ih h
    refine ⟨fun id hid => hmono id (hfirst.mono id hid), fun id hid => ?_, fun id hid => ?_⟩
    · rcases hadded id hid with hid | ⟨other, hother, rfl⟩
      · refine (hfirst.added id hid).imp_right fun heq => ⟨operation, by simp, heq⟩
      · exact .inr ⟨other, by simp [hother], rfl⟩
    · rcases Creates.cons.mp hid with hid | hid
      · exact hmono id (hfirst.created id hid)
      · exact hcreated id hid

section Accepted

variable {patch : ScenePatch} {plan : CommitPlan} {newRevision : SceneRevision}
  {count : NonZeroU32} {scene : Scene} {storage : Arena StoredRecord}
  {index : Std.ExtTreeMap StableEntityId ℕ}

theorem preflight_render (h : world.preflight patch newRevision = .ok plan) :
    ∃ state, world.preflightOperations patch.operations 0 world.initialPreflight = .ok state ∧
      ∀ id, id ∈ plan.renderChangedIds ↔
        id ∈ state.renderChangedIds ∨ id ∈ plan.transformUpdates := by
  rw [preflight] at h
  split at h
  · cases h
  obtain ⟨state, hstate, h⟩ := Exec.bind_eq_ok.mp h
  refine ⟨state, hstate, ?_⟩
  rw [completePreflight] at h
  obtain ⟨rebuilt, -, h⟩ := Exec.bind_eq_ok.mp h
  obtain ⟨⟨updates, generation⟩, -, h⟩ := Exec.bind_eq_ok.mp h
  simp only at h
  split at h
  · cases h
  cases h
  intro id
  simp [Std.ExtTreeSet.mem_insertMany_list, Std.ExtTreeMap.mem_keys]

theorem Accepted.mem_renderChangedIds
    (h : Accepted world patch plan newRevision count scene storage index) :
    ∀ id ∈ plan.renderChangedIds, id ∈ world.scene.entities ∨ Creates patch.operations id := by
  intro id hid
  obtain ⟨htargets, hfinal⟩ := Scene.run_created h.run
  obtain ⟨state, hstate, hrender⟩ := preflight_render h.preflight
  obtain ⟨-, hadded, -⟩ := preflightOperations_renders hstate
  rcases (hrender id).mp hid with hid | hid
  · rcases hadded id hid with hid | ⟨operation, hoperation, rfl⟩
    · exact absurd hid (by simp [initialPreflight])
    · exact htargets operation hoperation
  · obtain ⟨t, ht⟩ := TreeMap.mem_iff.mp hid
    obtain ⟨-, components, hcomponents, -⟩ := h.planned.derived id t ht
    exact hfinal id (TreeMap.mem_of_get hcomponents)

theorem Accepted.created_rendered
    (h : Accepted world patch plan newRevision count scene storage index) {id : StableEntityId}
    (hid : Creates patch.operations id) : id ∈ plan.renderChangedIds := by
  obtain ⟨state, hstate, hrender⟩ := preflight_render h.preflight
  exact (hrender id).mpr (.inl ((preflightOperations_renders hstate).2.2 id hid))

end Accepted

end AuthoritativeWorld

end Cogniform
