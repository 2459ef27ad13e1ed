import Cogniform.World.Plan

/-!
# What a call does, and what every call keeps

`Accepted` says everything an accepted patch does. A call of `applyPatch` on a consistent world
either changes nothing or is an accepted patch, so an invariant of worlds is proved once for the new
world, once for `Accepted` and once for an extraction.
-/

namespace Cogniform

theorem Scene.size_step_le {maxEntities : ℕ} {scene scene' : Scene} {operation : SceneOperation}
    (h : scene.entities.size ≤ maxEntities)
    (hstep : scene.step maxEntities operation = .ok scene') :
    scene'.entities.size ≤ maxEntities := by
  cases operation with
  | create entityId components =>
    rw [step] at hstep
    split at hstep
    · cases hstep
    · rename_i hnot
      split at hstep
      · cases hstep
      · rename_i hle
        cases hstep
        rw [TreeMap.size_insert_of_not_mem hnot]
        exact Nat.not_lt.mp hle
  | delete entityId =>
    rw [step] at hstep
    split at hstep
    · cases hstep
    · rename_i hmem
      cases hstep
      have := TreeMap.size_erase_of_mem (Decidable.not_not.mp hmem)
      change (scene.entities.erase entityId).size ≤ maxEntities
      omega
  | setComponent entityId component =>
    rw [step] at hstep
    split at hstep
    · cases hstep
    · rename_i hget
      cases hstep
      rwa [TreeMap.size_insert_of_mem (TreeMap.mem_of_get hget)]
  | removeComponent entityId component =>
    rw [step] at hstep
    split at hstep
    · cases hstep
    · rename_i hget
      split at hstep
      · cases hstep
        rwa [TreeMap.size_insert_of_mem (TreeMap.mem_of_get hget)]
      · cases hstep
  | reparent entityId parentId =>
    cases parentId with
    | none =>
      rw [step] at hstep
      split at hstep
      · cases hstep
      · cases hstep
        exact h
    | some parentId =>
      rw [step] at hstep
      split at hstep
      · cases hstep
      · split at hstep
        · cases hstep
        · cases hstep
          exact h

theorem Scene.size_run_le {maxEntities : ℕ} {scene' : Scene} {operations : List SceneOperation} :
    ∀ {scene : Scene}, scene.entities.size ≤ maxEntities →
      scene.run maxEntities operations = .ok scene' → scene'.entities.size ≤ maxEntities := by
  induction operations with
  | nil =>
    intro scene h hrun
    cases hrun
    exact h
  | cons operation operations ih =>
    intro scene h hrun
    rw [run, List.foldlM_cons] at hrun
    cases hstep : scene.step maxEntities operation with
    | error obstacle => rw [hstep] at hrun; cases hrun
    | ok middle =>
      rw [hstep] at hrun
      exact ih (size_step_le h hstep) hrun

namespace AuthoritativeWorld

variable {world : AuthoritativeWorld}

/-! ### Commit -/

def committed (world : AuthoritativeWorld) (plan : CommitPlan) (storage : Arena StoredRecord)
    (index : Std.ExtTreeMap StableEntityId ℕ) : AuthoritativeWorld :=
  { world with storage := storage, stableIndex := index }.install plan

section Committed

variable {plan : CommitPlan} {scene : Scene} {storage : Arena StoredRecord}
  {index : Std.ExtTreeMap StableEntityId ℕ}

theorem commit_eq {ε : Type} (hworld : world.Consistent)
    (hrun : world.scene.run world.config.maxEntities.get plan.operations = .ok scene) :
    ∃ storage index, (world.commit plan : Exec ε AuthoritativeWorld) =
        .ok (world.committed plan storage index) ∧
      Indexed storage index ∧ sceneEntities storage index = scene.entities := by
  obtain ⟨storage, index, hcommit, hindexed, hentities⟩ :=
    commitOperations_spec hworld.toIndexed rfl hrun
  refine ⟨storage, index, ?_, hindexed, hentities⟩
  rw [commit, hcommit]
  rfl

theorem scene_committed (hplan : Planned world scene plan)
    (hentities : sceneEntities storage index = scene.entities) :
    (world.committed plan storage index).scene = scene := by
  rw [AuthoritativeWorld.scene]
  change Scene.mk (sceneEntities storage index) (plan.parents.getD world.parents) = scene
  rw [hentities, hplan.parents]

theorem getElem?_worldTransforms_committed (id : StableEntityId) :
    (world.committed plan storage index).worldTransforms[id]? =
      if id ∈ index then world.lookup plan.transformUpdates id
      else plan.transformUpdates[id]? := by
  change (world.worldTransforms.filter (fun entityId _ => index.contains entityId) ∪
    plan.transformUpdates)[id]? = _
  rw [Std.ExtTreeMap.getElem?_union, Std.ExtTreeMap.getElem?_filter', lookup]
  by_cases hid : id ∈ index
  · cases h : world.worldTransforms[id]? <;>
      simp [Option.filter, Std.ExtTreeMap.contains_iff_mem.mpr hid, hid]
  · have hcontains : index.contains id = false := by
      rwa [← Bool.not_eq_true, Std.ExtTreeMap.contains_iff_mem]
    cases h : world.worldTransforms[id]? <;> simp [Option.filter, hcontains, hid]

theorem lookup_committed (hindexed : Indexed storage index)
    (hentities : sceneEntities storage index = scene.entities) {id : StableEntityId}
    (hlive : id ∈ scene.entities) :
    (world.committed plan storage index).worldTransforms[id]? =
      world.lookup plan.transformUpdates id := by
  rw [← hentities, hindexed.mem_sceneEntities] at hlive
  rw [getElem?_worldTransforms_committed, if_pos hlive]

theorem consistent_committed (hworld : world.Consistent) (hplan : Planned world scene plan)
    (hindexed : Indexed storage index)
    (hentities : sceneEntities storage index = scene.entities) :
    (world.committed plan storage index).Consistent := by
  have hlive : ∀ id, id ∈ index ↔ id ∈ scene.entities := fun id => by
    rw [← hentities, hindexed.mem_sceneEntities]
  have hparents : (world.committed plan storage index).parents = scene.parents := hplan.parents
  refine ⟨hindexed, fun id => ?_, ?_, ?_⟩
  · change _ ↔ id ∈ index
    rw [TreeMap.mem_iff, getElem?_worldTransforms_committed]
    by_cases hid : id ∈ index
    · simp only [hid, if_true, iff_true]
      by_cases hupdated : id ∈ plan.transformUpdates
      · obtain ⟨t, ht⟩ := TreeMap.mem_iff.mp hupdated
        exact ⟨t, by rw [lookup, ht, Option.some_or]⟩
      · -- an entity that is not recomputed was live before, hence cached before
        obtain ⟨components, hcomponents⟩ := TreeMap.mem_iff.mp ((hlive id).mp hid)
        obtain ⟨⟨old, hold, -⟩, -⟩ := hplan.kept id components hcomponents hupdated
        have hbefore := hworld.toIndexed.mem_sceneEntities.mp (TreeMap.mem_of_get hold)
        obtain ⟨t, ht⟩ := TreeMap.mem_iff.mp ((hworld.cached id).mpr hbefore)
        exact ⟨t, by rw [lookup, TreeMap.not_mem_iff.mp hupdated, Option.none_or, ht]⟩
    · simp only [hid, if_false, iff_false, not_exists]
      intro t ht
      obtain ⟨-, components, hcomponents, -⟩ := hplan.derived id t ht
      exact hid ((hlive id).mpr (TreeMap.mem_of_get hcomponents))
  · rw [hparents]
    exact hplan.reciprocal
  · rw [hparents]
    refine hplan.topology _ fun id => ?_
    rw [mem_liveIds]
    exact hlive id

end Committed

/-- Everything an accepted patch does: the guards it passed, where its operations lead, the plan made
for it and the store that carries it out. -/
structure Accepted (world : AuthoritativeWorld) (patch : ScenePatch) (plan : CommitPlan)
    (newRevision : SceneRevision) (operationCount : NonZeroU32) (scene : Scene)
    (storage : Arena StoredRecord) (index : Std.ExtTreeMap StableEntityId ℕ) : Prop where
  valid : patch.validate world.config.runtimeLimits = .ok ()
  fresh : world.idempotencyRecords[patch.idempotencyKey]? = none
  generation : world.renderExtractionGeneration.toNat ≠ 2 ^ 64 - 1
  capacity : world.idempotencyRecords.size < world.config.maxIdempotencyRecords.get
  base : patch.conflictPolicy = .requireExactBase → patch.baseRevision = world.revision
  revision : world.revision.checkedNext = some newRevision
  preflight : world.preflight patch newRevision = .ok plan
  count : (AuthoritativeWorld.operationCount plan.operations.length :
    Exec WorldApplyError NonZeroU32) = .ok operationCount
  operations : plan.operations = patch.operations
  previous : plan.previousRevision = world.revision
  next : plan.newRevision = newRevision
  run : world.scene.run world.config.maxEntities.get patch.operations = .ok scene
  planned : Planned world scene plan
  commit : (world.commit plan : Exec WorldApplyError AuthoritativeWorld) =
    .ok (world.committed plan storage index)
  indexed : Indexed storage index
  entities : sceneEntities storage index = scene.entities

theorem admitPatch_commit {patch : ScenePatch} {plan : CommitPlan} {newRevision : SceneRevision}
    {count : NonZeroU32} (hworld : world.Consistent)
    (h : world.admitPatch patch = .ok (.commit plan newRevision count)) :
    ∃ scene storage index, Accepted world patch plan newRevision count scene storage index := by
  rw [admitPatch] at h
  split at h
  · cases h
  · rename_i hvalid
    split at h
    · split at h <;> cases h
    · rename_i hfresh
      rw [admitNew] at h
      split at h
      · cases h
      rename_i hgeneration
      split at h
      · cases h
      rename_i hcapacity
      split at h
      · cases h
      rename_i hbase
      obtain ⟨next, hnext, h⟩ := Exec.bind_eq_ok.mp h
      obtain ⟨plan', hplan, h⟩ := Exec.bind_eq_ok.mp h
      obtain ⟨count', hcount, h⟩ := Exec.bind_eq_ok.mp h
      cases h
      rw [Exec.okOr_eq_ok] at hnext
      obtain ⟨scene, hrun, hoperations, hprevious, hnew, hplanned⟩ :=
        preflight_ok hworld (ScenePatch.valid_of_validate hvalid).operations_valid hplan
      have hrun' := hrun
      rw [← hoperations] at hrun'
      obtain ⟨storage, index, hcommit, hindexed, hentities⟩ := commit_eq hworld hrun'
      refine ⟨scene, storage, index, hvalid, hfresh, hgeneration, Nat.not_le.mp hcapacity,
        fun hexact => ?_, hnext, hplan, hcount, hoperations, hprevious, hnew, hrun, hplanned,
        hcommit, hindexed, hentities⟩
      by_contra hne
      exact hbase ⟨hexact, hne⟩

theorem admitPatch_replay {patch : ScenePatch} {receipt : ApplyReceipt}
    (h : world.admitPatch patch = .ok (.replay receipt)) :
    ∃ recorded, world.idempotencyRecords[patch.idempotencyKey]? = some recorded ∧
      receipt = { recorded.receipt with status := .idempotentReplay } := by
  rw [admitPatch] at h
  split at h
  · cases h
  · split at h
    · rename_i recorded hrecorded
      split at h
      · cases h
      · cases h
        exact ⟨recorded, hrecorded, rfl⟩
    · rw [admitNew] at h
      split at h
      · cases h
      split at h
      · cases h
      split at h
      · cases h
      obtain ⟨_, -, h⟩ := Exec.bind_eq_ok.mp h
      obtain ⟨_, -, h⟩ := Exec.bind_eq_ok.mp h
      obtain ⟨_, -, h⟩ := Exec.bind_eq_ok.mp h
      cases h

/-- **What a call of `applyPatch` does.** It refuses, answers from the record, or commits. -/
theorem applyPatch_cases (hworld : world.Consistent) (patch : ScenePatch) (frame : FrameId)
    (clock : ApplyClock) :
    (∃ abort, world.admitPatch patch = .error abort ∧
      world.applyPatch patch frame clock = (world, .error abort)) ∨
    (∃ receipt, world.admitPatch patch = .ok (.replay receipt) ∧
      world.applyPatch patch frame clock = (world, .ok receipt)) ∨
    ∃ plan newRevision count scene storage index,
      world.admitPatch patch = .ok (.commit plan newRevision count) ∧
      Accepted world patch plan newRevision count scene storage index ∧
      world.applyPatch patch frame clock =
        ((world.committed plan storage index).record patch
            (receiptOf patch plan newRevision count frame clock),
          .ok (receiptOf patch plan newRevision count frame clock)) := by
  rw [applyPatch]
  cases hplan : world.admitPatch patch with
  | error abort => exact .inl ⟨abort, rfl, rfl⟩
  | ok admission =>
    cases admission with
    | replay receipt => exact .inr (.inl ⟨receipt, rfl, rfl⟩)
    | commit plan newRevision count =>
      obtain ⟨scene, storage, index, h⟩ := admitPatch_commit hworld hplan
      refine .inr (.inr ⟨plan, newRevision, count, scene, storage, index, rfl, h, ?_⟩)
      simp only
      rw [h.commit]

/-- **What a call of `takeRenderExtraction` does.** It fails or drains. -/
theorem takeRenderExtraction_cases (world : AuthoritativeWorld) :
    (∃ abort, world.nextExtraction = .error abort ∧
      world.takeRenderExtraction = (world, .error abort)) ∨
    ∃ extraction, world.nextExtraction = .ok extraction ∧
      world.takeRenderExtraction = (world.drain extraction, .ok extraction) := by
  rw [takeRenderExtraction]
  cases hnext : world.nextExtraction with
  | error abort => exact .inl ⟨abort, rfl, rfl⟩
  | ok extraction => exact .inr ⟨extraction, rfl, rfl⟩

/-! ### Runs -/

theorem consistent_new (config : WorldConfig) : (new config).Consistent where
  toIndexed := .empty
  cached id := by simp [new]
  reciprocal x y := by simp [new, ChildMap.list]
  topology := ⟨∅, rfl⟩

theorem Accepted.consistent {patch : ScenePatch} {plan : CommitPlan} {newRevision : SceneRevision}
    {count : NonZeroU32} {scene : Scene} {storage : Arena StoredRecord}
    {index : Std.ExtTreeMap StableEntityId ℕ} (hworld : world.Consistent)
    (h : Accepted world patch plan newRevision count scene storage index)
    (receipt : ApplyReceipt) :
    ((world.committed plan storage index).record patch receipt).Consistent :=
  have hcommitted := consistent_committed hworld h.planned h.indexed h.entities
  ⟨hcommitted.toIndexed, hcommitted.cached, hcommitted.reciprocal, hcommitted.topology⟩

theorem Consistent.drain (h : world.Consistent) (extraction : RenderExtraction) :
    (world.drain extraction).Consistent :=
  ⟨h.toIndexed, h.cached, h.reciprocal, h.topology⟩

theorem Reachable.consistent {config : WorldConfig} (h : Reachable config world) :
    world.Consistent := by
  induction h with
  | new => exact consistent_new config
  | @call world h call ih =>
    cases call with
    | applyPatch patch frame clock =>
      rw [after]
      rcases applyPatch_cases ih patch frame clock with ⟨_, -, heq⟩ | ⟨_, -, heq⟩ |
        ⟨plan, newRevision, count, scene, storage, index, -, haccepted, heq⟩
      · rwa [heq]
      · rwa [heq]
      · rw [heq]
        exact haccepted.consistent ih _
    | takeRenderExtraction =>
      rw [after]
      rcases world.takeRenderExtraction_cases with ⟨_, -, heq⟩ | ⟨extraction, -, heq⟩
      · rwa [heq]
      · rw [heq]
        exact ih.drain extraction

/-- **The invariant rule.** What holds of the new world, and is kept by every accepted patch and
every extraction of a consistent world, holds of every reachable world. -/
theorem Reachable.invariant {config : WorldConfig} {P : AuthoritativeWorld → Prop}
    (hnew : P (AuthoritativeWorld.new config))
    (haccept : ∀ {world : AuthoritativeWorld} {patch plan newRevision count scene storage index},
      world.Consistent → P world →
      Accepted world patch plan newRevision count scene storage index →
      ∀ frame clock, P ((world.committed plan storage index).record patch
        (receiptOf patch plan newRevision count frame clock)))
    (hdrain : ∀ {world : AuthoritativeWorld} {extraction}, world.Consistent → P world →
      world.nextExtraction = .ok extraction → P (world.drain extraction))
    (h : Reachable config world) : P world := by
  induction h with
  | new => exact hnew
  | @call world h call ih =>
    cases call with
    | applyPatch patch frame clock =>
      rw [after]
      rcases applyPatch_cases h.consistent patch frame clock with ⟨_, -, heq⟩ | ⟨_, -, heq⟩ |
        ⟨plan, newRevision, count, scene, storage, index, -, haccepted, heq⟩
      · rwa [heq]
      · rwa [heq]
      · rw [heq]
        exact haccept h.consistent ih haccepted _ _
    | takeRenderExtraction =>
      rw [after]
      rcases world.takeRenderExtraction_cases with ⟨_, -, heq⟩ | ⟨extraction, hnext, heq⟩
      · rwa [heq]
      · rw [heq]
        exact hdrain h.consistent ih hnext

structure Bounded (world : AuthoritativeWorld) : Prop where
  entities : world.stableIndex.size ≤ world.config.maxEntities.get
  records : world.idempotencyRecords.size ≤ world.config.maxIdempotencyRecords.get
  pending : world.pendingRenderChanges.size ≤ world.config.maxPendingRenderChanges.get
  revision : world.revision.get.toNat = world.idempotencyRecords.size

theorem Accepted.bounded {patch : ScenePatch} {plan : CommitPlan} {newRevision : SceneRevision}
    {count : NonZeroU32} {scene : Scene} {storage : Arena StoredRecord}
    {index : Std.ExtTreeMap StableEntityId ℕ} (hworld : world.Consistent) (hbounded : world.Bounded)
    (h : Accepted world patch plan newRevision count scene storage index)
    (receipt : ApplyReceipt) :
    ((world.committed plan storage index).record patch receipt).Bounded := by
  have hsize : (world.idempotencyRecords.insert patch.idempotencyKey
      ⟨patch.transactionId, receipt⟩).size = world.idempotencyRecords.size + 1 :=
    TreeMap.size_insert_of_not_mem (TreeMap.not_mem_iff.mpr h.fresh) _
  refine ⟨?_, ?_, h.planned.pending, ?_⟩
  · change index.size ≤ _
    rw [← h.indexed.size_sceneEntities, h.entities]
    refine Scene.size_run_le ?_ h.run
    change (sceneEntities world.storage world.stableIndex).size ≤ _
    rw [hworld.toIndexed.size_sceneEntities]
    exact hbounded.entities
  · exact hsize.trans_le h.capacity
  · change plan.newRevision.get.toNat = _
    rw [h.next, SceneRevision.checkedNext_eq_some.mp h.revision, hbounded.revision]
    exact hsize.symm

theorem Reachable.bounded {config : WorldConfig} (h : Reachable config world) : world.Bounded :=
  h.invariant ⟨Nat.zero_le _, Nat.zero_le _, Nat.zero_le _, rfl⟩
    (fun hworld hbounded haccepted _ _ => haccepted.bounded hworld hbounded _)
    (fun _ hbounded _ => ⟨hbounded.entities, hbounded.records, Nat.zero_le _, hbounded.revision⟩)

theorem Reachable.config_eq {config : WorldConfig} (h : Reachable config world) :
    world.config = config :=
  h.invariant (P := fun world => world.config = config) rfl (fun _ heq _ _ _ => heq)
    (fun _ heq _ => heq)

theorem Reachable.recorded_key {config : WorldConfig} (h : Reachable config world) :
    ∀ (key : IdempotencyKey) recorded, world.idempotencyRecords[key]? = some recorded →
      recorded.receipt.idempotencyKey = key :=
  h.invariant (P := fun world => ∀ (key : IdempotencyKey) recorded,
      world.idempotencyRecords[key]? = some recorded → recorded.receipt.idempotencyKey = key)
    (by simp [AuthoritativeWorld.new])
    (fun {world patch _ _ _ _ _ _} _ hkeys _ _ _ key recorded hrecorded => by
      change (world.idempotencyRecords.insert patch.idempotencyKey _)[key]? = some recorded
        at hrecorded
      rw [TreeMap.getElem?_insert] at hrecorded
      split at hrecorded
      · rename_i heq
        cases hrecorded
        exact heq.symm
      · exact hkeys key recorded hrecorded)
    (fun _ hkeys _ => hkeys)

theorem applyPatch_receipt {config : WorldConfig} (h : Reachable config world) {patch : ScenePatch}
    {frame : FrameId} {clock : ApplyClock} {receipt : ApplyReceipt}
    (hok : (world.applyPatch patch frame clock).2 = .ok receipt) :
    receipt.idempotencyKey = patch.idempotencyKey ∧
      (receipt.status = .applied ↔ world.idempotencyRecords[patch.idempotencyKey]? = none) := by
  rcases applyPatch_cases h.consistent patch frame clock with ⟨_, -, heq⟩ | ⟨_, hreplay, heq⟩ |
    ⟨_, _, _, _, _, _, -, haccepted, heq⟩
  · rw [heq] at hok
    cases hok
  · rw [heq] at hok
    cases hok
    obtain ⟨recorded, hrecorded, rfl⟩ := admitPatch_replay hreplay
    refine ⟨h.recorded_key _ _ hrecorded, ?_⟩
    rw [hrecorded]
    exact ⟨by simp, by simp⟩
  · rw [heq] at hok
    cases hok
    exact ⟨rfl, fun _ => haccepted.fresh, fun _ => rfl⟩

def samplePatch : ScenePatch where
  schemaVersion := .v1
  transactionId := .lit 1
  idempotencyKey := .lit 1
  baseRevision := .initial
  conflictPolicy := .requireExactBase
  delivery := .mustApply
  declaredBudget := .default
  operations :=
    [.create (.lit 1) [], .create (.lit 2) [],
      .reparent (.lit 2) (some (.lit 1))]

def sampleWorld : AuthoritativeWorld :=
  (new .default).after (.applyPatch samplePatch (.lit 1) ⟨0, 0⟩)

theorem reachable_sampleWorld : Reachable .default sampleWorld := .call .new _

/-- **The representation invariant.** In every reachable world the code's own check passes: index
and store match, parents and children hold the same edges between live entities, depths are within
the bound, and exactly the live entities have a cached transform. The capacities hold, and the
revision counts the retained records. -/
theorem reachable_invariants {config : WorldConfig} (h : Reachable config world) :
    world.validateInvariants = .ok () ∧
      Indexed world.storage world.stableIndex ∧
      (∀ x y, y ∈ world.children.list x ↔ world.parents[y]? = some x) ∧
      (∀ child parent : StableEntityId, world.parents[child]? = some parent →
        child ∈ world.stableIndex ∧ parent ∈ world.stableIndex) ∧
      (∀ id ∈ world.stableIndex, ∃ depth ≤ config.maxHierarchyDepth.get,
        Forest.HasDepth world.parents.parent id depth) ∧
      (∀ id, id ∈ world.worldTransforms ↔ id ∈ world.stableIndex) ∧
      world.stableIndex.size ≤ config.maxEntities.get ∧
      world.idempotencyRecords.size ≤ config.maxIdempotencyRecords.get ∧
      world.pendingRenderChanges.size ≤ config.maxPendingRenderChanges.get ∧
      world.revision.get.toNat = world.idempotencyRecords.size := by
  have hconsistent := h.consistent
  have hbounded := h.bounded
  obtain ⟨depths, hdepths⟩ := hconsistent.topology
  rw [h.config_eq] at hdepths
  refine ⟨validateInvariants_of_consistent hconsistent, hconsistent.toIndexed,
    hconsistent.reciprocal, fun child parent hedge => hconsistent.edges hedge, fun id hid => ?_,
    hconsistent.cached, ?_, ?_, ?_, hbounded.revision⟩
  · obtain ⟨depth, hle, hdepth, -⟩ :=
      (hierarchyDepths_sound hdepths).2 id (mem_liveIds.mpr hid)
    exact ⟨depth, hle, hdepth⟩
  · rw [← h.config_eq]
    exact hbounded.entities
  · rw [← h.config_eq]
    exact hbounded.records
  · rw [← h.config_eq]
    exact hbounded.pending

theorem reachable_invariants_sample :
    sampleWorld.stableIndex.size = 2 ∧ sampleWorld.validateInvariants = .ok () ∧
      sampleWorld.revision.get.toNat = sampleWorld.idempotencyRecords.size :=
  have h := reachable_invariants reachable_sampleWorld
  ⟨by decide +kernel, h.1, h.2.2.2.2.2.2.2.2.2⟩

/-- **Preflight simulates commit.** A plan commits without a panic and leaves what the sequential
execution leaves; a rejection that names an operation names the first one at which the sequential
execution is stuck, with its reason. -/
theorem preflight_simulates_commit {config : WorldConfig} {patch : ScenePatch}
    (newRevision : SceneRevision) (h : Reachable config world)
    (hvalid : patch.validate config.runtimeLimits = .ok ()) :
    (∀ plan, world.preflight patch newRevision = .ok plan →
      ∃ world', (world.commit plan : Exec WorldApplyError AuthoritativeWorld) = .ok world' ∧
        Indexed world'.storage world'.stableIndex ∧
        world.scene.run config.maxEntities.get patch.operations = .ok world'.scene) ∧
    ∀ error i, world.preflight patch newRevision = Exec.fail error →
      error.operationIndex? = some i →
      ∃ operation scene obstacle, patch.operations[i]? = some operation ∧
        world.scene.run config.maxEntities.get (patch.operations.take i) = .ok scene ∧
        scene.step config.maxEntities.get operation = .error obstacle ∧
        error = obstacle.rejection config.maxEntities.get i := by
  have hworld := h.consistent
  have hoperations := (ScenePatch.valid_of_validate hvalid).operations_valid
  rw [← h.config_eq]
  refine ⟨fun plan hplan => ?_, fun error i herror hindex => ?_⟩
  · obtain ⟨scene, hrun, hplanOperations, -, -, hplanned⟩ := preflight_ok hworld hoperations hplan
    have hrun' := hrun
    rw [← hplanOperations] at hrun'
    obtain ⟨storage, index, hcommit, hindexed, hentities⟩ := commit_eq hworld hrun'
    refine ⟨_, hcommit, hindexed, ?_⟩
    rw [scene_committed hplanned hentities]
    exact hrun
  · rw [preflight] at herror
    split at herror
    · cases herror
      cases hindex
    · rcases Exec.bind_eq_error.mp herror with herror | ⟨state, -, herror⟩
      · obtain ⟨done, operation, rest, scene, obstacle, heq, hrun, hstuck, rfl⟩ :=
          preflightOperations_error hoperations (initialPreflight_simulates hworld)
            (initialPreflight_tracks hworld) herror
        have hi : i = done.length := by
          cases obstacle <;>
            simpa [Obstacle.rejection, WorldApplyError.operationIndex?] using hindex.symm
        subst hi
        refine ⟨operation, scene, obstacle, ?_, ?_, hstuck, by rw [Nat.zero_add]⟩
        · rw [heq, List.getElem?_append_right (Nat.le_refl _), Nat.sub_self,
            List.getElem?_cons_zero]
        · rw [heq, List.take_left]
          exact hrun
      · rw [(world.completePreflight_failsWith state newRevision error herror).unpositioned] at hindex
        cases hindex

theorem preflight_simulates_commit_sample :
    (samplePatch.validate WorldConfig.default.runtimeLimits = .ok ()) ∧
      ∃ plan world', (new .default).preflight samplePatch ⟨1⟩ = .ok plan ∧
        ((new .default).commit plan : Exec WorldApplyError AuthoritativeWorld) = .ok world' ∧
        (new .default).scene.run WorldConfig.default.maxEntities.get samplePatch.operations =
          .ok world'.scene := by
  have hvalid : samplePatch.validate WorldConfig.default.runtimeLimits = .ok () := by
    decide +kernel
  have hsome : ((new .default).preflight samplePatch ⟨1⟩).toOption.isSome = true := by
    decide +kernel
  refine ⟨hvalid, ?_⟩
  cases hplan : (new .default).preflight samplePatch ⟨1⟩ with
  | error abort => rw [hplan] at hsome; cases hsome
  | ok plan =>
    obtain ⟨world', hcommit, -, hrun⟩ :=
      (preflight_simulates_commit ⟨1⟩ .new hvalid).1 plan hplan
    exact ⟨plan, world', rfl, hcommit, hrun⟩

theorem applyPatch_records (hworld : world.Consistent) (patch : ScenePatch) (frame : FrameId)
    (clock : ApplyClock) :
    (world.applyPatch patch frame clock).1.idempotencyRecords.size ≤
      world.idempotencyRecords.size + 1 := by
  rcases applyPatch_cases hworld patch frame clock with ⟨_, -, heq⟩ | ⟨_, -, heq⟩ |
    ⟨plan, newRevision, count, _, storage, index, -, -, heq⟩
  · rw [heq]
    exact Nat.le_succ _
  · rw [heq]
    exact Nat.le_succ _
  · rw [heq]
    exact Std.ExtTreeMap.size_insert_le

theorem admitPatch_capacity {patch : ScenePatch} {limit : ℕ} (hworld : world.Consistent)
    (h : world.admitPatch patch = Exec.fail (.idempotencyCapacityExceeded limit)) :
    world.config.maxIdempotencyRecords.get ≤ world.idempotencyRecords.size := by
  rw [admitPatch] at h
  split at h
  · cases h
  rename_i hvalid
  have hoperations := (ScenePatch.valid_of_validate hvalid).operations_valid
  split at h
  · split at h <;> cases h
  rw [admitNew] at h
  split at h
  · cases h
  split at h
  · assumption
  split at h
  · cases h
  rcases Exec.bind_eq_error.mp h with h | ⟨newRevision, -, h⟩
  · rcases hnext : world.revision.checkedNext with _ | next <;> rw [hnext] at h <;> cases h
  rcases Exec.bind_eq_error.mp h with h | ⟨plan, -, h⟩
  · rw [preflight] at h
    split at h
    · cases h
    rcases Exec.bind_eq_error.mp h with h | ⟨state, -, h⟩
    · obtain ⟨_, _, _, _, obstacle, -, -, -, heq⟩ := preflightOperations_error hoperations
        (initialPreflight_simulates hworld) (initialPreflight_tracks hworld) h
      cases obstacle <;> cases heq
    · exact absurd rfl ((world.completePreflight_failsWith state newRevision _ h).retained limit)
  · rcases Exec.bind_eq_error.mp h with h | ⟨_, -, h⟩
    · rw [operationCount] at h
      split at h
      · split at h <;> cases h
      · cases h
    · cases h

end AuthoritativeWorld

end Cogniform
