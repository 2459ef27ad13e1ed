import Cogniform.World.Operational

/-!
# Extraction does not interfere

Two worlds that differ only in what waits for a renderer, the last extracted revision and the
extraction generation are the same to every logical query, and stay so: a patch that both of them
accept leaves them the same again. The receipts, and so the retained ones, can differ in their clock
readings and in nothing else.
-/

namespace Cogniform

def ApplyReceipt.untimed (receipt : ApplyReceipt) : ApplyReceipt :=
  { receipt with timing := ⟨0, 0, 0⟩ }

def RecordedApply.untimed (recorded : RecordedApply) : RecordedApply :=
  { recorded with receipt := recorded.receipt.untimed }

namespace AuthoritativeWorld

variable {world left right left' right' : AuthoritativeWorld} {operational : Operational}
  {patch : ScenePatch} {frame : FrameId} {clock clock' : ApplyClock} {plan : CommitPlan}

/-- The worlds agree on everything but the pending set, the last extracted revision, the extraction
generation and the clock readings in retained receipts. -/
structure SameLogic (left right : AuthoritativeWorld) : Prop where
  storage : left.storage = right.storage
  stableIndex : left.stableIndex = right.stableIndex
  parents : left.parents = right.parents
  children : left.children = right.children
  worldTransforms : left.worldTransforms = right.worldTransforms
  transformGeneration : left.transformGeneration = right.transformGeneration
  revision : left.revision = right.revision
  records : ∀ key : IdempotencyKey, left.idempotencyRecords[key]?.map RecordedApply.untimed =
    right.idempotencyRecords[key]?.map RecordedApply.untimed
  config : left.config = right.config

namespace SameLogic

theorem refl (world : AuthoritativeWorld) : SameLogic world world :=
  ⟨rfl, rfl, rfl, rfl, rfl, rfl, rfl, fun _ => rfl, rfl⟩

theorem symm (h : SameLogic left right) : SameLogic right left :=
  ⟨h.storage.symm, h.stableIndex.symm, h.parents.symm, h.children.symm, h.worldTransforms.symm,
    h.transformGeneration.symm, h.revision.symm, fun key => (h.records key).symm, h.config.symm⟩

theorem takeRenderExtraction (h : SameLogic left right) :
    SameLogic left.takeRenderExtraction.1 right := by
  rw [AuthoritativeWorld.takeRenderExtraction]
  split
  · exact h
  · exact ⟨h.storage, h.stableIndex, h.parents, h.children, h.worldTransforms,
      h.transformGeneration, h.revision, h.records, h.config⟩

theorem eq_withOperational (h : SameLogic left right) :
    right = left.withOperational right.operationalState := by
  obtain ⟨storage, stableIndex, parents, children, worldTransforms, transformGeneration, revision,
    -, config⟩ := h
  cases right
  simp only [withOperational, operationalState, mk.injEq, true_and]
  exact ⟨storage.symm, stableIndex.symm, parents.symm, children.symm, worldTransforms.symm,
    transformGeneration.symm, revision.symm, config.symm⟩

end SameLogic

/-! ### One patch -/

theorem admitNew_ok {admission : Admission} (h : world.admitNew patch = .ok admission) :
    ∃ newRevision plan count, world.revision.checkedNext = some newRevision ∧
      world.draft patch newRevision = .ok plan ∧
      (operationCount plan.operations.length : Exec WorldApplyError NonZeroU32) = .ok count ∧
      admission = .commit plan newRevision count := by
  rw [admitNew] at h
  split at h
  · cases h
  split at h
  · cases h
  split at h
  · cases h
  obtain ⟨newRevision, hnext, h⟩ := Exec.bind_eq_ok.mp h
  obtain ⟨plan, hplan, h⟩ := Exec.bind_eq_ok.mp h
  obtain ⟨count, hcount, h⟩ := Exec.bind_eq_ok.mp h
  cases h
  rw [preflight_eq] at hplan
  obtain ⟨drafted, hdraft, hbound⟩ := Exec.bind_eq_ok.mp hplan
  rw [boundPending] at hbound
  split at hbound
  · cases hbound
  · cases hbound
    exact ⟨newRevision, plan, count, Exec.okOr_eq_ok.mp hnext, hdraft, hcount, rfl⟩

theorem applyPatch_answered {receipt : ApplyReceipt}
    (h : world.applyPatch patch frame clock = (left', .ok receipt)) :
    (∃ recorded, world.idempotencyRecords[patch.idempotencyKey]? = some recorded ∧
      left' = world ∧ receipt = { recorded.receipt with status := .idempotentReplay }) ∨
    ∃ newRevision plan count committed,
      world.idempotencyRecords[patch.idempotencyKey]? = none ∧
      world.revision.checkedNext = some newRevision ∧
      world.draft patch newRevision = .ok plan ∧
      (operationCount plan.operations.length : Exec WorldApplyError NonZeroU32) = .ok count ∧
      (world.commit plan : Exec WorldApplyError AuthoritativeWorld) = .ok committed ∧
      left' = committed.record patch (receiptOf patch plan newRevision count frame clock) ∧
      receipt = receiptOf patch plan newRevision count frame clock := by
  rw [applyPatch] at h
  cases hadmitted : world.admitPatch patch with
  | error abort =>
    rw [hadmitted] at h
    cases h
  | ok admission =>
    cases hrecord : world.idempotencyRecords[patch.idempotencyKey]? with
    | some recorded =>
      left
      obtain rfl : admission = .replay { recorded.receipt with status := .idempotentReplay } := by
        rw [admitPatch] at hadmitted
        split at hadmitted
        · cases hadmitted
        simp only [hrecord] at hadmitted
        split at hadmitted
        · cases hadmitted
        · exact (Except.ok.inj hadmitted).symm
      rw [hadmitted] at h
      cases h
      exact ⟨recorded, rfl, rfl, rfl⟩
    | none =>
      right
      have hnew := hadmitted
      rw [admitPatch] at hnew
      split at hnew
      · cases hnew
      simp only [hrecord] at hnew
      obtain ⟨newRevision, plan, count, hnext, hdraft, hcount, rfl⟩ := admitNew_ok hnew
      rw [hadmitted] at h
      dsimp only at h
      split at h
      · cases h
      rename_i committed hcommit
      cases h
      exact ⟨newRevision, plan, count, committed, rfl, hnext, hdraft, hcount, hcommit, rfl, rfl⟩

theorem commit_map_withOperational (ε : Type) (world : AuthoritativeWorld)
    (operational : Operational) (plan : CommitPlan) :
    ((world.withOperational operational).commit plan : Exec ε AuthoritativeWorld) =
      (world.commit plan).map (·.withOperational { operational with
        pendingRenderChanges := operational.pendingRenderChanges ∪ plan.renderChangedIds }) := by
  rw [commit, commit, commitOperations_withOperational]
  cases (plan.operations.foldlM commitOperation world : Exec ε AuthoritativeWorld) with
  | error abort => rfl
  | ok stored => rfl

theorem commit_idempotencyRecords {ε : Type}
    (h : (world.commit plan : Exec ε AuthoritativeWorld) = .ok left) :
    left.idempotencyRecords = world.idempotencyRecords := by
  have hself := commit_map_withOperational ε world world.operationalState plan
  change (world.commit plan : Exec ε AuthoritativeWorld) = _ at hself
  rw [h] at hself
  rw [Except.ok.inj hself]
  rfl

theorem receiptOf_untimed (patch : ScenePatch) (plan : CommitPlan) (newRevision : SceneRevision)
    (count : NonZeroU32) (frame : FrameId) (clock clock' : ApplyClock) :
    (receiptOf patch plan newRevision count frame clock).untimed =
      (receiptOf patch plan newRevision count frame clock').untimed := rfl

theorem SameLogic.record {receipt receipt' : ApplyReceipt} (h : SameLogic left right)
    (hreceipt : receipt.untimed = receipt'.untimed) :
    SameLogic (left.record patch receipt) (right.record patch receipt') := by
  refine ⟨h.storage, h.stableIndex, h.parents, h.children, h.worldTransforms,
    h.transformGeneration, h.revision, fun key => ?_, h.config⟩
  simp only [AuthoritativeWorld.record, TreeMap.getElem?_insert]
  split
  · simp only [Option.map_some, RecordedApply.untimed, hreceipt]
  · exact h.records key

/-- **Extraction does not interfere.** If two worlds that agree on everything but extraction answer
a patch, they agree again and so do the receipts; with the same retained receipts and clock
readings, these are the same too. -/
theorem applyPatch_sameLogic (left right left' right' : AuthoritativeWorld) (patch : ScenePatch)
    (frame : FrameId) (clock clock' : ApplyClock) (receipt receipt' : ApplyReceipt)
    (h : SameLogic left right)
    (hleft : left.applyPatch patch frame clock = (left', .ok receipt))
    (hright : right.applyPatch patch frame clock' = (right', .ok receipt')) :
    SameLogic left' right' ∧ receipt.untimed = receipt'.untimed ∧
      (left.idempotencyRecords = right.idempotencyRecords → clock = clock' →
        left'.idempotencyRecords = right'.idempotencyRecords ∧ receipt = receipt') := by
  have hrecords := h.records patch.idempotencyKey
  rcases applyPatch_answered hleft with ⟨recorded, hrecorded, rfl, rfl⟩ |
    ⟨newRevision, plan, count, committed, hfresh, hnext, hdraft, hcount, hcommit, rfl, rfl⟩
  · rw [hrecorded] at hrecords
    rcases applyPatch_answered hright with ⟨recorded', hrecorded', rfl, rfl⟩ |
      ⟨_, _, _, _, hfresh', -⟩
    · rw [hrecorded', Option.map_some, Option.map_some, Option.some.injEq] at hrecords
      have hreceipt := congrArg RecordedApply.receipt hrecords
      refine ⟨h, ?_, fun heq _ => ⟨heq, ?_⟩⟩
      · exact congrArg (fun receipt => { receipt with status := .idempotentReplay }) hreceipt
      · rw [heq, hrecorded', Option.some.injEq] at hrecorded
        rw [hrecorded]
    · rw [hfresh'] at hrecords
      cases hrecords
  · rw [hfresh] at hrecords
    rcases applyPatch_answered hright with ⟨recorded', hrecorded', -, -⟩ |
      ⟨newRevision', plan', count', committed', -, hnext', hdraft', hcount', hcommit', rfl, rfl⟩
    · rw [hrecorded'] at hrecords
      cases hrecords
    · -- revision, plan and count are those of the left world, and so is what is committed
      rw [← h.revision, hnext, Option.some.injEq] at hnext'
      subst hnext'
      rw [h.eq_withOperational, draft_withOperational, hdraft, Except.ok.injEq] at hdraft'
      subst hdraft'
      rw [hcount, Except.ok.injEq] at hcount'
      subst hcount'
      rw [h.eq_withOperational, commit_map_withOperational, hcommit] at hcommit'
      cases hcommit'
      have hkeep := commit_idempotencyRecords hcommit
      have hcommitted : SameLogic committed (committed.withOperational
          { right.operationalState with
            pendingRenderChanges := right.pendingRenderChanges ∪ plan.renderChangedIds }) := by
        refine ⟨rfl, rfl, rfl, rfl, rfl, rfl, rfl, fun key => ?_, rfl⟩
        rw [hkeep]
        exact h.records key
      refine ⟨hcommitted.record (receiptOf_untimed ..), receiptOf_untimed .., ?_⟩
      rintro heq rfl
      refine ⟨?_, rfl⟩
      simp only [record, withOperational, operationalState, hkeep, heq]

def secondPatch : ScenePatch :=
  { samplePatch with
    idempotencyKey := .lit 2
    baseRevision := ⟨1⟩
    operations := [.create (.lit 3) []] }

theorem applyPatch_sameLogic_sample :
    sampleWorld.pendingRenderChanges ≠ sampleWorld.takeRenderExtraction.1.pendingRenderChanges ∧
      ∃ left right receipt receipt',
        sampleWorld.applyPatch secondPatch ⟨2, by decide⟩ ⟨0, 0⟩ = (left, .ok receipt) ∧
        sampleWorld.takeRenderExtraction.1.applyPatch secondPatch ⟨2, by decide⟩ ⟨5, 7⟩ =
          (right, .ok receipt') ∧
        SameLogic left right ∧ receipt.untimed = receipt'.untimed := by
  have hpending : sampleWorld.pendingRenderChanges.size ≠
      sampleWorld.takeRenderExtraction.1.pendingRenderChanges.size := by decide +kernel
  have hleft : (sampleWorld.applyPatch secondPatch ⟨2, by decide⟩ ⟨0, 0⟩).2.toOption.isSome =
      true := by decide +kernel
  have hright : (sampleWorld.takeRenderExtraction.1.applyPatch secondPatch ⟨2, by decide⟩
      ⟨5, 7⟩).2.toOption.isSome = true := by decide +kernel
  refine ⟨fun heq => hpending (by rw [← heq]), ?_⟩
  rcases hl : sampleWorld.applyPatch secondPatch ⟨2, by decide⟩ ⟨0, 0⟩ with ⟨left, abort | receipt⟩
  · rw [hl] at hleft
    cases hleft
  rcases hr : sampleWorld.takeRenderExtraction.1.applyPatch secondPatch ⟨2, by decide⟩ ⟨5, 7⟩ with
    ⟨right, abort | receipt'⟩
  · rw [hr] at hright
    cases hright
  obtain ⟨hsame, hreceipt, -⟩ := applyPatch_sameLogic sampleWorld sampleWorld.takeRenderExtraction.1
    left right secondPatch ⟨2, by decide⟩ ⟨0, 0⟩ ⟨5, 7⟩ receipt receipt'
    (SameLogic.refl sampleWorld).takeRenderExtraction.symm hl hr
  exact ⟨left, right, receipt, receipt', rfl, rfl, hsame, hreceipt⟩

end AuthoritativeWorld

end Cogniform
