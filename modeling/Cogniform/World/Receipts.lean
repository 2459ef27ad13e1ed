import Cogniform.Protocol.Serialize
import Cogniform.World.Invariant

/-!
# Receipts under the world's own limits

A receipt is validated after the commit, when it is too late to refuse, and its fixed part takes
`91` logical bytes, more than a patch that deletes one entity. That no receipt is ever too large is
a fact about histories: the first patch a world accepts runs on an empty scene, where only a create
succeeds, and a patch with a create takes at least `93`. So a world whose limits have no room for a
receipt accepts nothing at all. The bound on the encoded text is another matter.
-/

namespace Cogniform

theorem DeliverySemantic.one_le_logicalSizeBytes (delivery : DeliverySemantic) :
    1 ≤ delivery.logicalSizeBytes := by
  cases delivery with
  | mustApply | bestEffort => exact le_rfl
  | latestWins key =>
    rw [logicalSizeBytes, satAdd, satAdd]
    omega

theorem ScenePatch.le_logicalSizeBytes (patch : ScenePatch) :
    min (72 + (patch.operations.map SceneOperation.logicalSizeBytes).sum) (2 ^ 64 - 1) ≤
      patch.logicalSizeBytes := by
  have hdelivery := patch.delivery.one_le_logicalSizeBytes
  rw [logicalSizeBytes, foldl_satAdd _ _ (satAdd_le _ _)]
  simp only [satAdd]
  omega

theorem SceneOperation.logicalSizeBytes_create (entityId : StableEntityId)
    (components : List ComponentValue) :
    21 ≤ (create entityId components).logicalSizeBytes := by
  rw [logicalSizeBytes, foldl_satAdd _ _ (by decide)]
  omega

theorem Scene.step_of_isEmpty {maxEntities : ℕ} {scene scene' : Scene} {operation : SceneOperation}
    (hempty : ∀ id, id ∉ scene.entities)
    (h : scene.step maxEntities operation = .ok scene') :
    ∃ entityId components, operation = .create entityId components := by
  have hnone : ∀ id : StableEntityId, scene.entities[id]? = none := fun id =>
    TreeMap.not_mem_iff.mp (hempty id)
  cases operation with
  | create entityId components => exact ⟨entityId, components, rfl⟩
  | delete entityId =>
    rw [step, if_pos (hempty entityId)] at h
    cases h
  | setComponent entityId component =>
    rw [step, hnone entityId] at h
    cases h
  | removeComponent entityId component =>
    rw [step, hnone entityId] at h
    cases h
  | reparent entityId parentId =>
    cases parentId with
    | none =>
      rw [step, if_pos (hempty entityId)] at h
      cases h
    | some parentId =>
      rw [step, if_pos (hempty entityId)] at h
      cases h

theorem ScenePatch.bounds_of_validate {patch : ScenePatch} {limits : RuntimeLimits}
    (h : patch.validate limits = .ok ()) :
    patch.schemaVersion = .v1 ∧ count patch.operations.length ≤ limits.maxOperations.get ∧
      patch.logicalSizeBytes ≤ limits.maxDecodedBytes.get := by
  rw [validate] at h
  obtain ⟨_, hschema, h⟩ := Exec.bind_eq_ok.mp h
  dsimp only at h
  split at h
  · cases h
  split at h
  · cases h
  rename_i hoperations
  obtain ⟨_, -, h⟩ := Exec.bind_eq_ok.mp h
  split at h
  · cases h
  split at h
  · cases h
  split at h
  · cases h
  rename_i hsize
  refine ⟨validateSchema_eq_ok.mp hschema, ?_, ?_⟩
  · exact Nat.not_lt.mp fun hlt => hoperations (.inr (.inl hlt))
  · exact Nat.not_lt.mp fun hlt => hsize (.inr (.inl hlt))

theorem ApplyReceipt.validate_of_diagnostics_nil {receipt : ApplyReceipt} {limits : RuntimeLimits}
    (hschema : receipt.schemaVersion = .v1)
    (hrevision : receipt.previousRevision.checkedNext = some receipt.newRevision)
    (hcount : receipt.operationCount.get ≤ limits.maxOperations.get)
    (hdiagnostics : receipt.diagnostics = []) (hroom : 91 ≤ limits.maxDecodedBytes.get) :
    receipt.validate limits = .ok () := by
  have hsize : receipt.logicalSizeBytes = 91 := by
    rw [logicalSizeBytes, hdiagnostics]
    rfl
  rw [validate, validateSchema_eq_ok.mpr hschema, hdiagnostics, hsize]
  change (if _ ≠ _ then _ else _) = _
  rw [if_neg (not_not_intro hrevision), if_neg (Nat.not_lt.mpr hcount)]
  simp [count, hroom]

namespace AuthoritativeWorld

variable {world : AuthoritativeWorld}

def RoomForReceipt (world : AuthoritativeWorld) : Prop :=
  91 ≤ world.config.runtimeLimits.maxDecodedBytes.get ∨ ∀ id, id ∉ world.scene.entities

section Accepted

variable {patch : ScenePatch} {plan : CommitPlan} {newRevision : SceneRevision}
  {operationCount : NonZeroU32} {scene : Scene} {storage : Arena StoredRecord}
  {index : Std.ExtTreeMap StableEntityId ℕ}

/-- **A world that accepts a patch has room for its receipt.** Either it had, or the patch begins
with a create. -/
theorem Accepted.room (h : Accepted world patch plan newRevision operationCount scene storage index)
    (hworld : world.RoomForReceipt) :
    91 ≤ world.config.runtimeLimits.maxDecodedBytes.get := by
  rcases hworld with hroom | hempty
  · exact hroom
  · obtain ⟨-, -, hsize⟩ := ScenePatch.bounds_of_validate h.valid
    have hpatch := patch.le_logicalSizeBytes
    have hrun := h.run
    have hne := (ScenePatch.valid_of_validate h.valid).operations_ne_nil
    cases hoperations : patch.operations with
    | nil => exact absurd hoperations hne
    | cons operation operations =>
      rw [hoperations, Scene.run, List.foldlM_cons] at hrun
      obtain ⟨next, hstep, -⟩ := Exec.bind_eq_ok.mp hrun
      obtain ⟨entityId, components, rfl⟩ := Scene.step_of_isEmpty hempty hstep
      have hcreate := SceneOperation.logicalSizeBytes_create entityId components
      rw [hoperations, List.map_cons, List.sum_cons] at hpatch
      omega

theorem Accepted.validate_receiptOf
    (h : Accepted world patch plan newRevision operationCount scene storage index)
    (hworld : world.RoomForReceipt) (frame : FrameId) (clock : ApplyClock) :
    (receiptOf patch plan newRevision operationCount frame clock).validate
      world.config.runtimeLimits = .ok () := by
  obtain ⟨hschema, hoperations, -⟩ := ScenePatch.bounds_of_validate h.valid
  have hroom := h.room hworld
  have hrevision : plan.previousRevision.checkedNext = some newRevision := by
    rw [h.previous]
    exact h.revision
  have hcount : operationCount.get ≤ world.config.runtimeLimits.maxOperations.get := by
    have hlength := operationCount_ok h.count
    have hlt := operationCount.lt
    rw [h.operations] at hlength
    rw [← hlength, Cogniform.count] at hoperations
    omega
  exact ApplyReceipt.validate_of_diagnostics_nil hschema hrevision hcount rfl hroom

end Accepted

/-- What every reachable world keeps: room for receipts as soon as it is not empty, and valid
receipts in the records. -/
structure ReceiptsFit (world : AuthoritativeWorld) : Prop where
  room : world.RoomForReceipt
  records : ∀ (key : IdempotencyKey) recorded, world.idempotencyRecords[key]? = some recorded →
    recorded.receipt.validate world.config.runtimeLimits = .ok ()

theorem Reachable.receiptsFit {config : WorldConfig} (h : Reachable config world) :
    world.ReceiptsFit := by
  refine h.invariant ?_ ?_ ?_
  · refine ⟨.inr fun id => ?_, fun key recorded hrecorded => ?_⟩
    · change id ∉ sceneEntities _ _
      rw [(consistent_new config).toIndexed.mem_sceneEntities]
      exact Std.ExtTreeMap.not_mem_empty
    · simp [AuthoritativeWorld.new] at hrecorded
  · intro world patch plan newRevision count scene storage index _ hfit haccepted frame clock
    refine ⟨.inl (haccepted.room hfit.room), fun key recorded hrecorded => ?_⟩
    change (world.idempotencyRecords.insert patch.idempotencyKey _)[key]? = some recorded
      at hrecorded
    rw [TreeMap.getElem?_insert] at hrecorded
    split at hrecorded
    · cases hrecorded
      exact haccepted.validate_receiptOf hfit.room frame clock
    · exact hfit.records key recorded hrecorded
  · intro world extraction _ hfit _
    exact ⟨hfit.room, hfit.records⟩

/-- **Receipts respect the limits they were produced under.** In every reachable world a receipt
that `applyPatch` returns is valid. So the check after the commit holds, and encoding the receipt
under the same limits can only fail for the size of the text. -/
theorem applyPatch_receipt_valid {config : WorldConfig} (h : Reachable config world)
    {patch : ScenePatch} {frame : FrameId} {clock : ApplyClock} {receipt : ApplyReceipt}
    (hok : (world.applyPatch patch frame clock).2 = .ok receipt) :
    receipt.validate config.runtimeLimits = .ok () ∧
      ∀ (serde : Serde ApplyReceipt) bytes, serde.toVec receipt = some bytes →
        ((∃ encoded, receipt.toCanonicalJson serde config.runtimeLimits = .ok encoded) ↔
          count64 (bytes.length + 1) ≤ config.runtimeLimits.maxEncodedBytes.get) := by
  have hvalid : receipt.validate config.runtimeLimits = .ok () := by
    rw [← h.config_eq]
    rcases applyPatch_cases h.consistent patch frame clock with ⟨_, -, heq⟩ | ⟨_, hreplay, heq⟩ |
      ⟨_, _, _, _, _, _, -, haccepted, heq⟩
    · rw [heq] at hok
      cases hok
    · rw [heq] at hok
      cases hok
      obtain ⟨recorded, hrecorded, rfl⟩ := admitPatch_replay hreplay
      -- Validation does not read the status.
      exact h.receiptsFit.records _ recorded hrecorded
    · rw [heq] at hok
      cases hok
      exact haccepted.validate_receiptOf h.receiptsFit.room frame clock
  refine ⟨hvalid, fun serde bytes hbytes => ?_⟩
  have hsize : enforceEncodedSize (bytes ++ [10]).length config.runtimeLimits = .ok () ↔
      count64 (bytes.length + 1) ≤ config.runtimeLimits.maxEncodedBytes.get := by
    rw [enforceEncodedSize, List.length_append, List.length_singleton]
    split <;> simp_all
  rw [← hsize]
  constructor
  · rintro ⟨encoded, hencoded⟩
    obtain ⟨-, hfits, bytes', hbytes', rfl⟩ := encode_eq_ok.mp hencoded
    obtain rfl : bytes = bytes' := Option.some.inj (hbytes.symm.trans hbytes')
    exact hfits
  · intro hfits
    exact ⟨bytes ++ [10], encode_eq_ok.mpr ⟨hvalid, hfits, bytes, hbytes, rfl⟩⟩

theorem applyPatch_receipt_valid_sample :
    ∃ receipt repeated,
      ((new .default).applyPatch samplePatch ⟨1, by decide⟩ ⟨0, 0⟩).2 = .ok receipt ∧
      (sampleWorld.applyPatch samplePatch ⟨2, by decide⟩ ⟨0, 0⟩).2 = .ok repeated ∧
      receipt.validate WorldConfig.default.runtimeLimits = .ok () ∧
      repeated.validate WorldConfig.default.runtimeLimits = .ok () := by
  obtain ⟨receipt, hreceipt, -⟩ := Exec.exists_ok_of_any
    (x := ((new .default).applyPatch samplePatch ⟨1, by decide⟩ ⟨0, 0⟩).2)
    (p := fun receipt => receipt.status = .applied) (by decide +kernel)
  obtain ⟨repeated, hrepeated, -⟩ := Exec.exists_ok_of_any
    (x := (sampleWorld.applyPatch samplePatch ⟨2, by decide⟩ ⟨0, 0⟩).2)
    (p := fun receipt => receipt.status = .idempotentReplay) (by decide +kernel)
  exact ⟨receipt, repeated, hreceipt, hrepeated, (applyPatch_receipt_valid .new hreceipt).1,
    (applyPatch_receipt_valid reachable_sampleWorld hrepeated).1⟩

def tightConfig : WorldConfig :=
  { WorldConfig.default with
    runtimeLimits :=
      { WorldConfig.default.runtimeLimits with maxEncodedBytes := .lit 1 } }

theorem applyPatch_receipt_unencodable :
    ∃ receipt, ((new tightConfig).applyPatch samplePatch ⟨1, by decide⟩ ⟨0, 0⟩).2 = .ok receipt ∧
      receipt.status = .applied ∧ receipt.validate tightConfig.runtimeLimits = .ok () ∧
      receipt.toCanonicalJson (Serde.single ApplyReceipt.serialize receipt)
        tightConfig.runtimeLimits = .error (.encodedSizeExceeded 316 1) := by
  obtain ⟨receipt, hreceipt, hp⟩ := Exec.exists_ok_of_any
    (x := ((new tightConfig).applyPatch samplePatch ⟨1, by decide⟩ ⟨0, 0⟩).2)
    (p := fun receipt => receipt.status = .applied ∧
      receipt.validate tightConfig.runtimeLimits = .ok () ∧
      (receipt.toCanonicalJson (Serde.single ApplyReceipt.serialize receipt)
        tightConfig.runtimeLimits = .error (.encodedSizeExceeded 316 1))) (by decide +kernel)
  exact ⟨receipt, hreceipt, of_decide_eq_true hp⟩

end AuthoritativeWorld

end Cogniform
