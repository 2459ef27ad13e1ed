import Cogniform.Protocol.Component

/-!
# Patches and receipts

`ScenePatch.validate` is the source's `validate_with_limits`: it checks the schema, then the
operation count, then each operation in order, then the accumulated totals, and reports the first
failure with its field path. Totals saturate. What the world relies on is collected in
`ScenePatch.Valid`.
-/

namespace Cogniform

structure RuntimeLimits where
  maxEncodedBytes : NonZeroU64
  maxDecodedBytes : NonZeroU64
  maxJsonNestingDepth : NonZeroU16
  maxOperations : NonZeroU32
  maxComponents : NonZeroU32
  maxComponentsPerEntity : NonZeroU32
  maxTextBytes : NonZeroU64
  maxDiagnostics : NonZeroU32
  maxQueueCapacity : NonZeroU32
  maxImaginationEntities : NonZeroU32
  maxImaginationRelations : NonZeroU32
  maxImaginationConstraints : NonZeroU32
  maxQueryEntities : NonZeroU32
  maxObservationWidth : NonZeroU32
  maxObservationHeight : NonZeroU32
  maxObservationPixels : NonZeroU64
  deriving DecidableEq

def RuntimeLimits.default : RuntimeLimits where
  maxEncodedBytes := .lit 1_048_576
  maxDecodedBytes := .lit 4_194_304
  maxJsonNestingDepth := .lit 32
  maxOperations := .lit 1_024
  maxComponents := .lit 8_192
  maxComponentsPerEntity := .lit 64
  maxTextBytes := .lit 65_536
  maxDiagnostics := .lit 128
  maxQueueCapacity := .lit 1_024
  maxImaginationEntities := .lit 256
  maxImaginationRelations := .lit 512
  maxImaginationConstraints := .lit 256
  maxQueryEntities := .lit 1_024
  maxObservationWidth := .lit 4_096
  maxObservationHeight := .lit 4_096
  maxObservationPixels := .lit 16_777_216

structure PatchBudget where
  maxOperations : NonZeroU32
  maxComponents : NonZeroU32
  maxTextBytes : NonZeroU64
  maxDecodedBytes : NonZeroU64
  deriving DecidableEq

def PatchBudget.default : PatchBudget where
  maxOperations := .lit 256
  maxComponents := .lit 2_048
  maxTextBytes := .lit 16_384
  maxDecodedBytes := .lit 262_144

/-! ### Operations -/

inductive ConflictPolicy where
  | requireExactBase
  deriving DecidableEq

inductive DeliverySemantic where
  | mustApply
  | latestWins (supersessionKey : SceneText)
  | bestEffort
  deriving DecidableEq

def DeliverySemantic.textBytes : DeliverySemantic → ℕ
  | .latestWins key => key.lenBytes
  | .mustApply | .bestEffort => 0

def DeliverySemantic.logicalSizeBytes : DeliverySemantic → ℕ
  | .latestWins key => satAdd (satAdd 1 4) (count64 key.lenBytes)
  | .mustApply | .bestEffort => 1

inductive SceneOperation where
  | create (entityId : StableEntityId) (components : List ComponentValue)
  | delete (entityId : StableEntityId)
  | setComponent (entityId : StableEntityId) (component : ComponentValue)
  | removeComponent (entityId : StableEntityId) (component : ComponentKind)
  | reparent (entityId : StableEntityId) (parentId : Option StableEntityId)
  deriving DecidableEq

namespace SceneOperation

/-- Validate the components of a create in order; `kinds` are those already seen. -/
def validateComponents : List ComponentKind → List ComponentValue → Except ValidationError Unit
  | _, [] => .ok ()
  | kinds, component :: components =>
    match component.validate with
    | .error e => .error e
    | .ok () =>
      if component.kind ∈ kinds then .error ⟨.duplicateComponent, "operations[].create.components"⟩
      else validateComponents (component.kind :: kinds) components

def validate : SceneOperation → Except ValidationError Unit
  | .create _ components => validateComponents [] components
  | .setComponent _ component => component.validate
  | .reparent entityId parentId =>
    if parentId = some entityId then .error ⟨.selfParent, "operations[].reparent.parent_id"⟩
    else .ok ()
  | .delete _ | .removeComponent _ _ => .ok ()

def componentCount : SceneOperation → ℕ
  | .create _ components => components.length
  | .setComponent _ _ => 1
  | .delete _ | .removeComponent _ _ | .reparent _ _ => 0

def textBytes : SceneOperation → ℕ
  | .create _ components =>
    components.foldl (fun total component => satAdd total (count64 component.textBytes)) 0
  | .setComponent _ component => count64 component.textBytes
  | .delete _ | .removeComponent _ _ | .reparent _ _ => 0

def logicalSizeBytes : SceneOperation → ℕ
  | .create _ components =>
    components.foldl (fun total component => satAdd total component.logicalSizeBytes) (1 + 16 + 4)
  | .delete _ => 1 + 16
  | .setComponent _ component => satAdd (satAdd 1 16) component.logicalSizeBytes
  | .removeComponent _ _ => 1 + 16 + 1
  | .reparent _ parentId => 1 + 16 + 1 + parentId.isSome.toNat * 16

theorem validateComponents_ok {components : List ComponentValue} :
    ∀ {kinds : List ComponentKind}, validateComponents kinds components = .ok () →
      (components.map ComponentValue.kind).Nodup ∧
        ∀ component ∈ components, component.kind ∉ kinds := by
  induction components with
  | nil => intro kinds _; simp
  | cons component components ih =>
    intro kinds h
    rw [validateComponents] at h
    split at h
    · cases h
    · split at h
      · cases h
      · rename_i hfresh
        obtain ⟨hnodup, hseen⟩ := ih h
        refine ⟨?_, ?_⟩
        · rw [List.map_cons, List.nodup_cons]
          refine ⟨fun hmem => ?_, hnodup⟩
          obtain ⟨c, hc, hkind⟩ := List.mem_map.mp hmem
          exact hseen c hc (by rw [hkind]; exact List.mem_cons_self ..)
        · intro c hc
          rcases List.mem_cons.mp hc with rfl | hc
          · exact hfresh
          · exact fun hmem => hseen c hc (List.mem_cons_of_mem _ hmem)

end SceneOperation

/-! ### Patches -/

structure ScenePatch where
  schemaVersion : SchemaVersion
  transactionId : TransactionId
  idempotencyKey : IdempotencyKey
  baseRevision : SceneRevision
  conflictPolicy : ConflictPolicy
  delivery : DeliverySemantic
  declaredBudget : PatchBudget
  operations : List SceneOperation
  deriving DecidableEq

def validateSchema (schemaVersion : SchemaVersion) : Except ValidationError Unit :=
  if schemaVersion ≠ .v1 then .error ⟨.unsupportedSchema, "schema_version"⟩ else .ok ()

theorem validateSchema_eq_ok {schemaVersion : SchemaVersion} :
    validateSchema schemaVersion = .ok () ↔ schemaVersion = .v1 := by
  rw [validateSchema]
  split <;> simp_all

def SceneOperation.exceedsEntityLimit (limits : RuntimeLimits) : SceneOperation → Bool
  | .create _ components => limits.maxComponentsPerEntity.get < count components.length
  | _ => false

def validateOperations (limits : RuntimeLimits) :
    List SceneOperation → ℕ → ℕ → Except ValidationError (ℕ × ℕ)
  | [], componentCount, textBytes => .ok (componentCount, textBytes)
  | operation :: operations, componentCount, textBytes =>
    match operation.validate with
    | .error e => .error e
    | .ok () =>
      if operation.exceedsEntityLimit limits then
        .error ⟨.componentLimitExceeded, "operations[].create.components"⟩
      else
        validateOperations limits operations
          (satAdd componentCount (count64 operation.componentCount))
          (satAdd textBytes operation.textBytes)

namespace ScenePatch

def logicalSizeBytes (patch : ScenePatch) : ℕ :=
  patch.operations.foldl (fun total operation => satAdd total operation.logicalSizeBytes)
    (satAdd (satAdd (satAdd (satAdd (satAdd (satAdd (satAdd 2 16) 16) 8) 1)
      patch.delivery.logicalSizeBytes) 24) 4)

/-- `validate_with_limits`: schema invariants and runtime resource limits. -/
def validate (patch : ScenePatch) (limits : RuntimeLimits) : Except ValidationError Unit := do
  validateSchema patch.schemaVersion
  let operationCount := count patch.operations.length
  if operationCount = 0 then .error ⟨.emptyPatch, "operations"⟩
  else if patch.declaredBudget.maxOperations.get < operationCount
      ∨ limits.maxOperations.get < operationCount
      ∨ limits.maxOperations.get < patch.declaredBudget.maxOperations.get then
    .error ⟨.operationLimitExceeded, "operations"⟩
  else
    let (componentCount, textBytes) ←
      validateOperations limits patch.operations 0 (count64 patch.delivery.textBytes)
    if patch.declaredBudget.maxComponents.get < componentCount
        ∨ limits.maxComponents.get < componentCount
        ∨ limits.maxComponents.get < patch.declaredBudget.maxComponents.get then
      .error ⟨.componentLimitExceeded, "operations[].components"⟩
    else if patch.declaredBudget.maxTextBytes.get < textBytes
        ∨ limits.maxTextBytes.get < textBytes
        ∨ limits.maxTextBytes.get < patch.declaredBudget.maxTextBytes.get then
      .error ⟨.textLimitExceeded, "operations[].text"⟩
    else if patch.declaredBudget.maxDecodedBytes.get < patch.logicalSizeBytes
        ∨ limits.maxDecodedBytes.get < patch.logicalSizeBytes
        ∨ limits.maxDecodedBytes.get < patch.declaredBudget.maxDecodedBytes.get then
      .error ⟨.decodedSizeLimitExceeded, "declared_budget.max_decoded_bytes"⟩
    else .ok ()

structure Valid (patch : ScenePatch) : Prop where
  operations_ne_nil : patch.operations ≠ []
  operations_valid : ∀ operation ∈ patch.operations, operation.validate = .ok ()

end ScenePatch

theorem validateOperations_ok {limits : RuntimeLimits} {operations : List SceneOperation} :
    ∀ {componentCount textBytes : ℕ} {totals : ℕ × ℕ},
      validateOperations limits operations componentCount textBytes = .ok totals →
        ∀ operation ∈ operations, operation.validate = .ok () := by
  induction operations with
  | nil => intro _ _ _ _ operation hmem; cases hmem
  | cons first rest ih =>
    intro componentCount textBytes totals h operation hmem
    rw [validateOperations] at h
    split at h
    · cases h
    · rename_i hvalid
      have hrest : ∀ operation ∈ rest, operation.validate = .ok () := by
        split at h
        · cases h
        · exact ih h
      rcases List.mem_cons.mp hmem with rfl | hmem
      · exact hvalid
      · exact hrest operation hmem

theorem ScenePatch.valid_of_validate {patch : ScenePatch} {limits : RuntimeLimits}
    (h : patch.validate limits = .ok ()) : patch.Valid := by
  rw [validate] at h
  cases hschema : validateSchema patch.schemaVersion with
  | error e => rw [hschema] at h; cases h
  | ok u =>
    rw [hschema] at h
    simp only [bind, Except.bind] at h
    split at h
    · cases h
    · rename_i hcount
      split at h
      · cases h
      · split at h
        · cases h
        · rename_i totals htotals
          refine ⟨fun hnil => hcount ?_, validateOperations_ok htotals⟩
          rw [hnil]; rfl

inductive ApplyStatus where
  | applied
  | idempotentReplay
  deriving DecidableEq

structure ApplyTiming where
  decodeMicros : UInt64
  validateMicros : UInt64
  commitMicros : UInt64
  deriving DecidableEq

inductive DiagnosticSeverity where
  | info | warning | error
  deriving DecidableEq

structure Diagnostic where
  code : DiagnosticCode
  severity : DiagnosticSeverity
  message : SceneText
  operationIndex : Option UInt32
  entityId : Option StableEntityId
  deriving DecidableEq

structure ApplyReceipt where
  schemaVersion : SchemaVersion
  transactionId : TransactionId
  idempotencyKey : IdempotencyKey
  status : ApplyStatus
  previousRevision : SceneRevision
  newRevision : SceneRevision
  operationCount : NonZeroU32
  diagnostics : List Diagnostic
  timing : ApplyTiming
  estimatedVisibleFrame : FrameId
  deriving DecidableEq

namespace ApplyReceipt

def logicalSizeBytes (receipt : ApplyReceipt) : ℕ :=
  receipt.diagnostics.foldl (fun total diagnostic =>
    satAdd (satAdd (satAdd (satAdd (satAdd (satAdd total 2) 1) 4)
      (count64 diagnostic.message.lenBytes)) (1 + diagnostic.operationIndex.isSome.toNat * 4))
      (1 + diagnostic.entityId.isSome.toNat * 16))
    (2 + 16 + 16 + 1 + 8 + 8 + 4 + 4 + 24 + 8)

/-- `validate_with_limits`: receipt causality and collection limits. -/
def validate (receipt : ApplyReceipt) (limits : RuntimeLimits) : Except ValidationError Unit := do
  validateSchema receipt.schemaVersion
  if receipt.previousRevision.checkedNext ≠ some receipt.newRevision then
    .error ⟨.invalidReceiptRevision, "new_revision"⟩
  else if limits.maxOperations.get < receipt.operationCount.get then
    .error ⟨.invalidReceiptOperationCount, "operation_count"⟩
  else if limits.maxDiagnostics.get < count receipt.diagnostics.length then
    .error ⟨.diagnosticLimitExceeded, "diagnostics"⟩
  else if limits.maxTextBytes.get < receipt.diagnostics.foldl
      (fun total diagnostic => satAdd total (count64 diagnostic.message.lenBytes)) 0 then
    .error ⟨.textLimitExceeded, "diagnostics[].message"⟩
  else if limits.maxDecodedBytes.get < receipt.logicalSizeBytes then
    .error ⟨.decodedSizeLimitExceeded, "receipt"⟩
  else .ok ()

end ApplyReceipt

end Cogniform
