import Cogniform.Lib.Meet
import Cogniform.Compiler.Limits
import Cogniform.Transport.Codec

/-!
# Limits and their negotiation

Both ends of a session bound what they receive, and the bounds are not independent: a control
message has to fit a frame and the protocol's own limit, the bulk section a frame, and a payload
envelope the bulk section. Among consistent limits, ordered field by field, `intersect` is the meet.
-/

namespace Cogniform

def intersectRuntimeLimits (left right : RuntimeLimits) : RuntimeLimits :=
  let maxComponents := min left.maxComponents right.maxComponents
  { maxEncodedBytes := min left.maxEncodedBytes right.maxEncodedBytes
    maxDecodedBytes := min left.maxDecodedBytes right.maxDecodedBytes
    maxJsonNestingDepth := min left.maxJsonNestingDepth right.maxJsonNestingDepth
    maxOperations := min left.maxOperations right.maxOperations
    maxComponents := maxComponents
    maxComponentsPerEntity :=
      min (min left.maxComponentsPerEntity right.maxComponentsPerEntity) maxComponents
    maxTextBytes := min left.maxTextBytes right.maxTextBytes
    maxDiagnostics := min left.maxDiagnostics right.maxDiagnostics
    maxQueueCapacity := min left.maxQueueCapacity right.maxQueueCapacity
    maxImaginationEntities := min left.maxImaginationEntities right.maxImaginationEntities
    maxImaginationRelations := min left.maxImaginationRelations right.maxImaginationRelations
    maxImaginationConstraints := min left.maxImaginationConstraints right.maxImaginationConstraints
    maxQueryEntities := min left.maxQueryEntities right.maxQueryEntities
    maxObservationWidth := min left.maxObservationWidth right.maxObservationWidth
    maxObservationHeight := min left.maxObservationHeight right.maxObservationHeight
    maxObservationPixels := min left.maxObservationPixels right.maxObservationPixels }

namespace RuntimeLimits

theorem value_intersectRuntimeLimits {left right : RuntimeLimits} (hleft : left.Consistent)
    (hright : right.Consistent) :
    (intersectRuntimeLimits left right).value = left.value ⊓ right.value := by
  funext field
  rw [Pi.inf_apply]
  cases field with
  | maxComponentsPerEntity =>
    rw [Consistent] at hleft hright
    simp only [intersectRuntimeLimits, value, NonZero.get_min]
    omega
  | _ => simp [intersectRuntimeLimits, value]

theorem consistent_intersectRuntimeLimits (left right : RuntimeLimits) :
    (intersectRuntimeLimits left right).Consistent := by
  simp [Consistent, intersectRuntimeLimits]

end RuntimeLimits

inductive LocalSessionValidationKind where
  | unsupportedVersion | invalidLimits | invalidProtocolValue | invalidPatchAdmission
  | invalidPatchCompletion | invalidVersionVariant | invalidCompilationLimits
  | invalidImaginationAdmission | invalidImaginationCompletion | invalidCompilationResult
  deriving DecidableEq

structure LocalSessionValidationError where
  kind : LocalSessionValidationKind
  field : String
  protocolError : Option ValidationError
  deriving DecidableEq

def LocalSessionValidationError.new (kind : LocalSessionValidationKind) (field : String) :
    LocalSessionValidationError := ⟨kind, field, none⟩

def LocalSessionValidationError.protocol (field : String) (error : ValidationError) :
    LocalSessionValidationError := ⟨.invalidProtocolValue, field, some error⟩

def invalidLimits (field : String) : LocalSessionValidationError := .new .invalidLimits field

/-! ### Session limits -/

structure LocalSessionLimits where
  maxFrameBytes : NonZeroU64
  maxControlMessageBytes : NonZeroU64
  maxBulkBytes : NonZeroU64
  maxObservationEnvelopeBytes : NonZeroU64
  maxVisibilityEntries : NonZeroU32
  runtimeLimits : RuntimeLimits
  deriving DecidableEq

namespace LocalSessionLimits

def validate (limits : LocalSessionLimits) : Except LocalSessionValidationError Unit :=
  if limits.maxFrameBytes.get < localFrameHeaderBytes then
    .error (invalidLimits "limits.max_frame_bytes")
  else
    let frameBody := limits.maxFrameBytes.get - localFrameHeaderBytes
    if frameBody < limits.maxControlMessageBytes.get ∨
        limits.runtimeLimits.maxEncodedBytes.get < limits.maxControlMessageBytes.get then
      .error (invalidLimits "limits.max_control_message_bytes")
    else if frameBody < limits.maxBulkBytes.get then
      .error (invalidLimits "limits.max_bulk_bytes")
    else if limits.maxBulkBytes.get < limits.maxObservationEnvelopeBytes.get then
      .error (invalidLimits "limits.max_observation_envelope_bytes")
    else if limits.runtimeLimits.maxComponents.get <
        limits.runtimeLimits.maxComponentsPerEntity.get then
      .error (invalidLimits "limits.runtime_limits.max_components_per_entity")
    else .ok ()

def fromConfig (config : LocalFrameConfig) :
    Except LocalSessionValidationError LocalSessionLimits :=
  let maxFrameBytes := config.frameLimits.maxFrameBytes
  if maxFrameBytes.get < localFrameHeaderBytes then
    .error (invalidLimits "limits.max_frame_bytes")
  else
    let frameBody := maxFrameBytes.get - localFrameHeaderBytes
    let effectiveControl := min (min frameBody config.frameLimits.maxControlBytes.get)
      config.runtimeLimits.maxEncodedBytes.get
    match nonZeroU64 effectiveControl with
    | none => .error (invalidLimits "limits.max_control_message_bytes")
    | some maxControlMessageBytes =>
      let effectiveBulk := min frameBody config.frameLimits.maxBulkBytes.get
      match nonZeroU64 effectiveBulk with
      | none => .error (invalidLimits "limits.max_bulk_bytes")
      | some maxBulkBytes =>
        match nonZeroU64 (min effectiveBulk config.payloadLimits.maxEnvelopeBytes.get) with
        | none => .error (invalidLimits "limits.max_observation_envelope_bytes")
        | some maxObservationEnvelopeBytes => do
          let limits : LocalSessionLimits :=
            ⟨maxFrameBytes, maxControlMessageBytes, maxBulkBytes, maxObservationEnvelopeBytes,
              config.payloadLimits.maxVisibilityEntries, config.runtimeLimits⟩
          limits.validate
          .ok limits

def intersect (left right : LocalSessionLimits) :
    Except LocalSessionValidationError LocalSessionLimits := do
  left.validate
  right.validate
  let runtimeLimits := intersectRuntimeLimits left.runtimeLimits right.runtimeLimits
  let maxFrameBytes := min left.maxFrameBytes right.maxFrameBytes
  if maxFrameBytes.get < localFrameHeaderBytes then
    .error (invalidLimits "limits.max_frame_bytes")
  else
    match nonZeroU64 (maxFrameBytes.get - localFrameHeaderBytes) with
    | none => .error (invalidLimits "limits.max_control_message_bytes")
    | some frameBody =>
      let maxBulkBytes := min left.maxBulkBytes right.maxBulkBytes
      let limits : LocalSessionLimits :=
        { maxFrameBytes := maxFrameBytes
          maxControlMessageBytes :=
            min (min (min left.maxControlMessageBytes right.maxControlMessageBytes)
              runtimeLimits.maxEncodedBytes) frameBody
          maxBulkBytes := maxBulkBytes
          maxObservationEnvelopeBytes :=
            min (min left.maxObservationEnvelopeBytes right.maxObservationEnvelopeBytes)
              maxBulkBytes
          maxVisibilityEntries := min left.maxVisibilityEntries right.maxVisibilityEntries
          runtimeLimits := runtimeLimits }
      limits.validate
      .ok limits

def negotiate (limits : LocalSessionLimits) (localConfig : LocalFrameConfig) :
    Except LocalSessionValidationError LocalSessionLimits := do
  limits.validate
  let available ← fromConfig localConfig
  limits.intersect available

def toFrameConfig (limits : LocalSessionLimits) :
    Except LocalSessionValidationError LocalFrameConfig := do
  limits.validate
  .ok (.withPayloadBounds
    ⟨limits.maxFrameBytes, limits.maxControlMessageBytes, limits.maxBulkBytes⟩
    limits.runtimeLimits limits.maxObservationEnvelopeBytes limits.maxVisibilityEntries)

def fitsWithinConfig (limits : LocalSessionLimits) (config : LocalFrameConfig) :
    Except LocalSessionValidationError Unit := do
  let available ← fromConfig config
  if available.maxFrameBytes.get < limits.maxFrameBytes.get
      ∨ available.maxControlMessageBytes.get < limits.maxControlMessageBytes.get
      ∨ available.maxBulkBytes.get < limits.maxBulkBytes.get
      ∨ available.maxObservationEnvelopeBytes.get < limits.maxObservationEnvelopeBytes.get
      ∨ available.maxVisibilityEntries.get < limits.maxVisibilityEntries.get
      ∨ runtimeLimitsFit limits.runtimeLimits available.runtimeLimits = false then
    .error (invalidLimits "message.hello.effective_limits")
  else .ok ()

inductive Field where
  | maxFrameBytes | maxControlMessageBytes | maxBulkBytes | maxObservationEnvelopeBytes
  | maxVisibilityEntries
  | runtime (limit : RuntimeLimit)

def value (limits : LocalSessionLimits) : Field → ℕ
  | .maxFrameBytes => limits.maxFrameBytes.get
  | .maxControlMessageBytes => limits.maxControlMessageBytes.get
  | .maxBulkBytes => limits.maxBulkBytes.get
  | .maxObservationEnvelopeBytes => limits.maxObservationEnvelopeBytes.get
  | .maxVisibilityEntries => limits.maxVisibilityEntries.get
  | .runtime limit => limits.runtimeLimits.value limit

theorem value_injective : Function.Injective value := by
  intro left right h
  have hruntime : left.runtimeLimits = right.runtimeLimits :=
    RuntimeLimits.value_injective (funext fun limit => congrFun h (.runtime limit))
  cases left
  cases right
  simp only [LocalSessionLimits.mk.injEq]
  refine ⟨?_, ?_, ?_, ?_, ?_, hruntime⟩ <;> apply NonZero.get_injective
  exacts [congrFun h .maxFrameBytes, congrFun h .maxControlMessageBytes,
    congrFun h .maxBulkBytes, congrFun h .maxObservationEnvelopeBytes,
    congrFun h .maxVisibilityEntries]

instance : PartialOrder LocalSessionLimits := PartialOrder.lift value value_injective

def valueEmbedding : LocalSessionLimits ↪o (Field → ℕ) := ⟨⟨value, value_injective⟩, Iff.rfl⟩

structure Consistent (limits : LocalSessionLimits) : Prop where
  control_frame : localFrameHeaderBytes + limits.maxControlMessageBytes.get ≤
    limits.maxFrameBytes.get
  control_encoded : limits.maxControlMessageBytes.get ≤ limits.runtimeLimits.maxEncodedBytes.get
  bulk_frame : localFrameHeaderBytes + limits.maxBulkBytes.get ≤ limits.maxFrameBytes.get
  envelope : limits.maxObservationEnvelopeBytes.get ≤ limits.maxBulkBytes.get
  runtime : limits.runtimeLimits.Consistent

theorem validate_eq_ok {limits : LocalSessionLimits} :
    limits.validate = .ok () ↔ limits.Consistent := by
  have hcontrol := limits.maxControlMessageBytes.pos
  simp only [validate]
  constructor
  · intro h
    split_ifs at h
    exact ⟨by omega, by omega, by omega, by omega, by rw [RuntimeLimits.Consistent]; omega⟩
  · rintro ⟨h₁, h₂, h₃, h₄, h₅⟩
    rw [RuntimeLimits.Consistent] at h₅
    rw [if_neg (by omega), if_neg (by omega), if_neg (by omega), if_neg (by omega),
      if_neg (by omega)]

/-- **Negotiation takes the smaller value of each field**, and what it takes is consistent. The caps
it applies to keep the result consistent change nothing. -/
theorem intersect_eq {left right : LocalSessionLimits} (hleft : left.Consistent)
    (hright : right.Consistent) :
    ∃ meet, left.intersect right = .ok meet ∧ meet.Consistent ∧
      meet.value = left.value ⊓ right.value := by
  have hruntime :=
    RuntimeLimits.value_intersectRuntimeLimits hleft.runtime hright.runtime
  have hencoded := congrFun hruntime .maxEncodedBytes
  simp only [RuntimeLimits.value, Pi.inf_apply] at hencoded
  obtain ⟨hleft₁, hleft₂, hleft₃, hleft₄, -⟩ := id hleft
  obtain ⟨hright₁, hright₂, hright₃, hright₄, -⟩ := id hright
  have hleftPos := left.maxControlMessageBytes.pos
  have hrightPos := right.maxControlMessageBytes.pos
  have hframe := NonZero.get_min left.maxFrameBytes right.maxFrameBytes
  have hframeLt := (min left.maxFrameBytes right.maxFrameBytes).lt
  let frameBody : NonZeroU64 :=
    ⟨(min left.maxFrameBytes right.maxFrameBytes).get - localFrameHeaderBytes, by omega, by omega⟩
  have hbody : nonZeroU64 ((min left.maxFrameBytes right.maxFrameBytes).get -
      localFrameHeaderBytes) = some frameBody := nonZeroU64_eq_some.mpr rfl
  let meet : LocalSessionLimits :=
    { maxFrameBytes := min left.maxFrameBytes right.maxFrameBytes
      maxControlMessageBytes :=
        min (min (min left.maxControlMessageBytes right.maxControlMessageBytes)
          (intersectRuntimeLimits left.runtimeLimits right.runtimeLimits).maxEncodedBytes) frameBody
      maxBulkBytes := min left.maxBulkBytes right.maxBulkBytes
      maxObservationEnvelopeBytes :=
        min (min left.maxObservationEnvelopeBytes right.maxObservationEnvelopeBytes)
          (min left.maxBulkBytes right.maxBulkBytes)
      maxVisibilityEntries := min left.maxVisibilityEntries right.maxVisibilityEntries
      runtimeLimits := intersectRuntimeLimits left.runtimeLimits right.runtimeLimits }
  have hcontrol : meet.maxControlMessageBytes.get =
      min left.maxControlMessageBytes.get right.maxControlMessageBytes.get := by
    simp only [meet, NonZero.get_min, hencoded, frameBody]
    omega
  have henvelope : meet.maxObservationEnvelopeBytes.get =
      min left.maxObservationEnvelopeBytes.get right.maxObservationEnvelopeBytes.get := by
    simp only [meet, NonZero.get_min]
    omega
  have hbulk : meet.maxBulkBytes.get = min left.maxBulkBytes.get right.maxBulkBytes.get :=
    NonZero.get_min _ _
  have hmeetFrame : meet.maxFrameBytes.get =
      min left.maxFrameBytes.get right.maxFrameBytes.get := hframe
  have hconsistent : meet.Consistent := by
    refine ⟨by omega, ?_, by omega, by omega, RuntimeLimits.consistent_intersectRuntimeLimits _ _⟩
    change _ ≤ (intersectRuntimeLimits left.runtimeLimits right.runtimeLimits).maxEncodedBytes.get
    omega
  refine ⟨meet, ?_, hconsistent, ?_⟩
  · refine Exec.bind_eq_ok.mpr ⟨(), validate_eq_ok.mpr hleft, Exec.bind_eq_ok.mpr
      ⟨(), validate_eq_ok.mpr hright, ?_⟩⟩
    rw [if_neg (by omega), hbody]
    exact Exec.bind_eq_ok.mpr ⟨(), validate_eq_ok.mpr hconsistent, rfl⟩
  · funext field
    cases field with
    | maxFrameBytes => exact hmeetFrame
    | maxControlMessageBytes => exact hcontrol
    | maxBulkBytes => exact hbulk
    | maxObservationEnvelopeBytes => exact henvelope
    | maxVisibilityEntries => exact NonZero.get_min _ _
    | runtime limit => exact congrFun hruntime limit

theorem isPartialMeet_intersect : IsPartialMeet Consistent valueEmbedding intersect :=
  ⟨fun hleft hright => intersect_eq hleft hright⟩

theorem fromConfig_eq_ok {config : LocalFrameConfig} {limits : LocalSessionLimits}
    (h : fromConfig config = .ok limits) :
    limits.Consistent ∧ limits.runtimeLimits = config.runtimeLimits := by
  simp only [fromConfig] at h
  split at h
  · cases h
  split at h
  · cases h
  split at h
  · cases h
  split at h
  · cases h
  obtain ⟨⟨⟩, hvalid, h⟩ := Exec.bind_eq_ok.mp h
  cases h
  exact ⟨validate_eq_ok.mp hvalid, rfl⟩

theorem fromConfig_toFrameConfig {limits : LocalSessionLimits} (h : limits.Consistent) :
    (limits.toFrameConfig >>= fromConfig) = .ok limits := by
  obtain ⟨h₁, h₂, h₃, h₄, -⟩ := id h
  have hcontrol := limits.maxControlMessageBytes.pos
  have hbody : min (min (limits.maxFrameBytes.get - localFrameHeaderBytes)
      limits.maxControlMessageBytes.get) limits.runtimeLimits.maxEncodedBytes.get =
        limits.maxControlMessageBytes.get := by omega
  have hbulk : min (limits.maxFrameBytes.get - localFrameHeaderBytes) limits.maxBulkBytes.get =
      limits.maxBulkBytes.get := by omega
  have henvelope : min limits.maxBulkBytes.get limits.maxObservationEnvelopeBytes.get =
      limits.maxObservationEnvelopeBytes.get := by omega
  have hsome : ∀ n : NonZeroU64, nonZeroU64 n.get = some n := fun n => nonZeroU64_eq_some.mpr rfl
  have hheader : ¬ limits.maxFrameBytes.get < localFrameHeaderBytes := by omega
  refine Exec.bind_eq_ok.mpr ⟨_, Exec.bind_eq_ok.mpr ⟨(), validate_eq_ok.mpr h, rfl⟩, ?_⟩
  simp only [fromConfig, LocalFrameConfig.withPayloadBounds, hheader, ↓reduceIte, hbody, hbulk,
    henvelope, hsome]
  exact Exec.bind_eq_ok.mpr ⟨(), validate_eq_ok.mpr h, rfl⟩

theorem fitsWithinConfig_of_le {config : LocalFrameConfig} {limits available : LocalSessionLimits}
    (hconfig : fromConfig config = .ok available) (hle : limits ≤ available) :
    limits.fitsWithinConfig config = .ok () := by
  have hruntime : limits.runtimeLimits ≤ available.runtimeLimits := fun limit => hle (.runtime limit)
  have hframe := hle .maxFrameBytes
  have hcontrol := hle .maxControlMessageBytes
  have hbulk := hle .maxBulkBytes
  have henvelope := hle .maxObservationEnvelopeBytes
  have hvisibility := hle .maxVisibilityEntries
  simp only [value] at hframe hcontrol hbulk henvelope hvisibility
  refine Exec.bind_eq_ok.mpr ⟨available, hconfig, if_neg ?_⟩
  simp only [RuntimeLimits.runtimeLimitsFit_iff.mpr hruntime, reduceCtorEq, or_false]
  omega

end LocalSessionLimits

def validateCompilationLimits (limits : CompilationLimits) :
    Except LocalSessionValidationError Unit :=
  if limits.patchLimits.maxComponents.get < limits.patchLimits.maxComponentsPerEntity.get then
    .error (.new .invalidCompilationLimits
      "compilation_limits.patch_limits.max_components_per_entity")
  else .ok ()

def intersectCompilationLimits (left right : CompilationLimits) :
    Except LocalSessionValidationError CompilationLimits := do
  validateCompilationLimits left
  validateCompilationLimits right
  let limits : CompilationLimits :=
    { maxEncodedBytes := min left.maxEncodedBytes right.maxEncodedBytes
      maxDecodedBytes := min left.maxDecodedBytes right.maxDecodedBytes
      maxJsonNestingDepth := min left.maxJsonNestingDepth right.maxJsonNestingDepth
      maxTextBytes := min left.maxTextBytes right.maxTextBytes
      maxDecisions := min left.maxDecisions right.maxDecisions
      maxUnresolvedConstraints := min left.maxUnresolvedConstraints right.maxUnresolvedConstraints
      patchLimits := intersectRuntimeLimits left.patchLimits right.patchLimits }
  validateCompilationLimits limits
  .ok limits

namespace CompilationLimits

theorem validateCompilationLimits_eq_ok {limits : CompilationLimits} :
    validateCompilationLimits limits = .ok () ↔ limits.Consistent := by
  rw [validateCompilationLimits, Consistent, RuntimeLimits.Consistent]
  split
  · exact iff_of_false (by simp) (by omega)
  · exact iff_of_true rfl (by omega)

theorem intersectCompilationLimits_eq {left right : CompilationLimits} (hleft : left.Consistent)
    (hright : right.Consistent) :
    ∃ meet, intersectCompilationLimits left right = .ok meet ∧ meet.Consistent ∧
      meet.value = left.value ⊓ right.value := by
  have hconsistent := RuntimeLimits.consistent_intersectRuntimeLimits left.patchLimits
    right.patchLimits
  refine ⟨_, Exec.bind_eq_ok.mpr ⟨(), validateCompilationLimits_eq_ok.mpr hleft,
    Exec.bind_eq_ok.mpr ⟨(), validateCompilationLimits_eq_ok.mpr hright,
      Exec.bind_eq_ok.mpr ⟨(), validateCompilationLimits_eq_ok.mpr hconsistent, rfl⟩⟩⟩,
    hconsistent, ?_⟩
  funext field
  cases field with
  | patch limit => exact congrFun (RuntimeLimits.value_intersectRuntimeLimits hleft hright) limit
  | _ => exact NonZero.get_min _ _

theorem isPartialMeet_intersect :
    IsPartialMeet Consistent valueEmbedding intersectCompilationLimits :=
  ⟨fun hleft hright => intersectCompilationLimits_eq hleft hright⟩

end CompilationLimits

structure ClientHello where
  receiveLimits : LocalSessionLimits
  compilationReceiveLimits : Option CompilationLimits
  deriving DecidableEq

structure ServerHello where
  effectiveLimits : LocalSessionLimits
  effectiveCompilationLimits : Option CompilationLimits
  deriving DecidableEq

def localSessionSchemaVersion : UInt16 := 1

/-- `LOCAL_SESSION_SCHEMA_VERSION_V2`: the version with imaginations. -/
def localSessionSchemaVersionV2 : UInt16 := 2

def validateClientHello (version : UInt16) (hello : ClientHello) :
    Except LocalSessionValidationError Unit :=
  match hello.compilationReceiveLimits with
  | none =>
    if version = localSessionSchemaVersion then .ok ()
    else .error (.new .invalidVersionVariant "message.hello.compilation_receive_limits")
  | some limits =>
    if version = localSessionSchemaVersionV2 then do
      validateCompilationLimits limits
      if runtimeLimitsFit limits.patchLimits hello.receiveLimits.runtimeLimits then .ok ()
      else .error (.new .invalidCompilationLimits
        "message.hello.compilation_receive_limits.patch_limits")
    else .error (.new .invalidVersionVariant "message.hello.compilation_receive_limits")

def validateServerHello (version : UInt16) (hello : ServerHello) (available : CompilationLimits) :
    Except LocalSessionValidationError Unit :=
  match hello.effectiveCompilationLimits with
  | none =>
    if version = localSessionSchemaVersion then .ok ()
    else .error (.new .invalidVersionVariant "message.hello.effective_compilation_limits")
  | some limits =>
    if version = localSessionSchemaVersionV2 then do
      validateCompilationLimits limits
      if compilationLimitsFit limits available
          && runtimeLimitsFit limits.patchLimits hello.effectiveLimits.runtimeLimits then .ok ()
      else .error (.new .invalidCompilationLimits "message.hello.effective_compilation_limits")
    else .error (.new .invalidVersionVariant "message.hello.effective_compilation_limits")

end Cogniform
