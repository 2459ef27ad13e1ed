import Cogniform.Compiler.Codec
import Cogniform.Protocol.Query
import Cogniform.Session.Limits

/-!
# Session messages

What client and server say to each other, and when a message is valid. Version two adds imaginations;
a message of version one that carries one is invalid, and so is a hello whose limits do not match its
version.
-/

namespace Cogniform

inductive LocalSessionClientKind where
  | hello (hello : ClientHello)
  | submitPatch (patch : ScenePatch)
  | submitImagination (imagination : ImaginationEnvelope)
  | query (query : SceneQuery)
  | requestObservation (request : ObservationRequest)
  | close
  deriving DecidableEq

structure LocalSessionClientMessage where
  schemaVersion : UInt16
  message : LocalSessionClientKind
  deriving DecidableEq

/-! ### Server messages -/

inductive PatchAdmissionStatus where
  | queued
  | alreadyQueued
  | superseded (supersededIdempotencyKey : IdempotencyKey)
  | dropped
  | replayed (receipt : ApplyReceipt)
  deriving DecidableEq

structure PatchAdmission where
  idempotencyKey : IdempotencyKey
  status : PatchAdmissionStatus
  deriving DecidableEq

structure ImaginationCompletion where
  imaginationId : ImaginationId
  idempotencyKey : IdempotencyKey
  compilation : CompilationResult
  receipt : Option ApplyReceipt
  deriving DecidableEq

inductive ImaginationAdmissionStatus where
  | queued
  | alreadyQueued
  | superseded (supersededIdempotencyKey : IdempotencyKey)
  | dropped
  | replayed (completion : ImaginationCompletion)
  deriving DecidableEq

structure ImaginationAdmission where
  imaginationId : ImaginationId
  idempotencyKey : IdempotencyKey
  status : ImaginationAdmissionStatus
  deriving DecidableEq

structure ObservationReference where
  observationId : ObservationId
  sceneRevision : SceneRevision
  deriving DecidableEq

inductive SessionFailureCode where
  | invalidMessage | unsupportedVersion | protocolState | limitExceeded | revisionMismatch
  | capacityExceeded | commandRejected | queryRejected | observationRejected | serviceUnavailable
  | internal
  deriving DecidableEq

inductive LocalSessionServerKind where
  | hello (hello : ServerHello)
  | patchAdmission (admission : PatchAdmission)
  | patchCompleted (receipt : ApplyReceipt)
  | imaginationAdmission (admission : ImaginationAdmission)
  | imaginationCompleted (completion : ImaginationCompletion)
  | queryResult (result : SceneQueryResult)
  | observationAccepted (reference : ObservationReference)
  | observationPending (reference : ObservationReference)
  | failure (code : SessionFailureCode)
  | closed
  deriving DecidableEq

structure LocalSessionServerMessage where
  schemaVersion : UInt16
  message : LocalSessionServerKind
  deriving DecidableEq

/-! ### Validation -/

def validateVersion (version : UInt16) : Except LocalSessionValidationError Unit :=
  if version = localSessionSchemaVersion ∨ version = localSessionSchemaVersionV2 then .ok ()
  else .error (.new .unsupportedVersion "schema_version")

def requireV2 (version : UInt16) (field : String) : Except LocalSessionValidationError Unit :=
  if version = localSessionSchemaVersionV2 then .ok ()
  else .error (.new .invalidVersionVariant field)

def validateInside (field : String) (valid : Except ValidationError Unit) :
    Except LocalSessionValidationError Unit :=
  valid.mapError (.protocol field)

/-- `validate`, of a client message. Limits of compilation results do not concern it. -/
def LocalSessionClientMessage.validate (message : LocalSessionClientMessage)
    (config : LocalFrameConfig) : Except LocalSessionValidationError Unit := do
  validateVersion message.schemaVersion
  let limits := config.runtimeLimits
  match message.message with
  | .hello hello =>
    hello.receiveLimits.validate
    validateClientHello message.schemaVersion hello
  | .submitPatch patch => validateInside "message.submit_patch.patch" (patch.validate limits)
  | .submitImagination imagination =>
    requireV2 message.schemaVersion "message.submit_imagination"
    validateInside "message.submit_imagination.imagination" (imagination.validate limits)
  | .query query => validateInside "message.query.query" (query.validate limits)
  | .requestObservation request =>
    validateInside "message.request_observation.request" (request.validate limits)
  | .close => .ok ()

def PatchAdmission.validate (admission : PatchAdmission) (limits : RuntimeLimits) :
    Except LocalSessionValidationError Unit :=
  match admission.status with
  | .superseded supersededIdempotencyKey =>
    if supersededIdempotencyKey = admission.idempotencyKey then
      .error (.new .invalidPatchAdmission
        "message.patch_admission.status.superseded.superseded_idempotency_key")
    else .ok ()
  | .replayed receipt => do
    validateInside "message.patch_admission.status.replayed.receipt" (receipt.validate limits)
    if receipt.status ≠ .idempotentReplay ∨ receipt.idempotencyKey ≠ admission.idempotencyKey then
      .error (.new .invalidPatchAdmission "message.patch_admission.status.replayed.receipt")
    else .ok ()
  | .queued | .alreadyQueued | .dropped => .ok ()

section

variable (serde : SerdeWriter CompilationResult)

def invalidImaginationCompletion (field : String) : LocalSessionValidationError :=
  .new .invalidImaginationCompletion field

def ImaginationCompletion.validate (completion : ImaginationCompletion)
    (runtimeLimits : RuntimeLimits) (compilationLimits : CompilationLimits)
    (expectedStatus : ApplyStatus) : Except LocalSessionValidationError Unit := do
  let _ ← (completion.compilation.toCanonicalJson serde compilationLimits).mapError fun _ =>
    .new .invalidCompilationResult "message.imagination_completed.compilation"
  if completion.compilation.imaginationId ≠ completion.imaginationId then
    .error (invalidImaginationCompletion "message.imagination_completed.imagination_id")
  else
    match completion.compilation.patch, completion.receipt with
    | some patch, some receipt =>
      validateInside "message.imagination_completed.receipt" (receipt.validate runtimeLimits)
      if receipt.status ≠ expectedStatus
          ∨ completion.idempotencyKey ≠ patch.idempotencyKey
          ∨ receipt.idempotencyKey ≠ completion.idempotencyKey
          ∨ receipt.transactionId ≠ patch.transactionId
          ∨ receipt.previousRevision ≠ completion.compilation.sceneRevision
          ∨ patch.baseRevision ≠ completion.compilation.sceneRevision
          ∨ receipt.operationCount.get ≠ count patch.operations.length then
        .error (invalidImaginationCompletion "message.imagination_completed.receipt")
      else .ok ()
    | none, none => .ok ()
    | _, _ => .error (invalidImaginationCompletion "message.imagination_completed.receipt")

def ImaginationAdmission.validate (admission : ImaginationAdmission)
    (runtimeLimits : RuntimeLimits) (compilationLimits : CompilationLimits) :
    Except LocalSessionValidationError Unit :=
  match admission.status with
  | .superseded supersededIdempotencyKey =>
    if supersededIdempotencyKey = admission.idempotencyKey then
      .error (.new .invalidImaginationAdmission
        "message.imagination_admission.status.superseded.superseded_idempotency_key")
    else .ok ()
  | .replayed completion =>
    if completion.imaginationId ≠ admission.imaginationId
        ∨ completion.idempotencyKey ≠ admission.idempotencyKey then
      .error (.new .invalidImaginationAdmission
        "message.imagination_admission.status.replayed.completion")
    else completion.validate serde runtimeLimits compilationLimits .idempotentReplay
  | .queued | .alreadyQueued | .dropped => .ok ()

namespace LocalSessionServerKind

def requiresExplicitCompilationLimits : LocalSessionServerKind → Bool
  | .hello _ | .imaginationCompleted _ => true
  | .imaginationAdmission admission =>
    match admission.status with
    | .replayed _ => true
    | _ => false
  | _ => false

def validate (message : LocalSessionServerKind) (version : UInt16) (config : LocalFrameConfig)
    (compilationLimits : CompilationLimits) : Except LocalSessionValidationError Unit :=
  let limits := config.runtimeLimits
  match message with
  | .hello granted => do
    granted.effectiveLimits.validate
    granted.effectiveLimits.fitsWithinConfig config
    validateServerHello version granted compilationLimits
  | .patchAdmission admission => admission.validate limits
  | .patchCompleted receipt => do
    validateInside "message.patch_completed.receipt" (receipt.validate limits)
    if receipt.status ≠ .applied then
      .error (.new .invalidPatchCompletion "message.patch_completed.receipt.status")
    else .ok ()
  | .imaginationAdmission admission => do
    requireV2 version "message.imagination_admission"
    admission.validate serde limits compilationLimits
  | .imaginationCompleted completion => do
    requireV2 version "message.imagination_completed"
    completion.validate serde limits compilationLimits .applied
  | .queryResult result => validateInside "message.query_result.result" (result.validate limits)
  | .observationAccepted _ | .observationPending _ | .failure _ | .closed => .ok ()

end LocalSessionServerKind

def LocalSessionServerMessage.validate (message : LocalSessionServerMessage)
    (config : LocalFrameConfig) (compilationLimits : Option CompilationLimits) :
    Except LocalSessionValidationError Unit := do
  validateVersion message.schemaVersion
  if message.schemaVersion = localSessionSchemaVersionV2 ∧ compilationLimits.isNone
      ∧ message.message.requiresExplicitCompilationLimits then
    .error (.new .invalidCompilationLimits "message.version_two.explicit_compilation_limits")
  else
    let limits := compilationLimits.getD (.forRuntimeLimits config.runtimeLimits)
    validateCompilationLimits limits
    message.message.validate serde message.schemaVersion config limits

end

namespace LocalSessionServerMessage

variable {serde : SerdeWriter CompilationResult} {config : LocalFrameConfig}
  {compilationLimits : Option CompilationLimits} {version : UInt16}
  {message : LocalSessionServerKind}

theorem validate_eq_ok :
    (LocalSessionServerMessage.mk version message).validate serde config compilationLimits =
      .ok () ↔
    validateVersion version = .ok () ∧
      ¬(version = localSessionSchemaVersionV2 ∧ compilationLimits.isNone ∧
        message.requiresExplicitCompilationLimits) ∧
      (compilationLimits.getD (.forRuntimeLimits config.runtimeLimits)).Consistent ∧
      message.validate serde version config
        (compilationLimits.getD (.forRuntimeLimits config.runtimeLimits)) = .ok () := by
  simp only [validate, Exec.bind_eq_ok]
  constructor
  · rintro ⟨⟨⟩, hversion, h⟩
    refine ⟨hversion, ?_⟩
    split at h
    · cases h
    rename_i hexplicit
    obtain ⟨⟨⟩, hlimits, h⟩ := Exec.bind_eq_ok.mp h
    exact ⟨hexplicit, CompilationLimits.validateCompilationLimits_eq_ok.mp hlimits, h⟩
  · rintro ⟨hversion, hexplicit, hlimits, h⟩
    refine ⟨(), hversion, ?_⟩
    rw [if_neg hexplicit]
    exact Exec.bind_eq_ok.mpr
      ⟨(), CompilationLimits.validateCompilationLimits_eq_ok.mpr hlimits, h⟩

theorem validate_hello {hello : ServerHello} {limits : CompilationLimits} :
    (LocalSessionServerKind.hello hello).validate serde version config limits = .ok () ↔
      hello.effectiveLimits.Consistent ∧
        hello.effectiveLimits.fitsWithinConfig config = .ok () ∧
        validateServerHello version hello limits = .ok () := by
  simp only [LocalSessionServerKind.validate, Exec.bind_eq_ok]
  constructor
  · rintro ⟨⟨⟩, hvalid, ⟨⟩, hfits, h⟩
    exact ⟨LocalSessionLimits.validate_eq_ok.mp hvalid, hfits, h⟩
  · rintro ⟨hvalid, hfits, h⟩
    exact ⟨(), LocalSessionLimits.validate_eq_ok.mpr hvalid, (), hfits, h⟩

end LocalSessionServerMessage

/-- Messages of a version that hold identifiers and codes only. They have one shape, up to the digits
of numbers. -/
inductive LocalSessionServerKind.FixedShape (version : UInt16) : LocalSessionServerKind → Prop where
  | patchQueued (key : IdempotencyKey) : FixedShape version (.patchAdmission ⟨key, .queued⟩)
  | patchAlreadyQueued (key : IdempotencyKey) :
      FixedShape version (.patchAdmission ⟨key, .alreadyQueued⟩)
  | patchDropped (key : IdempotencyKey) : FixedShape version (.patchAdmission ⟨key, .dropped⟩)
  | patchSuperseded {key old : IdempotencyKey} (h : old ≠ key) :
      FixedShape version (.patchAdmission ⟨key, .superseded old⟩)
  | imaginationQueued (hversion : version = localSessionSchemaVersionV2) (id : ImaginationId)
      (key : IdempotencyKey) : FixedShape version (.imaginationAdmission ⟨id, key, .queued⟩)
  | imaginationAlreadyQueued (hversion : version = localSessionSchemaVersionV2)
      (id : ImaginationId) (key : IdempotencyKey) :
      FixedShape version (.imaginationAdmission ⟨id, key, .alreadyQueued⟩)
  | imaginationDropped (hversion : version = localSessionSchemaVersionV2) (id : ImaginationId)
      (key : IdempotencyKey) : FixedShape version (.imaginationAdmission ⟨id, key, .dropped⟩)
  | imaginationSuperseded (hversion : version = localSessionSchemaVersionV2) (id : ImaginationId)
      {key old : IdempotencyKey} (h : old ≠ key) :
      FixedShape version (.imaginationAdmission ⟨id, key, .superseded old⟩)
  | observationAccepted (reference : ObservationReference) :
      FixedShape version (.observationAccepted reference)
  | observationPending (reference : ObservationReference) :
      FixedShape version (.observationPending reference)
  | failure (code : SessionFailureCode) : FixedShape version (.failure code)
  | closed : FixedShape version .closed

theorem LocalSessionServerMessage.validate_fixed {serde : SerdeWriter CompilationResult}
    {config : LocalFrameConfig} {compilationLimits : Option CompilationLimits} {version : UInt16}
    {message : LocalSessionServerKind} (hmessage : message.FixedShape version)
    (hversion : validateVersion version = .ok ())
    (hlimits : (compilationLimits.getD (.forRuntimeLimits config.runtimeLimits)).Consistent) :
    (LocalSessionServerMessage.mk version message).validate serde config compilationLimits =
      .ok () := by
  rw [validate_eq_ok]
  refine ⟨hversion, ?_, hlimits, ?_⟩
  · rintro ⟨-, -, h⟩
    cases hmessage <;> cases h
  · cases hmessage with
    | patchSuperseded h => exact if_neg h
    | imaginationQueued hversion | imaginationAlreadyQueued hversion
    | imaginationDropped hversion =>
      exact Exec.bind_eq_ok.mpr ⟨(), if_pos hversion, rfl⟩
    | imaginationSuperseded hversion id h =>
      exact Exec.bind_eq_ok.mpr ⟨(), if_pos hversion, if_neg h⟩
    | _ => rfl

end Cogniform
