import Cogniform.Compiler.Serialize
import Cogniform.Session.Message

/-!
# How server messages are written

Variants are tagged from outside with their names in snake case. A hello spells out sixteen protocol
limits, so it is longer than any message that holds identifiers and codes only, and nests at least
as deeply.
-/

namespace Cogniform

def RuntimeLimits.serialize (limits : RuntimeLimits) : Json :=
  .object [("max_encoded_bytes", limits.maxEncodedBytes.serialize),
    ("max_decoded_bytes", limits.maxDecodedBytes.serialize),
    ("max_json_nesting_depth", limits.maxJsonNestingDepth.serialize),
    ("max_operations", limits.maxOperations.serialize),
    ("max_components", limits.maxComponents.serialize),
    ("max_components_per_entity", limits.maxComponentsPerEntity.serialize),
    ("max_text_bytes", limits.maxTextBytes.serialize),
    ("max_diagnostics", limits.maxDiagnostics.serialize),
    ("max_queue_capacity", limits.maxQueueCapacity.serialize),
    ("max_imagination_entities", limits.maxImaginationEntities.serialize),
    ("max_imagination_relations", limits.maxImaginationRelations.serialize),
    ("max_imagination_constraints", limits.maxImaginationConstraints.serialize),
    ("max_query_entities", limits.maxQueryEntities.serialize),
    ("max_observation_width", limits.maxObservationWidth.serialize),
    ("max_observation_height", limits.maxObservationHeight.serialize),
    ("max_observation_pixels", limits.maxObservationPixels.serialize)]

def CompilationLimits.serialize (limits : CompilationLimits) : Json :=
  .object [("max_encoded_bytes", limits.maxEncodedBytes.serialize),
    ("max_decoded_bytes", limits.maxDecodedBytes.serialize),
    ("max_json_nesting_depth", limits.maxJsonNestingDepth.serialize),
    ("max_text_bytes", limits.maxTextBytes.serialize),
    ("max_decisions", limits.maxDecisions.serialize),
    ("max_unresolved_constraints", limits.maxUnresolvedConstraints.serialize),
    ("patch_limits", limits.patchLimits.serialize)]

def LocalSessionLimits.serialize (limits : LocalSessionLimits) : Json :=
  .object [("max_frame_bytes", limits.maxFrameBytes.serialize),
    ("max_control_message_bytes", limits.maxControlMessageBytes.serialize),
    ("max_bulk_bytes", limits.maxBulkBytes.serialize),
    ("max_observation_envelope_bytes", limits.maxObservationEnvelopeBytes.serialize),
    ("max_visibility_entries", limits.maxVisibilityEntries.serialize),
    ("runtime_limits", limits.runtimeLimits.serialize)]

def ServerHello.serialize (hello : ServerHello) : Json :=
  .object (("effective_limits", hello.effectiveLimits.serialize) ::
    hello.effectiveCompilationLimits.toList.map fun limits =>
      ("effective_compilation_limits", limits.serialize))

/-! ### Messages -/

def SessionFailureCode.serialize : SessionFailureCode → Json
  | .invalidMessage => .text "invalid_message"
  | .unsupportedVersion => .text "unsupported_version"
  | .protocolState => .text "protocol_state"
  | .limitExceeded => .text "limit_exceeded"
  | .revisionMismatch => .text "revision_mismatch"
  | .capacityExceeded => .text "capacity_exceeded"
  | .commandRejected => .text "command_rejected"
  | .queryRejected => .text "query_rejected"
  | .observationRejected => .text "observation_rejected"
  | .serviceUnavailable => .text "service_unavailable"
  | .internal => .text "internal"

def PatchAdmissionStatus.serialize : PatchAdmissionStatus → Json
  | .queued => .text "queued"
  | .alreadyQueued => .text "already_queued"
  | .superseded old => .object [("superseded", .object [("superseded_idempotency_key", old.serialize)])]
  | .dropped => .text "dropped"
  | .replayed receipt => .object [("replayed", .object [("receipt", receipt.serialize)])]

def PatchAdmission.serialize (admission : PatchAdmission) : Json :=
  .object [("idempotency_key", admission.idempotencyKey.serialize),
    ("status", admission.status.serialize)]

def ObservationReference.serialize (reference : ObservationReference) : Json :=
  .object [("observation_id", reference.observationId.serialize),
    ("scene_revision", reference.sceneRevision.serialize)]

section

variable (floats : FloatText)

def ImaginationCompletion.serialize (completion : ImaginationCompletion) : Json :=
  .object [("imagination_id", completion.imaginationId.serialize),
    ("idempotency_key", completion.idempotencyKey.serialize),
    ("compilation", completion.compilation.serialize floats),
    ("receipt", .nullable ApplyReceipt.serialize completion.receipt)]

def ImaginationAdmissionStatus.serialize : ImaginationAdmissionStatus → Json
  | .queued => .text "queued"
  | .alreadyQueued => .text "already_queued"
  | .superseded old => .object [("superseded", .object [("superseded_idempotency_key", old.serialize)])]
  | .dropped => .text "dropped"
  | .replayed completion =>
    .object [("replayed", .object [("completion", completion.serialize floats)])]

def ImaginationAdmission.serialize (admission : ImaginationAdmission) : Json :=
  .object [("imagination_id", admission.imaginationId.serialize),
    ("idempotency_key", admission.idempotencyKey.serialize),
    ("status", admission.status.serialize floats)]

def LocalSessionServerKind.tagged : LocalSessionServerKind → String × Json
  | .hello granted => ("hello", granted.serialize)
  | .patchAdmission admission => ("patch_admission", admission.serialize)
  | .patchCompleted receipt => ("patch_completed", .object [("receipt", receipt.serialize)])
  | .imaginationAdmission admission => ("imagination_admission", admission.serialize floats)
  | .imaginationCompleted completion => ("imagination_completed", completion.serialize floats)
  | .queryResult result => ("query_result", .object [("result", result.serialize floats)])
  | .observationAccepted reference => ("observation_accepted", reference.serialize)
  | .observationPending reference => ("observation_pending", reference.serialize)
  | .failure code => ("failure", .object [("code", code.serialize)])
  | .closed => ("closed", .object [])

def LocalSessionServerMessage.serialize (message : LocalSessionServerMessage) : Json :=
  .object [("schema_version", .nat message.schemaVersion.toNat),
    ("message", .object [message.message.tagged floats])]

end

theorem SessionFailureCode.length_write_le (code : SessionFailureCode) :
    code.serialize.write.length ≤ 22 := by
  cases code <;> decide +kernel

namespace LocalSessionServerMessage

variable {floats : FloatText} {version : UInt16} {message : LocalSessionServerKind}

theorem length_serialize_le :
    ((LocalSessionServerMessage.mk version message).serialize floats).write.length ≤
      Json.fieldLength (message.tagged floats) + 37 := by
  have hversion : (Json.nat version.toNat).write.length ≤ 5 :=
    NumberText.length_ofNat_le (by decide) (by have := version.toNat_lt; omega)
  have hname : (writeString (utf8 "schema_version")).length = 16 := rfl
  have hmessage : (writeString (utf8 "message")).length = 9 := rfl
  simp only [serialize, Json.length_write_object, List.map_cons, List.map_nil, List.sum_cons,
    List.sum_nil, Json.fieldLength, hname, hmessage]
  omega

theorem fieldLength_tagged_le (h : message.FixedShape version) :
    Json.fieldLength (message.tagged floats) ≤ 250 := by
  have hkey : (writeString (utf8 "idempotency_key")).length = 17 := rfl
  have hold : (writeString (utf8 "superseded_idempotency_key")).length = 28 := rfl
  have hname : (writeString (utf8 "status")).length = 8 := rfl
  have hreference : ∀ reference : ObservationReference,
      reference.serialize.write.length ≤ 91 := fun reference => by
    have hobservation : (writeString (utf8 "observation_id")).length = 16 := rfl
    have hrevision : (writeString (utf8 "scene_revision")).length = 16 := rfl
    have hle := reference.sceneRevision.length_write_le
    simp only [ObservationReference.serialize, Json.length_write_object, List.map_cons,
      List.map_nil, List.sum_cons, List.sum_nil, Json.fieldLength, OpaqueId.length_write,
      hobservation, hrevision]
    omega
  have hpatch : ∀ key status, (status : PatchAdmissionStatus).serialize.write.length ≤ 100 →
      (PatchAdmission.mk key status).serialize.write.length ≤ 220 := fun key status hstatus => by
    simp only [PatchAdmission.serialize, Json.length_write_object, List.map_cons, List.map_nil,
      List.sum_cons, List.sum_nil, Json.fieldLength, OpaqueId.length_write, hkey, hname]
    omega
  have himagination : ∀ id key status,
      ((status : ImaginationAdmissionStatus).serialize floats).write.length ≤ 100 →
      ((ImaginationAdmission.mk id key status).serialize floats).write.length ≤ 220 :=
    fun id key status hstatus => by
      have hid : (writeString (utf8 "imagination_id")).length = 16 := rfl
      simp only [ImaginationAdmission.serialize, Json.length_write_object, List.map_cons,
        List.map_nil, List.sum_cons, List.sum_nil, Json.fieldLength, OpaqueId.length_write, hid,
        hkey, hname]
      omega
  have hsuperseded : ∀ old : IdempotencyKey, (Json.object [("superseded",
      .object [("superseded_idempotency_key", old.serialize)])]).write.length ≤ 100 := fun old => by
    have hname : (writeString (utf8 "superseded")).length = 12 := rfl
    simp only [Json.length_write_object, List.map_nil, List.sum_nil, Json.fieldLength,
      OpaqueId.length_write, hold, hname]
    omega
  have htag : ∀ tag json, (writeString (utf8 tag)).length ≤ 23 → json.write.length ≤ 220 →
      Json.fieldLength (tag, json) ≤ 250 := fun tag json htag hjson => by
    simp only [Json.fieldLength]
    omega
  cases h with
  | patchQueued key | patchAlreadyQueued key | patchDropped key =>
    exact htag _ _ (by decide +kernel) (hpatch _ _ (by decide +kernel))
  | patchSuperseded h => exact htag _ _ (by decide +kernel) (hpatch _ _ (hsuperseded _))
  | imaginationQueued hversion id key | imaginationAlreadyQueued hversion id key
  | imaginationDropped hversion id key =>
    refine htag _ _ (by decide +kernel) (himagination _ _ _ ?_)
    simp only [ImaginationAdmissionStatus.serialize]
    decide +kernel
  | imaginationSuperseded hversion id h =>
    exact htag _ _ (by decide +kernel) (himagination _ _ _ (hsuperseded _))
  | observationAccepted reference | observationPending reference =>
    have hle := hreference reference
    exact htag _ _ (by decide +kernel) (by omega)
  | failure code =>
    have hle := code.length_write_le
    have hname : (writeString (utf8 "code")).length = 6 := rfl
    refine htag _ _ (by decide +kernel) ?_
    simp only [Json.length_write_object, List.map_nil, List.sum_nil, Json.fieldLength, hname]
    omega
  | closed => exact htag _ _ (by decide +kernel) (by decide +kernel)

theorem length_hello_ge {granted : ServerHello} :
    300 ≤ ((LocalSessionServerMessage.mk version (.hello granted)).serialize floats).write.length := by
  have hruntime : 300 ≤ granted.effectiveLimits.runtimeLimits.serialize.write.length := by
    refine le_trans ?_ (Json.length_names_le_length_write _)
    simp only [List.map_cons, List.map_nil]
    decide +kernel
  have hinside : ∀ (name : String) {json : Json} {fields : List (String × Json)},
      (name, json) ∈ fields → json.write.length ≤ (Json.object fields).write.length :=
    fun _ _ _ hmem => le_trans (Nat.le_add_left _ _) (Json.fieldLength_le_length_write hmem)
  calc 300 ≤ granted.effectiveLimits.runtimeLimits.serialize.write.length := hruntime
    _ ≤ granted.effectiveLimits.serialize.write.length := hinside "runtime_limits" (by simp)
    _ ≤ granted.serialize.write.length := hinside "effective_limits" List.mem_cons_self
    _ ≤ (Json.object [("hello", granted.serialize)]).write.length :=
      hinside "hello" List.mem_cons_self
    _ ≤ _ := hinside "message" (by simp [LocalSessionServerKind.tagged])

theorem fixed_length_le_hello (h : message.FixedShape version) (floats : FloatText)
    (version' : UInt16) (granted : ServerHello) :
    ((LocalSessionServerMessage.mk version message).serialize floats).write.length ≤
      ((LocalSessionServerMessage.mk version' (.hello granted)).serialize floats).write.length :=
  calc ((LocalSessionServerMessage.mk version message).serialize floats).write.length
      ≤ Json.fieldLength (message.tagged floats) + 37 := length_serialize_le
    _ ≤ 300 := Nat.add_le_add_right (fieldLength_tagged_le h) 37 |>.trans (by decide)
    _ ≤ _ := length_hello_ge

theorem fixed_depth_le_hello (h : message.FixedShape version) (floats : FloatText)
    (version' : UInt16) (granted : ServerHello) :
    ((LocalSessionServerMessage.mk version message).serialize floats).depth ≤
      ((LocalSessionServerMessage.mk version' (.hello granted)).serialize floats).depth := by
  have hhello : 5 ≤
      ((LocalSessionServerMessage.mk version' (.hello granted)).serialize floats).depth := by
    have hlimits : granted.effectiveLimits.serialize.depth = 2 := by
      simp [LocalSessionLimits.serialize, RuntimeLimits.serialize]
    simp only [serialize, LocalSessionServerKind.tagged, ServerHello.serialize, Json.depth_object,
      Json.depthFields_cons, Json.depthFields_nil, Json.depth_nat, hlimits]
    omega
  refine le_trans ?_ hhello
  cases h with
  | failure code =>
    have hcode : code.serialize.depth = 0 := by cases code <;> rfl
    simp [serialize, LocalSessionServerKind.tagged, hcode]
  | _ => simp [serialize, LocalSessionServerKind.tagged, PatchAdmission.serialize,
      PatchAdmissionStatus.serialize, ImaginationAdmission.serialize,
      ImaginationAdmissionStatus.serialize, ObservationReference.serialize]

end LocalSessionServerMessage

end Cogniform
