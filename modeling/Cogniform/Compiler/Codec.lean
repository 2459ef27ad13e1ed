import Cogniform.Compiler.Limits
import Cogniform.Protocol.Canonical

/-!
# The contract of a compilation result

A result is either a patch or a list of what was left unresolved, each entry of the shape its code
asks for and all of them in one order without repetition, so that two parties that agree on a result
agree on its bytes.
-/

namespace Cogniform

def CompilationDecisionCode.canonicalRank : CompilationDecisionCode → UInt8
  | .generatedEntityId => 0
  | .preferredEntityIdSubstituted => 1
  | .defaultName => 2
  | .defaultTransform => 3
  | .defaultMaterial => 4
  | .parentRelationApplied => 5
  | .aboveRelationApplied => 6
  | .rightOfRelationApplied => 7

def UnresolvedConstraintCode.canonicalRank : UnresolvedConstraintCode → UInt8
  | .unknownEntityReference => 0
  | .selfRelation => 1
  | .conflictingRelation => 2
  | .hierarchyCycle => 3
  | .placementCycle => 4
  | .requiredEntityMissing => 5
  | .requiredEntityPresent => 6
  | .nonFinitePlacement => 7
  | .unsupportedSpatialRotation => 8

/-- `CompilationDecision::canonical_cmp`. The identity is not compared. -/
def CompilationDecision.canonicalCmp (left right : CompilationDecision) : Ordering :=
  (compare left.entityKey right.entityKey).then
    ((compare left.code.canonicalRank right.code.canonicalRank).then
      (compare left.relationIndex right.relationIndex))

def UnresolvedConstraint.canonicalCmp (left right : UnresolvedConstraint) : Ordering :=
  (compare left.relationIndex right.relationIndex).then
    ((compare left.constraintIndex right.constraintIndex).then
      ((compare left.code.canonicalRank right.code.canonicalRank).then
        ((compare left.entityKey right.entityKey).then
          ((compare left.relatedKey right.relatedKey).then
            (compare left.entityId right.entityId)))))

/-! ### Validation -/

def CompilationValidationError.new (kind : CompilationValidationKind) (field : String) :
    CompilationValidationError := ⟨kind, field, none⟩

def CompilationValidationError.protocol (field : String) (error : ValidationError) :
    CompilationValidationError := ⟨.invalidPatch, field, some error⟩

def validateOrder {α : Type} (cmp : α → α → Ordering)
    (duplicate nonCanonical : CompilationValidationError) :
    List α → Except CompilationValidationError Unit
  | first :: second :: rest =>
    match cmp first second with
    | .lt => validateOrder cmp duplicate nonCanonical (second :: rest)
    | .eq => .error duplicate
    | .gt => .error nonCanonical
  | _ => .ok ()

def CompilationDecision.wellShaped (decision : CompilationDecision) : Bool :=
  match decision.code with
  | .generatedEntityId | .preferredEntityIdSubstituted =>
    decision.relationIndex.isNone && decision.entityId.isSome
  | .defaultName | .defaultTransform | .defaultMaterial =>
    decision.relationIndex.isNone && decision.entityId.isNone
  | .parentRelationApplied | .aboveRelationApplied | .rightOfRelationApplied =>
    decision.relationIndex.isSome && decision.entityId.isNone

def UnresolvedConstraint.wellShaped (issue : UnresolvedConstraint) : Bool :=
  match issue.code with
  | .unknownEntityReference | .selfRelation | .conflictingRelation | .hierarchyCycle
  | .placementCycle | .nonFinitePlacement | .unsupportedSpatialRotation =>
    issue.relationIndex.isSome && issue.constraintIndex.isNone && issue.entityKey.isSome
      && issue.relatedKey.isSome && issue.entityId.isNone
  | .requiredEntityMissing | .requiredEntityPresent =>
    issue.relationIndex.isNone && issue.constraintIndex.isSome && issue.entityKey.isNone
      && issue.relatedKey.isNone && issue.entityId.isSome

def validateDecisions (decisions : List CompilationDecision) :
    Except CompilationValidationError Unit :=
  if decisions.all CompilationDecision.wellShaped then
    validateOrder CompilationDecision.canonicalCmp (.new .duplicateDecision "decisions")
      (.new .nonCanonicalDecisionOrder "decisions") decisions
  else .error (.new .invalidDecisionShape "decisions[]")

def validateUnresolved (unresolved : List UnresolvedConstraint) :
    Except CompilationValidationError Unit :=
  if unresolved.all UnresolvedConstraint.wellShaped then
    validateOrder UnresolvedConstraint.canonicalCmp (.new .duplicateUnresolved "unresolved")
      (.new .nonCanonicalUnresolvedOrder "unresolved") unresolved
  else .error (.new .invalidUnresolvedShape "unresolved[]")

def ScenePatch.textBytes (patch : ScenePatch) : ℕ :=
  patch.operations.foldl (fun total operation => satAdd total operation.textBytes)
    (count64 patch.delivery.textBytes)

def optionalTextBytes : Option SceneText → ℕ
  | none => 0
  | some text => count64 text.lenBytes

/-- `decision_logical_size`. -/
def CompilationDecision.logicalSize (decision : CompilationDecision) : ℕ :=
  satAdd (satAdd (satAdd 8 (count64 decision.entityKey.lenBytes))
    (decision.relationIndex.isSome.toNat * 4)) (decision.entityId.isSome.toNat * 16)

/-- `unresolved_logical_size`. -/
def UnresolvedConstraint.logicalSize (issue : UnresolvedConstraint) : ℕ :=
  satAdd (satAdd (satAdd (satAdd (satAdd 14 (issue.relationIndex.isSome.toNat * 4))
    (issue.constraintIndex.isSome.toNat * 4)) (optionalTextBytes issue.entityKey))
    (optionalTextBytes issue.relatedKey)) (issue.entityId.isSome.toNat * 16)

namespace CompilationResult

def textBytes (result : CompilationResult) : ℕ :=
  let patch := result.patch.elim 0 ScenePatch.textBytes
  let decisions := result.decisions.foldl (fun total decision =>
    satAdd total (count64 decision.entityKey.lenBytes)) 0
  result.unresolved.foldl (fun total issue =>
    satAdd (satAdd total (optionalTextBytes issue.entityKey)) (optionalTextBytes issue.relatedKey))
    (satAdd patch decisions)

def logicalSizeBytes (result : CompilationResult) : ℕ :=
  let patch := result.patch.elim 0 ScenePatch.logicalSizeBytes
  let decisions := result.decisions.foldl (fun total decision =>
    satAdd total decision.logicalSize) 0
  result.unresolved.foldl (fun total issue => satAdd total issue.logicalSize)
    (satAdd (satAdd 35 patch) decisions)

def validateOutcome (result : CompilationResult) (limits : CompilationLimits) :
    Except CompilationValidationError Unit :=
  match result.patch, result.unresolved.isEmpty with
  | some patch, true =>
    if patch.schemaVersion ≠ result.schemaVersion then
      .error (.new .patchSchemaMismatch "patch.schema_version")
    else if patch.baseRevision ≠ result.sceneRevision then
      .error (.new .patchRevisionMismatch "patch.base_revision")
    else (patch.validate limits.patchLimits).mapError (.protocol "patch")
  | none, false => .ok ()
  | some _, false | none, true => .error (.new .invalidOutcome "patch")

def validate (result : CompilationResult) (limits : CompilationLimits) :
    Except CompilationValidationError Unit := do
  if result.schemaVersion ≠ .v1 then .error (.new .unsupportedSchema "schema_version")
  else if limits.maxDecisions.get < count result.decisions.length then
    .error (.new .decisionLimitExceeded "decisions")
  else if limits.maxUnresolvedConstraints.get < count result.unresolved.length then
    .error (.new .unresolvedLimitExceeded "unresolved")
  else
    result.validateOutcome limits
    validateDecisions result.decisions
    validateUnresolved result.unresolved
    if limits.maxTextBytes.get < result.textBytes then .error (.new .textLimitExceeded "result")
    else if limits.maxDecodedBytes.get < result.logicalSizeBytes then
      .error (.new .decodedSizeLimitExceeded "result")
    else .ok ()

def lineErrors : LineErrors CompilationCodecError :=
  ⟨.encodedSizeExceeded, .nestingLimitExceeded, .malformedJson, .nonCanonicalResult,
    .serializationFailed⟩

variable (serde : SerdeWriter CompilationResult)

def encodeValidated (result : CompilationResult) (limits : CompilationLimits) :
    Except CompilationCodecError (List UInt8) := do
  let bytes ← lineErrors.writeLine serde result limits.maxEncodedBytes.get
  enforceNestingDepth lineErrors.nestingExceeded limits.maxJsonNestingDepth.get bytes
  .ok bytes

def toCanonicalJson (result : CompilationResult) (limits : CompilationLimits) :
    Except CompilationCodecError (List UInt8) := do
  (result.validate limits).mapError .invalidResult
  result.encodeValidated serde limits

section

variable {serde} {result : CompilationResult} {limits limits' : CompilationLimits}

theorem validate_mono (hle : limits ≤ limits') (h : result.validate limits = .ok ()) :
    result.validate limits' = .ok () := by
  have hdecisions : limits.maxDecisions.get ≤ limits'.maxDecisions.get := hle .maxDecisions
  have hunresolved : limits.maxUnresolvedConstraints.get ≤ limits'.maxUnresolvedConstraints.get :=
    hle .maxUnresolvedConstraints
  have htext : limits.maxTextBytes.get ≤ limits'.maxTextBytes.get := hle .maxTextBytes
  have hdecoded : limits.maxDecodedBytes.get ≤ limits'.maxDecodedBytes.get := hle .maxDecodedBytes
  have hpatch : limits.patchLimits ≤ limits'.patchLimits := fun limit => hle (.patch limit)
  have houtcome : result.validateOutcome limits = .ok () →
      result.validateOutcome limits' = .ok () := by
    rw [validateOutcome, validateOutcome]
    split
    · split
      · exact id
      split
      · exact id
      rw [Exec.exceptMapError_eq_ok, Exec.exceptMapError_eq_ok]
      exact ScenePatch.validate_mono hpatch
    · exact id
    · exact id
    · exact id
  rw [validate] at h ⊢
  split at h
  · cases h
  rename_i hschema
  split at h
  · cases h
  rename_i hdecisionCount
  split at h
  · cases h
  rename_i hunresolvedCount
  rw [if_neg hschema, if_neg (by omega), if_neg (by omega)]
  obtain ⟨⟨⟩, h₁, h⟩ := Exec.bind_eq_ok.mp h
  obtain ⟨⟨⟩, h₂, h⟩ := Exec.bind_eq_ok.mp h
  obtain ⟨⟨⟩, h₃, h⟩ := Exec.bind_eq_ok.mp h
  refine Exec.bind_eq_ok.mpr ⟨(), houtcome h₁, Exec.bind_eq_ok.mpr ⟨(), h₂,
    Exec.bind_eq_ok.mpr ⟨(), h₃, ?_⟩⟩⟩
  split at h
  · cases h
  rename_i htextBytes
  split at h
  · cases h
  rename_i hlogical
  rw [if_neg (by omega), if_neg (by omega)]

theorem toCanonicalJson_mono (hle : limits ≤ limits') {encoded : List UInt8}
    (h : result.toCanonicalJson serde limits = .ok encoded) :
    result.toCanonicalJson serde limits' = .ok encoded := by
  have hsize : limits.maxEncodedBytes.get ≤ limits'.maxEncodedBytes.get := hle .maxEncodedBytes
  have hdepth : limits.maxJsonNestingDepth.get ≤ limits'.maxJsonNestingDepth.get :=
    hle .maxJsonNestingDepth
  obtain ⟨⟨⟩, hvalid, h⟩ := Exec.bind_eq_ok.mp h
  obtain ⟨bytes, hwritten, h⟩ := Exec.bind_eq_ok.mp h
  obtain ⟨⟨⟩, hnesting, h⟩ := Exec.bind_eq_ok.mp h
  cases h
  rw [Exec.exceptMapError_eq_ok] at hvalid
  rw [LineErrors.writeLine_eq_ok] at hwritten
  rw [enforceNestingDepth_iff limits.maxJsonNestingDepth.lt] at hnesting
  refine Exec.bind_eq_ok.mpr ⟨(), Exec.exceptMapError_eq_ok.mpr (validate_mono hle hvalid),
    Exec.bind_eq_ok.mpr ⟨encoded, LineErrors.writeLine_eq_ok.mpr ⟨hwritten.1, hwritten.2.1,
      hwritten.2.2.trans hsize⟩, Exec.bind_eq_ok.mpr ⟨(), ?_, rfl⟩⟩⟩
  rw [enforceNestingDepth_iff limits'.maxJsonNestingDepth.lt]
  have := limits'.maxJsonNestingDepth.lt
  omega

end

end CompilationResult

end Cogniform
