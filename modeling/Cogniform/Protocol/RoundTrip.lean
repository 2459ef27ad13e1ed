import Cogniform.Protocol.Serialize

/-!
# What is encoded can be read

Every message type goes through one codec. The encoder validates a message and bounds its size; the
decoder bounds the nesting as well. Whether a message can be read under the limits it was written
under is therefore decided by how deeply it nests, and nothing else.
-/

namespace Cogniform

inductive MessageType where
  | scenePatch | applyReceipt | observationRequest | observationMetadata | imaginationEnvelope
  | sceneQuery | sceneQueryResult

namespace MessageType

def Message : MessageType → Type
  | .scenePatch => ScenePatch
  | .applyReceipt => ApplyReceipt
  | .observationRequest => ObservationRequest
  | .observationMetadata => ObservationMetadata
  | .imaginationEnvelope => ImaginationEnvelope
  | .sceneQuery => SceneQuery
  | .sceneQueryResult => SceneQueryResult

def validate : (type : MessageType) → type.Message → RuntimeLimits → Except ValidationError Unit
  | .scenePatch => ScenePatch.validate
  | .applyReceipt => ApplyReceipt.validate
  | .observationRequest => ObservationRequest.validate
  | .observationMetadata => ObservationMetadata.validate
  | .imaginationEnvelope => ImaginationEnvelope.validate
  | .sceneQuery => SceneQuery.validate
  | .sceneQueryResult => SceneQueryResult.validate

def serialize (floats : FloatText) : (type : MessageType) → type.Message → Json
  | .scenePatch => ScenePatch.serialize floats
  | .applyReceipt => ApplyReceipt.serialize
  | .observationRequest => ObservationRequest.serialize
  | .observationMetadata => ObservationMetadata.serialize
  | .imaginationEnvelope => ImaginationEnvelope.serialize floats
  | .sceneQuery => SceneQuery.serialize
  | .sceneQueryResult => SceneQueryResult.serialize floats

def nesting : (type : MessageType) → type.Message → ℕ
  | .scenePatch => ScenePatch.nesting
  | .applyReceipt => ApplyReceipt.nesting
  | .observationRequest => fun _ => 1
  | .observationMetadata => fun _ => 2
  | .imaginationEnvelope => ImaginationEnvelope.nesting
  | .sceneQuery => fun _ => 2
  | .sceneQueryResult => SceneQueryResult.nesting

theorem depth_serialize {floats : FloatText} (type : MessageType) (value : type.Message) :
    (type.serialize floats value).depth = type.nesting value := by
  cases type with
  | scenePatch => exact ScenePatch.depth_serialize value
  | applyReceipt => exact ApplyReceipt.depth_serialize value
  | observationRequest => exact ObservationRequest.depth_serialize value
  | observationMetadata => exact ObservationMetadata.depth_serialize value
  | imaginationEnvelope => exact ImaginationEnvelope.depth_serialize value
  | sceneQuery => exact SceneQuery.depth_serialize value
  | sceneQueryResult => exact SceneQueryResult.depth_serialize value

theorem nesting_le (type : MessageType) (value : type.Message) : type.nesting value ≤ 8 := by
  cases type with
  | scenePatch => exact ScenePatch.nesting_le value
  | applyReceipt =>
    simp only [nesting, ApplyReceipt.nesting]
    split <;> omega
  | observationRequest => exact (by decide : 1 ≤ 8)
  | observationMetadata => exact (by decide : 2 ≤ 8)
  | imaginationEnvelope =>
    simp only [nesting, ImaginationEnvelope.nesting]
    split_ifs <;> omega
  | sceneQuery => exact (by decide : 2 ≤ 8)
  | sceneQueryResult => exact (SceneQueryResult.nesting_le value).trans (by decide)

/-- **An encoded message can be read under the limits it was written under if and only if it nests
within them.** -/
theorem decode_encode_iff_nesting (type : MessageType) (floats : FloatText)
    (serde : Serde type.Message) (value : type.Message) (limits : RuntimeLimits)
    (encoded : List UInt8) (hserde : serde.RoundTrips (type.serialize floats value) value)
    (h : encode serde type.validate value limits = .ok encoded) :
    decode serde type.validate encoded limits = .ok value ↔
      type.nesting value ≤ limits.maxJsonNestingDepth.get := by
  have hle := type.nesting_le value
  rw [decode_encode_iff hserde h, depth_serialize]
  omega

def deletePatch : ScenePatch where
  schemaVersion := .v1
  transactionId := .lit 1
  idempotencyKey := .lit 1
  baseRevision := .initial
  conflictPolicy := .requireExactBase
  delivery := .mustApply
  declaredBudget := .default
  operations := [.delete (.lit 1)]

def deleteSerde : Serde ScenePatch :=
  .single (ScenePatch.serialize fun _ => .ofNat 0) deletePatch

def shallowLimits : RuntimeLimits :=
  { RuntimeLimits.default with maxJsonNestingDepth := .lit 3 }

theorem decode_encode_shallow :
    ∃ encoded, encode deleteSerde ScenePatch.validate deletePatch shallowLimits = .ok encoded ∧
      decode deleteSerde ScenePatch.validate encoded shallowLimits =
        .error (.nestingLimitExceeded 4 3) := by
  obtain ⟨encoded, hencoded, hdecoded⟩ := Exec.exists_ok_of_any
    (x := encode deleteSerde ScenePatch.validate deletePatch shallowLimits)
    (p := fun encoded => decode deleteSerde ScenePatch.validate encoded shallowLimits =
      .error (.nestingLimitExceeded 4 3)) (by decide +kernel)
  exact ⟨encoded, hencoded, of_decide_eq_true hdecoded⟩

theorem decode_encode_default :
    ∃ encoded, encode deleteSerde ScenePatch.validate deletePatch .default = .ok encoded ∧
      decode deleteSerde ScenePatch.validate encoded .default = .ok deletePatch := by
  obtain ⟨encoded, hencoded, -⟩ := Exec.exists_ok_of_any
    (x := encode deleteSerde ScenePatch.validate deletePatch .default) (p := fun _ => true)
    (by decide +kernel)
  have hserde := Serde.roundTrips_single (ScenePatch.serialize fun _ => .ofNat 0) deletePatch
  exact ⟨encoded, hencoded, (decode_encode_iff_nesting .scenePatch _ _ _ _ _ hserde hencoded).mpr
    (by decide +kernel)⟩

end MessageType

end Cogniform
