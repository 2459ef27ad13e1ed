import Cogniform.Protocol.Observation

/-!
# Observation payloads

The bulk data of one observation, and the bounds and errors of the envelope it travels in. Metadata
travels separately and says which kind of payload to expect.
-/

namespace Cogniform

structure EntityVisibility where
  entityId : StableEntityId
  visiblePixels : UInt64
  deriving DecidableEq

inductive ObservationPayload where
  | color (pixels : List (Vector UInt8 4))
  | depth (values : List F32)
  | normal (values : List (Option (Vector F32 3)))
  | entityId (values : List (Option StableEntityId))
  | visibility (entries : List EntityVisibility)
  deriving DecidableEq

structure ObservationPayloadLimits where
  maxEnvelopeBytes : NonZeroU64
  maxVisibilityEntries : NonZeroU32
  deriving DecidableEq

def ObservationPayloadLimits.default : ObservationPayloadLimits :=
  ⟨.lit 4_194_304, .lit 4_096⟩

inductive ObservationEnvelopeError where
  | invalidMetadata
  | kindMismatch (metadata payload : ObservationKind)
  | itemCountMismatch (expected actual : ℕ)
  | visibilityEntryLimitExceeded (actual limit : ℕ)
  | visibilityPixelLimitExceeded (actual limit : ℕ)
  | invalidPayloadValue (kind : ObservationKind) (index : ℕ)
  | envelopeLimitExceeded (actual limit : ℕ)
  | sizeOverflow
  | allocationFailed
  | truncated (expected actual : ℕ)
  | trailingBytes (expected actual : ℕ)
  | invalidMagic
  | unsupportedVersion (found : ℕ)
  | unsupportedKind (found : UInt8)
  | nonCanonicalEncoding
  | payloadLengthMismatch (expected actual : ℕ)
  | integrityMismatch
  deriving DecidableEq

structure PayloadCodec where
  encode : ObservationMetadata → ObservationPayload → RuntimeLimits → ObservationPayloadLimits →
    Except ObservationEnvelopeError (List UInt8)
  decode : ObservationMetadata → List UInt8 → RuntimeLimits → ObservationPayloadLimits →
    Except ObservationEnvelopeError ObservationPayload

end Cogniform
