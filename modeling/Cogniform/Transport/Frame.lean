import Cogniform.Observation.Payload

/-!
# Local frames

One value on a local byte stream: control bytes whose schema a session owns, or one complete
observation. Either carries the identity by which a session correlates its work.
-/

namespace Cogniform

inductive LocalFrameKind where
  | control
  | observation
  deriving DecidableEq

inductive LocalFrame where
  | control (correlationId : NonZeroU64) (bytes : List UInt8)
  | observation (correlationId : NonZeroU64) (metadata : ObservationMetadata)
      (payload : ObservationPayload)
  deriving DecidableEq

def LocalFrame.kind : LocalFrame → LocalFrameKind
  | .control .. => .control
  | .observation .. => .observation

def LocalFrame.correlationId : LocalFrame → NonZeroU64
  | .control correlationId _ => correlationId
  | .observation correlationId .. => correlationId

structure LocalFrameLimits where
  maxFrameBytes : NonZeroU64
  maxControlBytes : NonZeroU64
  maxBulkBytes : NonZeroU64
  deriving DecidableEq

def LocalFrameLimits.default : LocalFrameLimits where
  maxFrameBytes := .lit 5_242_948
  maxControlBytes := .lit 1_048_576
  maxBulkBytes := .lit 4_194_304

structure LocalFrameConfig where
  frameLimits : LocalFrameLimits
  runtimeLimits : RuntimeLimits
  payloadLimits : ObservationPayloadLimits
  deriving DecidableEq

def LocalFrameConfig.default : LocalFrameConfig := ⟨.default, .default, .default⟩

def LocalFrameConfig.withPayloadBounds (frameLimits : LocalFrameLimits)
    (runtimeLimits : RuntimeLimits) (maxObservationEnvelopeBytes : NonZeroU64)
    (maxVisibilityEntries : NonZeroU32) : LocalFrameConfig :=
  ⟨frameLimits, runtimeLimits, ⟨maxObservationEnvelopeBytes, maxVisibilityEntries⟩⟩

inductive LocalFrameSection where
  | header | control | bulk
  deriving DecidableEq

inductive LocalFrameIoOperation where
  | readHeader | readControl | readBulk | writeFrame
  deriving DecidableEq

/-- Error kinds of a stream. Interruptions are handled where they occur; of the others only the one a
frame writer reports itself is told apart. -/
inductive IoErrorKind where
  | writeZero
  | other (code : ℕ)
  deriving DecidableEq

inductive LocalFrameError where
  | emptyControl
  | frameLimitExceeded (actual limit : ℕ)
  | controlLimitExceeded (actual limit : ℕ)
  | bulkLimitExceeded (actual limit : ℕ)
  | sizeOverflow
  | truncated (region : LocalFrameSection) (expected actual : ℕ)
  | trailingBytes (expected actual : ℕ)
  | invalidMagic
  | unsupportedVersion (found : ℕ)
  | unsupportedKind (found : UInt8)
  | nonCanonicalHeader
  | invalidCorrelationId
  | invalidSectionLayout
  | integrityMismatch
  | invalidObservationMetadata
  | observationEnvelope (error : ObservationEnvelopeError)
  | io (operation : LocalFrameIoOperation) (kind : IoErrorKind)
  deriving DecidableEq

end Cogniform
