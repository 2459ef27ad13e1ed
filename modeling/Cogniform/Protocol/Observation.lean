import Cogniform.Protocol.Message

/-!
# Observation messages

The request for one machine-readable observation and the metadata that goes with its result. The
metadata ties a result to what it was rendered from: an exact revision, a frame, a camera, and how
far the revision was behind when the result was produced.
-/

namespace Cogniform

inductive ObservationKind where
  | color | depth | normal | entityId | visibility
  deriving DecidableEq

inductive ObservationQuality where
  | low | medium | high
  deriving DecidableEq

structure ObservationRequest where
  schemaVersion : SchemaVersion
  observationId : ObservationId
  sceneRevision : SceneRevision
  cameraId : StableEntityId
  kind : ObservationKind
  quality : ObservationQuality
  deriving DecidableEq

def observationRequestLogicalBytes : ℕ := 44

def ObservationRequest.validate (request : ObservationRequest) (limits : RuntimeLimits) :
    Except ValidationError Unit := do
  validateSchema request.schemaVersion
  if limits.maxDecodedBytes.get < observationRequestLogicalBytes then
    .error ⟨.decodedSizeLimitExceeded, "observation_request"⟩
  else .ok ()

structure ImageDimensions where
  width : NonZeroU32
  height : NonZeroU32
  deriving DecidableEq

def ImageDimensions.pixelCount (dimensions : ImageDimensions) : ℕ :=
  dimensions.width.get * dimensions.height.get

structure ObservationStaleness where
  latestKnownRevision : SceneRevision
  revisionsBehind : UInt64
  deriving DecidableEq

structure ObservationMetadata where
  schemaVersion : SchemaVersion
  observationId : ObservationId
  sceneRevision : SceneRevision
  frameId : FrameId
  cameraId : StableEntityId
  kind : ObservationKind
  dimensions : Option ImageDimensions
  quality : ObservationQuality
  observedAtUnixMicros : UInt64
  productionLatencyMicros : UInt64
  staleness : ObservationStaleness
  deriving DecidableEq

def checkedSub (n m : UInt64) : Option UInt64 := if m ≤ n then some (n - m) else none

namespace ObservationMetadata

def logicalSizeBytes (metadata : ObservationMetadata) : ℕ :=
  satAdd (satAdd (satAdd (satAdd (satAdd (satAdd (satAdd (satAdd (satAdd (satAdd 2 16) 8) 8) 16) 1)
    (1 + metadata.dimensions.isSome.toNat * 8)) 1) 8) 8) 16

def exceedsPixels (metadata : ObservationMetadata) (limits : RuntimeLimits) : Bool :=
  metadata.dimensions.any fun dimensions =>
    limits.maxObservationWidth.get < dimensions.width.get
      || limits.maxObservationHeight.get < dimensions.height.get
      || limits.maxObservationPixels.get < dimensions.pixelCount

def validate (metadata : ObservationMetadata) (limits : RuntimeLimits) :
    Except ValidationError Unit := do
  validateSchema metadata.schemaVersion
  if decide (metadata.kind ≠ .visibility) ≠ metadata.dimensions.isSome then
    .error ⟨.invalidObservationDimensions, "dimensions"⟩
  else if metadata.exceedsPixels limits then
    .error ⟨.observationPixelLimitExceeded, "dimensions"⟩
  else if checkedSub metadata.staleness.latestKnownRevision.get metadata.sceneRevision.get ≠
      some metadata.staleness.revisionsBehind then
    .error ⟨.invalidObservationStaleness, "staleness"⟩
  else if limits.maxDecodedBytes.get < metadata.logicalSizeBytes then
    .error ⟨.decodedSizeLimitExceeded, "observation"⟩
  else .ok ()

end ObservationMetadata

end Cogniform
