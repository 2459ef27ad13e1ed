import Cogniform.Lib.Bytes
import Cogniform.Protocol.Codec
import Cogniform.Transport.Frame

/-!
# Frames in a buffer

A frame is a fixed header, a control section and a bulk section. The header names the kind, the
correlation and the lengths of both sections, and carries a digest over all of it. Reserving memory
that passed the declared limits succeeds.
-/

namespace Cogniform

structure FrameExternals where
  sha256 : List UInt8 → Digest
  metadataJson : Serde ObservationMetadata
  payload : PayloadCodec

def ObservationMetadata.toCanonicalJson (serde : Serde ObservationMetadata)
    (metadata : ObservationMetadata) (limits : RuntimeLimits) : Except CodecError (List UInt8) :=
  encode serde ObservationMetadata.validate metadata limits

def ObservationMetadata.fromJson (serde : Serde ObservationMetadata) (encoded : List UInt8)
    (limits : RuntimeLimits) : Except CodecError ObservationMetadata :=
  decode serde ObservationMetadata.validate encoded limits

/-- `NonZeroU64::new` of eight bytes. -/
def nonZeroU64 (n : ℕ) : Option NonZeroU64 :=
  if h : 0 < n ∧ n < 2 ^ 64 then some ⟨n, h.1, h.2⟩ else none

/-! ### The header -/

/-- `MAGIC`. -/
def frameMagic : List UInt8 := [67, 79, 71, 76, 79, 67, 48, 49]

def localFrameVersion : ℕ := 1

def digestOffset : ℕ := 36

def localFrameHeaderBytes : ℕ := digestOffset + 32

structure Header where
  kind : LocalFrameKind
  correlationId : NonZeroU64
  controlBytes : ℕ
  bulkBytes : ℕ
  frameBytes : ℕ

def LocalFrameKind.encode : LocalFrameKind → UInt8
  | .control => 1
  | .observation => 2

def decodeKind (encoded : UInt8) : Except LocalFrameError LocalFrameKind :=
  if encoded = 1 then .ok .control
  else if encoded = 2 then .ok .observation
  else .error (.unsupportedKind encoded)

def validateLayout (kind : LocalFrameKind) (controlBytes bulkBytes : ℕ) :
    Except LocalFrameError Unit :=
  match kind with
  | .control =>
    if controlBytes = 0 then .error .emptyControl
    else if bulkBytes ≠ 0 then .error .invalidSectionLayout
    else .ok ()
  | .observation =>
    if controlBytes = 0 ∨ bulkBytes = 0 then .error .invalidSectionLayout else .ok ()

def validateLengths (controlBytes bulkBytes : ℕ) (config : LocalFrameConfig) :
    Except LocalFrameError ℕ :=
  let limits := config.frameLimits
  let frameBytes := localFrameHeaderBytes + controlBytes + bulkBytes
  if limits.maxControlBytes.get < controlBytes then
    .error (.controlLimitExceeded controlBytes limits.maxControlBytes.get)
  else if limits.maxBulkBytes.get < bulkBytes then
    .error (.bulkLimitExceeded bulkBytes limits.maxBulkBytes.get)
  else if 2 ^ 64 ≤ frameBytes then .error .sizeOverflow
  else if limits.maxFrameBytes.get < frameBytes then
    .error (.frameLimitExceeded frameBytes limits.maxFrameBytes.get)
  else .ok frameBytes

/-- `append_header_prefix`. -/
def headerFields (kind : LocalFrameKind) (correlationId : NonZeroU64)
    (controlBytes bulkBytes : ℕ) : List UInt8 :=
  frameMagic ++ (bigEndian 2 localFrameVersion ++ ([kind.encode] ++ ([0] ++
    (bigEndian 8 correlationId.get ++ (bigEndian 8 controlBytes ++ bigEndian 8 bulkBytes)))))

def parseHeader (encoded : List UInt8) (config : LocalFrameConfig) :
    Except LocalFrameError Header :=
  if bytesAt encoded 0 8 ≠ frameMagic then .error .invalidMagic
  else
    let version := ofBigEndian (bytesAt encoded 8 2)
    if version ≠ localFrameVersion then .error (.unsupportedVersion version)
    else do
      let kind ← decodeKind (encoded.getD 10 0)
      if encoded.getD 11 0 ≠ 0 then .error .nonCanonicalHeader
      else
        match nonZeroU64 (ofBigEndian (bytesAt encoded 12 8)) with
        | none => .error .invalidCorrelationId
        | some correlationId =>
          let controlBytes := ofBigEndian (bytesAt encoded 20 8)
          let bulkBytes := ofBigEndian (bytesAt encoded 28 8)
          validateLayout kind controlBytes bulkBytes
          let frameBytes ← validateLengths controlBytes bulkBytes config
          .ok ⟨kind, correlationId, controlBytes, bulkBytes, frameBytes⟩

/-! ### Frames in a buffer -/

/-- `integrity_digest`, over the header before the digest and both sections. -/
def integrityDigest (ext : FrameExternals) (fields control bulk : List UInt8) : List UInt8 :=
  (ext.sha256 (fields ++ control ++ bulk)).toList

def frameBytes (ext : FrameExternals) (kind : LocalFrameKind) (correlationId : NonZeroU64)
    (control bulk : List UInt8) : List UInt8 :=
  let fields := headerFields kind correlationId control.length bulk.length
  fields ++ integrityDigest ext fields control bulk ++ (control ++ bulk)

def encodeSections (ext : FrameExternals) (kind : LocalFrameKind) (correlationId : NonZeroU64)
    (control bulk : List UInt8) (config : LocalFrameConfig) :
    Except LocalFrameError (List UInt8) := do
  validateLayout kind control.length bulk.length
  let _ ← validateLengths control.length bulk.length config
  .ok (frameBytes ext kind correlationId control bulk)

def LocalFrame.sections (ext : FrameExternals) (config : LocalFrameConfig) :
    LocalFrame → Except LocalFrameError (List UInt8 × List UInt8)
  | .control _ bytes => .ok (bytes, [])
  | .observation _ metadata payload => do
    let control ← (metadata.toCanonicalJson ext.metadataJson config.runtimeLimits).mapError
      fun _ => .invalidObservationMetadata
    let bulk ← (ext.payload.encode metadata payload config.runtimeLimits
      config.payloadLimits).mapError .observationEnvelope
    .ok (control, bulk)

def encodeFrame (ext : FrameExternals) (frame : LocalFrame) (config : LocalFrameConfig) :
    Except LocalFrameError (List UInt8) := do
  let (control, bulk) ← frame.sections ext config
  encodeSections ext frame.kind frame.correlationId control bulk config

def verifyDigest (ext : FrameExternals) (header control bulk : List UInt8) :
    Except LocalFrameError Unit :=
  if integrityDigest ext (header.take digestOffset) control bulk ≠ header.drop digestOffset then
    .error .integrityMismatch
  else .ok ()

def decodeObservation (ext : FrameExternals) (correlationId : NonZeroU64)
    (control bulk : List UInt8) (config : LocalFrameConfig) : Except LocalFrameError LocalFrame := do
  let metadata ← (ObservationMetadata.fromJson ext.metadataJson control
    config.runtimeLimits).mapError fun _ => .invalidObservationMetadata
  let canonical ← (metadata.toCanonicalJson ext.metadataJson config.runtimeLimits).mapError
    fun _ => .invalidObservationMetadata
  if canonical ≠ control then .error .invalidObservationMetadata
  else
    let payload ← (ext.payload.decode metadata bulk config.runtimeLimits
      config.payloadLimits).mapError .observationEnvelope
    .ok (.observation correlationId metadata payload)

/-- `decode_borrowed_body` and `decode_owned_body`. -/
def decodeBody (ext : FrameExternals) (kind : LocalFrameKind) (correlationId : NonZeroU64)
    (control bulk : List UInt8) (config : LocalFrameConfig) : Except LocalFrameError LocalFrame :=
  match kind with
  | .control => .ok (.control correlationId control)
  | .observation => decodeObservation ext correlationId control bulk config

def decodeFrame (ext : FrameExternals) (encoded : List UInt8) (config : LocalFrameConfig) :
    Except LocalFrameError LocalFrame :=
  let actual := encoded.length
  if actual < localFrameHeaderBytes then
    .error (.truncated .header localFrameHeaderBytes actual)
  else do
    let headerBytes := encoded.take localFrameHeaderBytes
    let header ← parseHeader headerBytes config
    if actual < header.frameBytes then
      let availableBody := actual - localFrameHeaderBytes
      if availableBody < header.controlBytes then
        .error (.truncated .control header.controlBytes availableBody)
      else .error (.truncated .bulk header.bulkBytes (availableBody - header.controlBytes))
    else if header.frameBytes < actual then .error (.trailingBytes header.frameBytes actual)
    else
      let controlEnd := localFrameHeaderBytes + header.controlBytes
      let control := (encoded.take controlEnd).drop localFrameHeaderBytes
      let bulk := encoded.drop controlEnd
      verifyDigest ext headerBytes control bulk
      decodeBody ext header.kind header.correlationId control bulk config

section Header

variable {encoded : List UInt8} {config : LocalFrameConfig} {kind : LocalFrameKind}
  {correlationId : NonZeroU64} {controlBytes bulkBytes : ℕ}

theorem nonZeroU64_eq_some {n : ℕ} : nonZeroU64 n = some correlationId ↔ correlationId.get = n := by
  rw [nonZeroU64]
  split
  · rename_i h
    rw [Option.some.injEq]
    exact ⟨fun heq => heq ▸ rfl, fun heq => NonZero.get_injective heq.symm⟩
  · rename_i h
    refine iff_of_false (by simp) fun heq => absurd ⟨?_, ?_⟩ h
    · exact heq ▸ correlationId.pos
    · exact heq ▸ correlationId.lt

theorem decodeKind_eq_ok {tag : UInt8} : decodeKind tag = .ok kind ↔ tag = kind.encode := by
  rw [decodeKind]
  cases kind <;> split_ifs <;> simp_all [LocalFrameKind.encode]

@[simp] theorem length_headerFields :
    (headerFields kind correlationId controlBytes bulkBytes).length = digestOffset := rfl

@[simp] theorem length_integrityDigest (ext : FrameExternals) (fields control bulk : List UInt8) :
    (integrityDigest ext fields control bulk).length = 32 := by
  simp [integrityDigest]

theorem validateLengths_eq_ok {frameBytes : ℕ}
    (h : validateLengths controlBytes bulkBytes config = .ok frameBytes) :
    frameBytes = localFrameHeaderBytes + controlBytes + bulkBytes ∧ frameBytes < 2 ^ 64 := by
  simp only [validateLengths] at h
  split_ifs at h
  cases h
  exact ⟨rfl, by omega⟩

theorem parseHeader_eq_ok {header : Header} (hlength : encoded.length = localFrameHeaderBytes) :
    parseHeader encoded config = .ok header ↔
      encoded.take digestOffset =
          headerFields header.kind header.correlationId header.controlBytes header.bulkBytes ∧
        validateLayout header.kind header.controlBytes header.bulkBytes = .ok () ∧
        validateLengths header.controlBytes header.bulkBytes config = .ok header.frameBytes := by
  have hsplit : encoded = bytesAt encoded 0 8 ++ (bytesAt encoded 8 2 ++ (bytesAt encoded 10 1 ++
      (bytesAt encoded 11 1 ++ (bytesAt encoded 12 8 ++ (bytesAt encoded 20 8 ++
      (bytesAt encoded 28 8 ++ encoded.drop 36)))))) := by
    rw [bytesAt_append_drop encoded 28 8 rfl, bytesAt_append_drop encoded 20 8 rfl,
      bytesAt_append_drop encoded 12 8 rfl, bytesAt_append_drop encoded 11 1 rfl,
      bytesAt_append_drop encoded 10 1 rfl, bytesAt_append_drop encoded 8 2 rfl,
      bytesAt_append_drop encoded 0 8 rfl, List.drop_zero]
  have hkind : bytesAt encoded 10 1 = [encoded.getD 10 0] :=
    bytesAt_one (by rw [hlength]; decide)
  have hreserved : bytesAt encoded 11 1 = [encoded.getD 11 0] :=
    bytesAt_one (by rw [hlength]; decide)
  constructor
  · intro h
    simp only [parseHeader] at h
    split at h
    · cases h
    rename_i hmagic
    split at h
    · cases h
    rename_i hversion
    obtain ⟨kind, htag, h⟩ := Exec.bind_eq_ok.mp h
    split at h
    · cases h
    rename_i hzero
    split at h
    · cases h
    rename_i correlationId hcorrelation
    obtain ⟨⟨⟩, hlayout, h⟩ := Exec.bind_eq_ok.mp h
    obtain ⟨frameBytes, hlengths, h⟩ := Exec.bind_eq_ok.mp h
    cases h
    refine ⟨?_, hlayout, hlengths⟩
    have hfield : ∀ offset width, offset + width ≤ 68 →
        bigEndian width (ofBigEndian (bytesAt encoded offset width)) =
          bytesAt encoded offset width := by
      intro offset width hle
      exact bigEndian_ofBigEndian (length_bytesAt (hlength ▸ hle))
    have hfields : encoded = headerFields kind correlationId
        (ofBigEndian (bytesAt encoded 20 8)) (ofBigEndian (bytesAt encoded 28 8)) ++
          encoded.drop 36 := by
      rw [not_not] at hmagic hversion hzero
      rw [hzero] at hreserved
      rw [decodeKind_eq_ok.mp htag] at hkind
      rw [headerFields, ← hmagic, ← hversion, ← hkind, ← hreserved,
        nonZeroU64_eq_some.mp hcorrelation, hfield 8 2 (by decide), hfield 12 8 (by decide),
        hfield 20 8 (by decide), hfield 28 8 (by decide)]
      simpa only [List.append_assoc] using hsplit
    exact List.append_cancel_right (hfields.symm.trans (List.take_append_drop 36 encoded).symm).symm
  · rintro ⟨hfields, hlayout, hlengths⟩
    have hat : ∀ offset width, offset + width ≤ digestOffset →
        bytesAt encoded offset width = bytesAt (headerFields header.kind header.correlationId
          header.controlBytes header.bulkBytes) offset width := by
      intro offset width hle
      rw [← hfields, bytesAt_take hle]
    obtain ⟨hframe, hlt⟩ := validateLengths_eq_ok hlengths
    have htag : encoded.getD 10 0 = header.kind.encode :=
      (List.cons.inj (hkind.symm.trans (hat 10 1 (by decide)))).1
    have hzero : encoded.getD 11 0 = 0 :=
      (List.cons.inj (hreserved.symm.trans (hat 11 1 (by decide)))).1
    have hmagic : bytesAt encoded 0 8 = frameMagic := hat 0 8 (by decide)
    have hversion : bytesAt encoded 8 2 = bigEndian 2 localFrameVersion := hat 8 2 (by decide)
    have hcorrelation : bytesAt encoded 12 8 = bigEndian 8 header.correlationId.get :=
      hat 12 8 (by decide)
    have hcontrol : bytesAt encoded 20 8 = bigEndian 8 header.controlBytes := hat 20 8 (by decide)
    have hbulk : bytesAt encoded 28 8 = bigEndian 8 header.bulkBytes := hat 28 8 (by decide)
    have hcorrelationId : nonZeroU64 (ofBigEndian (bytesAt encoded 12 8)) =
        some header.correlationId := by
      rw [nonZeroU64_eq_some, hcorrelation, ofBigEndian_bigEndian header.correlationId.lt]
    have hcontrolBytes : ofBigEndian (bytesAt encoded 20 8) = header.controlBytes := by
      rw [hcontrol, ofBigEndian_bigEndian (by omega)]
    have hbulkBytes : ofBigEndian (bytesAt encoded 28 8) = header.bulkBytes := by
      rw [hbulk, ofBigEndian_bigEndian (by omega)]
    have hversionNumber : ofBigEndian (bytesAt encoded 8 2) = localFrameVersion := by
      rw [hversion]
      decide
    simp only [parseHeader, hmagic, hversionNumber, htag, decodeKind_eq_ok.mpr rfl, hzero,
      hcorrelationId, hcontrolBytes, hbulkBytes]
    change (validateLayout _ _ _ >>= _) = _
    rw [hlayout]
    change (validateLengths _ _ _ >>= _) = _
    rw [hlengths]
    rfl

end Header

section Buffer

variable {ext : FrameExternals} {config : LocalFrameConfig} {kind : LocalFrameKind}
  {correlationId : NonZeroU64} {control bulk encoded : List UInt8} {frame : LocalFrame}

theorem encodeSections_eq_ok :
    encodeSections ext kind correlationId control bulk config = .ok encoded ↔
      validateLayout kind control.length bulk.length = .ok () ∧
        (∃ n, validateLengths control.length bulk.length config = .ok n) ∧
        encoded = frameBytes ext kind correlationId control bulk := by
  simp only [encodeSections, Exec.bind_eq_ok]
  constructor
  · rintro ⟨⟨⟩, hlayout, n, hlengths, h⟩
    cases h
    exact ⟨hlayout, ⟨n, hlengths⟩, rfl⟩
  · rintro ⟨hlayout, ⟨n, hlengths⟩, rfl⟩
    exact ⟨(), hlayout, n, hlengths, rfl⟩

theorem verifyDigest_eq_ok {header : List UInt8} :
    verifyDigest ext header control bulk = .ok () ↔
      header.drop digestOffset = integrityDigest ext (header.take digestOffset) control bulk := by
  rw [verifyDigest]
  split
  · rename_i h
    exact iff_of_false (by simp) fun heq => h heq.symm
  · rename_i h
    exact iff_of_true rfl (not_not.mp h).symm

theorem encodeSections_iff {header : List UInt8} (hlength : header.length = localFrameHeaderBytes) :
    encodeSections ext kind correlationId control bulk config =
        .ok (header ++ (control ++ bulk)) ↔
      (∃ n, parseHeader header config =
        .ok ⟨kind, correlationId, control.length, bulk.length, n⟩) ∧
      verifyDigest ext header control bulk = .ok () := by
  simp only [parseHeader_eq_ok hlength, verifyDigest_eq_ok, encodeSections_eq_ok]
  rw [frameBytes, List.append_cancel_right_eq]
  constructor
  · rintro ⟨hlayout, ⟨n, hlengths⟩, rfl⟩
    exact ⟨⟨n, List.take_left' length_headerFields, hlayout, hlengths⟩, by
      rw [List.take_left' length_headerFields, List.drop_left' length_headerFields]⟩
  · rintro ⟨⟨n, hfields, hlayout, hlengths⟩, hdigest⟩
    refine ⟨hlayout, ⟨n, hlengths⟩, ?_⟩
    rw [← hfields, ← hdigest, List.take_append_drop]

theorem exists_header (h : encodeSections ext kind correlationId control bulk config = .ok encoded) :
    ∃ header, header.length = localFrameHeaderBytes ∧ encoded = header ++ (control ++ bulk) := by
  obtain ⟨-, -, rfl⟩ := encodeSections_eq_ok.mp h
  exact ⟨_, by simp [localFrameHeaderBytes], rfl⟩

theorem decodeFrame_iff :
    decodeFrame ext encoded config = .ok frame ↔
      ∃ kind correlationId control bulk,
        encodeSections ext kind correlationId control bulk config = .ok encoded ∧
        decodeBody ext kind correlationId control bulk config = .ok frame := by
  constructor
  · intro h
    simp only [decodeFrame] at h
    split at h
    · cases h
    rename_i hlong
    obtain ⟨header, hparse, h⟩ := Exec.bind_eq_ok.mp h
    split at h
    · split at h <;> cases h
    rename_i hshort
    split at h
    · cases h
    rename_i htrailing
    obtain ⟨⟨⟩, hdigest, hbody⟩ := Exec.bind_eq_ok.mp h
    have hheader : (encoded.take localFrameHeaderBytes).length = localFrameHeaderBytes := by
      rw [List.length_take]
      omega
    obtain ⟨-, -, hlengths⟩ := (parseHeader_eq_ok hheader).mp hparse
    obtain ⟨hframe, -⟩ := validateLengths_eq_ok hlengths
    set control := (encoded.take (localFrameHeaderBytes + header.controlBytes)).drop
      localFrameHeaderBytes with hcontrol
    set bulk := encoded.drop (localFrameHeaderBytes + header.controlBytes) with hbulk
    have hcontrolLength : control.length = header.controlBytes := by
      rw [hcontrol, List.length_drop, List.length_take]
      omega
    have hbulkLength : bulk.length = header.bulkBytes := by
      rw [hbulk, List.length_drop]
      omega
    have hsplit : encoded = encoded.take localFrameHeaderBytes ++ (control ++ bulk) := by
      rw [hcontrol, hbulk, List.drop_take, Nat.add_sub_cancel_left, ← List.drop_drop,
        List.take_append_drop, List.take_append_drop]
    refine ⟨header.kind, header.correlationId, control, bulk, ?_, hbody⟩
    rw [hsplit, encodeSections_iff hheader]
    refine ⟨⟨header.frameBytes, ?_⟩, hdigest⟩
    rw [hcontrolLength, hbulkLength]
    exact hparse
  · rintro ⟨kind, correlationId, control, bulk, hsections, hbody⟩
    obtain ⟨header, hheader, rfl⟩ := exists_header hsections
    obtain ⟨⟨n, hparse⟩, hdigest⟩ := (encodeSections_iff hheader).mp hsections
    obtain ⟨-, -, hlengths⟩ := (parseHeader_eq_ok hheader).mp hparse
    obtain ⟨hframe, -⟩ := validateLengths_eq_ok hlengths
    have hactual : (header ++ (control ++ bulk)).length = n := by
      dsimp only at hframe
      rw [List.length_append, List.length_append, hheader, hframe]
      omega
    have hcontrol : ((header ++ (control ++ bulk)).take
        (localFrameHeaderBytes + control.length)).drop localFrameHeaderBytes = control := by
      rw [← hheader, List.take_length_add_append, List.drop_left, List.take_left]
    have hbulk : (header ++ (control ++ bulk)).drop
        (localFrameHeaderBytes + control.length) = bulk := by
      rw [← hheader, List.drop_length_add_append, List.drop_left]
    simp only [decodeFrame, hactual]
    rw [if_neg (by dsimp only at hframe; omega), ← hheader, List.take_left, hheader, hparse]
    change (if n < n then _ else if n < n then _ else _) = _
    rw [if_neg (lt_irrefl n), if_neg (lt_irrefl n)]
    dsimp only
    rw [hcontrol, hbulk, hdigest]
    exact hbody

/-- Metadata and payload of an observation survive their own codecs. A control frame asks for
nothing. -/
def LocalFrame.RoundTrips (ext : FrameExternals) (config : LocalFrameConfig) : LocalFrame → Prop
  | .control .. => True
  | .observation _ metadata payload =>
    (∀ control, metadata.toCanonicalJson ext.metadataJson config.runtimeLimits = .ok control →
      ObservationMetadata.fromJson ext.metadataJson control config.runtimeLimits = .ok metadata) ∧
    ∀ bulk, ext.payload.encode metadata payload config.runtimeLimits config.payloadLimits =
        .ok bulk ↔
      ext.payload.decode metadata bulk config.runtimeLimits config.payloadLimits = .ok payload

theorem sections_iff_decodeBody (hframe : frame.RoundTrips ext config)
    (hlayout : validateLayout kind control.length bulk.length = .ok ()) :
    (frame.kind = kind ∧ frame.correlationId = correlationId ∧
        frame.sections ext config = .ok (control, bulk)) ↔
      decodeBody ext kind correlationId control bulk config = .ok frame := by
  cases kind with
  | control =>
    have hbulk : bulk = [] := by
      simp only [validateLayout] at hlayout
      split_ifs at hlayout with _ hbulk
      exact List.length_eq_zero_iff.mp (not_not.mp hbulk)
    subst hbulk
    cases frame with
    | control correlationId' bytes =>
      simp [decodeBody, LocalFrame.kind, LocalFrame.correlationId, LocalFrame.sections, eq_comm]
    | observation => simp [decodeBody, LocalFrame.kind]
  | observation =>
    cases frame with
    | control =>
      refine iff_of_false (fun h => by cases h.1) fun h => ?_
      simp only [decodeBody, decodeObservation, Exec.bind_eq_ok] at h
      obtain ⟨metadata, -, canonical, -, h⟩ := h
      split at h
      · cases h
      · obtain ⟨payload, -, h⟩ := Exec.bind_eq_ok.mp h
        cases h
    | observation correlationId' metadata payload =>
      obtain ⟨hmetadata, hpayload⟩ := hframe
      simp only [decodeBody, decodeObservation, LocalFrame.sections, Exec.bind_eq_ok,
        Exec.exceptMapError_eq_ok]
      constructor
      · rintro ⟨-, rfl, canonical, hcanonical, bulk', hbulk, h⟩
        cases h
        refine ⟨metadata, hmetadata control hcanonical, control, hcanonical, ?_⟩
        rw [if_neg (not_not.mpr rfl), Exec.bind_eq_ok]
        exact ⟨payload, Exec.exceptMapError_eq_ok.mpr ((hpayload bulk).mp hbulk), rfl⟩
      · rintro ⟨metadata', -, canonical, hcanonical, h⟩
        split at h
        · cases h
        rename_i heq
        obtain ⟨payload', hdecode, h⟩ := Exec.bind_eq_ok.mp h
        cases h
        refine ⟨rfl, rfl, control, not_not.mp heq ▸ hcanonical, bulk, ?_, rfl⟩
        exact (hpayload bulk).mpr (Exec.exceptMapError_eq_ok.mp hdecode)

theorem encodeFrame_iff_decodeFrame (hframe : frame.RoundTrips ext config) :
    encodeFrame ext frame config = .ok encoded ↔ decodeFrame ext encoded config = .ok frame := by
  rw [decodeFrame_iff, encodeFrame, Exec.bind_eq_ok]
  constructor
  · rintro ⟨⟨control, bulk⟩, hsections, hencode⟩
    have hlayout := (encodeSections_eq_ok.mp hencode).1
    exact ⟨frame.kind, frame.correlationId, control, bulk, hencode,
      (sections_iff_decodeBody hframe hlayout).mp ⟨rfl, rfl, hsections⟩⟩
  · rintro ⟨kind, correlationId, control, bulk, hencode, hbody⟩
    have hlayout := (encodeSections_eq_ok.mp hencode).1
    obtain ⟨rfl, rfl, hsections⟩ := (sections_iff_decodeBody hframe hlayout).mpr hbody
    exact ⟨(control, bulk), hsections, hencode⟩

end Buffer

end Cogniform
