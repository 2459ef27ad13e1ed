import Cogniform.Engine.Engine

/-!
# Recovery envelopes

A recovery point is kept as one byte string: a fixed prefix, the replay bytes and a digest of both.
The decoder trusts nothing of it. Its checks leave exactly the strings that the encoder writes.

Lengths of byte strings fit 64 bits, so they are plain numbers here.
-/

namespace Cogniform

inductive RecoveryPointCodecError where
  | invalidReplayConfig (error : ReplayConfigError)
  | truncated (actual minimum : ℕ)
  | invalidHeader
  | unsupportedVersion (found : ℕ)
  | envelopeSizeExceeded (actual limit : ℕ)
  | replaySizeExceeded (actual limit : ℕ)
  | lengthMismatch (actual expected : ℕ)
  | invalidFrameId
  | integrityMismatch
  deriving DecidableEq

theorem FrameId.new?_ofNat {value : ℕ} (h : value < 2 ^ 64) {frame : FrameId} :
    FrameId.new? (.ofNat value) = some frame ↔ frame.get.toNat = value := by
  have hvalue : (UInt64.ofNat value).toNat = value := by
    rw [UInt64.toNat_ofNat', Nat.mod_eq_of_lt h]
  rw [FrameId.new?]
  constructor
  · intro hsome
    split at hsome
    · cases hsome
      exact hvalue
    · cases hsome
  · intro heq
    have hget : frame.get = UInt64.ofNat value := UInt64.toNat_inj.mp (heq.trans hvalue.symm)
    rw [dif_pos (hget ▸ frame.ne_zero)]
    cases frame
    cases hget
    rfl

namespace EngineRecoveryPoint

/-! ### The layout -/

def recoveryMagic : List UInt8 := asciiBytes "CNFRCP"

def recoveryFormatVersion : ℕ := 1

def recoveryHashDomain : List UInt8 := asciiBytes "cogniform.engine-recovery-point.v1\x00"

def versionOffset : ℕ := 6

def frameOffset : ℕ := versionOffset + 2

def replayLengthOffset : ℕ := frameOffset + 8

def replayOffset : ℕ := replayLengthOffset + 4

def digestBytes : ℕ := 32

def envelopeOverheadBytes : ℕ := replayOffset + digestBytes

def recoveryDigest (sha256 : List UInt8 → Digest) (encodedWithoutDigest : List UInt8) :
    List UInt8 :=
  (sha256 (recoveryHashDomain ++ encodedWithoutDigest)).toList

def validateReplayConfig (config : ReplayConfig) : Except RecoveryPointCodecError Unit :=
  config.validate.mapError .invalidReplayConfig

def envelopeByteLimit (config : ReplayConfig) : Except RecoveryPointCodecError ℕ := do
  validateReplayConfig config
  .ok (config.maxLogBytes.get + envelopeOverheadBytes)

section

variable (sha256 : List UInt8 → Digest)

def toEnvelopeBytes (recovery : EngineRecoveryPoint) (config : ReplayConfig) :
    Exec RecoveryPointCodecError (List UInt8) := do
  Exec.ofExcept (validateReplayConfig config)
  let replayByteCount := recovery.replayBytes.length
  let replayLimit := config.maxLogBytes.get
  if replayLimit < replayByteCount then
    Exec.fail (.replaySizeExceeded replayByteCount replayLimit)
  else
    let replayLength ← Exec.expect "a replay bounded by NonZeroU32 always fits in u32"
      (if replayByteCount < 2 ^ 32 then some replayByteCount else none)
    let encoded := recoveryMagic ++ (bigEndian 2 recoveryFormatVersion ++
      (bigEndian 8 recovery.nextFrameId.get.toNat ++ (bigEndian 4 replayLength ++
        recovery.replayBytes)))
    .ok (encoded ++ recoveryDigest sha256 encoded)

def fromEnvelopeBytes (encoded : List UInt8) (config : ReplayConfig) :
    Except RecoveryPointCodecError EngineRecoveryPoint := do
  validateReplayConfig config
  let replayLimit := config.maxLogBytes.get
  let envelopeLimit := replayLimit + envelopeOverheadBytes
  let encodedLength := encoded.length
  if envelopeLimit < encodedLength then
    .error (.envelopeSizeExceeded encodedLength envelopeLimit)
  else if encodedLength < envelopeOverheadBytes then
    .error (.truncated encodedLength envelopeOverheadBytes)
  else if bytesAt encoded 0 recoveryMagic.length ≠ recoveryMagic then .error .invalidHeader
  else
    let version := ofBigEndian (bytesAt encoded versionOffset 2)
    if version ≠ recoveryFormatVersion then .error (.unsupportedVersion version)
    else
      let nextFrameValue := ofBigEndian (bytesAt encoded frameOffset 8)
      let replayLength := ofBigEndian (bytesAt encoded replayLengthOffset 4)
      if replayLimit < replayLength then .error (.replaySizeExceeded replayLength replayLimit)
      else
        let expectedLength := envelopeOverheadBytes + replayLength
        if encodedLength ≠ expectedLength then
          .error (.lengthMismatch encodedLength expectedLength)
        else
          match FrameId.new? (.ofNat nextFrameValue) with
          | none => .error .invalidFrameId
          | some nextFrameId =>
            let digestOffset := replayOffset + replayLength
            if encoded.drop digestOffset ≠ recoveryDigest sha256 (encoded.take digestOffset) then
              .error .integrityMismatch
            else .ok ⟨(encoded.take digestOffset).drop replayOffset, nextFrameId⟩

end

/-! ### What is written and read -/

section

variable {sha256 : List UInt8 → Digest} {recovery : EngineRecoveryPoint} {config : ReplayConfig}
  {encoded : List UInt8}

def envelopeFields (recovery : EngineRecoveryPoint) : List UInt8 :=
  recoveryMagic ++ (bigEndian 2 recoveryFormatVersion ++
    (bigEndian 8 recovery.nextFrameId.get.toNat ++ (bigEndian 4 recovery.replayBytes.length ++
      recovery.replayBytes)))

def envelope (sha256 : List UInt8 → Digest) (recovery : EngineRecoveryPoint) : List UInt8 :=
  recovery.envelopeFields ++ recoveryDigest sha256 recovery.envelopeFields

theorem length_envelopeFields (recovery : EngineRecoveryPoint) :
    recovery.envelopeFields.length = replayOffset + recovery.replayBytes.length := by
  simp only [envelopeFields, List.length_append, length_bigEndian]
  rw [show recoveryMagic.length = 6 from rfl]
  simp only [replayOffset, replayLengthOffset, frameOffset, versionOffset]
  omega

theorem length_envelope (sha256 : List UInt8 → Digest) (recovery : EngineRecoveryPoint) :
    (recovery.envelope sha256).length = envelopeOverheadBytes + recovery.replayBytes.length := by
  rw [envelope, List.length_append, length_envelopeFields, recoveryDigest, Vector.length_toList,
    envelopeOverheadBytes, digestBytes]
  omega

theorem toEnvelopeBytes_eq_ok :
    recovery.toEnvelopeBytes sha256 config = .ok encoded ↔
      validateReplayConfig config = .ok () ∧
        recovery.replayBytes.length ≤ config.maxLogBytes.get ∧
        encoded = recovery.envelope sha256 := by
  have hlt := config.maxLogBytes.lt
  simp only [toEnvelopeBytes, Exec.bind_eq_ok, Exec.ofExcept_eq_ok]
  constructor
  · rintro ⟨⟨⟩, hvalid, h⟩
    split at h
    · cases h
    rename_i hfits
    obtain ⟨length, hlength, h⟩ := Exec.bind_eq_ok.mp h
    rw [if_pos (by omega), Exec.expect_some] at hlength
    cases hlength
    cases h
    exact ⟨hvalid, Nat.le_of_not_lt hfits, rfl⟩
  · rintro ⟨hvalid, hfits, rfl⟩
    refine ⟨(), hvalid, ?_⟩
    rw [if_neg (Nat.not_lt.mpr hfits), if_pos (by omega)]
    rfl

theorem bytesAt_envelope (sha256 : List UInt8 → Digest) (recovery : EngineRecoveryPoint) :
    bytesAt (recovery.envelope sha256) 0 recoveryMagic.length = recoveryMagic ∧
      bytesAt (recovery.envelope sha256) versionOffset 2 = bigEndian 2 recoveryFormatVersion ∧
      bytesAt (recovery.envelope sha256) frameOffset 8 =
        bigEndian 8 recovery.nextFrameId.get.toNat ∧
      bytesAt (recovery.envelope sha256) replayLengthOffset 4 =
        bigEndian 4 recovery.replayBytes.length := by
  have hsplit : (recovery.envelope sha256).drop 0 = recoveryMagic ++
      (bigEndian 2 recoveryFormatVersion ++ (bigEndian 8 recovery.nextFrameId.get.toNat ++
        (bigEndian 4 recovery.replayBytes.length ++
          (recovery.replayBytes ++ recoveryDigest sha256 recovery.envelopeFields)))) := by
    simp only [envelope, envelopeFields, List.append_assoc, List.drop_zero]
  obtain ⟨hmagic, hsplit⟩ := bytesAt_of_drop hsplit rfl (rfl : _ = versionOffset)
  obtain ⟨hversion, hsplit⟩ := bytesAt_of_drop hsplit (length_bigEndian ..) (rfl : _ = frameOffset)
  obtain ⟨hframe, hsplit⟩ :=
    bytesAt_of_drop hsplit (length_bigEndian ..) (rfl : _ = replayLengthOffset)
  obtain ⟨hreplay, -⟩ := bytesAt_of_drop hsplit (length_bigEndian ..) (rfl : _ = replayOffset)
  exact ⟨hmagic, hversion, hframe, hreplay⟩

theorem drop_envelopeFields (recovery : EngineRecoveryPoint) :
    recovery.envelopeFields.drop replayOffset = recovery.replayBytes := by
  have hassoc : recovery.envelopeFields = (recoveryMagic ++ bigEndian 2 recoveryFormatVersion ++
      bigEndian 8 recovery.nextFrameId.get.toNat ++ bigEndian 4 recovery.replayBytes.length) ++
        recovery.replayBytes := by
    simp only [envelopeFields, List.append_assoc]
  rw [hassoc]
  refine List.drop_left' ?_
  simp only [List.length_append, length_bigEndian]
  rfl

theorem fromEnvelopeBytes_envelope (hvalid : validateReplayConfig config = .ok ())
    (hfits : recovery.replayBytes.length ≤ config.maxLogBytes.get) :
    fromEnvelopeBytes sha256 (recovery.envelope sha256) config = .ok recovery := by
  have hlt := config.maxLogBytes.lt
  obtain ⟨hmagic, hversion, hframe, hreplay⟩ := bytesAt_envelope sha256 recovery
  have hversion' : ofBigEndian (bigEndian 2 recoveryFormatVersion) = recoveryFormatVersion := by
    decide
  have hreplay' : ofBigEndian (bigEndian 4 recovery.replayBytes.length) =
      recovery.replayBytes.length := ofBigEndian_bigEndian (by omega)
  have hframe' : FrameId.new? (.ofNat (ofBigEndian
      (bigEndian 8 recovery.nextFrameId.get.toNat))) = some recovery.nextFrameId := by
    rw [ofBigEndian_bigEndian recovery.nextFrameId.get.toNat_lt]
    exact (FrameId.new?_ofNat recovery.nextFrameId.get.toNat_lt).mpr rfl
  have htake : (recovery.envelope sha256).take (replayOffset + recovery.replayBytes.length) =
      recovery.envelopeFields := List.take_left' (length_envelopeFields recovery)
  have hdigest : (recovery.envelope sha256).drop (replayOffset + recovery.replayBytes.length) =
      recoveryDigest sha256 recovery.envelopeFields :=
    List.drop_left' (length_envelopeFields recovery)
  rw [fromEnvelopeBytes, hvalid]
  show (if _ then _ else _) = _
  rw [length_envelope, if_neg (by omega), if_neg (by omega), if_neg (not_not.mpr hmagic), hversion,
    if_neg (not_not.mpr hversion'), hreplay, hreplay', if_neg (by omega), if_neg (not_not.mpr rfl),
    hframe, hframe']
  dsimp only
  rw [htake, if_neg (not_not.mpr hdigest), drop_envelopeFields]

theorem bytesAt_layout (fields : List UInt8) :
    bytesAt fields 0 recoveryMagic.length ++ (bytesAt fields versionOffset 2 ++
      (bytesAt fields frameOffset 8 ++ (bytesAt fields replayLengthOffset 4 ++
        fields.drop replayOffset))) = fields := by
  rw [bytesAt_append_drop fields replayLengthOffset 4 (rfl : _ = replayOffset),
    bytesAt_append_drop fields frameOffset 8 (rfl : _ = replayLengthOffset),
    bytesAt_append_drop fields versionOffset 2 (rfl : _ = frameOffset),
    bytesAt_append_drop fields 0 recoveryMagic.length (rfl : _ = versionOffset), List.drop_zero]

theorem eq_envelope_of_fromEnvelopeBytes
    (h : fromEnvelopeBytes sha256 encoded config = .ok recovery) :
    validateReplayConfig config = .ok () ∧
      recovery.replayBytes.length ≤ config.maxLogBytes.get ∧
      encoded = recovery.envelope sha256 := by
  obtain ⟨⟨⟩, hvalid, h⟩ := Exec.bind_eq_ok.mp h
  dsimp only at h
  split_ifs at h with hlimit htruncated hmagic hversion hreplay hexact hdigest
  · split at h <;> cases h
  rw [not_not] at hmagic hversion hexact hdigest
  split at h
  · cases h
  rename_i nextFrameId hframe
  cases h
  have hlength (offset width : ℕ) (hend : offset + width ≤ replayOffset) :
      (bytesAt encoded offset width).length = width :=
    length_bytesAt (by rw [hexact, envelopeOverheadBytes]; omega)
  set replayLength := ofBigEndian (bytesAt encoded replayLengthOffset 4) with hdeclared
  have hbytes : ((encoded.take (replayOffset + replayLength)).drop replayOffset).length =
      replayLength := by
    rw [List.length_drop, List.length_take, hexact, envelopeOverheadBytes]
    omega
  have hframe' : nextFrameId.get.toNat = ofBigEndian (bytesAt encoded frameOffset 8) := by
    refine (FrameId.new?_ofNat ?_).mp hframe
    exact (ofBigEndian_lt _).trans_eq (by rw [hlength _ _ (by decide)]; rfl)
  have hfields : envelopeFields ⟨(encoded.take (replayOffset + replayLength)).drop replayOffset,
      nextFrameId⟩ = encoded.take (replayOffset + replayLength) := by
    have hversion' := bigEndian_ofBigEndian (hlength versionOffset 2 (by decide))
    have htake (offset width : ℕ) (hend : offset + width ≤ replayOffset) :
        bytesAt (encoded.take (replayOffset + replayLength)) offset width =
          bytesAt encoded offset width := bytesAt_take (by omega)
    rw [hversion] at hversion'
    rw [envelopeFields]
    dsimp only
    rw [hbytes, hframe', bigEndian_ofBigEndian (hlength _ _ (by decide)),
      bigEndian_ofBigEndian (hlength _ _ (by decide)), hversion']
    nth_rewrite 1 [← hmagic]
    rw [← htake _ _ (by decide), ← htake _ _ (by decide), ← htake _ _ (by decide),
      ← htake _ _ (by decide)]
    exact bytesAt_layout _
  refine ⟨hvalid, hbytes.trans_le (Nat.le_of_not_lt hreplay), ?_⟩
  rw [envelope, hfields, ← hdigest, List.take_append_drop]

theorem fromEnvelopeBytes_eq_ok :
    fromEnvelopeBytes sha256 encoded config = .ok recovery ↔
      validateReplayConfig config = .ok () ∧
        recovery.replayBytes.length ≤ config.maxLogBytes.get ∧
        encoded = recovery.envelope sha256 := by
  refine ⟨eq_envelope_of_fromEnvelopeBytes, ?_⟩
  rintro ⟨hvalid, hfits, rfl⟩
  exact fromEnvelopeBytes_envelope hvalid hfits

theorem length_of_fromEnvelopeBytes (h : fromEnvelopeBytes sha256 encoded config = .ok recovery) :
    encoded.length =
      envelopeOverheadBytes + ofBigEndian (bytesAt encoded replayLengthOffset 4) := by
  have hlt := config.maxLogBytes.lt
  obtain ⟨-, hfits, rfl⟩ := fromEnvelopeBytes_eq_ok.mp h
  obtain ⟨-, -, -, hreplay⟩ := bytesAt_envelope sha256 recovery
  rw [length_envelope, hreplay, ofBigEndian_bigEndian (by omega)]

theorem fromEnvelopeBytes_append {recovery' : EngineRecoveryPoint} {extra : List UInt8}
    (hextra : extra ≠ []) (h : fromEnvelopeBytes sha256 encoded config = .ok recovery) :
    fromEnvelopeBytes sha256 (encoded ++ extra) config ≠ .ok recovery' := by
  intro happend
  have hlength := length_of_fromEnvelopeBytes h
  have hlonger := length_of_fromEnvelopeBytes happend
  have hfield : bytesAt (encoded ++ extra) replayLengthOffset 4 =
      bytesAt encoded replayLengthOffset 4 := by
    rw [← bytesAt_take (n := encoded.length), List.take_left]
    rw [hlength, envelopeOverheadBytes, replayOffset]
    omega
  have hpos := List.length_pos_iff.mpr hextra
  rw [hfield, ← hlength, List.length_append] at hlonger
  omega

theorem fromEnvelopeBytes_relengthed {recovery' : EngineRecoveryPoint} {field : List UInt8}
    (hwidth : field.length = 4) (hfield : field ≠ bytesAt encoded replayLengthOffset 4)
    (h : fromEnvelopeBytes sha256 encoded config = .ok recovery) :
    fromEnvelopeBytes sha256
      (encoded.take replayLengthOffset ++ (field ++ encoded.drop replayOffset)) config ≠
        .ok recovery' := by
  intro hreplaced
  have hlength := length_of_fromEnvelopeBytes h
  have hsame := length_of_fromEnvelopeBytes hreplaced
  have hlong : replayOffset ≤ encoded.length := by
    rw [hlength, envelopeOverheadBytes]
    omega
  have htake : (encoded.take replayLengthOffset).length = replayLengthOffset := by
    rw [List.length_take]
    exact min_eq_left (Nat.le_trans (by decide) hlong)
  have hread : bytesAt (encoded.take replayLengthOffset ++ (field ++ encoded.drop replayOffset))
      replayLengthOffset 4 = field :=
    (bytesAt_of_drop (List.drop_left' htake) hwidth rfl).1
  rw [hread, List.length_append, List.length_append, htake, hwidth, List.length_drop] at hsame
  have hvalue : ofBigEndian field = ofBigEndian (bytesAt encoded replayLengthOffset 4) := by
    have hoffset : replayOffset = replayLengthOffset + 4 := rfl
    omega
  refine hfield ?_
  rw [← bigEndian_ofBigEndian hwidth, hvalue]
  exact bigEndian_ofBigEndian (length_bytesAt hlong)

theorem drop_of_fromEnvelopeBytes (h : fromEnvelopeBytes sha256 encoded config = .ok recovery) :
    encoded.drop (encoded.length - digestBytes) =
      recoveryDigest sha256 (encoded.take (encoded.length - digestBytes)) := by
  obtain ⟨-, -, rfl⟩ := fromEnvelopeBytes_eq_ok.mp h
  have hfields : (recovery.envelope sha256).length - digestBytes =
      recovery.envelopeFields.length := by
    rw [length_envelope, length_envelopeFields, envelopeOverheadBytes]
    omega
  rw [hfields, envelope, List.drop_left, List.take_left]

/-- **Recovery envelopes are canonical.** A byte string is read as a recovery point exactly if the
point is written as that string. Nothing may be appended to an envelope or cut from it, nor its
length field replaced. Two envelopes with the same digest are one, if SHA-256 does not collide on
them. -/
theorem envelope_canonical (sha256 : List UInt8 → Digest) (config : ReplayConfig) :
    (∀ encoded recovery, fromEnvelopeBytes sha256 encoded config = .ok recovery ↔
      recovery.toEnvelopeBytes sha256 config = .ok encoded) ∧
    (∀ recovery : EngineRecoveryPoint, validateReplayConfig config = .ok () →
      recovery.replayBytes.length ≤ config.maxLogBytes.get →
      ∃! encoded, fromEnvelopeBytes sha256 encoded config = .ok recovery) ∧
    (∀ encoded recovery, fromEnvelopeBytes sha256 encoded config = .ok recovery →
      ∀ recovery',
        (∀ extra, extra ≠ [] →
          fromEnvelopeBytes sha256 (encoded ++ extra) config ≠ .ok recovery') ∧
        (∀ n < encoded.length, fromEnvelopeBytes sha256 (encoded.take n) config ≠ .ok recovery') ∧
        ∀ field, field.length = 4 → field ≠ bytesAt encoded replayLengthOffset 4 →
          fromEnvelopeBytes sha256
            (encoded.take replayLengthOffset ++ (field ++ encoded.drop replayOffset)) config ≠
              .ok recovery') ∧
    ∀ left leftPoint right rightPoint,
      fromEnvelopeBytes sha256 left config = .ok leftPoint →
      fromEnvelopeBytes sha256 right config = .ok rightPoint →
      (recoveryDigest sha256 (left.take (left.length - digestBytes)) =
          recoveryDigest sha256 (right.take (right.length - digestBytes)) →
        left.take (left.length - digestBytes) = right.take (right.length - digestBytes)) →
      left.drop (left.length - digestBytes) = right.drop (right.length - digestBytes) →
      left = right := by
  refine ⟨?_, ?_, ?_, ?_⟩
  · intro encoded recovery
    rw [fromEnvelopeBytes_eq_ok, toEnvelopeBytes_eq_ok]
  · intro recovery hvalid hfits
    refine ⟨recovery.envelope sha256, fromEnvelopeBytes_envelope hvalid hfits, ?_⟩
    intro encoded h
    exact (fromEnvelopeBytes_eq_ok.mp h).2.2
  · intro encoded recovery h recovery'
    refine ⟨fun extra hextra => fromEnvelopeBytes_append hextra h, ?_,
      fun field hwidth hfield => fromEnvelopeBytes_relengthed hwidth hfield h⟩
    -- what is cut off would follow an envelope
    intro n hn htake
    have hcut : encoded.drop n ≠ [] := by
      rw [Ne, List.drop_eq_nil_iff]
      omega
    rw [← List.take_append_drop n encoded] at h
    exact fromEnvelopeBytes_append hcut htake h
  · intro left leftPoint right rightPoint hleft hright hsha hdigest
    have hfields := hsha (by
      rw [← drop_of_fromEnvelopeBytes hleft, ← drop_of_fromEnvelopeBytes hright, hdigest])
    rw [← List.take_append_drop (left.length - digestBytes) left, hfields, hdigest,
      List.take_append_drop]

def tailSha256 (bytes : List UInt8) : Digest := .ofFn fun i => bytes.reverse.getD i 0

def emptyRecovery : EngineRecoveryPoint := ⟨replayHeader, .lit 1⟩

theorem envelope_canonical_sample :
    (∃ encoded, emptyRecovery.toEnvelopeBytes tailSha256 .default = .ok encoded ∧
      fromEnvelopeBytes tailSha256 encoded .default = .ok emptyRecovery) ∧
    ∃! encoded, fromEnvelopeBytes tailSha256 encoded .default = .ok emptyRecovery := by
  obtain ⟨hinverse, hunique, -, -⟩ := envelope_canonical tailSha256 .default
  have h := hunique emptyRecovery rfl (by decide)
  obtain ⟨encoded, hread⟩ := h.exists
  exact ⟨⟨encoded, (hinverse encoded emptyRecovery).mp hread, hread⟩, h⟩

end

end EngineRecoveryPoint

end Cogniform
