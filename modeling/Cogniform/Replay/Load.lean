import Cogniform.Lib.Scan
import Cogniform.Replay.Log

/-!
# Loading a replay stream

`loadPrefix` reads a stream frame by frame. Every frame has to fit the bounds, decode, re-encode to
the same bytes and continue the chain; the first one that does not ends the loaded prefix and is
reported as its tail. Each reader is characterised by an equation between byte strings: it returns a
value exactly when the input starts with the encoding of that value.
-/

namespace Cogniform

/-! ### Readers -/

def readBytes (length : ℕ) (rest : List UInt8) :
    Exec ReplayTailErrorKind (List UInt8 × List UInt8) :=
  if length ≤ rest.length then .ok (rest.take length, rest.drop length)
  else Exec.fail .malformedEntry

def readUnsigned (width : ℕ) (rest : List UInt8) :
    Exec ReplayTailErrorKind (ℕ × List UInt8) := do
  let (bytes, rest) ← readBytes width rest
  .ok (ofBigEndian bytes, rest)

def readU16 (rest : List UInt8) : Exec ReplayTailErrorKind (ℕ × List UInt8) := readUnsigned 2 rest

def readU32 (rest : List UInt8) : Exec ReplayTailErrorKind (ℕ × List UInt8) := readUnsigned 4 rest

def readU64 (rest : List UInt8) : Exec ReplayTailErrorKind (UInt64 × List UInt8) := do
  let (value, rest) ← readUnsigned 8 rest
  .ok (.ofNat value, rest)

def readDigest (rest : List UInt8) : Exec ReplayTailErrorKind (Digest × List UInt8) := do
  let (bytes, rest) ← readBytes 32 rest
  if h : bytes.length = 32 then .ok (⟨bytes.toArray, by simpa using h⟩, rest)
  else Exec.fail .malformedEntry

section Readers

variable {rest rest' : List UInt8}

theorem readBytes_eq_ok {length : ℕ} {bytes : List UInt8} :
    readBytes length rest = .ok (bytes, rest') ↔ rest = bytes ++ rest' ∧ bytes.length = length := by
  rw [readBytes]
  constructor
  · intro h
    split at h
    · cases h
      exact ⟨(List.take_append_drop length rest).symm, by rw [List.length_take]; omega⟩
    · cases h
  · rintro ⟨rfl, rfl⟩
    rw [if_pos (by simp), List.take_left, List.drop_left]

theorem readUnsigned_eq_ok {width value : ℕ} :
    readUnsigned width rest = .ok (value, rest') ↔
      rest = bigEndian width value ++ rest' ∧ value < 256 ^ width := by
  rw [readUnsigned, Exec.bind_eq_ok]
  constructor
  · rintro ⟨⟨bytes, tail⟩, hread, h⟩
    obtain ⟨rfl, rfl⟩ := readBytes_eq_ok.mp hread
    cases h
    exact ⟨by rw [bigEndian_ofBigEndian rfl], ofBigEndian_lt bytes⟩
  · rintro ⟨rfl, hvalue⟩
    exact ⟨(bigEndian width value, rest'), readBytes_eq_ok.mpr ⟨rfl, length_bigEndian ..⟩,
      by simp only [ofBigEndian_bigEndian hvalue]⟩

theorem readU64_eq_ok {value : UInt64} :
    readU64 rest = .ok (value, rest') ↔ rest = bigEndian 8 value.toNat ++ rest' := by
  rw [readU64, Exec.bind_eq_ok]
  constructor
  · rintro ⟨⟨number, tail⟩, hread, h⟩
    obtain ⟨rfl, hnumber⟩ := readUnsigned_eq_ok.mp hread
    cases h
    rw [UInt64.toNat_ofNat_of_lt' hnumber]
  · rintro rfl
    exact ⟨(value.toNat, rest'), readUnsigned_eq_ok.mpr ⟨rfl, value.toNat_lt⟩, by simp⟩

theorem readDigest_eq_ok {digest : Digest} :
    readDigest rest = .ok (digest, rest') ↔ rest = digest.toList ++ rest' := by
  rw [readDigest, Exec.bind_eq_ok]
  constructor
  · rintro ⟨⟨bytes, tail⟩, hread, h⟩
    obtain ⟨rfl, hlength⟩ := readBytes_eq_ok.mp hread
    simp only [hlength, dite_true] at h
    cases h
    rfl
  · rintro rfl
    refine ⟨(digest.toList, rest'), readBytes_eq_ok.mpr ⟨rfl, digest.length_toList⟩, ?_⟩
    simp only [digest.length_toList, dite_true]
    rfl

end Readers

/-! ### One entry -/

def decodeEntry (ext : Externals) (limits : RuntimeLimits) (encoded : List UInt8) :
    Exec ReplayTailErrorKind ReplayEntry :=
  if encoded.length < fixedEntryBodyBytes then Exec.fail .malformedEntry
  else do
    let (version, rest) ← readU16 encoded
    if version ≠ 1 then Exec.fail .malformedEntry
    else
      let (sequence, rest) ← readU64 rest
      let (frame, rest) ← readU64 rest
      let estimatedVisibleFrame ← Exec.okOr .malformedEntry (FrameId.new? frame)
      let (previousRevision, rest) ← readU64 rest
      let (newRevision, rest) ← readU64 rest
      let (previousSceneHash, rest) ← readDigest rest
      let (newSceneHash, rest) ← readDigest rest
      let (previousEntryHash, rest) ← readDigest rest
      let (patchLen, rest) ← readU32 rest
      if rest.length ≠ patchLen + 32 then Exec.fail .malformedEntry
      else
        let (patchBytes, rest) ← readBytes patchLen rest
        let (entryHash, _) ← readDigest rest
        let patch ← (Exec.ofExcept (ScenePatch.fromJson ext.patchJson patchBytes limits)).mapError
          .invalidPatch
        let canonical ← (Exec.ofExcept (patch.toCanonicalJson ext.patchJson limits)).mapError
          .invalidPatch
        if canonical ≠ patchBytes then Exec.fail .nonCanonicalPatch
        else
          .ok ⟨sequence, patch, patchBytes, estimatedVisibleFrame, ⟨previousRevision⟩,
            ⟨newRevision⟩, previousSceneHash, newSceneHash, previousEntryHash, entryHash⟩

structure ReplayEntry.Canonical (ext : Externals) (limits : RuntimeLimits) (entry : ReplayEntry) :
    Prop where
  decodes : ScenePatch.fromJson ext.patchJson entry.patchBytes limits = .ok entry.patch
  encodes : entry.patch.toCanonicalJson ext.patchJson limits = .ok entry.patchBytes

theorem FrameId.new?_eq_some {value : UInt64} {frame : FrameId} :
    FrameId.new? value = some frame ↔ frame.get = value := by
  obtain ⟨get, hget⟩ := frame
  rw [FrameId.new?]
  constructor
  · intro h
    split at h
    · cases h
      rfl
    · cases h
  · rintro rfl
    rw [dif_pos hget]

theorem ReplayEntry.bodyBytes_eq (entry : ReplayEntry) :
    entry.bodyBytes = bigEndian 2 1 ++ (bigEndian 8 entry.sequence.toNat
      ++ (bigEndian 8 entry.estimatedVisibleFrame.get.toNat
      ++ (bigEndian 8 entry.previousRevision.get.toNat
      ++ (bigEndian 8 entry.newRevision.get.toNat ++ (entry.previousSceneHash.toList
      ++ (entry.newSceneHash.toList ++ (entry.previousEntryHash.toList
      ++ (bigEndian 4 entry.patchBytes.length
      ++ (entry.patchBytes ++ (entry.entryHash.toList ++ [])))))))))) := by
  simp only [bodyBytes, leadBytes, List.append_assoc, List.append_nil]

section Decode

variable {ext : Externals} {limits : RuntimeLimits} {entry : ReplayEntry}

theorem decodeEntry_sound {body : List UInt8} (h : decodeEntry ext limits body = .ok entry) :
    body = entry.bodyBytes ∧ entry.patchBytes.length < 2 ^ 32 ∧ entry.Canonical ext limits := by
  rw [decodeEntry] at h
  split at h
  · cases h
  obtain ⟨⟨version, r₁⟩, hversion, h⟩ := Exec.bind_eq_ok.mp h
  dsimp only at h
  split at h
  · cases h
  rename_i hone
  obtain ⟨⟨sequence, r₂⟩, hsequence, h⟩ := Exec.bind_eq_ok.mp h
  obtain ⟨⟨frame, r₃⟩, hframe, h⟩ := Exec.bind_eq_ok.mp h
  obtain ⟨visible, hvisible, h⟩ := Exec.bind_eq_ok.mp h
  obtain ⟨⟨previousRevision, r₄⟩, hprevious, h⟩ := Exec.bind_eq_ok.mp h
  obtain ⟨⟨newRevision, r₅⟩, hnew, h⟩ := Exec.bind_eq_ok.mp h
  obtain ⟨⟨previousSceneHash, r₆⟩, hpreviousScene, h⟩ := Exec.bind_eq_ok.mp h
  obtain ⟨⟨newSceneHash, r₇⟩, hnewScene, h⟩ := Exec.bind_eq_ok.mp h
  obtain ⟨⟨previousEntryHash, r₈⟩, hpreviousEntry, h⟩ := Exec.bind_eq_ok.mp h
  obtain ⟨⟨patchLen, r₉⟩, hpatchLen, h⟩ := Exec.bind_eq_ok.mp h
  dsimp only at h
  split at h
  · cases h
  rename_i hremaining
  obtain ⟨⟨patchBytes, r₁₀⟩, hpatchBytes, h⟩ := Exec.bind_eq_ok.mp h
  obtain ⟨⟨entryHash, r₁₁⟩, hentryHash, h⟩ := Exec.bind_eq_ok.mp h
  obtain ⟨patch, hpatch, h⟩ := Exec.bind_eq_ok.mp h
  obtain ⟨canonical, hcanonical, h⟩ := Exec.bind_eq_ok.mp h
  dsimp only at h
  split at h
  · cases h
  rename_i hsame
  cases h
  rw [Decidable.not_not] at hone hremaining hsame
  rw [Exec.mapError_eq_ok, Exec.ofExcept_eq_ok] at hpatch hcanonical
  rw [Exec.okOr_eq_ok, FrameId.new?_eq_some] at hvisible
  obtain ⟨hbody, -⟩ := readUnsigned_eq_ok.mp hversion
  obtain ⟨hlen, hlt⟩ := readUnsigned_eq_ok.mp hpatchLen
  obtain ⟨hbytes, hlength⟩ := readBytes_eq_ok.mp hpatchBytes
  rw [readU64_eq_ok] at hsequence hframe hprevious hnew
  rw [readDigest_eq_ok] at hpreviousScene hnewScene hpreviousEntry hentryHash
  dsimp only at *
  -- nothing follows the digest: the remaining length was checked
  have hend : r₁₁ = [] := by
    rw [hbytes, hentryHash, List.length_append, List.length_append, hlength,
      Vector.length_toList] at hremaining
    exact List.length_eq_zero_iff.mp (by omega)
  refine ⟨?_, hlength.trans_lt hlt, hpatch, by rw [hcanonical, hsame]⟩
  subst hbody hsequence hframe hprevious hnew hpreviousScene hnewScene hpreviousEntry hlen hbytes
  subst hentryHash hend hone hlength hvisible
  rw [ReplayEntry.bodyBytes_eq]

theorem decodeEntry_complete (hlength : entry.patchBytes.length < 2 ^ 32)
    (hcanonical : entry.Canonical ext limits) :
    decodeEntry ext limits entry.bodyBytes = .ok entry := by
  have hbody : ¬ entry.bodyBytes.length < fixedEntryBodyBytes := by
    rw [entry.length_bodyBytes]
    omega
  rw [decodeEntry, if_neg hbody, entry.bodyBytes_eq, readU16,
    readUnsigned_eq_ok.mpr ⟨rfl, by decide⟩, Exec.ok_bind]
  dsimp only
  rw [if_neg (by simp), readU64_eq_ok.mpr rfl, Exec.ok_bind]
  dsimp only
  rw [readU64_eq_ok.mpr rfl, Exec.ok_bind]
  dsimp only
  rw [FrameId.new?_eq_some.mpr rfl, Exec.okOr_some, Exec.ok_bind, readU64_eq_ok.mpr rfl,
    Exec.ok_bind]
  dsimp only
  rw [readU64_eq_ok.mpr rfl, Exec.ok_bind]
  dsimp only
  rw [readDigest_eq_ok.mpr rfl, Exec.ok_bind]
  dsimp only
  rw [readDigest_eq_ok.mpr rfl, Exec.ok_bind]
  dsimp only
  rw [readDigest_eq_ok.mpr rfl, Exec.ok_bind]
  dsimp only
  rw [readU32, readUnsigned_eq_ok.mpr ⟨rfl, hlength⟩, Exec.ok_bind]
  dsimp only
  rw [if_neg (by simp), readBytes_eq_ok.mpr ⟨rfl, rfl⟩, Exec.ok_bind]
  dsimp only
  rw [readDigest_eq_ok.mpr rfl, Exec.ok_bind]
  dsimp only
  rw [hcanonical.decodes, Exec.ofExcept, Exec.mapError_ok, Exec.ok_bind, hcanonical.encodes,
    Exec.ofExcept, Exec.mapError_ok, Exec.ok_bind, if_neg (by simp)]

theorem readBytes_returns (length : ℕ) (rest : List UInt8) : (readBytes length rest).Returns := by
  rw [readBytes]
  split
  · exact .ok _
  · exact .fail _

theorem readUnsigned_returns (width : ℕ) (rest : List UInt8) :
    (readUnsigned width rest).Returns :=
  .bind (readBytes_returns width rest) fun _ _ => .ok _

theorem readU64_returns (rest : List UInt8) : (readU64 rest).Returns :=
  .bind (readUnsigned_returns 8 rest) fun _ _ => .ok _

theorem readDigest_returns (rest : List UInt8) : (readDigest rest).Returns := by
  refine .bind (readBytes_returns 32 rest) fun _ _ => ?_
  dsimp only
  split
  · exact .ok _
  · exact .fail _

theorem decodeEntry_returns (body : List UInt8) : (decodeEntry ext limits body).Returns := by
  rw [decodeEntry]
  split
  · exact .fail _
  refine .bind (readUnsigned_returns 2 body) fun _ _ => ?_
  dsimp only
  split
  · exact .fail _
  refine .bind (readU64_returns _) fun _ _ => .bind (readU64_returns _) fun _ _ =>
    .bind (.okOr _ _) fun _ _ => .bind (readU64_returns _) fun _ _ =>
    .bind (readU64_returns _) fun _ _ => .bind (readDigest_returns _) fun _ _ =>
    .bind (readDigest_returns _) fun _ _ => .bind (readDigest_returns _) fun _ _ =>
    .bind (readUnsigned_returns 4 _) fun _ _ => ?_
  split
  · exact .fail _
  refine .bind (readBytes_returns _ _) fun _ _ => .bind (readDigest_returns _) fun _ _ =>
    .bind (.mapError _ (.ofExcept _)) fun _ _ => .bind (.mapError _ (.ofExcept _)) fun _ _ => ?_
  split
  · exact .fail _
  · exact .ok _

theorem checkEntry_returns {entryIndex : ℕ} (link : ReplayLink) (hindex : entryIndex < 2 ^ 32)
    (hlength : entry.patchBytes.length < 2 ^ 32) :
    (checkEntry ext entryIndex link entry).Returns := by
  rw [checkEntry, if_neg (Nat.not_le.mpr hindex)]
  split
  · exact .fail _
  split
  · exact .fail _
  split
  · exact .fail _
  split
  · exact .fail _
  rw [ReplayEntry.computeHash, ReplayEntry.hashFields, lengthBytes, if_pos hlength]
  simp only [Exec.ok_bind]
  split
  · exact .fail _
  · exact .ok _

end Decode

/-! ### The loop -/

structure ReplayLoad where
  log : ReplayLog
  tail : Option ReplayTailError
  deriving DecidableEq

def ReplayLoad.withTail {ε : Type} (log : ReplayLog) (offset : ℕ) (kind : ReplayTailErrorKind) :
    Exec ε ReplayLoad :=
  if 2 ^ 32 ≤ log.entries.length then .error (.panic "configured replay entry bound fits u32")
  else .ok ⟨log, some ⟨log.entries.length, offset, kind⟩⟩

def loadFrame (ext : Externals) (config : ReplayConfig) (limits : RuntimeLimits)
    (encoded : List UInt8) (log : ReplayLog) (offset : ℕ) :
    Exec ReplayTailErrorKind (ReplayLog × ℕ) :=
  if encoded.length < offset + 4 then Exec.fail .truncated
  else
    let bodyLen := ofBigEndian ((encoded.drop offset).take 4)
    let framedLen := bodyLen + 4
    if config.maxEntryBytes.get < framedLen then Exec.fail .entrySizeExceeded
    else if config.maxEntries.get ≤ log.entries.length then Exec.fail .entryCapacityExceeded
    else
      let bodyEnd := offset + 4 + bodyLen
      if encoded.length < bodyEnd then Exec.fail .truncated
      else do
        let entry ← decodeEntry ext limits ((encoded.drop (offset + 4)).take bodyLen)
        (log.verifyNext ext entry).mapError fun error => .integrity error.kind
        .ok ({ log with
          entries := log.entries ++ [entry]
          encodedBytes := satAdd log.encodedBytes framedLen }, bodyEnd)

def ReplayLog.loadPrefix {ε : Type} (ext : Externals) (encoded : List UInt8)
    (config : ReplayConfig) (limits : RuntimeLimits) : Exec ε ReplayLoad :=
  match config.validate with
  | .error error => ReplayLoad.withTail (.new config) 0 (.invalidConfig error)
  | .ok () =>
    if config.maxLogBytes.get < encoded.length then ReplayLoad.withTail (.new config) 0 .logSizeExceeded
    else if encoded.take 8 ≠ replayHeader then ReplayLoad.withTail (.new config) 0 .invalidHeader
    else do
      let (log, offset, tail) ← scan encoded.length (loadFrame ext config limits encoded)
        (encoded.length + 1) (.new config) 8
      match tail with
      | none => .ok ⟨log, none⟩
      | some kind => ReplayLoad.withTail log offset kind

/-- The entry could follow the log at this position of the stream: its frame is there, it is within
the bounds, its patch is canonical and it continues the chain. -/
structure Acceptable (ext : Externals) (config : ReplayConfig) (limits : RuntimeLimits)
    (encoded : List UInt8) (log : ReplayLog) (offset : ℕ) (entry : ReplayEntry) : Prop where
  frame : ∃ frame, (entry.encodeInto : Exec Empty (List UInt8)) = .ok frame ∧
    frame <+: encoded.drop offset
  size : entry.encodedBytes ≤ config.maxEntryBytes.get
  capacity : log.entries.length < config.maxEntries.get
  canonical : entry.Canonical ext limits
  linked : log.verifyNext ext entry = .ok ()

section Frame

variable {ext : Externals} {config : ReplayConfig} {limits : RuntimeLimits}
  {encoded : List UInt8} {log log' : ReplayLog} {offset next : ℕ} {entry : ReplayEntry}

theorem ReplayEntry.fits_of_size (h : entry.encodedBytes ≤ config.maxEntryBytes.get) :
    entry.Fits := by
  have hlt := config.maxEntryBytes.lt
  rw [encodedBytes, entryEnvelopeBytes] at h
  rw [Fits]
  omega

theorem Acceptable.prefix_drop (h : Acceptable ext config limits encoded log offset entry) :
    entry.frameBytes <+: encoded.drop offset := by
  obtain ⟨frame, hframe, hprefix⟩ := h.frame
  rw [(ReplayEntry.fits_of_size h.size).encodeInto, Except.ok.injEq] at hframe
  rwa [hframe]

theorem frame_parts (hfits : entry.Fits) (h : entry.frameBytes <+: encoded.drop offset) :
    offset + entry.encodedBytes ≤ encoded.length ∧
      ofBigEndian ((encoded.drop offset).take 4) =
        fixedEntryBodyBytes + entry.patchBytes.length ∧
      (encoded.drop (offset + 4)).take (fixedEntryBodyBytes + entry.patchBytes.length) =
        entry.bodyBytes := by
  obtain ⟨rest, hrest⟩ := h
  have hlength := congrArg List.length hrest
  rw [List.length_append, entry.length_frameBytes, List.length_drop] at hlength
  have hpos := entry.encodedBytes_pos
  have hdrop : encoded.drop (offset + 4) = entry.bodyBytes ++ rest := by
    rw [← List.drop_drop, ← hrest, ReplayEntry.frameBytes, List.append_assoc,
      List.drop_left' (length_bigEndian ..)]
  refine ⟨by omega, ?_, ?_⟩
  · rw [← hrest, ReplayEntry.frameBytes, List.append_assoc,
      List.take_left' (length_bigEndian ..), ofBigEndian_bigEndian hfits]
  · rw [hdrop, List.take_left' entry.length_bodyBytes]

theorem loadFrame_of_acceptable (h : Acceptable ext config limits encoded log offset entry) :
    loadFrame ext config limits encoded log offset =
      .ok (log.append entry, offset + entry.encodedBytes) := by
  have hfits := ReplayEntry.fits_of_size h.size
  obtain ⟨hend, hnumber, hbody⟩ := frame_parts hfits h.prefix_drop
  have hsize := h.size
  have hcapacity := h.capacity
  have hframed : fixedEntryBodyBytes + entry.patchBytes.length + 4 = entry.encodedBytes := by
    rw [ReplayEntry.encodedBytes, entryEnvelopeBytes]
    omega
  have hstop : offset + 4 + (fixedEntryBodyBytes + entry.patchBytes.length) =
      offset + entry.encodedBytes := by omega
  rw [loadFrame, if_neg (by omega)]
  simp only [hnumber, hframed, hstop, hbody]
  rw [if_neg (by omega), if_neg (by omega), if_neg (by omega),
    decodeEntry_complete hfits.patchBytes_lt h.canonical, Exec.ok_bind, h.linked,
    Exec.mapError_ok, Exec.ok_bind]
  rfl

theorem loadFrame_ok (h : loadFrame ext config limits encoded log offset = .ok (log', next)) :
    ∃ entry, Acceptable ext config limits encoded log offset entry ∧ log' = log.append entry ∧
      next = offset + entry.encodedBytes := by
  rw [loadFrame] at h
  split at h
  · cases h
  rename_i hfour
  dsimp only at h
  split at h
  · cases h
  rename_i hsize
  split at h
  · cases h
  rename_i hcapacity
  split at h
  · cases h
  rename_i hend
  obtain ⟨entry, hentry, h⟩ := Exec.bind_eq_ok.mp h
  obtain ⟨_, hlinked, h⟩ := Exec.bind_eq_ok.mp h
  rw [Exec.mapError_eq_ok] at hlinked
  obtain ⟨hbody, hlength, hcanonical⟩ := decodeEntry_sound hentry
  -- the length field is the length of the body that was decoded
  have hbodyLen : ofBigEndian ((encoded.drop offset).take 4) =
      fixedEntryBodyBytes + entry.patchBytes.length := by
    have := congrArg List.length hbody
    rw [List.length_take, List.length_drop, entry.length_bodyBytes] at this
    omega
  have hframed : entry.encodedBytes = ofBigEndian ((encoded.drop offset).take 4) + 4 := by
    rw [hbodyLen, ReplayEntry.encodedBytes, entryEnvelopeBytes]
    omega
  have hbound : entry.encodedBytes ≤ config.maxEntryBytes.get := by omega
  have hfits := ReplayEntry.fits_of_size hbound
  have hfour' : bigEndian 4 (ofBigEndian ((encoded.drop offset).take 4)) =
      (encoded.drop offset).take 4 :=
    bigEndian_ofBigEndian (by rw [List.length_take, List.length_drop]; omega)
  have hprefix : entry.frameBytes <+: encoded.drop offset := by
    refine ⟨(encoded.drop (offset + 4)).drop (ofBigEndian ((encoded.drop offset).take 4)), ?_⟩
    rw [ReplayEntry.frameBytes, ← hbodyLen, hfour', ← hbody, List.append_assoc,
      List.take_append_drop, ← List.drop_drop, List.take_append_drop]
  cases h
  refine ⟨entry, ⟨⟨_, hfits.encodeInto, hprefix⟩, hbound, by omega, hcanonical, hlinked⟩, ?_, ?_⟩
  · rw [ReplayLog.append, hframed]
  · omega

theorem loadFrame_returns (log : ReplayLog) (offset : ℕ) :
    (loadFrame ext config limits encoded log offset).Returns := by
  rw [loadFrame]
  split
  · exact .fail _
  dsimp only
  split
  · exact .fail _
  split
  · exact .fail _
  rename_i hcapacity
  split
  · exact .fail _
  refine .bind (decodeEntry_returns _) fun entry hentry => .bind (.mapError _ ?_) fun _ _ => .ok _
  have hlt := config.maxEntries.lt
  exact checkEntry_returns _ (by omega) (decodeEntry_sound hentry).2.1

theorem frame_unique {other : ReplayEntry} {bytes : List UInt8} (hfits : entry.Fits)
    (hfits' : other.Fits) (hcanonical : entry.Canonical ext limits)
    (hcanonical' : other.Canonical ext limits) (h : entry.frameBytes <+: bytes)
    (h' : other.frameBytes <+: bytes) : entry = other := by
  obtain ⟨-, hnumber, hbody⟩ := frame_parts hfits (show entry.frameBytes <+: bytes.drop 0 from h)
  obtain ⟨-, hnumber', hbody'⟩ :=
    frame_parts hfits' (show other.frameBytes <+: bytes.drop 0 from h')
  rw [← hnumber, hnumber', hbody'] at hbody
  have hdecode := decodeEntry_complete hfits.patchBytes_lt hcanonical
  rw [← hbody, decodeEntry_complete hfits'.patchBytes_lt hcanonical', Except.ok.injEq] at hdecode
  exact hdecode.symm

end Frame

/-! ### The loaded prefix -/

structure ValidEntries (ext : Externals) (config : ReplayConfig) (limits : RuntimeLimits)
    (entries : List ReplayEntry) : Prop where
  chained : Chained ext entries
  canonical : ∀ entry ∈ entries, entry.Canonical ext limits
  size : ∀ entry ∈ entries, entry.encodedBytes ≤ config.maxEntryBytes.get
  capacity : entries.length ≤ config.maxEntries.get

section Loaded

variable {ext : Externals} {config : ReplayConfig} {limits : RuntimeLimits}
  {encoded : List UInt8} {log : ReplayLog} {offset : ℕ} {entries : List ReplayEntry}
  {entry : ReplayEntry}

theorem ValidEntries.nil : ValidEntries ext config limits [] :=
  ⟨.nil, by simp, by simp, Nat.zero_le _⟩

theorem ValidEntries.fits (h : ValidEntries ext config limits entries) :
    ∀ entry ∈ entries, entry.Fits :=
  fun entry hentry => ReplayEntry.fits_of_size (h.size entry hentry)

theorem ValidEntries.length_lt (h : ValidEntries ext config limits entries) :
    entries.length < 2 ^ 32 := h.capacity.trans_lt config.maxEntries.lt

theorem ValidEntries.append (h : ValidEntries ext config limits entries)
    (hlinked : checkEntry ext entries.length (.after entries) entry = .ok ())
    (hcanonical : entry.Canonical ext limits)
    (hsize : entry.encodedBytes ≤ config.maxEntryBytes.get)
    (hcapacity : entries.length < config.maxEntries.get) :
    ValidEntries ext config limits (entries ++ [entry]) := by
  refine ⟨h.chained.append hlinked, fun other hother => ?_, fun other hother => ?_, ?_⟩
  · rcases List.mem_append.mp hother with hother | hother
    · exact h.canonical other hother
    · rwa [List.mem_singleton.mp hother]
  · rcases List.mem_append.mp hother with hother | hother
    · exact h.size other hother
    · rwa [List.mem_singleton.mp hother]
  · rw [List.length_append]
    exact hcapacity

theorem ValidEntries.take (h : ValidEntries ext config limits entries) (count : ℕ) :
    ValidEntries ext config limits (entries.take count) := by
  refine ⟨?_, fun entry hentry => h.canonical entry (List.mem_of_mem_take hentry),
    fun entry hentry => h.size entry (List.mem_of_mem_take hentry),
    (List.length_take_le' ..).trans h.capacity⟩
  have hchained := h.chained
  rw [← List.take_append_drop count entries] at hchained
  exact hchained.left

theorem ValidEntries.init (h : ValidEntries ext config limits (entries ++ [entry])) :
    ValidEntries ext config limits entries ∧
      checkEntry ext entries.length (.after entries) entry = .ok () ∧
      entry.Canonical ext limits ∧ entry.encodedBytes ≤ config.maxEntryBytes.get ∧
      entries.length < config.maxEntries.get := by
  have hcapacity := h.capacity
  rw [List.length_append, List.length_singleton] at hcapacity
  obtain ⟨hinit, hentry⟩ := h.chained.init
  exact ⟨⟨hinit, fun other hother => h.canonical other (List.mem_append_left _ hother),
    fun other hother => h.size other (List.mem_append_left _ hother), by omega⟩, hentry,
    h.canonical entry (by simp), h.size entry (by simp), hcapacity⟩

structure Loaded (ext : Externals) (config : ReplayConfig) (limits : RuntimeLimits)
    (encoded : List UInt8) (log : ReplayLog) (offset : ℕ) : Prop where
  config_eq : log.config = config
  valid : ValidEntries ext config limits log.entries
  size : log.encodedBytes = offset
  stream : replayHeader ++ framesBytes log.entries = encoded.take offset
  le : offset ≤ encoded.length

theorem Loaded.append (h : Loaded ext config limits encoded log offset)
    (hencoded : encoded.length < 2 ^ 32)
    (hentry : Acceptable ext config limits encoded log offset entry) :
    Loaded ext config limits encoded (log.append entry) (offset + entry.encodedBytes) := by
  have hprefix := hentry.prefix_drop
  have hle := (frame_parts (ReplayEntry.fits_of_size hentry.size) hprefix).1
  refine ⟨h.config_eq, h.valid.append hentry.linked hentry.canonical hentry.size hentry.capacity,
    ?_, ?_, hle⟩
  · change satAdd log.encodedBytes entry.encodedBytes = _
    rw [h.size, satAdd]
    omega
  · change replayHeader ++ framesBytes (log.entries ++ [entry]) = _
    have hframe : framesBytes [entry] = entry.frameBytes := by simp [framesBytes]
    rw [framesBytes_append, ← List.append_assoc, h.stream, hframe, List.take_add,
      ← entry.length_frameBytes, List.prefix_iff_eq_take.mp hprefix]
    simp

theorem loadPrefix_eq {ε : Type} (hconfig : config.validate = .ok ())
    (hsize : encoded.length ≤ config.maxLogBytes.get) (hheader : encoded.take 8 = replayHeader) :
    ∃ log offset tail,
      (ReplayLog.loadPrefix ext encoded config limits : Exec ε ReplayLoad) = .ok ⟨log, tail⟩ ∧
      Loaded ext config limits encoded log offset ∧
      match tail with
      | none => offset = encoded.length
      | some error => error.offset = offset ∧ error.verifiedEntries = log.entries.length ∧
        offset < encoded.length ∧
        loadFrame ext config limits encoded log offset = Exec.fail error.kind := by
  have hencoded : encoded.length < 2 ^ 32 := hsize.trans_lt config.maxLogBytes.lt
  have height : 8 ≤ encoded.length := by
    have := congrArg List.length hheader
    rw [List.length_take, length_replayHeader] at this
    omega
  have hstart : Loaded ext config limits encoded (.new config) 8 :=
    ⟨rfl, .nil, length_replayHeader, by
      rw [hheader]
      exact List.append_nil _, height⟩
  have hstep : ∀ log offset, Loaded ext config limits encoded log offset → offset < encoded.length →
      (∃ log' next, loadFrame ext config limits encoded log offset = .ok (log', next) ∧
        offset < next ∧ Loaded ext config limits encoded log' next) ∨
      ∃ kind, loadFrame ext config limits encoded log offset = Exec.fail kind := by
    intro log offset h _
    have hreturns : (loadFrame ext config limits encoded log offset).Returns :=
      loadFrame_returns log offset
    rcases hreturns with ⟨⟨log', next⟩, hok⟩ | hfail
    · obtain ⟨entry, hentry, rfl, rfl⟩ := loadFrame_ok hok
      have hpos := entry.encodedBytes_pos
      exact .inl ⟨_, _, hok, by omega, h.append hencoded hentry⟩
    · exact .inr hfail
  have hfuel : encoded.length - 8 < encoded.length + 1 := by omega
  obtain ⟨log, offset, tail, hscan, hloaded, hstop⟩ :=
    @scan_spec _ _ ε _ _ (Loaded ext config limits encoded) hstep _ _ _ hfuel hstart
  rw [ReplayLog.loadPrefix, hconfig]
  simp only
  rw [if_neg (Nat.not_lt.mpr hsize), if_neg (by rw [hheader]; simp), hscan, Exec.ok_bind]
  cases tail with
  | none => exact ⟨log, offset, none, rfl, hloaded, Nat.le_antisymm hloaded.le hstop⟩
  | some kind =>
    refine ⟨log, offset, some ⟨log.entries.length, offset, kind⟩, ?_, hloaded, rfl, rfl, hstop⟩
    simp only
    rw [ReplayLoad.withTail, if_neg (Nat.not_le.mpr hloaded.valid.length_lt)]

theorem not_acceptable_of_fail {kind : ReplayTailErrorKind}
    (h : loadFrame ext config limits encoded log offset = Exec.fail kind) (entry : ReplayEntry) :
    ¬ Acceptable ext config limits encoded log offset entry := by
  intro hentry
  rw [loadFrame_of_acceptable hentry] at h
  cases h

theorem not_acceptable_of_length_le (h : encoded.length ≤ offset) (entry : ReplayEntry) :
    ¬ Acceptable ext config limits encoded log offset entry := by
  intro hentry
  have hpos := entry.encodedBytes_pos
  have hend := (frame_parts (ReplayEntry.fits_of_size hentry.size) hentry.prefix_drop).1
  omega

theorem prefix_of_valid (h : Loaded ext config limits encoded log offset)
    (hmaximal : ∀ entry, ¬ Acceptable ext config limits encoded log offset entry) :
    ∀ {entries : List ReplayEntry}, ValidEntries ext config limits entries →
      replayHeader ++ framesBytes entries <+: encoded → entries <+: log.entries := by
  intro entries
  induction entries using List.reverseRecOn with
  | nil => exact fun _ _ => List.nil_prefix
  | append_singleton entries entry ih =>
    intro hvalid hstream
    obtain ⟨hinit, hlinked, hcanonical, hsize, hcapacity⟩ := hvalid.init
    have hframe : framesBytes [entry] = entry.frameBytes := by simp [framesBytes]
    rw [framesBytes_append, hframe, ← List.append_assoc] at hstream
    obtain ⟨more, hmore⟩ := ih hinit ((List.prefix_append _ _).trans hstream)
    -- both logs have a frame right after the entries they share
    obtain ⟨rest, hrest⟩ := hstream
    rw [List.append_assoc] at hrest
    cases more with
    | nil =>
      rw [List.append_nil] at hmore
      subst hmore
      refine absurd ⟨⟨_, (ReplayEntry.fits_of_size hsize).encodeInto, rest, ?_⟩, hsize, hcapacity,
        hcanonical, hlinked⟩ (hmaximal entry)
      have hlength := congrArg List.length h.stream
      rw [List.length_take, Nat.min_eq_left h.le] at hlength
      rw [← hrest, ← hlength, List.drop_left]
    | cons other more =>
      have hother : other ∈ log.entries := by rw [← hmore]; simp
      have hdrop : other.frameBytes <+: encoded.drop (replayHeader ++ framesBytes entries).length := by
        have hsplit : encoded = (replayHeader ++ framesBytes entries) ++
            (other.frameBytes ++ (framesBytes more ++ encoded.drop offset)) := by
          have hstream := h.stream
          rw [← hmore, framesBytes_append] at hstream
          conv_lhs => rw [← List.take_append_drop offset encoded, ← hstream]
          simp [framesBytes]
        rw [hsplit, List.drop_left]
        exact List.prefix_append _ _
      have hentry : entry.frameBytes <+:
          encoded.drop (replayHeader ++ framesBytes entries).length := by
        rw [← hrest, List.drop_left]
        exact List.prefix_append _ _
      have heq := frame_unique (ReplayEntry.fits_of_size hsize) (h.valid.fits other hother)
        hcanonical (h.valid.canonical other hother) hentry hdrop
      subst heq
      exact ⟨more, by rw [← hmore]; simp⟩

/-- **The longest valid prefix.** The loaded log verifies, and its stream is the input up to the
reported tail, or all of it. No entry can be accepted at the tail, and every valid list of entries
whose stream is a prefix of the input is a prefix of the loaded one. -/
theorem loadPrefix_longest (ext : Externals) (encoded : List UInt8) (config : ReplayConfig)
    (limits : RuntimeLimits) (hconfig : config.validate = .ok ())
    (hsize : encoded.length ≤ config.maxLogBytes.get)
    (hheader : encoded.take 8 = replayHeader) :
    ∃ load, (ReplayLog.loadPrefix ext encoded config limits : Exec Empty ReplayLoad) = .ok load ∧
      (∃ verification, load.log.verify ext = .ok verification) ∧
      (∃ bytes, (load.log.toBytes : Exec Empty (List UInt8)) = .ok bytes ∧
        load.log.encodedBytes = bytes.length ∧
        match load.tail with
        | none => bytes = encoded
        | some error => bytes = encoded.take error.offset ∧ error.offset < encoded.length ∧
          error.verifiedEntries = load.log.entries.length ∧
          ∀ entry, ¬ Acceptable ext config limits encoded load.log error.offset entry) ∧
      ∀ entries, ValidEntries ext config limits entries →
        replayHeader ++ framesBytes entries <+: encoded → entries <+: load.log.entries := by
  obtain ⟨log, offset, tail, hload, hloaded, hstop⟩ := loadPrefix_eq hconfig hsize hheader
  refine ⟨⟨log, tail⟩, hload, ⟨_, hloaded.valid.chained.verify hloaded.valid.length_lt⟩,
    ⟨_, toBytes_eq hloaded.valid.fits, ?_, ?_⟩, ?_⟩
  · rw [hloaded.stream, List.length_take, Nat.min_eq_left hloaded.le, hloaded.size]
  · rw [hloaded.stream]
    cases tail with
    | none => rw [hstop, List.take_length]
    | some error =>
      obtain ⟨hoffset, hverified, hlt, hfail⟩ := hstop
      subst hoffset
      exact ⟨rfl, hlt, hverified, not_acceptable_of_fail hfail⟩
  · refine fun entries => prefix_of_valid hloaded ?_
    cases tail with
    | none => exact not_acceptable_of_length_le hstop.ge
    | some error => exact not_acceptable_of_fail hstop.2.2.2

def refusingExternals : Externals where
  sha256 _ := .replicate 32 0
  patchJson := ⟨fun _ => none, fun _ => .error ⟨.data, 1, 1⟩⟩

theorem loadPrefix_longest_torn :
    ∃ load, (ReplayLog.loadPrefix refusingExternals (replayHeader ++ [0, 0]) .default .default :
        Exec Empty ReplayLoad) = .ok load ∧
      ∃ verification, load.log.verify refusingExternals = .ok verification := by
  obtain ⟨load, hload, hverify, -⟩ := loadPrefix_longest refusingExternals
    (replayHeader ++ [0, 0]) .default .default (by decide) (by decide) (by decide)
  exact ⟨load, hload, hverify⟩

end Loaded

end Cogniform
