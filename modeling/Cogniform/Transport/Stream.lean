import Cogniform.Lib.Stream
import Cogniform.Protocol.Serialize
import Cogniform.Transport.Codec

/-!
# Frames on a stream

A reader takes the header of a frame first and then the sections by the lengths it declares, from a
stream that hands out bytes in pieces of its own choosing. What it returns is what decoding the first
frame from a buffer would, and it takes no byte of the next frame.
-/

namespace Cogniform

/-- `read_header`. A stream that ends before the first byte ends cleanly. -/
def readHeader (reader : Reader IoErrorKind) :
    Reader IoErrorKind × Except LocalFrameError (Option (List UInt8)) :=
  match reader.fill localFrameHeaderBytes [] with
  | (rest, .full header) => (rest, .ok (some header))
  | (rest, .ended []) => (rest, .ok none)
  | (rest, .ended bytes) =>
    (rest, .error (.truncated .header localFrameHeaderBytes bytes.length))
  | (rest, .failed kind) => (rest, .error (.io .readHeader kind))

def readSection (reader : Reader IoErrorKind) (length : ℕ) (region : LocalFrameSection)
    (operation : LocalFrameIoOperation) :
    Reader IoErrorKind × Except LocalFrameError (List UInt8) :=
  match reader.fill length [] with
  | (rest, .full bytes) => (rest, .ok bytes)
  | (rest, .ended bytes) => (rest, .error (.truncated region length bytes.length))
  | (rest, .failed kind) => (rest, .error (.io operation kind))

def readFrame (ext : FrameExternals) (config : LocalFrameConfig) (reader : Reader IoErrorKind) :
    Reader IoErrorKind × Except LocalFrameError (Option LocalFrame) :=
  match readHeader reader with
  | (rest, .error error) => (rest, .error error)
  | (rest, .ok none) => (rest, .ok none)
  | (rest, .ok (some headerBytes)) =>
    match parseHeader headerBytes config with
    | .error error => (rest, .error error)
    | .ok header =>
      match readSection rest header.controlBytes .control .readControl with
      | (rest, .error error) => (rest, .error error)
      | (rest, .ok control) =>
        match readSection rest header.bulkBytes .bulk .readBulk with
        | (rest, .error error) => (rest, .error error)
        | (rest, .ok bulk) => (rest, do
          verifyDigest ext headerBytes control bulk
          let frame ← decodeBody ext header.kind header.correlationId control bulk config
          .ok (some frame))

def writeFrame (ext : FrameExternals) (config : LocalFrameConfig)
    (writer : List (WriteEvent IoErrorKind)) (frame : LocalFrame) :
    List UInt8 × Except LocalFrameError Unit :=
  match encodeFrame ext frame config with
  | .error error => ([], .error error)
  | .ok encoded =>
    match Writer.writeAll writer encoded with
    | (taken, .done) => (taken, .ok ())
    | (taken, .zero) => (taken, .error (.io .writeFrame .writeZero))
    | (taken, .failed kind) => (taken, .error (.io .writeFrame kind))

def readFrames (ext : FrameExternals) (config : LocalFrameConfig) :
    ℕ → Reader IoErrorKind → List (Except LocalFrameError (Option LocalFrame) × List UInt8)
  | 0, _ => []
  | n + 1, reader =>
    let (rest, result) := readFrame ext config reader
    (result, rest.stream) :: readFrames ext config n rest

/-! ### Streams -/

section Streams

variable {ext : FrameExternals} {config : LocalFrameConfig} {reader : Reader IoErrorKind}
  {kind : LocalFrameKind} {correlationId : NonZeroU64} {control bulk encoded tail : List UInt8}
  {frame : LocalFrame}

theorem readSection_full (h : reader.Steady) {length : ℕ} (hlength : length ≤ reader.stream.length)
    (region : LocalFrameSection) (operation : LocalFrameIoOperation) :
    ∃ rest, readSection reader length region operation =
        (rest, .ok (reader.stream.take length)) ∧
      rest.Steady ∧ rest.stream = reader.stream.drop length := by
  obtain ⟨rest, hfill, hrest⟩ := Reader.fill_full h [] hlength
  exact ⟨rest, by rw [readSection, hfill]; rfl, hrest⟩

theorem readSection_ended (h : reader.Steady) {length : ℕ} (hlength : reader.stream.length < length)
    (region : LocalFrameSection) (operation : LocalFrameIoOperation) :
    ∃ rest, readSection reader length region operation =
      (rest, .error (.truncated region length reader.stream.length)) := by
  obtain ⟨rest, hfill, -⟩ := Reader.fill_ended h [] hlength
  exact ⟨rest, by rw [readSection, hfill]; rfl⟩

theorem readHeader_full (h : reader.Steady) (hlength : localFrameHeaderBytes ≤ reader.stream.length) :
    ∃ rest, readHeader reader = (rest, .ok (some (reader.stream.take localFrameHeaderBytes))) ∧
      rest.Steady ∧ rest.stream = reader.stream.drop localFrameHeaderBytes := by
  obtain ⟨rest, hfill, hrest⟩ := Reader.fill_full h [] hlength
  exact ⟨rest, by rw [readHeader, hfill]; rfl, hrest⟩

theorem readHeader_empty (h : reader.Steady) (hempty : reader.stream = []) :
    ∃ rest, readHeader reader = (rest, .ok none) ∧ rest.stream = [] := by
  obtain ⟨rest, hfill, -, hrest⟩ :=
    Reader.fill_ended h [] (n := localFrameHeaderBytes) (by rw [hempty]; decide)
  exact ⟨rest, by rw [readHeader, hfill, hempty]; rfl, hrest⟩

theorem readHeader_ended (h : reader.Steady) (hlength : reader.stream.length < localFrameHeaderBytes)
    (hne : reader.stream ≠ []) :
    ∃ rest, readHeader reader =
      (rest, .error (.truncated .header localFrameHeaderBytes reader.stream.length)) := by
  obtain ⟨rest, hfill, -⟩ := Reader.fill_ended h [] hlength
  rw [List.nil_append] at hfill
  refine ⟨rest, ?_⟩
  rw [readHeader, hfill]
  cases hstream : reader.stream with
  | nil => exact absurd hstream hne
  | cons byte bytes => rfl

theorem readFrame_sections (h : reader.Steady)
    (hsections : encodeSections ext kind correlationId control bulk config = .ok encoded)
    (hstream : reader.stream = encoded ++ tail) :
    ∃ rest, readFrame ext config reader =
        (rest, (decodeBody ext kind correlationId control bulk config).map some) ∧
      rest.Steady ∧ rest.stream = tail := by
  obtain ⟨header, hheader, rfl⟩ := exists_header hsections
  obtain ⟨⟨n, hparse⟩, hdigest⟩ := (encodeSections_iff hheader).mp hsections
  rw [List.append_assoc, List.append_assoc] at hstream
  obtain ⟨rest₁, hread₁, hsteady₁, hrest₁⟩ := readHeader_full h
    (by rw [hstream, List.length_append]; omega)
  rw [hstream, ← hheader, List.take_left] at hread₁
  rw [hstream, ← hheader, List.drop_left] at hrest₁
  have hcontrol : control.length ≤ rest₁.stream.length := by
    rw [hrest₁, List.length_append]
    omega
  obtain ⟨rest₂, hread₂, hsteady₂, hrest₂⟩ :=
    readSection_full hsteady₁ hcontrol .control .readControl
  rw [hrest₁, List.take_left] at hread₂
  rw [hrest₁, List.drop_left] at hrest₂
  have hbulk : bulk.length ≤ rest₂.stream.length := by
    rw [hrest₂, List.length_append]
    omega
  obtain ⟨rest₃, hread₃, hsteady₃, hrest₃⟩ := readSection_full hsteady₂ hbulk .bulk .readBulk
  rw [hrest₂, List.take_left] at hread₃
  rw [hrest₂, List.drop_left] at hrest₃
  refine ⟨rest₃, ?_, hsteady₃, hrest₃⟩
  simp only [readFrame, hread₁, hparse, hread₂, hread₃, hdigest]
  cases decodeBody ext kind correlationId control bulk config <;> rfl

theorem readFrame_iff (h : reader.Steady) :
    (∃ rest, readFrame ext config reader = (rest, .ok (some frame)) ∧ rest.stream = tail) ↔
      ∃ encoded, reader.stream = encoded ++ tail ∧ decodeFrame ext encoded config = .ok frame := by
  constructor
  · rintro ⟨rest, hread, rfl⟩
    by_cases hlength : localFrameHeaderBytes ≤ reader.stream.length
    swap
    · by_cases hempty : reader.stream = []
      · obtain ⟨_, hheader, -⟩ := readHeader_empty h hempty
        simp [readFrame, hheader] at hread
      · obtain ⟨_, hheader⟩ := readHeader_ended h (Nat.not_le.mp hlength) hempty
        simp [readFrame, hheader] at hread
    obtain ⟨rest₁, hread₁, hsteady₁, hrest₁⟩ := readHeader_full h hlength
    have hheader : (reader.stream.take localFrameHeaderBytes).length = localFrameHeaderBytes := by
      rw [List.length_take]
      omega
    simp only [readFrame, hread₁] at hread
    split at hread
    · cases hread
    rename_i header hparse
    by_cases hcontrol : header.controlBytes ≤ rest₁.stream.length
    swap
    · obtain ⟨_, hread₂⟩ :=
        readSection_ended hsteady₁ (Nat.not_le.mp hcontrol) .control .readControl
      simp [hread₂] at hread
    obtain ⟨rest₂, hread₂, hsteady₂, hrest₂⟩ :=
      readSection_full hsteady₁ hcontrol .control .readControl
    simp only [hread₂] at hread
    by_cases hbulk : header.bulkBytes ≤ rest₂.stream.length
    swap
    · obtain ⟨_, hread₃⟩ := readSection_ended hsteady₂ (Nat.not_le.mp hbulk) .bulk .readBulk
      simp [hread₃] at hread
    obtain ⟨rest₃, hread₃, -, hrest₃⟩ := readSection_full hsteady₂ hbulk .bulk .readBulk
    simp only [hread₃, Prod.mk.injEq] at hread
    obtain ⟨rfl, hbody⟩ := hread
    obtain ⟨⟨⟩, hdigest, hbody⟩ := Exec.bind_eq_ok.mp hbody
    obtain ⟨decoded, hdecoded, hbody⟩ := Exec.bind_eq_ok.mp hbody
    cases hbody
    refine ⟨reader.stream.take localFrameHeaderBytes ++ (rest₁.stream.take header.controlBytes ++
      rest₂.stream.take header.bulkBytes), ?_, decodeFrame_iff.mpr ⟨header.kind,
        header.correlationId, _, _, (encodeSections_iff hheader).mpr ⟨⟨header.frameBytes, ?_⟩,
          hdigest⟩, hdecoded⟩⟩
    · rw [hrest₃, List.append_assoc, List.append_assoc, List.take_append_drop, hrest₂,
        List.take_append_drop, hrest₁, List.take_append_drop]
    · rw [List.length_take, List.length_take, min_eq_left hcontrol, min_eq_left hbulk]
      exact hparse
  · rintro ⟨encoded, hstream, hdecode⟩
    obtain ⟨kind, correlationId, control, bulk, hsections, hbody⟩ := decodeFrame_iff.mp hdecode
    obtain ⟨rest, hread, -, hrest⟩ := readFrame_sections h hsections hstream
    exact ⟨rest, by rw [hread, hbody]; rfl, hrest⟩

theorem readHeader_of_readFrame_none {rest : Reader IoErrorKind}
    (hread : readFrame ext config reader = (rest, .ok none)) :
    ∃ rest, readHeader reader = (rest, .ok none) := by
  rw [readFrame] at hread
  split at hread
  · cases hread
  · rename_i hheader
    exact ⟨_, hheader⟩
  split at hread
  · cases hread
  split at hread
  · cases hread
  split at hread
  · cases hread
  rw [Prod.mk.injEq] at hread
  obtain ⟨_, -, hbody⟩ := Exec.bind_eq_ok.mp hread.2
  obtain ⟨_, -, hbody⟩ := Exec.bind_eq_ok.mp hbody
  cases hbody

theorem readFrame_none (h : reader.Steady) :
    (∃ rest, readFrame ext config reader = (rest, .ok none)) ↔ reader.stream = [] := by
  constructor
  · rintro ⟨rest, hread⟩
    obtain ⟨_, hheader⟩ := readHeader_of_readFrame_none hread
    by_contra hne
    rcases Nat.lt_or_ge reader.stream.length localFrameHeaderBytes with hlt | hge
    · obtain ⟨_, hended⟩ := readHeader_ended h hlt hne
      rw [hended] at hheader
      cases hheader
    · obtain ⟨_, hfull, -⟩ := readHeader_full h hge
      rw [hfull] at hheader
      cases hheader
  · intro hempty
    obtain ⟨rest, hheader, -⟩ := readHeader_empty h hempty
    exact ⟨rest, by rw [readFrame, hheader]⟩

theorem readFrame_truncated (h : reader.Steady)
    (hdecode : decodeFrame ext encoded config = .ok frame) (hstart : reader.stream <+: encoded)
    (hne : reader.stream ≠ []) (hinside : reader.stream ≠ encoded) :
    ∃ rest region expected actual,
      readFrame ext config reader = (rest, .error (.truncated region expected actual)) := by
  obtain ⟨kind, correlationId, control, bulk, hsections, -⟩ := decodeFrame_iff.mp hdecode
  obtain ⟨header, hheader, rfl⟩ := exists_header hsections
  obtain ⟨⟨n, hparse⟩, -⟩ := (encodeSections_iff hheader).mp hsections
  -- the missing bytes decide in which region the stream ends
  obtain ⟨missing, hmissing⟩ := hstart
  have hpos : missing ≠ [] := by
    rintro rfl
    exact hinside (by simpa using hmissing)
  have hlength := congrArg List.length hmissing
  have hmissingLength := List.length_pos_iff.mpr hpos
  simp only [List.length_append, hheader] at hlength
  rcases Nat.lt_or_ge reader.stream.length localFrameHeaderBytes with hlt | hge
  · obtain ⟨rest, hended⟩ := readHeader_ended h hlt hne
    exact ⟨rest, .header, _, _, by rw [readFrame, hended]⟩
  obtain ⟨rest₁, hread₁, hsteady₁, hrest₁⟩ := readHeader_full h hge
  have htake : reader.stream.take localFrameHeaderBytes = header := by
    have := congrArg (List.take localFrameHeaderBytes) hmissing
    rwa [List.take_append_of_le_length hge, List.take_left' hheader] at this
  have hlength₁ : rest₁.stream.length = reader.stream.length - localFrameHeaderBytes := by
    rw [hrest₁, List.length_drop]
  rw [htake] at hread₁
  rcases Nat.lt_or_ge rest₁.stream.length control.length with hlt | hge₁
  · obtain ⟨rest₂, hended⟩ := readSection_ended hsteady₁ hlt .control .readControl
    exact ⟨rest₂, .control, control.length, rest₁.stream.length, by
      simp only [readFrame, hread₁, hparse, hended]⟩
  obtain ⟨rest₂, hread₂, hsteady₂, hrest₂⟩ := readSection_full hsteady₁ hge₁ .control .readControl
  have hlt : rest₂.stream.length < bulk.length := by
    rw [hrest₂, List.length_drop]
    omega
  obtain ⟨rest₃, hended⟩ := readSection_ended hsteady₂ hlt .bulk .readBulk
  exact ⟨rest₃, .bulk, bulk.length, rest₂.stream.length, by
    simp only [readFrame, hread₁, hparse, hread₂, hended]⟩

theorem writeFrame_taken (writer : List (WriteEvent IoErrorKind))
    (hencode : encodeFrame ext frame config = .ok encoded) :
    (writeFrame ext config writer frame).1 <+: encoded ∧
      ((writeFrame ext config writer frame).2 = .ok () ↔
        (writeFrame ext config writer frame).1 = encoded) := by
  obtain ⟨hstart, hdone⟩ := Writer.writeAll_taken writer encoded
  rw [writeFrame, hencode]
  dsimp only
  split <;> rename_i taken houtcome <;> rw [houtcome] at hstart hdone
  · exact ⟨hstart, iff_of_true rfl (hdone.mp rfl)⟩
  · exact ⟨hstart, iff_of_false (by simp) fun h => (by cases hdone.mpr h)⟩
  · exact ⟨hstart, iff_of_false (by simp) fun h => (by cases hdone.mpr h)⟩

theorem encodeFrame_of_writeFrame {writer : List (WriteEvent IoErrorKind)}
    (h : (writeFrame ext config writer frame).2 = .ok ()) :
    encodeFrame ext frame config = .ok (writeFrame ext config writer frame).1 := by
  cases hencode : encodeFrame ext frame config with
  | error error =>
    rw [writeFrame, hencode] at h
    cases h
  | ok encoded => rw [(writeFrame_taken writer hencode).2.mp h]

def expectedReads : List (LocalFrame × List UInt8) →
    List (Except LocalFrameError (Option LocalFrame) × List UInt8)
  | [] => [(.ok none, [])]
  | (frame, _) :: frames =>
    (.ok (some frame), (frames.map Prod.snd).flatten) :: expectedReads frames

theorem readFrames_encoded {frames : List (LocalFrame × List UInt8)}
    (hframes : ∀ frame ∈ frames, decodeFrame ext frame.2 config = .ok frame.1) :
    ∀ {reader : Reader IoErrorKind}, reader.Steady →
      reader.stream = (frames.map Prod.snd).flatten →
      readFrames ext config (frames.length + 1) reader = expectedReads frames := by
  induction frames with
  | nil =>
    intro reader hsteady hstream
    obtain ⟨rest, hheader, hrest⟩ := readHeader_empty hsteady hstream
    simp [readFrames, readFrame, hheader, hrest, expectedReads]
  | cons first frames ih =>
    intro reader hsteady hstream
    obtain ⟨hfirst, hframes⟩ := List.forall_mem_cons.mp hframes
    obtain ⟨kind, correlationId, control, bulk, hsections, hbody⟩ := decodeFrame_iff.mp hfirst
    obtain ⟨rest, hread, hrest, htail⟩ := readFrame_sections hsteady hsections hstream
    rw [hbody] at hread
    rw [List.length_cons, readFrames, hread]
    change (Except.ok (some first.1), rest.stream) :: readFrames ext config (frames.length + 1) rest =
      _
    rw [ih hframes hrest htail, htail]
    rfl

/-- **Local frames are self-delimiting.** Encoding and decoding are inverse; frames written one
after the other are so read back, however the stream is cut and interrupted, and then the stream
ends; and a stream that ends inside a frame is refused. -/
theorem localFrame_stream (ext : FrameExternals) (config : LocalFrameConfig) :
    (∀ frame encoded, frame.RoundTrips ext config →
      (encodeFrame ext frame config = .ok encoded ↔
        decodeFrame ext encoded config = .ok frame)) ∧
    (∀ (frames : List (LocalFrame × List UInt8)) (reader : Reader IoErrorKind),
      (∀ frame ∈ frames, frame.1.RoundTrips ext config ∧
        encodeFrame ext frame.1 config = .ok frame.2) →
      reader.Steady → reader.stream = (frames.map Prod.snd).flatten →
      readFrames ext config (frames.length + 1) reader = expectedReads frames) ∧
    (∀ (reader : Reader IoErrorKind) (frame : LocalFrame) (tail : List UInt8), reader.Steady →
      ((∃ rest, readFrame ext config reader = (rest, .ok (some frame)) ∧ rest.stream = tail) ↔
        ∃ encoded, reader.stream = encoded ++ tail ∧
          decodeFrame ext encoded config = .ok frame)) ∧
    (∀ reader : Reader IoErrorKind, reader.Steady →
      ((∃ rest, readFrame ext config reader = (rest, .ok none)) ↔ reader.stream = [])) ∧
    ∀ (reader : Reader IoErrorKind) (encoded : List UInt8) (frame : LocalFrame), reader.Steady →
      decodeFrame ext encoded config = .ok frame → reader.stream <+: encoded →
      reader.stream ≠ [] → reader.stream ≠ encoded →
      ∃ rest region expected actual,
        readFrame ext config reader = (rest, .error (.truncated region expected actual)) := by
  refine ⟨fun _ _ hframe => encodeFrame_iff_decodeFrame hframe,
    fun frames reader hframes hsteady hstream => readFrames_encoded ?_ hsteady hstream,
    fun _ _ _ hsteady => readFrame_iff hsteady, fun _ hsteady => readFrame_none hsteady,
    fun _ _ _ => readFrame_truncated⟩
  intro frame hmem
  obtain ⟨hframe, hencode⟩ := hframes frame hmem
  exact (encodeFrame_iff_decodeFrame hframe).mp hencode

def sampleMetadata : ObservationMetadata where
  schemaVersion := .v1
  observationId := .lit 1
  sceneRevision := ⟨1⟩
  frameId := .lit 1
  cameraId := .lit 1
  kind := .visibility
  dimensions := none
  quality := .low
  observedAtUnixMicros := 0
  productionLatencyMicros := 0
  staleness := ⟨⟨1⟩, 0⟩

def sampleFrameExternals : FrameExternals where
  sha256 _ := .replicate 32 0
  metadataJson := .single ObservationMetadata.serialize sampleMetadata
  payload := {
    encode _ payload _ _ :=
      if payload = .visibility [] then .ok [1] else .error .invalidMetadata
    decode _ encoded _ _ :=
      if encoded = [1] then .ok (.visibility []) else .error .invalidMagic }

def sampleFrames : List LocalFrame :=
  [.control (.lit 7) [1, 2, 3],
    .observation (.lit 8) sampleMetadata (.visibility [])]

def sampleEncodedFrames : List (LocalFrame × List UInt8) :=
  sampleFrames.map fun frame =>
    (frame, (encodeFrame sampleFrameExternals frame .default).toOption.getD [])

theorem roundTrips_sampleFrames :
    ∀ frame ∈ sampleFrames, frame.RoundTrips sampleFrameExternals .default := by
  have hserde : sampleFrameExternals.metadataJson.RoundTrips sampleMetadata.serialize
      sampleMetadata := Serde.roundTrips_single _ _
  have hobservation : LocalFrame.RoundTrips sampleFrameExternals .default
      (.observation ⟨8, by decide, by decide⟩ sampleMetadata (.visibility [])) := by
    refine ⟨fun control hcontrol => ?_, fun bulk => ?_⟩
    · exact (decode_encode_iff hserde hcontrol).mpr (.inr (by
        rw [ObservationMetadata.depth_serialize]
        decide))
    · simp [sampleFrameExternals, eq_comm]
  intro frame hframe
  simp only [sampleFrames, List.mem_cons, List.not_mem_nil, or_false] at hframe
  rcases hframe with rfl | rfl
  · trivial
  · exact hobservation

def sampleReader : Reader IoErrorKind :=
  let stream := (sampleEncodedFrames.map Prod.snd).flatten
  [.chunk (stream.take 3), .interrupted, .chunk ((stream.drop 3).take 100), .interrupted,
    .chunk (stream.drop 103)]

theorem localFrame_stream_sample :
    readFrames sampleFrameExternals .default 3 sampleReader = expectedReads sampleEncodedFrames := by
  have hencode : ∀ frame ∈ sampleFrames, ∃ encoded,
      encodeFrame sampleFrameExternals frame .default = .ok encoded := by
    intro frame hframe
    obtain ⟨encoded, hencoded, -⟩ := Exec.exists_ok_of_any
      (x := encodeFrame sampleFrameExternals frame .default) (p := fun _ => true)
      (List.all_eq_true.mp (by decide +kernel : sampleFrames.all fun frame =>
        (encodeFrame sampleFrameExternals frame .default).toOption.any fun _ => true) frame hframe)
    exact ⟨encoded, hencoded⟩
  refine (localFrame_stream sampleFrameExternals .default).2.1 sampleEncodedFrames sampleReader
    ?_ ?_ ?_
  · intro pair hpair
    obtain ⟨frame, hframe, rfl⟩ := List.mem_map.mp hpair
    obtain ⟨encoded, hencoded⟩ := hencode frame hframe
    exact ⟨roundTrips_sampleFrames frame hframe, by rw [hencoded]; rfl⟩
  · exact .chunk (by decide +kernel) (.interrupted (.chunk (by decide +kernel)
      (.interrupted (.chunk (by decide +kernel) .nil))))
  · decide +kernel

end Streams

end Cogniform
