import Cogniform.Session.Serialize

/-!
# The session codec

Session messages travel as canonical lines in control frames. A receiver bounds the bytes first,
then asks whether the message could be one of the other direction, and accepts nothing but the line
it would have written itself. Limits of compilation results are an optional argument here.
-/

namespace Cogniform

inductive LocalSessionError where
  | invalidConfig
  | messageLimitExceeded (actual limit : ℕ)
  | nestingLimitExceeded (actual limit : ℕ)
  | malformedJson (error : JsonError)
  | invalidMessage (error : LocalSessionValidationError)
  | nonCanonicalMessage
  | wrongDirection
  | wrongFrameKind
  | serializationFailed
  | allocationFailed
  deriving DecidableEq

structure SessionExternals where
  clientJson : SerdeWriter LocalSessionClientMessage
  serverJson : SerdeWriter LocalSessionServerMessage
  compilationJson : SerdeWriter CompilationResult

def sessionErrors : LineErrors LocalSessionError :=
  ⟨.messageLimitExceeded, .nestingLimitExceeded, .malformedJson, .nonCanonicalMessage,
    .serializationFailed⟩

def effectiveMessageLimit (config : LocalFrameConfig) : Except LocalSessionError ℕ :=
  if config.frameLimits.maxFrameBytes.get < localFrameHeaderBytes then .error .invalidConfig
  else
    let body := config.frameLimits.maxFrameBytes.get - localFrameHeaderBytes
    let limit := min (min body config.frameLimits.maxControlBytes.get)
      config.runtimeLimits.maxEncodedBytes.get
    if limit = 0 then .error .invalidConfig else .ok limit

def preflight (encoded : List UInt8) (config : LocalFrameConfig) : Except LocalSessionError ℕ := do
  let limit ← effectiveMessageLimit config
  sessionErrors.enforceSize encoded.length limit
  enforceNestingDepth sessionErrors.nestingExceeded config.runtimeLimits.maxJsonNestingDepth.get
    encoded
  .ok limit

section

variable {α β : Type} (serde : SerdeWriter α) (other : SerdeWriter β)
  (validate : α → Except LocalSessionValidationError Unit)

/-- `encode`. -/
def encodeMessage (message : α) (config : LocalFrameConfig) :
    Except LocalSessionError (List UInt8) := do
  (validate message).mapError .invalidMessage
  let limit ← effectiveMessageLimit config
  let encoded ← sessionErrors.writeLine serde message limit
  enforceNestingDepth sessionErrors.nestingExceeded config.runtimeLimits.maxJsonNestingDepth.get
    encoded
  .ok encoded

/-- `decode`, and what precedes it: bytes that parse as a message of the other direction are refused
as such. -/
def decodeMessage (encoded : List UInt8) (config : LocalFrameConfig) :
    Except LocalSessionError α := do
  let _ ← preflight encoded config
  if (other.fromSlice encoded).isOk then .error .wrongDirection
  else
    let limit ← preflight encoded config
    let value ← sessionErrors.parseLine serde encoded
    (validate value).mapError .invalidMessage
    let canonical ← sessionErrors.writeLine serde value limit
    if canonical ≠ encoded then .error .nonCanonicalMessage else .ok value

end

section

variable (ext : SessionExternals)

def decodeClientMessage (encoded : List UInt8) (config : LocalFrameConfig) :
    Except LocalSessionError LocalSessionClientMessage :=
  decodeMessage ext.clientJson ext.serverJson (fun message => message.validate config) encoded config

def decodeServerMessage (encoded : List UInt8) (config : LocalFrameConfig)
    (compilationLimits : Option CompilationLimits) :
    Except LocalSessionError LocalSessionServerMessage :=
  decodeMessage ext.serverJson ext.clientJson
    (fun message => message.validate ext.compilationJson config compilationLimits) encoded config

def encodeServerMessage (message : LocalSessionServerMessage) (config : LocalFrameConfig)
    (compilationLimits : Option CompilationLimits) : Except LocalSessionError (List UInt8) :=
  encodeMessage ext.serverJson
    (fun message => message.validate ext.compilationJson config compilationLimits) message config

def decodeClientControlFrame (frame : LocalFrame) (config : LocalFrameConfig) :
    Except LocalSessionError LocalSessionClientMessage :=
  match frame with
  | .control _ bytes => decodeClientMessage ext bytes config
  | .observation .. => .error .wrongFrameKind

def serverControlFrame (correlationId : NonZeroU64) (message : LocalSessionServerMessage)
    (config : LocalFrameConfig) (compilationLimits : Option CompilationLimits) :
    Except LocalSessionError LocalFrame := do
  .ok (.control correlationId (← encodeServerMessage ext message config compilationLimits))

end

/-! ### What can be sent -/

section

variable {α : Type} {serde : SerdeWriter α}
  {validate : α → Except LocalSessionValidationError Unit} {message : α}
  {config : LocalFrameConfig} {encoded : List UInt8} {limit : ℕ}

theorem effectiveMessageLimit_eq_ok (h : effectiveMessageLimit config = .ok limit) :
    limit + localFrameHeaderBytes ≤ config.frameLimits.maxFrameBytes.get ∧
      limit ≤ config.frameLimits.maxControlBytes.get := by
  simp only [effectiveMessageLimit] at h
  split_ifs at h
  cases h
  omega

theorem encodeMessage_eq_ok_iff {json : Json} (hwrites : serde.Writes message json) :
    encodeMessage serde validate message config = .ok encoded ↔
      validate message = .ok () ∧ encoded = json.write ++ [10] ∧
        (∃ limit, effectiveMessageLimit config = .ok limit ∧ json.write.length + 1 ≤ limit) ∧
        (config.runtimeLimits.maxJsonNestingDepth.get = 2 ^ 16 - 1 ∨
          json.depth ≤ config.runtimeLimits.maxJsonNestingDepth.get) := by
  have hdepth := config.runtimeLimits.maxJsonNestingDepth.lt
  simp only [encodeMessage, Exec.bind_eq_ok, Exec.exceptMapError_eq_ok,
    LineErrors.writeLine_eq_ok_iff_length hwrites]
  constructor
  · rintro ⟨⟨⟩, hvalid, limit, hlimit, bytes, ⟨rfl, hfits⟩, ⟨⟩, hnesting, h⟩
    cases h
    exact ⟨hvalid, rfl, ⟨limit, hlimit, hfits⟩, (enforceNestingDepth_write_iff hdepth).mp hnesting⟩
  · rintro ⟨hvalid, rfl, ⟨limit, hlimit, hfits⟩, hnesting⟩
    exact ⟨(), hvalid, limit, hlimit, _, ⟨rfl, hfits⟩, (),
      (enforceNestingDepth_write_iff hdepth).mpr hnesting, rfl⟩

theorem encodeFrame_control (ext : FrameExternals) (correlationId : NonZeroU64)
    (hlimit : effectiveMessageLimit config = .ok limit) (hnonempty : encoded ≠ [])
    (hfits : encoded.length ≤ limit) :
    ∃ framed, encodeFrame ext (.control correlationId encoded) config = .ok framed := by
  obtain ⟨hframe, hcontrol⟩ := effectiveMessageLimit_eq_ok hlimit
  have hpos := List.length_pos_iff.mpr hnonempty
  have hsize := config.frameLimits.maxFrameBytes.lt
  refine ⟨_, Exec.bind_eq_ok.mpr ⟨(encoded, []), rfl, encodeSections_eq_ok.mpr
    ⟨?_, ⟨localFrameHeaderBytes + encoded.length + 0, ?_⟩, rfl⟩⟩⟩
  · simp only [LocalFrame.kind, validateLayout, List.length_nil]
    rw [if_neg (by omega), if_neg (by omega)]
  · simp only [validateLengths, List.length_nil]
    rw [if_neg (by omega), if_neg (by omega), if_neg (by omega), if_neg (by omega)]

end

section

variable {ext : SessionExternals} {floats : FloatText} {config : LocalFrameConfig}
  {compilationLimits : Option CompilationLimits} {version : UInt16}

def SessionExternals.WritesServer (ext : SessionExternals) (floats : FloatText) : Prop :=
  ∀ message, ext.serverJson.Writes message (message.serialize floats)

theorem serverControlFrame_fixed (hwrites : ext.WritesServer floats) {helloId : NonZeroU64}
    {granted : ServerHello} {hello : LocalFrame}
    (hhello : serverControlFrame ext helloId ⟨version, .hello granted⟩ config compilationLimits =
      .ok hello)
    {message : LocalSessionServerKind} (hmessage : message.FixedShape version)
    (correlationId : NonZeroU64) :
    ∃ bytes limit, serverControlFrame ext correlationId ⟨version, message⟩ config
        compilationLimits = .ok (.control correlationId bytes) ∧ bytes ≠ [] ∧
      effectiveMessageLimit config = .ok limit ∧ bytes.length ≤ limit := by
  obtain ⟨encoded, hencoded, -⟩ := Exec.bind_eq_ok.mp hhello
  obtain ⟨hvalid, -, ⟨limit, hlimit, hfits⟩, hnesting⟩ :=
    (encodeMessage_eq_ok_iff (hwrites _)).mp hencoded
  obtain ⟨hversion, -, hconsistent, -⟩ := LocalSessionServerMessage.validate_eq_ok.mp hvalid
  have hlength :=
    LocalSessionServerMessage.fixed_length_le_hello hmessage floats version granted
  have hdepth :=
    LocalSessionServerMessage.fixed_depth_le_hello hmessage floats version granted
  refine ⟨_, limit, Exec.bind_eq_ok.mpr ⟨_, (encodeMessage_eq_ok_iff (hwrites _)).mpr
    ⟨LocalSessionServerMessage.validate_fixed hmessage hversion hconsistent, rfl,
      ⟨limit, hlimit, ?_⟩, ?_⟩, rfl⟩, ?_, hlimit, ?_⟩
  · omega
  · omega
  · simp
  · rw [List.length_append, List.length_singleton]
    omega

end

end Cogniform
