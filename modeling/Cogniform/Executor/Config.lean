import Cogniform.Session.Message

/-!
# Configuration of a session executor

An executor narrows its own configuration to what its service can take, and at the handshake answers
the client's limits with the most that both sides can take. The client that offered them accepts.
-/

namespace Cogniform

inductive LocalExecutorError where
  | invalidConfig (reason : String)
  | serviceNotQuiescent (commands observations : ℕ)
  | outputRejected
  | stateInvariant (reason : String)
  deriving DecidableEq

structure LocalExecutorConfig where
  receiveConfig : LocalFrameConfig
  compilationLimits : CompilationLimits
  maxLiveCorrelations : NonZeroU32
  maxOutputFramesPerCall : NonZeroU32
  deriving DecidableEq

def maxOutputFramesPerCall : ℕ := 2

structure SessionTerms where
  schemaVersion : UInt16
  limits : LocalSessionLimits
  compilationLimits : Option CompilationLimits
  frameConfig : LocalFrameConfig

inductive HelloRefusal where
  | failure (code : SessionFailureCode)
  | error (error : LocalExecutorError)
  deriving DecidableEq

namespace LocalExecutorConfig

def default : LocalExecutorConfig where
  receiveConfig := .default
  compilationLimits := .default
  maxLiveCorrelations := .lit 1_024
  maxOutputFramesPerCall := .lit 2

def serviceLimits (configured : LocalSessionLimits) (service : RuntimeLimits) :
    LocalSessionLimits :=
  { configured with
    maxControlMessageBytes := min configured.maxControlMessageBytes service.maxEncodedBytes
    runtimeLimits := service }

/-- The configuration, narrowed to the limits of the service: the first part of
`SessionCore::new`. -/
def withinService (config : LocalExecutorConfig) (service : RuntimeLimits) :
    Except LocalExecutorError LocalExecutorConfig := do
  let configured ← (LocalSessionLimits.fromConfig config.receiveConfig).mapError fun _ =>
    .invalidConfig "receive limits are inconsistent"
  let effective ← (configured.intersect (serviceLimits configured service)).mapError fun _ =>
    .invalidConfig "service and receive limits are inconsistent"
  let receiveConfig ← effective.toFrameConfig.mapError fun _ =>
    .invalidConfig "effective local receive limits are inconsistent"
  let compilationLimits ← (intersectCompilationLimits config.compilationLimits
      (.forRuntimeLimits service) >>= fun limits =>
      intersectCompilationLimits limits (.forRuntimeLimits effective.runtimeLimits)).mapError
    fun _ => .invalidConfig "compilation limits are inconsistent"
  .ok { config with
    receiveConfig := receiveConfig
    compilationLimits := compilationLimits
    maxLiveCorrelations :=
      min config.maxLiveCorrelations receiveConfig.runtimeLimits.maxQueueCapacity }

/-- What `handle_hello` derives from a hello. -/
def grant (config : LocalExecutorConfig) (version : UInt16) (hello : ClientHello) :
    Except HelloRefusal SessionTerms :=
  match hello.receiveLimits.negotiate config.receiveConfig with
  | .error _ => .error (.failure .limitExceeded)
  | .ok limits =>
    match limits.toFrameConfig with
    | .error _ => .error (.error (.invalidConfig "negotiated limits are inconsistent"))
    | .ok frameConfig =>
      if version = localSessionSchemaVersionV2 then
        match hello.compilationReceiveLimits with
        | none => .error (.failure .invalidMessage)
        | some advertised =>
          match intersectCompilationLimits advertised config.compilationLimits with
          | .error _ => .error (.failure .limitExceeded)
          | .ok compilationLimits => .ok ⟨version, limits, some compilationLimits, frameConfig⟩
      else .ok ⟨version, limits, none, frameConfig⟩

structure Narrowed (config : LocalExecutorConfig) (available : LocalSessionLimits) : Prop where
  receives : LocalSessionLimits.fromConfig config.receiveConfig = .ok available
  consistent : config.compilationLimits.Consistent
  patch : config.compilationLimits.patchLimits ≤ available.runtimeLimits

theorem withinService_narrowed {config effective : LocalExecutorConfig} {service : RuntimeLimits}
    (h : config.withinService service = .ok effective) :
    ∃ available, effective.Narrowed available := by
  obtain ⟨configured, hconfigured, h⟩ := Exec.bind_eq_ok.mp h
  obtain ⟨available, havailable, h⟩ := Exec.bind_eq_ok.mp h
  obtain ⟨receiveConfig, hreceive, h⟩ := Exec.bind_eq_ok.mp h
  obtain ⟨compilationLimits, hcompilation, h⟩ := Exec.bind_eq_ok.mp h
  cases h
  rw [Exec.exceptMapError_eq_ok] at hconfigured havailable hreceive hcompilation
  -- the meet exists only if both sides are valid
  obtain ⟨⟨⟩, hvalid, -⟩ := Exec.bind_eq_ok.mp hreceive
  have hconsistent := LocalSessionLimits.validate_eq_ok.mp hvalid
  have hfrom := LocalSessionLimits.fromConfig_toFrameConfig hconsistent
  rw [hreceive] at hfrom
  obtain ⟨middle, -, hcompilation⟩ := Exec.bind_eq_ok.mp hcompilation
  obtain ⟨⟨⟩, hmiddle, -⟩ := Exec.bind_eq_ok.mp hcompilation
  have hmiddle := CompilationLimits.validateCompilationLimits_eq_ok.mp hmiddle
  have hright : (CompilationLimits.forRuntimeLimits available.runtimeLimits).Consistent :=
    hconsistent.runtime
  refine ⟨available, hfrom, CompilationLimits.isPartialMeet_intersect.valid_of_eq_ok hmiddle hright
    hcompilation, fun limit => ?_⟩
  exact CompilationLimits.isPartialMeet_intersect.le_right hmiddle hright hcompilation (.patch limit)

theorem Narrowed.negotiate {config : LocalExecutorConfig} {available offered : LocalSessionLimits}
    (h : config.Narrowed available) (hoffered : offered.Consistent) :
    ∃ limits, offered.negotiate config.receiveConfig = .ok limits ∧
      offered.intersect available = .ok limits ∧ limits.Consistent := by
  have havailable := (LocalSessionLimits.fromConfig_eq_ok h.receives).1
  obtain ⟨limits, hmeet, hconsistent, -⟩ := LocalSessionLimits.intersect_eq hoffered havailable
  exact ⟨limits, Exec.bind_eq_ok.mpr ⟨(), LocalSessionLimits.validate_eq_ok.mpr hoffered,
    Exec.bind_eq_ok.mpr ⟨available, h.receives, hmeet⟩⟩, hmeet, hconsistent⟩

theorem validateClientHello_eq_ok {version : UInt16} {hello : ClientHello}
    (h : validateClientHello version hello = .ok ()) :
    (version = localSessionSchemaVersion ∧ hello.compilationReceiveLimits = none) ∨
    ∃ limits, version = localSessionSchemaVersionV2 ∧
      hello.compilationReceiveLimits = some limits ∧ limits.Consistent ∧
      limits.patchLimits ≤ hello.receiveLimits.runtimeLimits := by
  rw [validateClientHello] at h
  split at h
  · rename_i hnone
    split at h
    · rename_i hversion
      exact .inl ⟨hversion, hnone⟩
    · cases h
  · rename_i limits hsome
    split at h
    · rename_i hversion
      obtain ⟨⟨⟩, hvalid, h⟩ := Exec.bind_eq_ok.mp h
      split at h
      · rename_i hfit
        exact .inr ⟨limits, hversion, hsome,
          CompilationLimits.validateCompilationLimits_eq_ok.mp hvalid,
          RuntimeLimits.runtimeLimitsFit_iff.mp hfit⟩
      · cases h
    · cases h

/-- **A client accepts what its own limits are answered with**, in either version. The check is that
of the whole server message, under the client's own configuration. -/
theorem grant_accepted (serde : SerdeWriter CompilationResult) {config : LocalExecutorConfig}
    {available : LocalSessionLimits} (hconfig : config.Narrowed available)
    {client : LocalFrameConfig} {version : UInt16} {hello : ClientHello}
    (hclient : LocalSessionLimits.fromConfig client = .ok hello.receiveLimits)
    (hhello : validateClientHello version hello = .ok ()) :
    ∃ terms, config.grant version hello = .ok terms ∧
      (LocalSessionServerMessage.mk version
        (.hello ⟨terms.limits, terms.compilationLimits⟩)).validate serde client
          hello.compilationReceiveLimits = .ok () := by
  obtain ⟨hoffered, hruntime⟩ := LocalSessionLimits.fromConfig_eq_ok hclient
  have havailable := (LocalSessionLimits.fromConfig_eq_ok hconfig.receives).1
  obtain ⟨limits, hnegotiate, hmeet, hconsistent⟩ := hconfig.negotiate hoffered
  have hisMeet := LocalSessionLimits.isPartialMeet_intersect
  obtain ⟨frameConfig, hframe, -⟩ :=
    Exec.bind_eq_ok.mp (LocalSessionLimits.fromConfig_toFrameConfig hconsistent)
  have hfits := LocalSessionLimits.fitsWithinConfig_of_le hclient
    (hisMeet.le_left hoffered havailable hmeet)
  rcases validateClientHello_eq_ok hhello with ⟨rfl, hnone⟩ |
    ⟨advertised, rfl, hsome, hadvertised, hpatch⟩
  · refine ⟨⟨localSessionSchemaVersion, limits, none, frameConfig⟩, ?_, ?_⟩
    · simp [grant, hnegotiate, hframe, localSessionSchemaVersion, localSessionSchemaVersionV2]
    · rw [LocalSessionServerMessage.validate_eq_ok, LocalSessionServerMessage.validate_hello, hnone]
      refine ⟨rfl, fun h => absurd h.1 (by decide), ?_, hconsistent, hfits, rfl⟩
      change client.runtimeLimits.Consistent
      rw [← hruntime]
      exact hoffered.runtime
  · have hisMeet' := CompilationLimits.isPartialMeet_intersect
    obtain ⟨granted, hgranted, hvalid, -⟩ :=
      hisMeet'.exists_meet hadvertised hconfig.consistent
    have hle : granted ≤ advertised := hisMeet'.le_left hadvertised hconfig.consistent hgranted
    -- the patch limits are below those of both sides, hence below the meet of them
    have hgrantedPatch : granted.patchLimits ≤ limits.runtimeLimits := by
      have hle' := hisMeet'.le_right hadvertised hconfig.consistent hgranted
      have hvalue := (hisMeet.eq_ok_iff hoffered havailable).mp hmeet
      intro limit
      have hmin : limits.runtimeLimits.value limit =
          hello.receiveLimits.runtimeLimits.value limit ⊓ available.runtimeLimits.value limit :=
        congrFun hvalue (.runtime limit)
      rw [hmin]
      exact le_inf ((hle (.patch limit)).trans (hpatch limit))
        ((hle' (.patch limit)).trans (hconfig.patch limit))
    refine ⟨⟨localSessionSchemaVersionV2, limits, some granted, frameConfig⟩, ?_, ?_⟩
    · simp only [grant, hnegotiate, hframe, ↓reduceIte, hsome, hgranted]
    · rw [LocalSessionServerMessage.validate_eq_ok, LocalSessionServerMessage.validate_hello, hsome]
      refine ⟨rfl, by simp, hadvertised, hconsistent, hfits, ?_⟩
      rw [validateServerHello]
      dsimp only [Option.getD_some]
      rw [if_pos rfl]
      refine Exec.bind_eq_ok.mpr
        ⟨(), CompilationLimits.validateCompilationLimits_eq_ok.mpr hvalid, if_pos ?_⟩
      rw [Bool.and_eq_true]
      exact ⟨CompilationLimits.compilationLimitsFit_iff.mpr hle,
        RuntimeLimits.runtimeLimitsFit_iff.mpr hgrantedPatch⟩

end LocalExecutorConfig

open LocalSessionLimits in
/-- **Negotiation is a meet.** On valid limits `intersect` gives the greatest valid limits below
both; it is commutative, idempotent and associative. The limits of a configuration made from limits
are those limits. So a client that offers what it enforces is answered, by any executor over any
service, with a hello that passes its own check. -/
theorem limit_negotiation (serde : SerdeWriter CompilationResult) :
    (∀ left right : LocalSessionLimits, left.validate = .ok () → right.validate = .ok () →
      ∃ meet, left.intersect right = .ok meet ∧ right.intersect left = .ok meet ∧
        IsGreatest {limits | limits.validate = .ok () ∧ limits ≤ left ∧ limits ≤ right} meet) ∧
    (∀ first second third : LocalSessionLimits, first.validate = .ok () →
      second.validate = .ok () → third.validate = .ok () →
      (first.intersect second >>= fun meet => meet.intersect third) =
        (second.intersect third >>= first.intersect)) ∧
    (∀ limits : LocalSessionLimits, limits.validate = .ok () →
      limits.intersect limits = .ok limits ∧
        (limits.toFrameConfig >>= fromConfig) = .ok limits) ∧
    ∀ (config effective : LocalExecutorConfig) (service : RuntimeLimits)
      (client : LocalFrameConfig) (version : UInt16) (hello : ClientHello),
      config.withinService service = .ok effective →
      fromConfig client = .ok hello.receiveLimits →
      validateClientHello version hello = .ok () →
      ∃ terms, effective.grant version hello = .ok terms ∧
        (LocalSessionServerMessage.mk version
          (.hello ⟨terms.limits, terms.compilationLimits⟩)).validate serde client
            hello.compilationReceiveLimits = .ok () := by
  simp only [validate_eq_ok]
  refine ⟨fun left right hleft hright => ?_, fun first second third hfirst hsecond hthird =>
    isPartialMeet_intersect.assoc hfirst hsecond hthird, fun limits hlimits =>
    ⟨isPartialMeet_intersect.self hlimits, fromConfig_toFrameConfig hlimits⟩,
    fun config effective service client version hello hconfig hclient hhello => ?_⟩
  · obtain ⟨meet, hmeet, -, -⟩ := intersect_eq hleft hright
    refine ⟨meet, hmeet, ?_, isPartialMeet_intersect.isGreatest hleft hright hmeet⟩
    rw [isPartialMeet_intersect.comm hright hleft, hmeet]
  · obtain ⟨available, hnarrowed⟩ := LocalExecutorConfig.withinService_narrowed hconfig
    exact LocalExecutorConfig.grant_accepted serde hnarrowed hclient hhello

def emptyResultJson : SerdeWriter CompilationResult :=
  ⟨fun _ => ([[123, 125]], true), fun _ => .error ⟨.data, 1, 1⟩⟩

theorem limit_negotiation_default :
    ∃ offered effective, LocalSessionLimits.fromConfig .default = .ok offered ∧
      LocalExecutorConfig.default.withinService .default = .ok effective ∧
      ∃ terms, effective.grant 2 ⟨offered, some .default⟩ = .ok terms ∧
        (LocalSessionServerMessage.mk 2 (.hello ⟨terms.limits, terms.compilationLimits⟩)).validate
          emptyResultJson .default (some .default) = .ok () := by
  obtain ⟨offered, hoffered⟩ : ∃ offered, LocalSessionLimits.fromConfig .default = .ok offered :=
    ⟨_, rfl⟩
  obtain ⟨effective, heffective⟩ : ∃ effective,
      LocalExecutorConfig.default.withinService .default = .ok effective := ⟨_, rfl⟩
  have hruntime := (LocalSessionLimits.fromConfig_eq_ok hoffered).2
  have hhello : validateClientHello 2 ⟨offered, some .default⟩ = .ok () := by
    simp only [validateClientHello, hruntime]
    decide
  exact ⟨offered, effective, hoffered, heffective,
    (limit_negotiation emptyResultJson).2.2.2 _ _ _ _ _ ⟨offered, some .default⟩ heffective hoffered hhello⟩

end Cogniform
