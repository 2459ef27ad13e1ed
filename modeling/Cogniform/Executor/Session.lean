import Cogniform.Engine.Gateway
import Cogniform.Engine.Observation
import Cogniform.Executor.Config
import Cogniform.Lib.Call
import Cogniform.Session.Codec

/-!
# The session executor

Every request carries a correlation identity chosen by the client, and so does every frame that
answers it. Commands that were queued and observations that were accepted are answered later, by
`advance`, and until then their identity is live and may not be used again.

The executor keeps its own account of what is live. Where the source meets a state in which account
and service disagree it returns an error, and so does the model. The service is any, and what a call
reads from outside is part of it.
-/

namespace Cogniform

structure ServiceSnapshot where
  commandDepth : ℕ
  outstandingObservations : ℕ

inductive ServiceObservationDelivery where
  | completed (metadata : ObservationMetadata) (payload : ObservationPayload)
  | failed (observationId : ObservationId) (code : SessionFailureCode)

def ServiceObservationDelivery.observationId : ServiceObservationDelivery → ObservationId
  | .completed metadata _ => metadata.observationId
  | .failed observationId _ => observationId

/-- `SessionService`: the calls an executor makes. -/
structure SessionService (S : Type) where
  runtimeLimits : S → RuntimeLimits
  commandCapacity : S → ℕ
  observationCapacity : S → ℕ
  observationDimensions : S → UInt32 × UInt32
  snapshot : S → ServiceSnapshot
  configureCompilationLimits : CompilationLimits → Call S SessionFailureCode Unit
  submitPatch : ScenePatch → Call S SessionFailureCode GatewayAdmission
  submitImagination : ImaginationEnvelope → Call S SessionFailureCode GatewayAdmission
  processNext : Call S SessionFailureCode (Option GatewayResponse)
  query : SceneQuery → S → Exec SessionFailureCode SceneQueryResult
  requestObservation : ObservationRequest → Call S SessionFailureCode Unit
  pollObservation : Call S SessionFailureCode (Option ServiceObservationDelivery)

/-! ### Output -/

structure ExecutorExternals where
  session : SessionExternals
  frame : FrameExternals

structure SessionOutputContext where
  schemaVersion : UInt16
  frameConfig : LocalFrameConfig
  compilationLimits : Option CompilationLimits

def SessionTerms.context (terms : SessionTerms) : SessionOutputContext :=
  ⟨terms.schemaVersion, terms.frameConfig, terms.compilationLimits⟩

section

variable (ext : ExecutorExternals) (correlationId : NonZeroU64) (context : SessionOutputContext)

def controlFrameFor (message : LocalSessionServerKind) : Exec LocalExecutorError LocalFrame :=
  match serverControlFrame ext.session correlationId ⟨context.schemaVersion, message⟩
      context.frameConfig context.compilationLimits with
  | .error _ => Exec.fail .outputRejected
  | .ok frame =>
    match encodeFrame ext.frame frame context.frameConfig with
    | .error _ => Exec.fail .outputRejected
    | .ok _ => .ok frame

def failureFrameFor (code : SessionFailureCode) : Exec LocalExecutorError LocalFrame :=
  controlFrameFor ext correlationId context (.failure code)

def singleFailureFor (code : SessionFailureCode) : Exec LocalExecutorError (List LocalFrame) := do
  let frame ← failureFrameFor ext correlationId context code
  .ok [frame]

def controlOrLimitFailureFor (message : LocalSessionServerKind) :
    Exec LocalExecutorError LocalFrame :=
  match controlFrameFor ext correlationId context message with
  | .error (.error .outputRejected) => failureFrameFor ext correlationId context .limitExceeded
  | outcome => outcome

def patchAdmissionFrame (idempotencyKey : IdempotencyKey) (status : PatchAdmissionStatus) :
    Exec LocalExecutorError LocalFrame :=
  controlFrameFor ext correlationId context (.patchAdmission ⟨idempotencyKey, status⟩)

def imaginationAdmissionFrame (imaginationId : ImaginationId) (idempotencyKey : IdempotencyKey)
    (status : ImaginationAdmissionStatus) : Exec LocalExecutorError LocalFrame :=
  controlOrLimitFailureFor ext correlationId context
    (.imaginationAdmission ⟨imaginationId, idempotencyKey, status⟩)

end

/-! ### State -/

structure SubmittedImagination where
  imaginationId : ImaginationId
  transactionId : TransactionId
  idempotencyKey : IdempotencyKey
  baseRevision : SceneRevision
  deriving DecidableEq

def SubmittedImagination.fromEnvelope (imagination : ImaginationEnvelope) : SubmittedImagination :=
  ⟨imagination.imaginationId, imagination.transactionId, imagination.idempotencyKey,
    imagination.baseRevision⟩

inductive PendingCommandKind where
  | patch
  | imagination (submitted : SubmittedImagination)
  deriving DecidableEq

structure PendingCommand where
  correlationId : NonZeroU64
  kind : PendingCommandKind
  deriving DecidableEq

structure PendingObservation where
  correlationId : NonZeroU64
  sceneRevision : SceneRevision
  deriving DecidableEq

inductive SessionState where
  | awaitingHello
  | active (terms : SessionTerms)
  | closed (terms : SessionTerms)

structure SessionCore (S : Type) where
  service : S
  config : LocalExecutorConfig
  state : SessionState
  liveCorrelations : Std.ExtTreeSet NonZeroU64
  commandCorrelations : Std.ExtTreeMap IdempotencyKey PendingCommand
  commandOrder : List IdempotencyKey
  observationCorrelations : Std.ExtTreeMap ObservationId PendingObservation
  observationOrder : List ObservationId
  observationPendingReported : Std.ExtTreeSet ObservationId

inductive LocalExecutorPhase where
  | awaitingHello | active | closed
  deriving DecidableEq

structure LocalExecutorStatus where
  phase : LocalExecutorPhase
  liveCorrelations : ℕ
  liveCorrelationCapacity : ℕ
  maxOutputFramesPerCall : ℕ
  pendingPatches : ℕ
  pendingImaginations : ℕ
  pendingObservations : ℕ
  deriving DecidableEq

namespace SessionCore

variable {S : Type}

def new (svc : SessionService S) (service : S) (config : LocalExecutorConfig) :
    Exec LocalExecutorError (SessionCore S) := do
  let runtimeLimits := svc.runtimeLimits service
  let config ← Exec.ofExcept (config.withinService runtimeLimits)
  if config.maxOutputFramesPerCall.get ≠ maxOutputFramesPerCall then
    Exec.fail (.invalidConfig "output frame capacity must match the protocol maximum")
  else
    let snapshot := svc.snapshot service
    if snapshot.commandDepth ≠ 0 ∨ snapshot.outstandingObservations ≠ 0 then
      Exec.fail (.serviceNotQuiescent snapshot.commandDepth snapshot.outstandingObservations)
    else if runtimeLimits.maxQueueCapacity.get < svc.commandCapacity service
        ∨ runtimeLimits.maxQueueCapacity.get < svc.observationCapacity service then
      Exec.fail (.invalidConfig "service capacity exceeds its runtime queue bound")
    else
      let capacity := svc.commandCapacity service + svc.observationCapacity service
      if 2 ^ 32 ≤ capacity then
        Exec.fail (.invalidConfig "combined service capacity overflowed")
      else if h : 0 < min config.maxLiveCorrelations.get capacity then
        .ok {
          service := service
          config :=
            { config with
              maxLiveCorrelations := ⟨min config.maxLiveCorrelations.get capacity, h,
                (Nat.min_le_left _ _).trans_lt config.maxLiveCorrelations.lt⟩ }
          state := .awaitingHello
          liveCorrelations := ∅
          commandCorrelations := ∅
          commandOrder := []
          observationCorrelations := ∅
          observationOrder := []
          observationPendingReported := ∅ }
      else Exec.fail (.invalidConfig "combined service capacity is zero")

def currentFrameConfig (core : SessionCore S) : LocalFrameConfig :=
  match core.state with
  | .awaitingHello => core.config.receiveConfig
  | .active terms | .closed terms => terms.frameConfig

def currentOutputContext (core : SessionCore S) : SessionOutputContext :=
  match core.state with
  | .awaitingHello => ⟨localSessionSchemaVersion, core.config.receiveConfig, none⟩
  | .active terms | .closed terms => terms.context

def liveCapacityReached (core : SessionCore S) : Bool :=
  core.config.maxLiveCorrelations.get ≤ count core.liveCorrelations.size

def status (core : SessionCore S) : LocalExecutorStatus where
  phase :=
    match core.state with
    | .awaitingHello => .awaitingHello
    | .active _ => .active
    | .closed _ => .closed
  liveCorrelations := count core.liveCorrelations.size
  liveCorrelationCapacity := core.config.maxLiveCorrelations.get
  maxOutputFramesPerCall := core.config.maxOutputFramesPerCall.get
  pendingPatches := count
    (core.commandCorrelations.toList.filter fun entry => entry.2.kind = .patch).length
  pendingImaginations := count
    (core.commandCorrelations.toList.filter fun entry => entry.2.kind ≠ .patch).length
  pendingObservations := count core.observationOrder.length

def intoService (core : SessionCore S) : Except (SessionCore S) S :=
  if core.status.phase = .closed ∧ core.status.liveCorrelations = 0 then .ok core.service
  else .error core

abbrev Method (S α : Type) := Call (SessionCore S) LocalExecutorError α

/-- Call the service, and look at its `Result`. -/
def onService {α : Type} (x : Call S SessionFailureCode α) :
    Method S (Except SessionFailureCode α) :=
  Call.on SessionCore.service (fun core service => { core with service := service }) x

def reserveCorrelation (correlationId : NonZeroU64) : Method S Unit := do
  let core ← Call.get
  if core.liveCapacityReached then
    Call.fail (.stateInvariant "live correlation reservation failed")
  else if correlationId ∈ core.liveCorrelations then
    Call.fail (.stateInvariant "live correlation reservation failed")
  else
    Call.modify fun core =>
      { core with liveCorrelations := core.liveCorrelations.insert correlationId }

def releaseCorrelation (correlationId : NonZeroU64) : Method S Unit := do
  let core ← Call.get
  if correlationId ∈ core.liveCorrelations then
    Call.modify fun core =>
      { core with liveCorrelations := core.liveCorrelations.erase correlationId }
  else Call.fail (.stateInvariant "terminal correlation was not live")

def ensureAdmissionKey (submitted admitted : IdempotencyKey) : Method S Unit :=
  if submitted = admitted then pure ()
  else Call.fail
    (.stateInvariant "gateway admission identity did not match submitted command")

section

variable (ext : ExecutorExternals) (svc : SessionService S) (correlationId : NonZeroU64)
  (context : SessionOutputContext)

/-! ### Commands -/

def queueCommand (beyondCapacity : String) (idempotencyKey : IdempotencyKey)
    (admission : Exec LocalExecutorError LocalFrame) (kind : PendingCommandKind) :
    Method S (List LocalFrame) := do
  let core ← Call.get
  if svc.commandCapacity core.service ≤ count core.commandOrder.length then
    Call.fail (.stateInvariant beyondCapacity)
  else
    let output ← Call.lift admission
    reserveCorrelation correlationId
    Call.modify fun core =>
      { core with
        commandCorrelations := core.commandCorrelations.insert idempotencyKey ⟨correlationId, kind⟩
        commandOrder := core.commandOrder ++ [idempotencyKey] }
    pure [output]

def supersedeCommand (notLive notOrdered : String)
    (idempotencyKey supersededIdempotencyKey : IdempotencyKey)
    (admission : Exec LocalExecutorError LocalFrame) (kind : PendingCommandKind) :
    Method S (List LocalFrame) := do
  let core ← Call.get
  match core.commandCorrelations[supersededIdempotencyKey]? with
  | none => Call.fail (.stateInvariant notLive)
  | some pending =>
    let rejected ← Call.lift (failureFrameFor ext pending.correlationId context .commandRejected)
    let admitted ← Call.lift admission
    match core.commandOrder.idxOf? supersededIdempotencyKey with
    | none => Call.fail (.stateInvariant notOrdered)
    | some position =>
      Call.modify fun core =>
        { core with
          commandOrder := core.commandOrder.set position idempotencyKey
          commandCorrelations := core.commandCorrelations.erase supersededIdempotencyKey }
      releaseCorrelation pending.correlationId
      reserveCorrelation correlationId
      Call.modify fun core =>
        { core with
          commandCorrelations :=
            core.commandCorrelations.insert idempotencyKey ⟨correlationId, kind⟩ }
      pure [rejected, admitted]

def handleSupersession (idempotencyKey supersededIdempotencyKey : IdempotencyKey) :
    Method S (List LocalFrame) :=
  supersedeCommand ext correlationId context "superseded patch had no live correlation"
    "superseded patch was absent from local order" idempotencyKey supersededIdempotencyKey
    (patchAdmissionFrame ext correlationId context idempotencyKey
      (.superseded supersededIdempotencyKey)) .patch

def handleImaginationSupersession (submitted : SubmittedImagination)
    (idempotencyKey supersededIdempotencyKey : IdempotencyKey) : Method S (List LocalFrame) :=
  supersedeCommand ext correlationId context "superseded command had no live correlation"
    "superseded command was absent from local order" idempotencyKey supersededIdempotencyKey
    (imaginationAdmissionFrame ext correlationId context submitted.imaginationId idempotencyKey
      (.superseded supersededIdempotencyKey)) (.imagination submitted)

def refusesCommand (core : SessionCore S) : Bool :=
  core.liveCapacityReached
    && (svc.snapshot core.service).commandDepth < svc.commandCapacity core.service

/-- What `submit_patch` makes of the admission of its patch. -/
def handlePatchAdmission (submittedKey : IdempotencyKey) :
    GatewayAdmission → Method S (List LocalFrame)
  | .queued idempotencyKey => do
    ensureAdmissionKey submittedKey idempotencyKey
    queueCommand svc correlationId "service queued a patch beyond its declared capacity"
      idempotencyKey (patchAdmissionFrame ext correlationId context idempotencyKey .queued) .patch
  | .alreadyQueued idempotencyKey => do
    ensureAdmissionKey submittedKey idempotencyKey
    let core ← Call.get
    if (core.commandCorrelations[idempotencyKey]?).map PendingCommand.kind = some .patch then
      let output ← Call.lift
        (patchAdmissionFrame ext correlationId context idempotencyKey .alreadyQueued)
      pure [output]
    else Call.fail (.stateInvariant "already-queued patch had no live correlation")
  | .dropped idempotencyKey => do
    ensureAdmissionKey submittedKey idempotencyKey
    let output ← Call.lift
      (patchAdmissionFrame ext correlationId context idempotencyKey .dropped)
    pure [output]
  | .replayed (.patchApplied receipt) => do
    ensureAdmissionKey submittedKey receipt.idempotencyKey
    let output ← Call.lift (controlOrLimitFailureFor ext correlationId context
      (.patchAdmission ⟨receipt.idempotencyKey, .replayed receipt⟩))
    pure [output]
  | .replayed (.imaginationProcessed ..) =>
    Call.fail (.stateInvariant "patch admission replayed a non-patch response")
  | .superseded idempotencyKey supersededIdempotencyKey => do
    ensureAdmissionKey submittedKey idempotencyKey
    handleSupersession ext correlationId context idempotencyKey supersededIdempotencyKey

def submitPatch (patch : ScenePatch) : Method S (List LocalFrame) := do
  let core ← Call.get
  if refusesCommand svc core then
    Call.lift (singleFailureFor ext correlationId context .capacityExceeded)
  else
    match ← onService (svc.submitPatch patch) with
    | .error code => Call.lift (singleFailureFor ext correlationId context code)
    | .ok admission =>
      handlePatchAdmission ext svc correlationId context patch.idempotencyKey admission

def imaginationCompletion (submitted : SubmittedImagination) (compilation : CompilationResult)
    (receipt : Option ApplyReceipt) (expectedStatus : ApplyStatus)
    (serviceCompilationLimits : CompilationLimits) :
    Except LocalExecutorError ImaginationCompletion :=
  if context.compilationLimits.isNone then
    .error (.stateInvariant "imagination completion had no negotiated compilation limits")
  else
    match compilation.toCanonicalJson ext.session.compilationJson serviceCompilationLimits with
    | .error _ => .error (.stateInvariant "service produced an invalid compilation result")
    | .ok _ =>
      if compilation.imaginationId ≠ submitted.imaginationId then
        .error (.stateInvariant "processed imagination identity did not match local order")
      else if compilation.sceneRevision ≠ submitted.baseRevision then
        .error (.stateInvariant "processed imagination revision did not match submitted work")
      else
        let completion : ImaginationCompletion :=
          ⟨submitted.imaginationId, submitted.idempotencyKey, compilation, receipt⟩
        let inconsistent : Except LocalExecutorError ImaginationCompletion :=
          .error (.stateInvariant
            "processed imagination result and receipt roles were inconsistent")
        match compilation.patch, receipt with
        | some patch, some receipt =>
          if patch.idempotencyKey = submitted.idempotencyKey
              ∧ patch.transactionId = submitted.transactionId
              ∧ receipt.idempotencyKey = submitted.idempotencyKey
              ∧ receipt.status = expectedStatus then .ok completion
          else inconsistent
        | none, none => .ok completion
        | _, _ => inconsistent

def handleImaginationReplay (submitted : SubmittedImagination) :
    GatewayResponse → Method S (List LocalFrame)
  | .patchApplied _ =>
    Call.fail (.stateInvariant "imagination admission replayed a non-imagination response")
  | .imaginationProcessed compilation receipt => do
    let core ← Call.get
    match imaginationCompletion ext context submitted compilation receipt .idempotentReplay
        (.forRuntimeLimits (svc.runtimeLimits core.service)) with
    | .ok completion =>
      let output ← Call.lift (imaginationAdmissionFrame ext correlationId context
        submitted.imaginationId submitted.idempotencyKey (.replayed completion))
      pure [output]
    | .error (.stateInvariant _) =>
      Call.lift (singleFailureFor ext correlationId context .internal)
    | .error error => Call.fail error

def handleImaginationAdmission (submitted : SubmittedImagination) :
    GatewayAdmission → Method S (List LocalFrame)
  | .queued idempotencyKey => do
    ensureAdmissionKey submitted.idempotencyKey idempotencyKey
    queueCommand svc correlationId "service queued an imagination beyond its declared capacity"
      idempotencyKey (imaginationAdmissionFrame ext correlationId context submitted.imaginationId
        idempotencyKey .queued) (.imagination submitted)
  | .alreadyQueued idempotencyKey => do
    ensureAdmissionKey submitted.idempotencyKey idempotencyKey
    let core ← Call.get
    if (core.commandCorrelations[idempotencyKey]?).map PendingCommand.kind =
        some (.imagination submitted) then
      let output ← Call.lift (imaginationAdmissionFrame ext correlationId context
        submitted.imaginationId idempotencyKey .alreadyQueued)
      pure [output]
    else
      Call.fail (.stateInvariant "already-queued imagination had no matching live correlation")
  | .dropped idempotencyKey => do
    ensureAdmissionKey submitted.idempotencyKey idempotencyKey
    let output ← Call.lift (imaginationAdmissionFrame ext correlationId context
      submitted.imaginationId idempotencyKey .dropped)
    pure [output]
  | .replayed response => handleImaginationReplay ext svc correlationId context submitted response
  | .superseded idempotencyKey supersededIdempotencyKey => do
    ensureAdmissionKey submitted.idempotencyKey idempotencyKey
    handleImaginationSupersession ext correlationId context submitted idempotencyKey
      supersededIdempotencyKey

def submitImagination (imagination : ImaginationEnvelope) : Method S (List LocalFrame) := do
  let core ← Call.get
  if context.schemaVersion ≠ localSessionSchemaVersionV2 ∨ context.compilationLimits.isNone then
    Call.lift (singleFailureFor ext correlationId context .unsupportedVersion)
  else if refusesCommand svc core then
    Call.lift (singleFailureFor ext correlationId context .capacityExceeded)
  else
    match ← onService (svc.submitImagination imagination) with
    | .error code => Call.lift (singleFailureFor ext correlationId context code)
    | .ok admission =>
      handleImaginationAdmission ext svc correlationId context
        (.fromEnvelope imagination) admission

def query (query : SceneQuery) : Method S (List LocalFrame) := do
  let core ← Call.get
  match svc.query query core.service with
  | .ok result =>
    let output ← Call.lift
      (controlOrLimitFailureFor ext correlationId context (.queryResult result))
    pure [output]
  | .error (.error code) => Call.lift (singleFailureFor ext correlationId context code)
  | .error (.panic message) => Call.lift (.error (.panic message))
  | .error .diverge => Call.lift (.error .diverge)

def observationTooLarge (core : SessionCore S) : Bool :=
  let (width, height) := svc.observationDimensions core.service
  let limits := context.frameConfig.runtimeLimits
  limits.maxObservationWidth.get < width.toNat
    || limits.maxObservationHeight.get < height.toNat
    || limits.maxObservationPixels.get < satMul width.toNat height.toNat

def requestObservation (request : ObservationRequest) : Method S (List LocalFrame) := do
  let core ← Call.get
  if core.liveCapacityReached
      ∨ svc.observationCapacity core.service ≤ count core.observationOrder.length then
    Call.lift (singleFailureFor ext correlationId context .capacityExceeded)
  else if request.observationId ∈ core.observationCorrelations then
    Call.lift (singleFailureFor ext correlationId context .observationRejected)
  else if observationTooLarge svc context core then
    Call.lift (singleFailureFor ext correlationId context .limitExceeded)
  else
    let output ← Call.lift (controlFrameFor ext correlationId context
      (.observationAccepted ⟨request.observationId, request.sceneRevision⟩))
    match ← onService (svc.requestObservation request) with
    | .error code => Call.lift (singleFailureFor ext correlationId context code)
    | .ok () =>
      reserveCorrelation correlationId
      Call.modify fun core =>
        { core with
          observationCorrelations := core.observationCorrelations.insert request.observationId
            ⟨correlationId, request.sceneRevision⟩
          observationOrder := core.observationOrder ++ [request.observationId] }
      pure [output]

def busy (core : SessionCore S) : Bool :=
  let snapshot := svc.snapshot core.service
  core.liveCorrelations.size ≠ 0 || core.commandOrder ≠ [] || core.observationOrder ≠ []
    || snapshot.commandDepth ≠ 0 || snapshot.outstandingObservations ≠ 0

def close : Method S (List LocalFrame) := do
  let core ← Call.get
  if busy svc core then
    Call.lift (singleFailureFor ext correlationId context .protocolState)
  else
    let output ← Call.lift (controlFrameFor ext correlationId context .closed)
    match core.state with
    | .awaitingHello =>
      Call.fail (.stateInvariant "close was handled outside the active state")
    | .active terms | .closed terms =>
      Call.modify fun core =>
        { core with
          state := .closed ⟨context.schemaVersion, terms.limits, context.compilationLimits,
            context.frameConfig⟩ }
      pure [output]

def openSession (terms : SessionTerms) : Method S (List LocalFrame) := do
  let output ← Call.lift (controlFrameFor ext correlationId terms.context
    (.hello ⟨terms.limits, terms.compilationLimits⟩))
  Call.modify fun core => { core with state := .active terms }
  pure [output]

def handleHello (schemaVersion : UInt16) (decodeConfig : LocalFrameConfig)
    (message : LocalSessionClientKind) : Method S (List LocalFrame) := do
  let preSession : SessionOutputContext := ⟨schemaVersion, decodeConfig, none⟩
  let core ← Call.get
  match message with
  | .hello hello =>
    match core.config.grant schemaVersion hello with
    | .error (.failure code) => Call.lift (singleFailureFor ext correlationId preSession code)
    | .error (.error error) => Call.fail error
    | .ok terms =>
      match terms.compilationLimits with
      | none => openSession ext correlationId terms
      | some compilationLimits =>
        match ← onService (svc.configureCompilationLimits compilationLimits) with
        | .error code => Call.lift (singleFailureFor ext correlationId terms.context code)
        | .ok () => openSession ext correlationId terms
  | _ => Call.lift (singleFailureFor ext correlationId preSession .protocolState)

def handleActive (schemaVersion : UInt16) (message : LocalSessionClientKind) :
    Method S (List LocalFrame) := do
  let core ← Call.get
  let context := core.currentOutputContext
  if schemaVersion ≠ context.schemaVersion then
    Call.lift (singleFailureFor ext correlationId context .unsupportedVersion)
  else if correlationId ∈ core.liveCorrelations then
    Call.lift (singleFailureFor ext correlationId context .protocolState)
  else
    match message with
    | .hello _ => Call.lift (singleFailureFor ext correlationId context .protocolState)
    | .submitPatch patch => submitPatch ext svc correlationId context patch
    | .submitImagination imagination => submitImagination ext svc correlationId context imagination
    | .query value => query ext svc correlationId context value
    | .requestObservation request => requestObservation ext svc correlationId context request
    | .close => close ext svc correlationId context

end

def classifySessionError : LocalSessionError → SessionFailureCode
  | .invalidConfig | .messageLimitExceeded .. | .nestingLimitExceeded .. | .allocationFailed =>
    .limitExceeded
  | .invalidMessage error =>
    if error.kind = .unsupportedVersion then .unsupportedVersion else .invalidMessage
  | .malformedJson _ | .nonCanonicalMessage | .wrongDirection | .wrongFrameKind
  | .serializationFailed => .invalidMessage

def handleFrame (ext : ExecutorExternals) (svc : SessionService S) (frame : LocalFrame) :
    Method S (List LocalFrame) := do
  let core ← Call.get
  let correlationId := frame.correlationId
  let decodeConfig := core.currentFrameConfig
  match decodeClientControlFrame ext.session frame decodeConfig with
  | .error error =>
    Call.lift (singleFailureFor ext correlationId core.currentOutputContext
      (classifySessionError error))
  | .ok message =>
    match core.state with
    | .awaitingHello =>
      handleHello ext svc correlationId message.schemaVersion decodeConfig message.message
    | .active _ => handleActive ext svc correlationId message.schemaVersion message.message
    | .closed _ =>
      Call.lift (singleFailureFor ext correlationId core.currentOutputContext .protocolState)

section

variable (ext : ExecutorExternals) (svc : SessionService S) (context : SessionOutputContext)

/-- What is reported of a processed command. A `StateInvariant` error is reported as an internal
failure. -/
def completionMessage (idempotencyKey : IdempotencyKey) (kind : PendingCommandKind)
    (serviceCompilationLimits : CompilationLimits) :
    Except SessionFailureCode (Option GatewayResponse) →
      Except LocalExecutorError LocalSessionServerKind
  | .error code => .ok (.failure code)
  | .ok none => .error (.stateInvariant "service omitted an ordered command response")
  | .ok (some response) =>
    match kind, response with
    | .patch, .patchApplied receipt =>
      if receipt.idempotencyKey = idempotencyKey ∧ receipt.status = .applied then
        .ok (.patchCompleted receipt)
      else .error (.stateInvariant "processed patch receipt did not match local order")
    | .imagination submitted, .imaginationProcessed compilation receipt =>
      (imaginationCompletion ext context submitted compilation receipt .applied
        serviceCompilationLimits).map .imaginationCompleted
    | _, _ => .error (.stateInvariant "processed command kind did not match local order")

def advanceCommand : Method S (Option LocalFrame) := do
  let core ← Call.get
  match core.commandOrder with
  | [] => pure none
  | idempotencyKey :: rest =>
    Call.modify fun core => { core with commandOrder := rest }
    match core.commandCorrelations[idempotencyKey]? with
    | none => Call.fail (.stateInvariant "ordered command had no live correlation")
    | some pending =>
      Call.modify fun core =>
        { core with commandCorrelations := core.commandCorrelations.erase idempotencyKey }
      let serviceCompilationLimits := .forRuntimeLimits (svc.runtimeLimits core.service)
      let response ← onService svc.processNext
      let message ←
        match completionMessage ext context idempotencyKey pending.kind serviceCompilationLimits
            response with
        | .ok message => pure message
        | .error (.stateInvariant _) => pure (.failure .internal)
        | .error error => Call.fail error
      let output ← Call.lift
        (controlOrLimitFailureFor ext pending.correlationId context message)
      releaseCorrelation pending.correlationId
      pure (some output)

def releaseObservation (observationId : ObservationId) (correlationId : NonZeroU64) :
    Method S Unit := do
  Call.modify fun core =>
    { core with
      observationCorrelations := core.observationCorrelations.erase observationId
      observationPendingReported := core.observationPendingReported.erase observationId }
  let core ← Call.get
  match core.observationOrder.idxOf? observationId with
  | none =>
    Call.fail (.stateInvariant "completed observation was absent from local order")
  | some position =>
    Call.modify fun core =>
      { core with observationOrder := core.observationOrder.eraseIdx position }
    releaseCorrelation correlationId

def deliveryFrame (correlationId : NonZeroU64) :
    ServiceObservationDelivery → Exec LocalExecutorError LocalFrame
  | .completed metadata payload =>
    let frame := LocalFrame.observation correlationId metadata payload
    if (encodeFrame ext.frame frame context.frameConfig).isOk then .ok frame
    else failureFrameFor ext correlationId context .limitExceeded
  | .failed _ code => failureFrameFor ext correlationId context code

def observationDeliveryFrame (delivery : ServiceObservationDelivery) : Method S LocalFrame := do
  let core ← Call.get
  match core.observationCorrelations[delivery.observationId]? with
  | none => Call.fail (.stateInvariant "observation completion had no live correlation")
  | some pending =>
    let output ← Call.lift (deliveryFrame ext context pending.correlationId delivery)
    releaseObservation delivery.observationId pending.correlationId
    pure output

/-- The part of `advance` that is about observations. -/
def advanceObservation : Method S (Option LocalFrame) := do
  let core ← Call.get
  match core.observationOrder with
  | [] => pure none
  | oldest :: _ =>
    match ← onService svc.pollObservation with
    | .ok (some delivery) =>
      let output ← observationDeliveryFrame ext context delivery
      pure (some output)
    | .ok none =>
      match core.observationOrder.find? fun id => id ∉ core.observationPendingReported with
      | none => pure none
      | some observationId =>
        let pending ← Call.lift
          (Exec.expect "no entry found for key" core.observationCorrelations[observationId]?)
        let output ← Call.lift (controlFrameFor ext pending.correlationId context
          (.observationPending ⟨observationId, pending.sceneRevision⟩))
        Call.modify fun core =>
          { core with
            observationPendingReported := core.observationPendingReported.insert observationId }
        pure (some output)
    | .error code =>
      let pending ← Call.lift
        (Exec.expect "no entry found for key" core.observationCorrelations[oldest]?)
      let output ← Call.lift (failureFrameFor ext pending.correlationId context code)
      releaseObservation oldest pending.correlationId
      pure (some output)

end

def advance (ext : ExecutorExternals) (svc : SessionService S) : Method S (List LocalFrame) := do
  let core ← Call.get
  match core.state with
  | .awaitingHello | .closed _ => pure []
  | .active terms =>
    let command ← advanceCommand ext svc terms.context
    let observation ← advanceObservation ext svc terms.context
    pure (command.toList ++ observation.toList)

theorem exists_terms {core : SessionCore S} (h : core.status.phase = .active) :
    ∃ terms, core.state = .active terms ∧ core.currentOutputContext = terms.context := by
  rw [status] at h
  cases hstate : core.state with
  | awaitingHello =>
    rw [hstate] at h
    cases h
  | active terms => exact ⟨terms, rfl, by rw [currentOutputContext, hstate]⟩
  | closed terms =>
    rw [hstate] at h
    cases h

/-! ### A session does not go back -/

def Opened (core : SessionCore S) : Prop := core.state ≠ .awaitingHello

section

variable {ext : ExecutorExternals} {svc : SessionService S} {correlationId : NonZeroU64}
  {context : SessionOutputContext} {α : Type}

theorem opened_onService (x : Call S SessionFailureCode α) : (onService x).Preserves Opened :=
  fun _ h => h

theorem opened_reserveCorrelation :
    (reserveCorrelation correlationId : Method S Unit).Preserves Opened := by
  refine .get fun core => ?_
  split
  · exact .fail _
  split
  · exact .fail _
  · exact .modify fun _ h => h

theorem opened_releaseCorrelation :
    (releaseCorrelation correlationId : Method S Unit).Preserves Opened := by
  refine .get fun core => ?_
  split
  · exact .modify fun _ h => h
  · exact .fail _

theorem opened_ensureAdmissionKey (submitted admitted : IdempotencyKey) :
    (ensureAdmissionKey submitted admitted : Method S Unit).Preserves Opened := by
  rw [ensureAdmissionKey]
  split
  · exact .pure _
  · exact .fail _

theorem opened_queueCommand {beyondCapacity : String} {key : IdempotencyKey}
    {admission : Exec LocalExecutorError LocalFrame} {kind : PendingCommandKind} :
    (queueCommand svc correlationId beyondCapacity key admission kind).Preserves Opened := by
  refine .get fun core => ?_
  split
  · exact .fail _
  refine .bind (.lift _) fun output => ?_
  refine .bind opened_reserveCorrelation fun _ => ?_
  exact .bind (.modify fun _ h => h) fun _ => .pure _

theorem opened_supersedeCommand {notLive notOrdered : String} {key old : IdempotencyKey}
    {admission : Exec LocalExecutorError LocalFrame} {kind : PendingCommandKind} :
    (supersedeCommand ext correlationId context notLive notOrdered key old admission kind :
      Method S _).Preserves Opened := by
  refine .get fun core => ?_
  split
  · exact .fail _
  refine .bind (.lift _) fun rejected => ?_
  refine .bind (.lift _) fun admitted => ?_
  split
  · exact .fail _
  refine .bind (.modify fun _ h => h) fun _ => ?_
  refine .bind opened_releaseCorrelation fun _ => ?_
  refine .bind opened_reserveCorrelation fun _ => ?_
  exact .bind (.modify fun _ h => h) fun _ => .pure _

theorem opened_lift_bind {β : Type} (x : Exec LocalExecutorError β) (f : β → α) :
    (Call.lift x >>= fun b => pure (f b) : Method S α).Preserves Opened :=
  .bind (.lift _) fun _ => .pure _

theorem opened_submitPatch (patch : ScenePatch) :
    (submitPatch ext svc correlationId context patch).Preserves Opened := by
  refine .get fun core => ?_
  split
  · exact .lift _
  refine .bind (opened_onService _) fun answer => ?_
  split
  · exact .lift _
  rename_i admission
  rw [handlePatchAdmission.eq_def]
  split
  · exact .bind (opened_ensureAdmissionKey _ _) fun _ => opened_queueCommand
  · refine .bind (opened_ensureAdmissionKey _ _) fun _ => .get fun core => ?_
    split
    · exact opened_lift_bind _ _
    · exact .fail _
  · exact .bind (opened_ensureAdmissionKey _ _) fun _ => opened_lift_bind _ _
  · exact .bind (opened_ensureAdmissionKey _ _) fun _ => opened_lift_bind _ _
  · exact .fail _
  · exact .bind (opened_ensureAdmissionKey _ _) fun _ => opened_supersedeCommand

theorem opened_handleImaginationReplay (submitted : SubmittedImagination)
    (response : GatewayResponse) :
    (handleImaginationReplay ext svc correlationId context submitted response).Preserves Opened := by
  rw [handleImaginationReplay.eq_def]
  split
  · exact .fail _
  refine .get fun core => ?_
  split
  · exact opened_lift_bind _ _
  · exact .lift _
  · exact .fail _

theorem opened_submitImagination (imagination : ImaginationEnvelope) :
    (submitImagination ext svc correlationId context imagination).Preserves Opened := by
  refine .get fun core => ?_
  split
  · exact .lift _
  split
  · exact .lift _
  refine .bind (opened_onService _) fun answer => ?_
  split
  · exact .lift _
  rename_i admission
  rw [handleImaginationAdmission.eq_def]
  split
  · exact .bind (opened_ensureAdmissionKey _ _) fun _ => opened_queueCommand
  · refine .bind (opened_ensureAdmissionKey _ _) fun _ => .get fun core => ?_
    split
    · exact opened_lift_bind _ _
    · exact .fail _
  · exact .bind (opened_ensureAdmissionKey _ _) fun _ => opened_lift_bind _ _
  · exact opened_handleImaginationReplay _ _
  · exact .bind (opened_ensureAdmissionKey _ _) fun _ => opened_supersedeCommand

theorem opened_query (value : SceneQuery) :
    (query ext svc correlationId context value).Preserves Opened := by
  refine .get fun core => ?_
  split
  · exact opened_lift_bind _ _
  · exact .lift _
  · exact .lift _
  · exact .lift _

theorem opened_requestObservation (request : ObservationRequest) :
    (requestObservation ext svc correlationId context request).Preserves Opened := by
  refine .get fun core => ?_
  split
  · exact .lift _
  split
  · exact .lift _
  split
  · exact .lift _
  refine .bind (.lift _) fun output => .bind (opened_onService _) fun answer => ?_
  split
  · exact .lift _
  refine .bind opened_reserveCorrelation fun _ => ?_
  exact .bind (.modify fun _ h => h) fun _ => .pure _

theorem opened_close : (close ext svc correlationId context).Preserves Opened := by
  refine .get fun core => ?_
  split
  · exact .lift _
  refine .bind (.lift _) fun output => ?_
  split
  · exact .fail _
  · exact .bind (.modify (by simp [Opened])) fun _ => .pure _
  · exact .bind (.modify (by simp [Opened])) fun _ => .pure _

theorem opened_handleActive (schemaVersion : UInt16) (message : LocalSessionClientKind) :
    (handleActive ext svc correlationId schemaVersion message).Preserves Opened := by
  refine .get fun core => ?_
  dsimp only
  split
  · exact .lift _
  split
  · exact .lift _
  split
  · exact .lift _
  · exact opened_submitPatch _
  · exact opened_submitImagination _
  · exact opened_query _
  · exact opened_requestObservation _
  · exact opened_close

theorem opened_handleFrame (frame : LocalFrame) :
    (handleFrame ext svc frame).Preserves Opened := by
  intro core hopened
  rw [handleFrame, Call.get_bind]
  cases decodeClientControlFrame ext.session frame core.currentFrameConfig with
  | error error => exact hopened
  | ok message =>
    cases hstate : core.state with
    | awaitingHello => exact absurd hstate hopened
    | active terms => exact opened_handleActive _ _ core hopened
    | closed terms => exact hopened

theorem opened_advanceCommand : (advanceCommand ext svc context).Preserves Opened := by
  refine .get fun core => ?_
  split
  · exact .pure _
  refine .bind (.modify fun _ h => h) fun _ => ?_
  split
  · exact .fail _
  refine .bind (.modify fun _ h => h) fun _ => ?_
  refine .bind (opened_onService _) fun response => ?_
  have hsend : ∀ (message : LocalSessionServerKind) (pending : PendingCommand),
      (do
        let output ← Call.lift
          (controlOrLimitFailureFor ext pending.correlationId context message)
        releaseCorrelation pending.correlationId
        pure (some output) : Method S (Option LocalFrame)).Preserves Opened := by
    intro message pending
    exact .bind (.lift _) fun output => .bind opened_releaseCorrelation fun _ => .pure _
  split
  · exact hsend _ _
  · exact hsend _ _
  · exact .bind (.fail _) fun _ => hsend _ _

theorem opened_releaseObservation (observationId : ObservationId) :
    (releaseObservation observationId correlationId : Method S Unit).Preserves Opened := by
  refine .bind (.modify fun _ h => h) fun _ => .get fun core => ?_
  split
  · exact .fail _
  · exact .bind (.modify fun _ h => h) fun _ => opened_releaseCorrelation

theorem opened_observationDeliveryFrame (delivery : ServiceObservationDelivery) :
    (observationDeliveryFrame ext context delivery : Method S _).Preserves Opened := by
  refine .get fun core => ?_
  split
  · exact .fail _
  · exact .bind (.lift _) fun output => .bind (opened_releaseObservation _) fun _ => .pure _

theorem opened_advanceObservation : (advanceObservation ext svc context).Preserves Opened := by
  refine .get fun core => ?_
  split
  · exact .pure _
  refine .bind (opened_onService _) fun answer => ?_
  split
  · exact .bind (opened_observationDeliveryFrame _) fun _ => .pure _
  · split
    · exact .pure _
    · refine .bind (.lift _) fun pending => .bind (.lift _) fun output => ?_
      exact .bind (.modify fun _ h => h) fun _ => .pure _
  · refine .bind (.lift _) fun pending => .bind (.lift _) fun output => ?_
    exact .bind (opened_releaseObservation _) fun _ => .pure _

theorem opened_advance : (advance ext svc).Preserves Opened := by
  refine .get fun core => ?_
  split
  · exact .pure _
  · exact .pure _
  · exact .bind opened_advanceCommand fun _ => .bind opened_advanceObservation fun _ => .pure _

end

end SessionCore

end Cogniform
