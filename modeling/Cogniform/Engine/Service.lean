import Cogniform.Compiler.Compile
import Cogniform.Engine.Gateway
import Cogniform.Engine.Observation

/-!
# The local service

One gateway with the observation path of its engine. The compiler is the deterministic one, under
limits an adapter may narrow while no command is queued. Services are new, restored from a recovery
point, or reverted to an older revision of their own.

Assets and procedures are left out: assets do not meet any of the state below, and a procedure
submits an ordinary patch. What a service retains is described relative to the commands ever
submitted to it, which are told apart by fingerprints.
-/

namespace Cogniform

open AuthoritativeWorld (ApplyClock)

structure LocalServiceConfig where
  engine : EngineConfig
  gateway : GatewayConfig

def LocalServiceConfig.new (width height : UInt32) : LocalServiceConfig :=
  ⟨.new width height, .default⟩

structure ServiceExternals extends GatewayExternals where
  compilationJson : SerdeWriter CompilationResult

inductive LocalRevertError where
  | targetIsCurrent (revision : SceneRevision)
  | notQuiescent (commandDepth outstandingObservations pendingAssetImports pendingAssetUploads : ℕ)
  deriving DecidableEq

inductive LocalServiceError where
  | revert (error : LocalRevertError)
  | gateway (error : GatewayError)
  | engine (error : EngineError)
  deriving DecidableEq

structure LocalRevertReceipt where
  previousRevision : SceneRevision
  targetRevision : SceneRevision
  removedReplayEntries : ℕ
  nextFrameId : FrameId
  clearedCompletedResults : ℕ
  deriving DecidableEq

namespace LocalGateway

def compilerFor (ext : ServiceExternals) (limits : RuntimeLimits)
    (compilationLimits : CompilationLimits) : Compiler :=
  CompilerConfig.compile ext.sha256 ext.compilationJson
    { CompilerConfig.new limits with compilationLimits := compilationLimits }

def configureCompilationLimits (ext : ServiceExternals) (gateway : LocalGateway)
    (compilationLimits : CompilationLimits) : LocalGateway × Except GatewayError Unit :=
  if gateway.queue.depth ≠ 0 then
    (gateway, .error (.invalidConfig "compilation limits require an empty command queue"))
  else if !compilationLimitsFit compilationLimits (.forRuntimeLimits gateway.limits) then
    (gateway, .error (.invalidConfig "compilation limits exceed gateway runtime policy"))
  else
    ({ gateway with compiler := compilerFor ext gateway.limits compilationLimits }, .ok ())

end LocalGateway

def SceneQuery.selects (query : SceneQuery) (entity : EntitySnapshot) : Bool :=
  query.entityIds.isEmpty || query.entityIds.contains entity.entityId

def SceneQuery.view (query : SceneQuery) (entity : EntitySnapshot) : SceneEntityView :=
  ⟨entity.entityId, entity.parentId, entity.components.filter fun component =>
    query.componentKinds.isEmpty || query.componentKinds.contains component.kind⟩

def executeQuery (snapshot : WorldSnapshot) (query : SceneQuery) (limits : RuntimeLimits) :
    Except GatewayError SceneQueryResult :=
  let matching := snapshot.entities.filter query.selects
  if query.sceneRevision ≠ snapshot.revision then
    .error (.queryRevisionMismatch query.sceneRevision snapshot.revision)
  else if query.limit.get < count matching.length then
    .error (.queryResultCapacityExceeded (count matching.length) query.limit.get)
  else
    let result : SceneQueryResult := ⟨.v1, snapshot.revision, matching.map query.view⟩
    match result.validate limits with
    | .error error => .error (.invalidQueryResult error)
    | .ok () => .ok result

def LocalGateway.query (gateway : LocalGateway) (query : SceneQuery) :
    Exec GatewayError SceneQueryResult := do
  (Exec.ofExcept (query.validate gateway.limits)).mapError .invalidCommand
  let snapshot ← gateway.engine.world.world.snapshot.mapError .worldView
  Exec.ofExcept (executeQuery snapshot query gateway.limits)

/-- `HeadlessRenderer::submit_scene`, given what the device and the readback pool answer. -/
def HeadlessRenderer.submitScene (renderer : HeadlessRenderer) (device : Except RendererError Unit) :
    Exec RendererError (FrameId × HeadlessRenderer) := do
  Exec.ofExcept device
  renderer.submit

/-! ### The service -/

structure LocalService where
  config : LocalServiceConfig
  gateway : LocalGateway
  observations : ObservationQueue

namespace LocalService

def assemble (ext : ServiceExternals) (config : LocalServiceConfig) (engine : CogniformEngine) :
    Exec LocalServiceError LocalService := do
  let limits := engine.world.world.config.runtimeLimits
  let gateway ← (Exec.ofExcept (LocalGateway.new engine config.gateway
    (LocalGateway.compilerFor ext limits (.forRuntimeLimits limits)))).mapError .gateway
  .ok ⟨config, gateway,
    .started config.engine.observationCapacity config.engine.world.runtimeLimits⟩

def checkConfig (config : LocalServiceConfig) : Exec LocalServiceError Unit := do
  (Exec.ofExcept config.engine.validate).mapError .engine
  (Exec.ofExcept (config.gateway.validate config.engine.world.runtimeLimits
    config.engine.world.maxIdempotencyRecords.get)).mapError .gateway

def new (ext : ServiceExternals) (config : LocalServiceConfig) (startup : Startup) :
    Exec LocalServiceError LocalService := do
  checkConfig config
  let engine ← (CogniformEngine.new config.engine startup).mapError .engine
  assemble ext config engine

def restore (ext : ServiceExternals) (clocks : ℕ → ApplyClock) (config : LocalServiceConfig)
    (startup : Startup) (recovery : EngineRecoveryPoint) : Exec LocalServiceError LocalService := do
  checkConfig config
  let world ← (CogniformEngine.prepareRestore ext.toExternals clocks config.engine
    recovery).mapError .engine
  (Exec.ofExcept (config.gateway.validate config.engine.world.runtimeLimits
    (world.world.config.maxIdempotencyRecords.get -
      count world.world.idempotencyRecords.size))).mapError .gateway
  let engine ← (CogniformEngine.restorePrepared config.engine startup recovery.nextFrameId
    world).mapError .engine
  assemble ext config engine

def revision (service : LocalService) : SceneRevision := service.gateway.engine.world.world.revision

def runtimeLimits (service : LocalService) : RuntimeLimits :=
  service.gateway.engine.world.world.config.runtimeLimits

/-- `revert_to_revision`: replace the service by its own past. What waits in the asset queues is
given. -/
def revertToRevision (ext : ServiceExternals) (clocks : ℕ → ApplyClock) (startup : Startup)
    (pendingAssetImports pendingAssetUploads : ℕ) (service : LocalService)
    (revision : SceneRevision) : LocalService × Exec LocalServiceError LocalRevertReceipt :=
  if revision = service.revision then
    (service, Exec.fail (.revert (.targetIsCurrent revision)))
  else
    match (service.gateway.engine.recoveryPointAtRevision revision).mapError .engine with
    | .error abort => (service, .error abort)
    | .ok recovery =>
      if service.gateway.queue.depth ≠ 0 ∨ service.observations.outstanding ≠ 0
          ∨ pendingAssetImports ≠ 0 ∨ pendingAssetUploads ≠ 0 then
        (service, Exec.fail (.revert (.notQuiescent service.gateway.queue.depth
          service.observations.outstanding pendingAssetImports pendingAssetUploads)))
      else
        match restore ext clocks service.config startup recovery with
        | .error abort => (service, .error abort)
        | .ok replacement =>
          (replacement, .ok {
            previousRevision := service.revision
            targetRevision := revision
            removedReplayEntries := service.revision.get.toNat - revision.get.toNat
            nextFrameId := recovery.nextFrameId
            clearedCompletedResults := count service.gateway.completed.size })

def submit (ext : ServiceExternals) (service : LocalService) (command : GatewayCommand)
    (queuedAt : ℕ) : LocalService × Except LocalServiceError GatewayAdmission :=
  let submitted := service.gateway.submit ext.toGatewayExternals command queuedAt
  ({ service with gateway := submitted.1 }, submitted.2.mapError .gateway)

def submitPatch (ext : ServiceExternals) (service : LocalService) (patch : ScenePatch)
    (queuedAt : ℕ) : LocalService × Except LocalServiceError GatewayAdmission :=
  service.submit ext (.patch patch) queuedAt

def submitImagination (ext : ServiceExternals) (service : LocalService)
    (imagination : ImaginationEnvelope) (queuedAt : ℕ) :
    LocalService × Except LocalServiceError GatewayAdmission :=
  service.submit ext (.imagination imagination) queuedAt

def configureCompilationLimits (ext : ServiceExternals) (service : LocalService)
    (limits : CompilationLimits) : LocalService × Except LocalServiceError Unit :=
  let configured := service.gateway.configureCompilationLimits ext limits
  ({ service with gateway := configured.1 }, configured.2.mapError .gateway)

def processNext (ext : ServiceExternals) (service : LocalService) (clock : ApplyClock) :
    LocalService × Exec LocalServiceError (Option GatewayResponse) :=
  let processed := service.gateway.processNext ext.toGatewayExternals clock
  ({ service with gateway := processed.1 }, processed.2.mapError .gateway)

def query (service : LocalService) (query : SceneQuery) : Exec LocalServiceError SceneQueryResult :=
  (service.gateway.query query).mapError .gateway

/-- `request_observation`, given what the device answers. The permit is dropped if no frame is
submitted. -/
def requestObservation (service : LocalService) (request : ObservationRequest)
    (device : Except RendererError Unit) : LocalService × Exec LocalServiceError Unit :=
  let engine := service.gateway.engine
  match request.validate service.runtimeLimits with
  | .error error => (service, Exec.fail (.engine (.observation (.invalidRequest error))))
  | .ok () =>
    if request.sceneRevision ≠ service.revision then
      (service, Exec.fail (.engine (.observation
        (.requestRevisionMismatch request.sceneRevision service.revision))))
    else
      match service.observations.tryReserve with
      | (_, .error abort) =>
        (service, Exec.mapError (.engine ∘ .observation) (.error abort))
      | (reserved, .ok permit) =>
        match engine.renderer.submitScene device with
        | .error (.error error) =>
          let dropped := reserved.dropPermit permit (LocalServiceError.engine (.renderer error))
          ({ service with observations := dropped.1 }, dropped.2)
        | .error (.panic message) =>
          ({ service with observations := reserved }, .error (.panic message))
        | .error .diverge => ({ service with observations := reserved }, .error .diverge)
        | .ok (frameId, renderer) =>
          let submitted := reserved.submitReserved permit
            ⟨frameId, engine.renderer.scene.revision, request.cameraId⟩ request
          ({ service with
              gateway := { service.gateway with engine := { engine with renderer := renderer } }
              observations := submitted.1 },
            submitted.2.mapError (.engine ∘ .observation))

def tryReceiveObservationDelivery (service : LocalService) :
    LocalService × Exec LocalServiceError (Option ObservationDelivery) :=
  let received := service.observations.tryReceiveDelivery service.revision
  ({ service with observations := received.1 }, received.2.mapError (.engine ∘ .observation))

/-- The services that runs lead to, while only commands of a set are submitted. A call counts once
it has returned; the worker takes its steps between the calls. -/
inductive Run (ext : ServiceExternals) (commands : Set GatewayCommand) : LocalService → Prop where
  | new {config : LocalServiceConfig} {startup : Startup} {service : LocalService}
      (h : LocalService.new ext config startup = .ok service) : Run ext commands service
  | restore {clocks : ℕ → ApplyClock} {config : LocalServiceConfig} {startup : Startup}
      {recovery : EngineRecoveryPoint} {service : LocalService}
      (h : LocalService.restore ext clocks config startup recovery = .ok service) :
      Run ext commands service
  | revertToRevision {service : LocalService} (h : Run ext commands service)
      (clocks : ℕ → ApplyClock) (startup : Startup) (imports uploads : ℕ)
      (revision : SceneRevision) :
      Run ext commands (service.revertToRevision ext clocks startup imports uploads revision).1
  | submit {service : LocalService} (h : Run ext commands service) {command : GatewayCommand}
      (hcommand : command ∈ commands) (queuedAt : ℕ) :
      Run ext commands (service.submit ext command queuedAt).1
  | configureCompilationLimits {service : LocalService} (h : Run ext commands service)
      (limits : CompilationLimits) :
      Run ext commands (service.configureCompilationLimits ext limits).1
  | processNext {service : LocalService} (h : Run ext commands service) (clock : ApplyClock)
      (hreturns : (service.processNext ext clock).2.Returns) :
      Run ext commands (service.processNext ext clock).1
  | requestObservation {service : LocalService} (h : Run ext commands service)
      (request : ObservationRequest) (device : Except RendererError Unit) :
      Run ext commands (service.requestObservation request device).1
  | tryReceiveObservationDelivery {service : LocalService} (h : Run ext commands service)
      (hreturns : service.tryReceiveObservationDelivery.2.Returns) :
      Run ext commands service.tryReceiveObservationDelivery.1
  | worker {service : LocalService} (h : Run ext commands service) {queue : ObservationQueue}
      (hstep : service.observations.WorkerStep queue) :
      Run ext commands { service with observations := queue }

end LocalService

def GatewayResponse.receipt? : GatewayResponse → Option ApplyReceipt
  | .patchApplied receipt => some receipt
  | .imaginationProcessed _ receipt => receipt

/-- The response to an imagination: the compiler's result answers it, and its patch was applied under
the same key. -/
structure ImaginationEnvelope.AnsweredBy (ext : ServiceExternals) (limits : RuntimeLimits)
    (imagination : ImaginationEnvelope) (compilation : CompilationResult)
    (receipt : Option ApplyReceipt) : Prop where
  imaginationId : compilation.imaginationId = imagination.imaginationId
  sceneRevision : compilation.sceneRevision = imagination.baseRevision
  patch : ∀ patch, compilation.patch = some patch →
    patch.idempotencyKey = imagination.idempotencyKey ∧
      patch.transactionId = imagination.transactionId
  encodable : ∃ encoded, compilation.toCanonicalJson ext.compilationJson
    (.forRuntimeLimits limits) = .ok encoded
  receipt_isSome : receipt.isSome = compilation.patch.isSome
  receipt_key : ∀ applied, receipt = some applied →
    applied.idempotencyKey = imagination.idempotencyKey

def GatewayCommand.AnsweredBy (ext : ServiceExternals) (limits : RuntimeLimits) :
    GatewayCommand → GatewayResponse → Prop
  | .patch value, .patchApplied receipt => receipt.idempotencyKey = value.idempotencyKey
  | .imagination value, .imaginationProcessed compilation receipt =>
    value.AnsweredBy ext limits compilation receipt
  | _, _ => False

namespace LocalService

/-! ### The invariant -/

/-- Queue, completions and compiler of a service fit its configuration, and what it retains comes
from the commands of the set. -/
structure Valid (ext : ServiceExternals) (commands : Set GatewayCommand) (service : LocalService) :
    Prop where
  gateway : LocalGateway.Valid ext.toGatewayExternals service.config.engine service.config.gateway
    service.gateway
  limits : service.gateway.limits = service.config.engine.world.runtimeLimits
  observations : ObservationQueue.Valid [] service.observations
  capacity : service.observations.slots.capacity = service.config.engine.observationCapacity
  /-- Queued commands are of the set, with their own fingerprints. -/
  queued : ∀ record ∈ service.gateway.queue.entries, record.command ∈ commands ∧
    record.command.fingerprint ext.toGatewayExternals service.gateway.limits =
      .ok record.fingerprint
  completed : ∀ (key : IdempotencyKey) record, service.gateway.completed[key]? = some record →
    ∃ command ∈ commands, command.idempotencyKey = key ∧
      command.fingerprint ext.toGatewayExternals service.gateway.limits = .ok record.fingerprint ∧
      command.AnsweredBy ext service.gateway.limits record.response
  /-- The compiler is the deterministic one, within the limits of results. -/
  compiler : ∃ compilationLimits ≤ CompilationLimits.forRuntimeLimits service.gateway.limits,
    service.gateway.compiler =
      LocalGateway.compilerFor ext service.gateway.limits compilationLimits

variable {ext : ServiceExternals} {commands : Set GatewayCommand} {service : LocalService}

namespace Valid

theorem runtimeLimits (h : Valid ext commands service) :
    service.runtimeLimits = service.gateway.limits := by
  rw [LocalService.runtimeLimits, h.limits,
    h.gateway.engine.inStep.follows.reachable.config_eq]

theorem assemble {config : LocalServiceConfig} {engine : CogniformEngine}
    (hengine : CogniformEngine.Run ext.toExternals config.engine engine)
    (h : LocalService.assemble ext config engine = .ok service) : Valid ext commands service := by
  have hconfig := hengine.inStep.follows.reachable.config_eq
  obtain ⟨gateway, hgateway, h⟩ := Exec.bind_eq_ok.mp h
  cases h
  have hnew := Exec.ofExcept_eq_ok.mp (Exec.mapError_eq_ok.mp hgateway)
  have hvalid : LocalGateway.Valid ext.toGatewayExternals config.engine config.gateway gateway :=
    .new hengine hnew
  rw [LocalGateway.new] at hnew
  split at hnew
  · cases hnew
  cases hnew
  refine ⟨hvalid, by rw [hconfig], .started _ _, rfl, fun _ h => (by cases h), ?_,
    ⟨.forRuntimeLimits engine.world.world.config.runtimeLimits, le_refl _, rfl⟩⟩
  intro key record hrecord
  simp at hrecord

theorem new {config : LocalServiceConfig} {startup : Startup}
    (h : LocalService.new ext config startup = .ok service) : Valid ext commands service := by
  obtain ⟨⟨⟩, -, h⟩ := Exec.bind_eq_ok.mp h
  obtain ⟨engine, hengine, h⟩ := Exec.bind_eq_ok.mp h
  exact assemble (.new (Exec.mapError_eq_ok.mp hengine)) h

theorem restore {clocks : ℕ → ApplyClock} {config : LocalServiceConfig} {startup : Startup}
    {recovery : EngineRecoveryPoint}
    (h : LocalService.restore ext clocks config startup recovery = .ok service) :
    Valid ext commands service := by
  obtain ⟨⟨⟩, -, h⟩ := Exec.bind_eq_ok.mp h
  obtain ⟨world, hworld, h⟩ := Exec.bind_eq_ok.mp h
  obtain ⟨⟨⟩, -, h⟩ := Exec.bind_eq_ok.mp h
  obtain ⟨engine, hengine, h⟩ := Exec.bind_eq_ok.mp h
  have hrestore : CogniformEngine.restore ext.toExternals clocks config.engine startup recovery =
      .ok engine :=
    Exec.bind_eq_ok.mpr ⟨world, Exec.mapError_eq_ok.mp hworld, Exec.mapError_eq_ok.mp hengine⟩
  exact assemble (.restore hrestore) h

theorem revertToRevision (h : Valid ext commands service) (clocks : ℕ → ApplyClock)
    (startup : Startup) (imports uploads : ℕ) (revision : SceneRevision) :
    Valid ext commands
      (service.revertToRevision ext clocks startup imports uploads revision).1 := by
  rw [LocalService.revertToRevision]
  split
  · exact h
  split
  · exact h
  split
  · exact h
  split
  · exact h
  · rename_i hrestore
    exact .restore hrestore

theorem submit (h : Valid ext commands service) {command : GatewayCommand}
    (hcommand : command ∈ commands) (queuedAt : ℕ) :
    Valid ext commands (service.submit ext command queuedAt).1 := by
  have hgateway := h.gateway.submit command queuedAt
  rw [LocalService.submit]
  rcases LocalGateway.submit_cases ext.toGatewayExternals service.gateway command queuedAt with
    ⟨heq, -⟩ | ⟨fingerprint, -, hfingerprint, -, heq⟩
  · rw [heq]
    exact h
  · rw [heq] at hgateway ⊢
    refine ⟨hgateway, h.limits, h.observations, h.capacity, fun record hrecord => ?_, h.completed,
      h.compiler⟩
    rcases (CommandQueue.admitRecord_admits ..).mem hrecord with hold | rfl
    · exact h.queued record hold
    · exact ⟨hcommand, hfingerprint⟩

theorem configureCompilationLimits (h : Valid ext commands service) (limits : CompilationLimits) :
    Valid ext commands (service.configureCompilationLimits ext limits).1 := by
  rw [LocalService.configureCompilationLimits, LocalGateway.configureCompilationLimits]
  split
  · exact h
  split
  · exact h
  · rename_i hfits
    rw [Bool.not_eq_true', Bool.not_eq_false, CompilationLimits.compilationLimitsFit_iff] at hfits
    have hgateway := h.gateway
    exact ⟨⟨hgateway.engine, hgateway.capacity, hgateway.idempotency, hgateway.keys,
      hgateway.fresh, hgateway.supersession, hgateway.depth, hgateway.budget, hgateway.retained⟩,
      h.limits, h.observations, h.capacity, h.queued, h.completed, ⟨limits, hfits, rfl⟩⟩

theorem compiled (h : Valid ext commands service) {imagination : ImaginationEnvelope}
    {compilation : CompilationResult}
    (hok : service.gateway.compile imagination = .ok compilation) :
    ∃ config : CompilerConfig,
      config.compilationLimits ≤ .forRuntimeLimits service.gateway.limits ∧
        config.Answers ext.compilationJson imagination compilation := by
  obtain ⟨snapshot, -, hok⟩ := Exec.bind_eq_ok.mp hok
  obtain ⟨limits, hle, hcompiler⟩ := h.compiler
  rw [hcompiler] at hok
  exact ⟨_, hle, CompilerConfig.compile_answers (Exec.mapError_eq_ok.mp hok)⟩

/-- **One processed command.** It is answered, and the receipt says whether the world had no result
under its key. -/
theorem executed (h : Valid ext commands service) {command : GatewayCommand} {clock : ApplyClock}
    {response : GatewayResponse}
    (hok : (service.gateway.execute ext.toGatewayExternals command clock).2 = .ok response) :
    command.AnsweredBy ext service.gateway.limits response ∧
      ∀ receipt, response.receipt? = some receipt → (receipt.status = .applied ↔
        service.gateway.engine.world.world.idempotencyRecords[command.idempotencyKey]? = none) := by
  have hstep := h.gateway.engine.inStep
  cases command with
  | patch patch =>
    obtain ⟨receipt, hreceipt, rfl⟩ := Exec.map_eq_ok.mp hok
    obtain ⟨hkey, hstatus⟩ := hstep.applyPatch_receipt (Exec.mapError_eq_ok.mp hreceipt)
    refine ⟨hkey, fun other hother => ?_⟩
    cases hother
    exact hstatus
  | imagination imagination =>
    simp only [LocalGateway.execute] at hok
    split at hok
    · cases hok
    rename_i compilation hcompile
    obtain ⟨config, hle, hanswers⟩ := h.compiled hcompile
    obtain ⟨encoded, hencoded⟩ := hanswers.encodable
    have hencodable := CompilationResult.toCanonicalJson_mono hle hencoded
    split at hok
    · rename_i hpatch
      cases hok
      exact ⟨⟨hanswers.imaginationId, hanswers.sceneRevision, hanswers.patch, ⟨_, hencodable⟩,
        by rw [hpatch]; rfl, by simp⟩, fun _ h => by cases h⟩
    · rename_i patch hpatch
      obtain ⟨receipt, hreceipt, rfl⟩ := Exec.map_eq_ok.mp hok
      obtain ⟨hkey, hstatus⟩ := hstep.applyPatch_receipt (Exec.mapError_eq_ok.mp hreceipt)
      rw [(hanswers.patch patch hpatch).1] at hkey hstatus
      refine ⟨⟨hanswers.imaginationId, hanswers.sceneRevision, hanswers.patch, ⟨_, hencodable⟩,
        by rw [hpatch]; rfl, fun applied happlied => ?_⟩, fun applied happlied => ?_⟩
      · cases happlied
        exact hkey
      · cases happlied
        exact hstatus

theorem processNext (h : Valid ext commands service) {clock : ApplyClock}
    (hreturns : (service.processNext ext clock).2.Returns) :
    Valid ext commands (service.processNext ext clock).1 := by
  have hreturns' : (service.gateway.processNext ext.toGatewayExternals clock).2.Returns :=
    hreturns.of_mapError
  have hgateway := h.gateway.processNext hreturns'
  rw [LocalService.processNext]
  rcases LocalGateway.processNext_cases ext.toGatewayExternals service.gateway clock with
    ⟨-, heq⟩ | ⟨record, rest, hentries, hcase⟩
  · rw [heq]
    exact h
  have hrest : ∀ other ∈ rest, other.command ∈ commands ∧
      other.command.fingerprint ext.toGatewayExternals service.gateway.limits =
        .ok other.fingerprint :=
    fun other hother => h.queued other (by rw [hentries]; exact List.mem_cons_of_mem _ hother)
  rcases hcase with ⟨abort, -, heq⟩ | ⟨response, hexecute, heq⟩
  · rw [heq] at hgateway ⊢
    exact ⟨hgateway, h.limits, h.observations, h.capacity, hrest, h.completed, h.compiler⟩
  · rw [heq] at hgateway ⊢
    refine ⟨hgateway, h.limits, h.observations, h.capacity, hrest, fun key other hother => ?_,
      h.compiler⟩
    obtain ⟨hcommand, hfingerprint⟩ := h.queued record (by rw [hentries]; exact List.mem_cons_self)
    dsimp only at hother
    rw [TreeMap.getElem?_insert] at hother
    split at hother
    · rename_i hkey
      cases hother
      exact ⟨record.command, hcommand, hkey.symm, hfingerprint, (h.executed hexecute).1⟩
    · exact h.completed key other hother

end Valid

/-- What a request for an observation leaves: if it is accepted it is the last to be delivered, and
if not, nothing changes in what is. -/
structure Requested (ext : ServiceExternals) (commands : Set GatewayCommand)
    (service service' : LocalService) (id : ObservationId) (outcome : Exec LocalServiceError Unit) :
    Prop where
  valid : Valid ext commands service'
  config : service'.config = service.config
  queue : service'.gateway.queue = service.gateway.queue
  outcome : (outcome = .ok () ∧ service'.observations.deliverable.Sublist
      (service.observations.deliverable ++ [id])) ∨
    (∃ error, outcome = Exec.fail error) ∧
      service'.observations.deliverable = service.observations.deliverable

theorem Requested.refused (h : Valid ext commands service) (id : ObservationId)
    (error : LocalServiceError) : Requested ext commands service service id (Exec.fail error) :=
  ⟨h, rfl, rfl, .inr ⟨⟨error, rfl⟩, rfl⟩⟩

theorem Valid.requestObservation (h : Valid ext commands service) (request : ObservationRequest)
    (device : Except RendererError Unit) :
    Requested ext commands service (service.requestObservation request device).1
      request.observationId (service.requestObservation request device).2 := by
  simp only [LocalService.requestObservation]
  split
  · exact .refused h _ _
  split
  · exact .refused h _ _
  split
  · rename_i hreserve
    rw [ObservationQueue.tryReserve] at hreserve
    split at hreserve
    · cases hreserve
      exact .refused h _ _
    · cases hreserve
  · rename_i reserved permit hreserve
    obtain ⟨hreserved, hcapacity, hsame⟩ := h.observations.tryReserve hreserve
    have hscene : (service.gateway.engine.renderer.submitScene device).Returns :=
      .bind (.ofExcept device) fun _ _ => .bind (.okOr _ _) fun _ _ => .ok _
    rcases hscene with ⟨⟨frameId, renderer⟩, hscene⟩ | ⟨error, hscene⟩
    · obtain ⟨⟨⟩, -, hsubmit⟩ := Exec.bind_eq_ok.mp hscene
      obtain ⟨queue, outcome, hqueue, hvalid, hcapacity', hcase⟩ :=
        hreserved.submitReserved
          ⟨frameId, service.gateway.engine.renderer.scene.revision, request.cameraId⟩ request
      simp only [hscene, hqueue]
      refine ⟨⟨h.gateway.submitFrame hsubmit, h.limits, hvalid,
        hcapacity'.trans (hcapacity.trans h.capacity), h.queued, h.completed, h.compiler⟩, rfl, rfl,
        ?_⟩
      rw [hsame] at hcase
      rcases hcase with ⟨rfl, hsublist⟩ | ⟨⟨error, rfl⟩, hdeliverable⟩
      · exact .inl ⟨rfl, hsublist⟩
      · exact .inr ⟨⟨_, rfl⟩, hdeliverable⟩
    · obtain ⟨queue, hqueue, hvalid, hcapacity', hdeliverable⟩ :=
        hreserved.dropPermit (α := Unit) (LocalServiceError.engine (.renderer error))
      simp only [hscene, Exec.fail, hqueue]
      exact ⟨⟨h.gateway, h.limits, hvalid, hcapacity'.trans (hcapacity.trans h.capacity), h.queued,
        h.completed, h.compiler⟩, rfl, rfl, .inr ⟨⟨_, rfl⟩, hdeliverable.trans hsame⟩⟩

theorem Valid.observed (h : Valid ext commands service) {queue : ObservationQueue}
    (hvalid : queue.Valid [])
    (hcapacity : queue.slots.capacity = service.observations.slots.capacity) :
    Valid ext commands { service with observations := queue } :=
  ⟨h.gateway, h.limits, hvalid, hcapacity.trans h.capacity, h.queued, h.completed, h.compiler⟩

theorem Valid.tryReceiveObservationDelivery (h : Valid ext commands service)
    (hreturns : service.tryReceiveObservationDelivery.2.Returns) :
    Valid ext commands service.tryReceiveObservationDelivery.1 ∧
      service.observations.Received service.tryReceiveObservationDelivery.1.observations
        (service.observations.tryReceiveDelivery service.revision).2 := by
  have hreturns' : (service.observations.tryReceiveDelivery service.revision).2.Returns :=
    hreturns.of_mapError
  obtain ⟨hvalid, hcapacity, hreceived⟩ := h.observations.tryReceiveDelivery rfl hreturns'
  exact ⟨h.observed hvalid hcapacity, hreceived⟩

theorem Valid.worker (h : Valid ext commands service) {queue : ObservationQueue}
    (hstep : service.observations.WorkerStep queue) :
    Valid ext commands { service with observations := queue } := by
  obtain ⟨hvalid, hcapacity, -⟩ := h.observations.worker hstep
  exact h.observed hvalid hcapacity

theorem Run.valid (h : Run ext commands service) : Valid ext commands service := by
  induction h with
  | new h => exact .new h
  | restore h => exact .restore h
  | revertToRevision _ clocks startup imports uploads revision ih =>
    exact ih.revertToRevision clocks startup imports uploads revision
  | submit _ hcommand queuedAt ih => exact ih.submit hcommand queuedAt
  | configureCompilationLimits _ limits ih => exact ih.configureCompilationLimits limits
  | processNext _ clock hreturns ih => exact ih.processNext hreturns
  | requestObservation _ request device ih => exact (ih.requestObservation request device).valid
  | tryReceiveObservationDelivery _ hreturns ih =>
    exact (ih.tryReceiveObservationDelivery hreturns).1
  | worker _ hstep ih => exact ih.worker hstep

end LocalService

end Cogniform
