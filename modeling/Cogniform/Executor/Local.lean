import Cogniform.Engine.Service
import Cogniform.Executor.Steps

/-!
# The executor of a local service

The contract of `Executor.Lockstep`, discharged for the local service. Errors of the service reach
the client as one of a few codes. What a call reads from outside is an argument, and the observation
worker takes its steps between the calls: no call reads the observation path twice, so a step taken
during a call could as well have been taken before it.

What is proved of a run is relative to a set that holds the commands submitted in it, on which
SHA-256 does not collide.
-/

namespace Cogniform

open AuthoritativeWorld (ApplyClock)

/-! ### Failure codes -/

inductive ServiceOperation where
  | command | query | observation
  deriving DecidableEq

def defaultFailure : ServiceOperation → SessionFailureCode
  | .command => .commandRejected
  | .query => .queryRejected
  | .observation => .observationRejected

def classifyObservationError : ObservationError → SessionFailureCode
  | .requestRevisionMismatch .. => .revisionMismatch
  | .capacityExceeded _ => .capacityExceeded
  | .workerUnavailable | .workerStartFailed _ | .renderer _ => .serviceUnavailable
  | .invalidRequest _ | .sourceRevisionAhead .. | .sourceRevisionMismatch .. | .cameraMismatch ..
  | .invalidMetadata _ => .observationRejected

def classifyEngineError (operation : ServiceOperation) : EngineError → SessionFailureCode
  | .observation error => classifyObservationError error
  | .renderer _ | .sceneUpdate _ => .serviceUnavailable
  | .worldApply _ => defaultFailure operation
  | .invalidConfig _ | .recoveryFrameBehindReplay .. | .replayConfig _ | .replayRevision _
  | .replayRecord _ | .replay _ | .worldExtraction _ | .worldInvariant _ => .internal

def GatewayError.isCompilationLimitExceeded : GatewayError → Bool
  | .compiler (.invalidCompilationResult error) =>
    match error.kind with
    | .decisionLimitExceeded | .unresolvedLimitExceeded | .textLimitExceeded
    | .decodedSizeLimitExceeded | .invalidPatch => true
    | _ => false
  | .compiler (.invalidCompilationEncoding (.encodedSizeExceeded ..))
  | .compiler (.invalidCompilationEncoding (.nestingLimitExceeded ..)) => true
  | _ => false

def classifyGatewayError (operation : ServiceOperation) (error : GatewayError) :
    SessionFailureCode :=
  if error.isCompilationLimitExceeded then .limitExceeded
  else
    match error with
    | .commandCapacityExceeded _ | .idempotencyCapacityExceeded
    | .queryResultCapacityExceeded .. => .capacityExceeded
    | .queryRevisionMismatch .. => .revisionMismatch
    | .engine error => classifyEngineError operation error
    | .invalidConfig _ | .compiler _ | .worldView _ => .internal
    | .invalidCommand _ | .invalidCommandEncoding _ | .idempotencyConflict _
    | .invalidQueryResult _ => defaultFailure operation

def classifyServiceError (operation : ServiceOperation) : LocalServiceError → SessionFailureCode
  | .gateway error => classifyGatewayError operation error
  | .engine error => classifyEngineError operation error
  | .revert _ => defaultFailure operation

def ObservationDelivery.toSession : ObservationDelivery → ServiceObservationDelivery
  | .completed observation => .completed observation.metadata observation.payload
  | .failed observationId error => .failed observationId (classifyObservationError error)

structure CallEnvironment where
  queuedAt : ℕ
  clock : ApplyClock
  device : Except RendererError Unit

structure LocalExternals extends ServiceExternals where
  clientJson : SerdeWriter LocalSessionClientMessage
  serverJson : SerdeWriter LocalSessionServerMessage
  metadataJson : Serde ObservationMetadata
  payload : PayloadCodec

def LocalExternals.executor (ext : LocalExternals) : ExecutorExternals where
  session := ⟨ext.clientJson, ext.serverJson, ext.compilationJson⟩
  frame := ⟨ext.sha256, ext.metadataJson, ext.payload⟩

/-- The commands of the set have different fingerprints: JSON tells values apart, and SHA-256 does not
collide on what is hashed of two of them. -/
structure ServiceExternals.TellsApart (ext : ServiceExternals) (commands : Set GatewayCommand) :
    Prop where
  patchJson : ext.patchJson.Injective
  imaginationJson : ext.imaginationJson.Injective
  sha256 : ∀ left ∈ commands, ∀ right ∈ commands, ∀ limits leftBytes rightBytes,
    left.toCanonicalJson ext.toGatewayExternals limits = .ok leftBytes →
    right.toCanonicalJson ext.toGatewayExternals limits = .ok rightBytes →
    ext.sha256 (left.fingerprintInput leftBytes) = ext.sha256 (right.fingerprintInput rightBytes) →
    left.fingerprintInput leftBytes = right.fingerprintInput rightBytes

theorem ServiceExternals.TellsApart.eq_of_fingerprint {ext : ServiceExternals}
    {commands : Set GatewayCommand} (h : ext.TellsApart commands) {left right : GatewayCommand}
    (hleft : left ∈ commands) (hright : right ∈ commands) {limits : RuntimeLimits}
    {fingerprint : Digest}
    (hleft' : left.fingerprint ext.toGatewayExternals limits = .ok fingerprint)
    (hright' : right.fingerprint ext.toGatewayExternals limits = .ok fingerprint) :
    left = right := by
  rw [GatewayCommand.fingerprint] at hleft' hright'
  split at hleft'
  · cases hleft'
  rename_i leftBytes hleftBytes
  split at hright'
  · cases hright'
  rename_i rightBytes hrightBytes
  exact GatewayCommand.eq_of_fingerprintInput h.patchJson h.imaginationJson hleftBytes hrightBytes
    (h.sha256 left hleft right hright limits leftBytes rightBytes hleftBytes hrightBytes
      ((Except.ok.inj hleft').trans (Except.ok.inj hright').symm))

def CommandRecord.pending (record : CommandRecord) : IdempotencyKey × PendingCommandKind :=
  (record.idempotencyKey, record.command.pendingKind)

namespace LocalService

/-- `impl SessionService for LocalService`. -/
def session (ext : ServiceExternals) (env : CallEnvironment) : SessionService LocalService where
  runtimeLimits service := service.runtimeLimits
  commandCapacity service := service.config.gateway.commandCapacity.get
  observationCapacity service := service.observations.slots.capacity.get
  observationDimensions service :=
    (service.config.engine.renderer.width, service.config.engine.renderer.height)
  snapshot service := ⟨service.gateway.queue.depth, service.observations.outstanding⟩
  configureCompilationLimits limits := fun service =>
    let configured := service.configureCompilationLimits ext limits
    (configured.1, Exec.ofExcept (configured.2.mapError (classifyServiceError .command)))
  submitPatch patch := fun service =>
    let submitted := service.submitPatch ext patch env.queuedAt
    (submitted.1, Exec.ofExcept (submitted.2.mapError (classifyServiceError .command)))
  submitImagination imagination := fun service =>
    let submitted := service.submitImagination ext imagination env.queuedAt
    (submitted.1, Exec.ofExcept (submitted.2.mapError (classifyServiceError .command)))
  processNext := fun service =>
    let processed := service.processNext ext env.clock
    (processed.1, processed.2.mapError (classifyServiceError .command))
  query query := fun service => (service.query query).mapError (classifyServiceError .query)
  requestObservation request := fun service =>
    let requested := service.requestObservation request env.device
    (requested.1, requested.2.mapError (classifyServiceError .observation))
  pollObservation := fun service =>
    let received := service.tryReceiveObservationDelivery
    (received.1, Exec.mapError (classifyServiceError .observation)
      (received.2.map (Option.map ObservationDelivery.toSession)))

def view (ext : ServiceExternals) (commands : Set GatewayCommand) : ServiceView LocalService where
  Valid := Valid ext commands
  queue service := service.gateway.queue.entries.map CommandRecord.pending
  deliverable service := service.observations.deliverable
  Accepts command := command ∈ commands

variable {ext : ServiceExternals} {commands : Set GatewayCommand} {service : LocalService}
  {env : CallEnvironment} {command : GatewayCommand}

theorem session_submit (service : LocalService) (command : GatewayCommand) :
    (session ext env).submit command service = ((service.submit ext command env.queuedAt).1,
      Exec.ofExcept ((service.submit ext command env.queuedAt).2.mapError
        (classifyServiceError .command))) := by
  cases command <;> rfl

theorem asReplayed_answeredBy {limits : RuntimeLimits} {response : GatewayResponse}
    (h : command.AnsweredBy ext limits response) :
    command.pendingKind.AnsweredBy command.idempotencyKey response.asReplayed := by
  cases command with
  | patch patch =>
    cases response with
    | patchApplied receipt => exact h
    | imaginationProcessed compilation receipt => exact h.elim
  | imagination imagination =>
    cases response with
    | patchApplied receipt => exact h.elim
    | imaginationProcessed compilation receipt => cases receipt <;> exact trivial

theorem Valid.submitted (h : Valid ext commands service) (hdistinct : ext.TellsApart commands)
    (hcommand : command ∈ commands) :
    (view ext commands).Submitted (session ext env) command service
      (service.submit ext command env.queuedAt).1
      ((service.submit ext command env.queuedAt).2.mapError (classifyServiceError .command)) := by
  rw [LocalService.submit]
  rcases LocalGateway.submit_cases ext.toGatewayExternals service.gateway command env.queuedAt with
    ⟨heq, ⟨error, herror⟩ | ⟨response, hresponse⟩⟩ | ⟨fingerprint, -, hfingerprint, -, heq⟩
  · simp only [heq, herror]
    exact .refused _ rfl
  · obtain ⟨recorded, hget, hfingerprint, rfl⟩ := LocalGateway.submit_replayed hresponse
    obtain ⟨completed, hcompleted, -, hrecorded, hanswered⟩ := h.completed _ _ hget
    rw [← hdistinct.eq_of_fingerprint hcommand hcompleted hfingerprint hrecorded] at hanswered
    simp only [heq, hresponse]
    exact .replayed rfl (asReplayed_answeredBy hanswered)
  · have hadmits := CommandQueue.admitRecord_admits service.gateway.queue
      ⟨command, fingerprint, env.queuedAt⟩ service.gateway.hasIdempotencyCapacity
    simp only [heq]
    generalize hanswer : (service.gateway.queue.admitRecord ⟨command, fingerprint, env.queuedAt⟩
      service.gateway.hasIdempotencyCapacity).2 = answer at hadmits ⊢
    generalize (service.gateway.queue.admitRecord ⟨command, fingerprint, env.queuedAt⟩
      service.gateway.hasIdempotencyCapacity).1 = queue at hadmits ⊢
    have hfresh : (∀ existing ∈ service.gateway.queue.entries,
        existing.idempotencyKey ≠ command.idempotencyKey) →
        command.idempotencyKey ∉ ((view ext commands).queue service).map Prod.fst := by
      intro fresh hmem
      rw [view, List.map_map, List.mem_map] at hmem
      obtain ⟨existing, hexisting, hkey⟩ := hmem
      exact fresh existing hexisting hkey
    cases hadmits with
    | stays entries answer_eq =>
      have hqueue : (view ext commands).queue
          { service with gateway := { service.gateway with queue := queue } } =
          (view ext commands).queue service := by
        simp only [view, entries]
      rcases answer_eq with rfl | rfl | ⟨error, rfl⟩
      · obtain ⟨existing, hexisting, -, hsame⟩ := CommandQueue.admitRecord_alreadyQueued hanswer
        obtain ⟨hmem, hexisting'⟩ := h.queued existing hexisting
        have heq := hdistinct.eq_of_fingerprint hmem hcommand hexisting' (hsame ▸ hfingerprint)
        refine .alreadyQueued hqueue (List.mem_map.mpr ⟨existing, hexisting, ?_⟩)
        rw [CommandRecord.pending, CommandRecord.idempotencyKey, heq]
      · exact .dropped hqueue
      · exact .refused _ hqueue
    | queued fresh unsuperseding room capacity entries =>
      refine .queued (hfresh fresh) ?_ rfl ?_
      · rw [CommandQueue.depth, h.gateway.capacity] at room
        simpa only [view, session, List.length_map] using room
      · simp only [view, entries, List.map_append]
        rfl
    | @superseded before after old key fresh split old_key new_key entries =>
      have hold : (view ext commands).queue service = before.map CommandRecord.pending ++
          old.pending :: after.map CommandRecord.pending := by
        simp only [view, split, List.map_append, List.map_cons]
      refine .superseded (hfresh fresh) hold ?_
      simp only [view, entries, List.map_append, List.map_cons]
      rfl

theorem configure_view (service : LocalService) (limits : CompilationLimits) :
    (view ext commands).queue (service.configureCompilationLimits ext limits).1 =
        (view ext commands).queue service ∧
      (view ext commands).deliverable (service.configureCompilationLimits ext limits).1 =
        (view ext commands).deliverable service := by
  rw [LocalService.configureCompilationLimits, LocalGateway.configureCompilationLimits]
  repeat' split
  all_goals exact ⟨rfl, rfl⟩

theorem lawful (hdistinct : ext.TellsApart commands) (env : CallEnvironment) :
    (session ext env).Lawful (view ext commands) where
  commandDepth _ := by
    simp only [session, view, CommandQueue.depth, List.length_map]
  quiescent h hzero := h.observations.deliverable_eq_nil hzero
  configureCompilationLimits limits h :=
    ⟨_, _, rfl, h.configureCompilationLimits limits, configure_view _ limits⟩
  submit h hcommand :=
    ⟨_, _, session_submit _ _, h.submit hcommand env.queuedAt, rfl, h.submitted hdistinct hcommand⟩
  processNext {service head rest} h hqueue hreturns := by
    refine ⟨h.processNext hreturns.of_mapError, ?_, rfl⟩
    simp only [session, LocalService.processNext]
    rcases LocalGateway.processNext_cases ext.toGatewayExternals service.gateway env.clock with
      ⟨hentries, -⟩ | ⟨record, others, hentries, hcase⟩
    · simp [view, hentries] at hqueue
    · have hothers : others.map CommandRecord.pending = rest := by
        simp only [view, hentries, List.map_cons] at hqueue
        exact (List.cons.inj hqueue).2
      rcases hcase with ⟨abort, -, heq⟩ | ⟨response, -, heq⟩
      · rw [heq]
        exact hothers
      · rw [heq]
        exact hothers
  requestObservation {service} request h := by
    have hrequested := h.requestObservation request env.device
    have hqueue : (view ext commands).queue (service.requestObservation request env.device).1 =
        (view ext commands).queue service := by
      simp only [view, hrequested.queue]
    rcases hrequested.outcome with ⟨hok, hsublist⟩ | ⟨⟨error, herror⟩, hsame⟩
    · refine ⟨_, .ok (), ?_, hrequested.valid, hqueue, hsublist⟩
      simp only [session, hok]
      rfl
    · refine ⟨_, .error (classifyServiceError .observation error), ?_, hrequested.valid, hqueue, ?_⟩
      · simp only [session, herror]
        rfl
      · simp only [view, hsame, List.sublist_append_left]
  pollObservation {service} h hreturns := by
    obtain ⟨hvalid, hreceived⟩ :=
      h.tryReceiveObservationDelivery hreturns.of_mapError.of_map
    refine ⟨hvalid, rfl, ?_⟩
    simp only [session, tryReceiveObservationDelivery] at hreceived ⊢
    generalize (service.observations.tryReceiveDelivery service.revision).2 = outcome at hreceived ⊢
    cases hreceived with
    | empty same => exact .nothing (congrArg ObservationQueue.deliverable same)
    | stopped same nothing =>
      refine .stopped _ ?_
      simp only [view, same]
      exact nothing
    | delivered delivery first =>
      refine .delivered delivery.toSession ?_
      cases delivery <;> exact first

end LocalService

/-! ### Runs -/

abbrev LocalSessionExecutor := SessionCore LocalService

inductive SessionEvent where
  | handled (request : NonZeroU64) (outcome : Exec LocalExecutorError (List LocalFrame))
  | advanced (outcome : Exec LocalExecutorError (List LocalFrame))

namespace LocalSessionExecutor

section

variable (ext : LocalExternals) (env : CallEnvironment)

def new (service : LocalService) (config : LocalExecutorConfig) :
    Exec LocalExecutorError LocalSessionExecutor :=
  SessionCore.new (LocalService.session ext.toServiceExternals env) service config

def handleFrame (executor : LocalSessionExecutor) (frame : LocalFrame) :
    LocalSessionExecutor × Exec LocalExecutorError (List LocalFrame) :=
  SessionCore.handleFrame ext.executor (LocalService.session ext.toServiceExternals env) frame
    executor

def advance (executor : LocalSessionExecutor) :
    LocalSessionExecutor × Exec LocalExecutorError (List LocalFrame) :=
  SessionCore.advance ext.executor (LocalService.session ext.toServiceExternals env) executor

end

def Submits (ext : LocalExternals) (commands : Set GatewayCommand) (executor : LocalSessionExecutor)
    (frame : LocalFrame) : Prop :=
  ∀ message command,
    decodeClientControlFrame ext.executor.session frame executor.currentFrameConfig = .ok message →
    message.message.command? = some command → command ∈ commands

/-- The executors that runs lead to, with the calls made, while only commands of a set are
submitted. A call counts once it has returned. -/
inductive Run (ext : LocalExternals) (commands : Set GatewayCommand) :
    LocalSessionExecutor → List SessionEvent → Prop where
  | new {service : LocalService} {executor : LocalSessionExecutor} {config : LocalExecutorConfig}
      (hservice : LocalService.Run ext.toServiceExternals commands service) (env : CallEnvironment)
      (hnew : LocalSessionExecutor.new ext env service config = .ok executor) :
      Run ext commands executor []
  | handleFrame {executor : LocalSessionExecutor} {events : List SessionEvent}
      (h : Run ext commands executor events) (env : CallEnvironment) (frame : LocalFrame)
      (hsubmits : Submits ext commands executor frame)
      (hreturns : (executor.handleFrame ext env frame).2.Returns) :
      Run ext commands (executor.handleFrame ext env frame).1
        (events ++ [.handled frame.correlationId (executor.handleFrame ext env frame).2])
  | advance {executor : LocalSessionExecutor} {events : List SessionEvent}
      (h : Run ext commands executor events) (env : CallEnvironment)
      (hreturns : (executor.advance ext env).2.Returns) :
      Run ext commands (executor.advance ext env).1
        (events ++ [.advanced (executor.advance ext env).2])
  | worker {executor : LocalSessionExecutor} {events : List SessionEvent}
      (h : Run ext commands executor events) {queue : ObservationQueue}
      (hstep : executor.service.observations.WorkerStep queue) :
      Run ext commands
        { executor with service := { executor.service with observations := queue } } events

variable {ext : LocalExternals} {commands : Set GatewayCommand} {floats : FloatText}
  {executor : LocalSessionExecutor} {events : List SessionEvent} {books : Books}

abbrev InLockstep (ext : LocalExternals) (commands : Set GatewayCommand)
    (executor : LocalSessionExecutor) (books : Books) : Prop :=
  Lockstep ext.executor (LocalService.view ext.toServiceExternals commands) executor books

theorem InLockstep.worker (h : InLockstep ext commands executor books) {queue : ObservationQueue}
    (hstep : executor.service.observations.WorkerStep queue) :
    InLockstep ext commands
      { executor with service := { executor.service with observations := queue } } books := by
  obtain ⟨-, -, hsublist⟩ := h.valid.observations.worker hstep
  exact h.served (h.valid.worker hstep) rfl hsublist

theorem Run.inLockstep (hwrites : ext.executor.session.WritesServer floats)
    (hdistinct : ext.TellsApart commands) (h : Run ext commands executor events) :
    ∃ books, InLockstep ext commands executor books := by
  induction h with
  | new hservice env hnew =>
    exact ⟨.empty, .new (LocalService.lawful hdistinct env) hservice.valid hnew⟩
  | handleFrame _ env frame hsubmits hreturns ih =>
    obtain ⟨books, h⟩ := ih
    rcases h.handleFrame (LocalService.lawful hdistinct env) hwrites frame hsubmits with
      ⟨books', -, -, -, -, -, h'⟩ | ⟨-, hstops⟩ | ⟨-, -, h'⟩
    · exact ⟨books', h'⟩
    · exact absurd hreturns hstops
    · exact ⟨books, h'⟩
  | advance _ env hreturns ih =>
    obtain ⟨books, h⟩ := ih
    rcases h.advance (LocalService.lawful hdistinct env) with
      ⟨core', _, books', _, _, _, heq, -, -, -, h'⟩ | ⟨-, hstops⟩
    · refine ⟨books', ?_⟩
      rw [LocalSessionExecutor.advance, heq]
      exact h'
    · exact absurd hreturns hstops
  | worker _ hstep ih =>
    obtain ⟨books, h⟩ := ih
    exact ⟨books, h.worker hstep⟩

structure Agrees (executor : LocalSessionExecutor) : Prop where
  /-- The live identities are those of the commands and observations, each of one of them. -/
  live : executor.liveCorrelations.toList.Perm
    (executor.commandCorrelations.toList.map (fun entry => entry.2.correlationId) ++
      executor.observationCorrelations.toList.map fun entry => entry.2.correlationId)
  commandOrder_nodup : executor.commandOrder.Nodup
  commandOrder_perm : executor.commandOrder.Perm executor.commandCorrelations.keys
  queue : executor.service.gateway.queue.entries.map
      (fun record => (record.idempotencyKey, some record.command.pendingKind)) =
    executor.commandOrder.map fun key =>
      (key, executor.commandCorrelations[key]?.map PendingCommand.kind)
  observationOrder_nodup : executor.observationOrder.Nodup
  observationOrder_perm : executor.observationOrder.Perm executor.observationCorrelations.keys
  reported : ∀ id ∈ executor.observationPendingReported, id ∈ executor.observationOrder
  bounded : executor.liveCorrelations.size ≤ executor.config.maxLiveCorrelations.get

theorem InLockstep.agrees (h : InLockstep ext commands executor books) : executor.Agrees where
  live := by
    refine h.live.toList_perm.trans ?_
    exact ((h.commands.toList_perm.map _).append (h.observations.toList_perm.map _)).symm
  commandOrder_nodup := h.commands.nodup
  commandOrder_perm := h.commands.order_perm_keys
  queue := by
    have hqueue := congrArg (List.map fun entry => (entry.1, some entry.2)) h.queue
    simp only [LocalService.view, List.map_map] at hqueue
    refine hqueue.trans ?_
    rw [h.commands.order_eq, List.map_map]
    refine List.map_congr_left fun entry hentry => ?_
    simp only [Function.comp_apply, h.commands.get_iff.mpr hentry, Option.map_some]
  observationOrder_nodup := h.observations.nodup
  observationOrder_perm := h.observations.order_perm_keys
  reported := by
    rw [h.reported_eq]
    exact h.reported
  bounded := by
    rw [h.live.size_eq]
    exact h.bounded

/-- What a call returns: never more than two frames. Once a hello has been answered it is not an
error, and there is a result unless the service panics or does not return. -/
structure Succeeds (ext : LocalExternals) (env : CallEnvironment) (executor : LocalSessionExecutor)
    (result : LocalSessionExecutor × Exec LocalExecutorError (List LocalFrame)) : Prop where
  frames : ∀ frames, result.2 = .ok frames → frames.length ≤ 2
  opened : executor.Opened → result.1.Opened
  noError : executor.Opened → ∀ error, result.2 ≠ Exec.fail error
  returns : executor.Opened →
    (LocalService.session ext.toServiceExternals env).Returning executor.service →
      ∃ frames, result.2 = .ok frames

theorem InLockstep.handleFrame_succeeds (hwrites : ext.executor.session.WritesServer floats)
    (hdistinct : ext.TellsApart commands) (h : InLockstep ext commands executor books)
    (env : CallEnvironment) (frame : LocalFrame) (hsubmits : Submits ext commands executor frame) :
    Succeeds ext env executor (executor.handleFrame ext env frame) := by
  have hopened : executor.Opened → (executor.handleFrame ext env frame).1.Opened :=
    SessionCore.opened_handleFrame frame executor
  rcases h.handleFrame (LocalService.lawful hdistinct env) hwrites frame hsubmits with
    ⟨books', replies, frames, hframes, hframed, hhandled, -⟩ | ⟨hstuck, hstops⟩ |
    ⟨hawaiting, ⟨error, herror⟩, -⟩
  · have hlength : frames.length ≤ 2 := hframed.length_eq ▸ hhandled.length_le
    rw [← LocalSessionExecutor.handleFrame] at hframes
    refine ⟨fun other hother => ?_, hopened, fun _ error herror => ?_, fun _ _ => ⟨frames, hframes⟩⟩
    · rw [hframes] at hother
      cases hother
      exact hlength
    · rw [hframes] at herror
      cases herror
  · rw [← LocalSessionExecutor.handleFrame] at hstops
    refine ⟨fun frames hframes => ?_, hopened, fun _ error herror => ?_, fun _ hreturning => ?_⟩
    · exact absurd (hframes ▸ .ok frames) hstops
    · exact absurd (herror ▸ .fail error) hstops
    · exact absurd hreturning hstuck
  · rw [← LocalSessionExecutor.handleFrame] at herror
    refine ⟨fun frames hframes => ?_, hopened, fun hopen => absurd hawaiting hopen,
      fun hopen => absurd hawaiting hopen⟩
    rw [herror] at hframes
    cases hframes

theorem InLockstep.advance_succeeds (hdistinct : ext.TellsApart commands)
    (h : InLockstep ext commands executor books) (env : CallEnvironment) :
    Succeeds ext env executor (executor.advance ext env) := by
  have hopened : executor.Opened → (executor.advance ext env).1.Opened :=
    SessionCore.opened_advance executor
  rcases h.advance (LocalService.lawful hdistinct env) with
    ⟨_, _, _, command, observation, frames, heq, hframed, -⟩ | ⟨hstuck, hstops⟩
  · have hlength : frames.length ≤ 2 := by
      rw [← hframed.length_eq, List.length_append]
      exact Nat.add_le_add (Option.length_toList_le) (Option.length_toList_le)
    have hframes : (executor.advance ext env).2 = .ok frames := congrArg Prod.snd heq
    refine ⟨fun other hother => ?_, hopened, fun _ error herror => ?_, fun _ _ => ⟨frames, hframes⟩⟩
    · rw [hframes] at hother
      cases hother
      exact hlength
    · rw [hframes] at herror
      cases herror
  · rw [← LocalSessionExecutor.advance] at hstops
    refine ⟨fun frames hframes => ?_, hopened, fun _ error herror => ?_, fun _ hreturning => ?_⟩
    · exact absurd (hframes ▸ .ok frames) hstops
    · exact absurd (herror ▸ .fail error) hstops
    · exact absurd hreturning hstuck

/-- **Bookkeeping and service agree in every run.** Nothing more than two frames is returned by a
call, and no call fails once the session is open. -/
theorem run_lockstep (hwrites : ext.executor.session.WritesServer floats)
    (hdistinct : ext.TellsApart commands) (h : Run ext commands executor events) :
    executor.Agrees ∧
      (∀ env frame, Submits ext commands executor frame →
        Succeeds ext env executor (executor.handleFrame ext env frame)) ∧
      ∀ env, Succeeds ext env executor (executor.advance ext env) := by
  obtain ⟨books, hlockstep⟩ := h.inLockstep hwrites hdistinct
  exact ⟨hlockstep.agrees, hlockstep.handleFrame_succeeds hwrites hdistinct,
    hlockstep.advance_succeeds hdistinct⟩

/-! ### A sample session -/

def numberedJson (messages : List LocalSessionClientMessage) :
    SerdeWriter LocalSessionClientMessage where
  toWriter message :=
    match messages.idxOf? message with
    | some i => ([[0x30 + UInt8.ofNat i]], true)
    | none => ([], false)
  fromSlice encoded :=
    match encoded with
    | [digit, 0x0a] => (messages[(digit - 0x30).toNat]?).elim (.error ⟨.data, 1, 1⟩) .ok
    | _ => .error ⟨.data, 1, 1⟩

def zeroText : FloatText := fun _ => .ofNat 0

def sampleLimits : LocalSessionLimits :=
  (LocalSessionLimits.fromConfig .default).toOption.get (by decide +kernel)

def sampleHello : LocalSessionClientMessage :=
  ⟨localSessionSchemaVersion, .hello ⟨sampleLimits, none⟩⟩

def soloSession (messages : List LocalSessionClientMessage) (patch : ScenePatch) :
    LocalExternals where
  sha256 bytes := .ofFn fun i => bytes.reverse.getD i 0
  patchJson := (RecordedWorld.soloExternals patch).patchJson
  imaginationJson := ⟨fun _ => none, fun _ => .error ⟨.data, 1, 1⟩⟩
  compilationJson := ⟨fun _ => ([], false), fun _ => .error ⟨.data, 1, 1⟩⟩
  clientJson := numberedJson messages
  serverJson := ⟨fun message => ([(message.serialize zeroText).write], true),
    fun _ => .error ⟨.data, 1, 1⟩⟩
  metadataJson := ⟨fun _ => none, fun _ => .error ⟨.data, 1, 1⟩⟩
  payload := ⟨fun _ _ _ _ => .error .invalidMetadata, fun _ _ _ _ => .error .invalidMagic⟩

theorem writesServer_soloSession (messages : List LocalSessionClientMessage) (patch : ScenePatch) :
    (soloSession messages patch).executor.session.WritesServer zeroText :=
  fun _ => ⟨rfl, List.flatten_singleton⟩

theorem tellsApart_soloSession (messages : List LocalSessionClientMessage) (patch : ScenePatch) :
    (soloSession messages patch).TellsApart Set.univ := by
  have hpatch : ∀ other bytes, (soloSession messages patch).patchJson.toVec other = some bytes →
      other = patch ∧ bytes = [0x7b, 0x7d] := by
    intro other bytes hother
    simp only [soloSession, RecordedWorld.soloExternals, Option.ite_none_right_eq_some,
      Option.some.injEq] at hother
    exact ⟨hother.1, hother.2.symm⟩
  have hcommand : ∀ (command : GatewayCommand) limits bytes,
      command.toCanonicalJson (soloSession messages patch).toGatewayExternals limits = .ok bytes →
      command = .patch patch ∧ bytes = [0x7b, 0x7d, 0x0a] := by
    intro command limits bytes h
    cases command with
    | patch other =>
      obtain ⟨-, written, hwritten, rfl⟩ := encode_ok h
      obtain ⟨rfl, rfl⟩ := hpatch other written hwritten
      exact ⟨rfl, rfl⟩
    | imagination imagination =>
      rw [GatewayCommand.toCanonicalJson, ImaginationEnvelope.toCanonicalJson] at h
      obtain ⟨-, written, hwritten, -⟩ := encode_ok h
      cases hwritten
  refine ⟨fun left right bytes hleft hright => ?_, ?_, ?_⟩
  · exact (hpatch left bytes hleft).1.trans (hpatch right bytes hright).1.symm
  · intro left right bytes hleft
    cases hleft
  · intro left _ right _ limits leftBytes rightBytes hleft hright _
    obtain ⟨rfl, rfl⟩ := hcommand left limits leftBytes hleft
    obtain ⟨rfl, rfl⟩ := hcommand right limits rightBytes hright
    rfl

open Observation (meshPatch)

def sampleSession : LocalExternals :=
  soloSession [sampleHello, ⟨localSessionSchemaVersion, .submitPatch meshPatch⟩] meshPatch

def sampleService : LocalService :=
  (LocalService.new sampleSession.toServiceExternals (.new 64 64) ⟨.ok (), .ok ()⟩).toOption.get
    (by decide +kernel)

def sampleEnvironment : CallEnvironment := ⟨0, ⟨0, 0⟩, .ok ()⟩

def sampleExecutor : LocalSessionExecutor :=
  (LocalSessionExecutor.new sampleSession sampleEnvironment sampleService .default).toOption.get
    (by decide +kernel)

def openExecutor : LocalSessionExecutor :=
  (sampleExecutor.handleFrame sampleSession sampleEnvironment
    (.control (.lit 7) [0x30, 0x0a])).1

def queuedExecutor : LocalSessionExecutor :=
  (openExecutor.handleFrame sampleSession sampleEnvironment
    (.control (.lit 8) [0x31, 0x0a])).1

theorem run_queuedExecutor :
    ∃ events, Run sampleSession Set.univ queuedExecutor events := by
  have hservice : LocalService.Run sampleSession.toServiceExternals Set.univ
      sampleService := .new (Exec.eq_ok_of_get _)
  have hnew : Run sampleSession Set.univ sampleExecutor [] :=
    .new hservice sampleEnvironment (Exec.eq_ok_of_get _)
  have hopen := hnew.handleFrame sampleEnvironment (.control ⟨7, by decide, by decide⟩ [0x30, 0x0a])
    (fun _ _ _ _ => trivial) (Exec.Returns.of_isSome (by decide +kernel))
  exact ⟨_, hopen.handleFrame sampleEnvironment (.control ⟨8, by decide, by decide⟩ [0x31, 0x0a])
    (fun _ _ _ _ => trivial) (Exec.Returns.of_isSome (by decide +kernel))⟩

theorem run_lockstep_queued :
    queuedExecutor.commandOrder = [meshPatch.idempotencyKey] ∧ queuedExecutor.Agrees ∧
      ∀ env, Succeeds sampleSession env queuedExecutor
        (queuedExecutor.advance sampleSession env) := by
  obtain ⟨events, hrun⟩ := run_queuedExecutor
  obtain ⟨hagrees, -, hadvance⟩ :=
    run_lockstep (writesServer_soloSession _ _) (tellsApart_soloSession _ _) hrun
  exact ⟨by decide +kernel, hagrees, hadvance⟩

end LocalSessionExecutor

end Cogniform
