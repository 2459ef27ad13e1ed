import Cogniform.Executor.Session
import Cogniform.Lib.Roster

/-!
# Executor and service in lockstep

What an executor owes its client is a list of commands and a list of observations, each with the
request to answer. `Lockstep` says that the tables of the executor hold these lists, that the
service will answer the same commands in the same order, and that it delivers nothing that is not
owed.

The service enters through a contract, `SessionService.Lawful`. Once a hello has been sent, every
message of fixed shape can be; this is why no call fails after the service has moved on.
-/

namespace Cogniform

variable {S : Type}

/-! ### What an executor relies on -/

def GatewayCommand.pendingKind : GatewayCommand → PendingCommandKind
  | .patch _ => .patch
  | .imagination value => .imagination (.fromEnvelope value)

def LocalSessionClientKind.command? : LocalSessionClientKind → Option GatewayCommand
  | .submitPatch value => some (.patch value)
  | .submitImagination value => some (.imagination value)
  | _ => none

def SessionService.submit (svc : SessionService S) :
    GatewayCommand → Call S SessionFailureCode GatewayAdmission
  | .patch value => svc.submitPatch value
  | .imagination value => svc.submitImagination value

structure SessionService.Returning (svc : SessionService S) (s : S) : Prop where
  query : ∀ query, (svc.query query s).Returns
  processNext : (svc.processNext s).2.Returns
  pollObservation : (svc.pollObservation s).2.Returns
  processed : (svc.pollObservation (svc.processNext s).1).2.Returns

structure ServiceView (S : Type) where
  Valid : S → Prop
  queue : S → List (IdempotencyKey × PendingCommandKind)
  deliverable : S → List ObservationId
  Accepts : GatewayCommand → Prop

def PendingCommandKind.AnsweredBy (key : IdempotencyKey) :
    PendingCommandKind → GatewayResponse → Prop
  | .patch, .patchApplied receipt => receipt.idempotencyKey = key
  | .imagination _, .imaginationProcessed .. => True
  | _, _ => False

namespace ServiceView

inductive Submitted (view : ServiceView S) (svc : SessionService S) (command : GatewayCommand)
    (s s' : S) : Except SessionFailureCode GatewayAdmission → Prop where
  | refused (code : SessionFailureCode) (queue : view.queue s' = view.queue s) :
      Submitted view svc command s s' (.error code)
  | alreadyQueued (queue : view.queue s' = view.queue s)
      (mem : (command.idempotencyKey, command.pendingKind) ∈ view.queue s) :
      Submitted view svc command s s' (.ok (.alreadyQueued command.idempotencyKey))
  | dropped (queue : view.queue s' = view.queue s) :
      Submitted view svc command s s' (.ok (.dropped command.idempotencyKey))
  | replayed {response : GatewayResponse} (queue : view.queue s' = view.queue s)
      (answered : command.pendingKind.AnsweredBy command.idempotencyKey response) :
      Submitted view svc command s s' (.ok (.replayed response))
  | queued (fresh : command.idempotencyKey ∉ (view.queue s).map Prod.fst)
      (room : count (view.queue s).length < svc.commandCapacity s)
      (capacity : svc.commandCapacity s' = svc.commandCapacity s)
      (queue : view.queue s' = view.queue s ++ [(command.idempotencyKey, command.pendingKind)]) :
      Submitted view svc command s s' (.ok (.queued command.idempotencyKey))
  | superseded {before after : List (IdempotencyKey × PendingCommandKind)}
      {old : IdempotencyKey × PendingCommandKind}
      (fresh : command.idempotencyKey ∉ (view.queue s).map Prod.fst)
      (split : view.queue s = before ++ old :: after)
      (queue : view.queue s' =
        before ++ (command.idempotencyKey, command.pendingKind) :: after) :
      Submitted view svc command s s' (.ok (.superseded command.idempotencyKey old.1))

inductive Polled (view : ServiceView S) (s s' : S) :
    Exec SessionFailureCode (Option ServiceObservationDelivery) → Prop where
  | nothing (deliverable : view.deliverable s' = view.deliverable s) : Polled view s s' (.ok none)
  | stopped (code : SessionFailureCode) (deliverable : view.deliverable s' = []) :
      Polled view s s' (Exec.fail code)
  | delivered (delivery : ServiceObservationDelivery)
      (deliverable : view.deliverable s = delivery.observationId :: view.deliverable s') :
      Polled view s s' (.ok (some delivery))

end ServiceView

/-- The contract of a service: its calls keep the states valid, and change queue and deliveries only
as they say. -/
structure SessionService.Lawful (view : ServiceView S) (svc : SessionService S) : Prop where
  commandDepth : ∀ {s}, view.Valid s →
    (svc.snapshot s).commandDepth = count (view.queue s).length
  quiescent : ∀ {s}, view.Valid s → (svc.snapshot s).outstandingObservations = 0 →
    view.deliverable s = []
  configureCompilationLimits : ∀ {s} limits, view.Valid s → ∃ s' answer,
    svc.configureCompilationLimits limits s = (s', Exec.ofExcept answer) ∧ view.Valid s' ∧
      view.queue s' = view.queue s ∧ view.deliverable s' = view.deliverable s
  submit : ∀ {s command}, view.Valid s → view.Accepts command → ∃ s' answer,
    svc.submit command s = (s', Exec.ofExcept answer) ∧ view.Valid s' ∧
      view.deliverable s' = view.deliverable s ∧ view.Submitted svc command s s' answer
  /-- A processed command leaves the queue, whatever its outcome. -/
  processNext : ∀ {s head rest}, view.Valid s → view.queue s = head :: rest →
    (svc.processNext s).2.Returns → view.Valid (svc.processNext s).1 ∧
      view.queue (svc.processNext s).1 = rest ∧
      view.deliverable (svc.processNext s).1 = view.deliverable s
  requestObservation : ∀ {s} request, view.Valid s → ∃ s' answer,
    svc.requestObservation request s = (s', Exec.ofExcept answer) ∧ view.Valid s' ∧
      view.queue s' = view.queue s ∧
      (view.deliverable s').Sublist
        (view.deliverable s ++ if answer.isOk then [request.observationId] else [])
  pollObservation : ∀ {s}, view.Valid s → (svc.pollObservation s).2.Returns →
    view.Valid (svc.pollObservation s).1 ∧
      view.queue (svc.pollObservation s).1 = view.queue s ∧
      view.Polled s (svc.pollObservation s).1 (svc.pollObservation s).2

/-! ### Frames -/

inductive ReplyBody where
  | message (message : LocalSessionServerKind)
  | observation (metadata : ObservationMetadata) (payload : ObservationPayload)
  deriving DecidableEq

structure Reply where
  correlationId : NonZeroU64
  body : ReplyBody
  deriving DecidableEq

def Reply.Framed (ext : ExecutorExternals) (reply : Reply) (frame : LocalFrame) : Prop :=
  match reply.body with
  | .message message =>
    ∃ context, controlFrameFor ext reply.correlationId context message = .ok frame
  | .observation metadata payload =>
    frame = .observation reply.correlationId metadata payload

def LocalSessionServerKind.immediate : LocalSessionServerKind → Bool
  | .patchAdmission ⟨_, .queued⟩ | .patchAdmission ⟨_, .superseded _⟩ => false
  | .imaginationAdmission ⟨_, _, .queued⟩ | .imaginationAdmission ⟨_, _, .superseded _⟩ => false
  | .observationAccepted _ | .observationPending _ => false
  | .patchCompleted _ | .imaginationCompleted _ => false
  | _ => true

def LocalSessionServerKind.completes : LocalSessionServerKind → Bool
  | .patchCompleted _ | .imaginationCompleted _ | .failure _ => true
  | _ => false

def ReplyBody.delivers : ReplyBody → Bool
  | .observation .. | .message (.failure _) => true
  | _ => false

def PendingCommandKind.queuedMessage (key : IdempotencyKey) :
    PendingCommandKind → LocalSessionServerKind
  | .patch => .patchAdmission ⟨key, .queued⟩
  | .imagination submitted => .imaginationAdmission ⟨submitted.imaginationId, key, .queued⟩

def PendingCommandKind.supersededMessage (key old : IdempotencyKey) :
    PendingCommandKind → LocalSessionServerKind
  | .patch => .patchAdmission ⟨key, .superseded old⟩
  | .imagination submitted => .imaginationAdmission ⟨submitted.imaginationId, key, .superseded old⟩

section

variable {ext : ExecutorExternals} {floats : FloatText} {context : SessionOutputContext}
  {correlationId : NonZeroU64} {message : LocalSessionServerKind} {frame : LocalFrame}

def SessionOutputContext.Fits (ext : ExecutorExternals) (context : SessionOutputContext) : Prop :=
  ∀ (correlationId : NonZeroU64) (message : LocalSessionServerKind),
    message.FixedShape context.schemaVersion →
      ∃ frame, controlFrameFor ext correlationId context message = .ok frame

theorem SessionOutputContext.fits_of_hello (hwrites : ext.session.WritesServer floats)
    {granted : ServerHello}
    (hhello : controlFrameFor ext correlationId context (.hello granted) = .ok frame) :
    context.Fits ext := by
  intro id message hfixed
  rw [controlFrameFor] at hhello
  split at hhello
  · cases hhello
  rename_i hello hhello'
  obtain ⟨bytes, limit, hframe, hnonempty, hlimit, hle⟩ :=
    serverControlFrame_fixed hwrites hhello' hfixed id
  obtain ⟨framed, hframed⟩ := encodeFrame_control ext.frame id hlimit hnonempty hle
  refine ⟨.control id bytes, ?_⟩
  rw [controlFrameFor, hframe]
  simp only [hframed]

theorem controlFrameFor_cases (ext : ExecutorExternals) (correlationId : NonZeroU64)
    (context : SessionOutputContext) (message : LocalSessionServerKind) :
    (∃ frame, controlFrameFor ext correlationId context message = .ok frame) ∨
      controlFrameFor ext correlationId context message = Exec.fail .outputRejected := by
  rw [controlFrameFor]
  split
  · exact .inr rfl
  split
  · exact .inr rfl
  · exact .inl ⟨_, rfl⟩

theorem Reply.framed_of_ok
    (h : controlFrameFor ext correlationId context message = .ok frame) :
    Reply.Framed ext ⟨correlationId, .message message⟩ frame := ⟨context, h⟩

theorem controlOrLimitFailureFor_of_ok
    (h : controlFrameFor ext correlationId context message = .ok frame) :
    controlOrLimitFailureFor ext correlationId context message = .ok frame := by
  rw [controlOrLimitFailureFor, h]

theorem singleFailureFor_of_ok {code : SessionFailureCode}
    (h : controlFrameFor ext correlationId context (.failure code) = .ok frame) :
    singleFailureFor ext correlationId context code = .ok [frame] := by
  rw [singleFailureFor, failureFrameFor, h]
  rfl

theorem SessionOutputContext.Fits.orLimitFailure (h : context.Fits ext)
    (correlationId : NonZeroU64) (message : LocalSessionServerKind) :
    ∃ sent frame, controlOrLimitFailureFor ext correlationId context message = .ok frame ∧
      controlFrameFor ext correlationId context sent = .ok frame ∧
      (sent = message ∨ sent = .failure .limitExceeded ∧
        controlFrameFor ext correlationId context message = Exec.fail .outputRejected) := by
  rcases controlFrameFor_cases ext correlationId context message with ⟨frame, hframe⟩ | hreject
  · exact ⟨message, frame, controlOrLimitFailureFor_of_ok hframe, hframe, .inl rfl⟩
  · obtain ⟨frame, hframe⟩ := h correlationId (.failure .limitExceeded) (.failure _)
    refine ⟨.failure .limitExceeded, frame, ?_, hframe, .inr ⟨rfl, hreject⟩⟩
    rw [controlOrLimitFailureFor, hreject]
    exact hframe

end

/-! ### What an executor owes -/

structure Books where
  commands : List (IdempotencyKey × PendingCommand)
  observations : List (ObservationId × PendingObservation)
  reported : Std.ExtTreeSet ObservationId

namespace Books

def empty : Books := ⟨[], [], ∅⟩

def ids (books : Books) : List NonZeroU64 :=
  books.commands.map (fun entry => entry.2.correlationId) ++
    books.observations.map fun entry => entry.2.correlationId

theorem ids_command (before after : List (IdempotencyKey × PendingCommand))
    (entry : IdempotencyKey × PendingCommand)
    (observations : List (ObservationId × PendingObservation))
    (reported : Std.ExtTreeSet ObservationId) :
    (Books.mk (before ++ entry :: after) observations reported).ids.Perm
      (entry.2.correlationId :: (Books.mk (before ++ after) observations reported).ids) := by
  simp only [ids, List.map_append, List.map_cons, List.append_assoc, List.cons_append]
  exact List.perm_middle

theorem ids_observation (commands : List (IdempotencyKey × PendingCommand))
    (before after : List (ObservationId × PendingObservation))
    (entry : ObservationId × PendingObservation) (reported reported' : Std.ExtTreeSet ObservationId) :
    (Books.mk commands (before ++ entry :: after) reported).ids.Perm
      (entry.2.correlationId :: (Books.mk commands (before ++ after) reported').ids) := by
  simp only [ids, List.map_append, List.map_cons, ← List.append_assoc]
  exact List.perm_middle

inductive Handled (books : Books) (request : NonZeroU64) : Books → List Reply → Prop where
  /-- It is answered. A request under a live identity is refused. -/
  | replied (message : LocalSessionServerKind) (immediate : message.immediate = true)
      (live : request ∈ books.ids → ∃ code, message = .failure code) :
      Handled books request books [⟨request, .message message⟩]
  | queued (key : IdempotencyKey) (kind : PendingCommandKind) (idle : request ∉ books.ids) :
      Handled books request
        { books with commands := books.commands ++ [(key, ⟨request, kind⟩)] }
        [⟨request, .message (kind.queuedMessage key)⟩]
  | superseded {before after : List (IdempotencyKey × PendingCommand)} {old : IdempotencyKey}
      {pending : PendingCommand} (key : IdempotencyKey) (kind : PendingCommandKind)
      (idle : request ∉ books.ids) (split : books.commands = before ++ (old, pending) :: after) :
      Handled books request { books with commands := before ++ (key, ⟨request, kind⟩) :: after }
        [⟨pending.correlationId, .message (.failure .commandRejected)⟩,
          ⟨request, .message (kind.supersededMessage key old)⟩]
  | accepted (reference : ObservationReference) (idle : request ∉ books.ids)
      (unreported : reference.observationId ∉ books.reported) :
      Handled books request
        { books with observations := books.observations ++
            [(reference.observationId, ⟨request, reference.sceneRevision⟩)] }
        [⟨request, .message (.observationAccepted reference)⟩]

theorem Handled.length_le {books books' : Books} {request : NonZeroU64} {replies : List Reply}
    (h : books.Handled request books' replies) : replies.length ≤ 2 := by
  cases h <;> simp

inductive AdvancedCommand (books : Books) : Books → Option Reply → Prop where
  | idle (nothing : books.commands = []) : AdvancedCommand books books none
  | answered {key : IdempotencyKey} {pending : PendingCommand}
      {rest : List (IdempotencyKey × PendingCommand)}
      (first : books.commands = (key, pending) :: rest) (message : LocalSessionServerKind)
      (completes : message.completes = true) :
      AdvancedCommand books { books with commands := rest }
        (some ⟨pending.correlationId, .message message⟩)

inductive AdvancedObservation (books : Books) : Books → Option Reply → Prop where
  | quiet : AdvancedObservation books books none
  | reported {id : ObservationId} {pending : PendingObservation}
      (mem : (id, pending) ∈ books.observations) (unreported : id ∉ books.reported) :
      AdvancedObservation books { books with reported := books.reported.insert id }
        (some ⟨pending.correlationId, .message (.observationPending ⟨id, pending.sceneRevision⟩)⟩)
  | answered {before after : List (ObservationId × PendingObservation)} {id : ObservationId}
      {pending : PendingObservation}
      (split : books.observations = before ++ (id, pending) :: after) (body : ReplyBody)
      (delivers : body.delivers = true) :
      AdvancedObservation books
        { books with observations := before ++ after, reported := books.reported.erase id }
        (some ⟨pending.correlationId, body⟩)

end Books

/-! ### The invariant -/

theorem SessionState.not_awaiting {state : SessionState} {terms : SessionTerms} {P : Prop}
    (hactive : state = .active terms) (hawaiting : state = .awaitingHello) : P := by
  rw [hactive] at hawaiting
  cases hawaiting

theorem SessionState.not_closed {state : SessionState} {terms : SessionTerms}
    {P : SessionTerms → Prop} (hactive : state = .active terms) (terms' : SessionTerms)
    (hclosed : state = .closed terms') : P terms' := by
  rw [hactive] at hclosed
  cases hclosed

structure Lockstep (ext : ExecutorExternals) (view : ServiceView S) (core : SessionCore S)
    (books : Books) : Prop where
  valid : view.Valid core.service
  commands : Roster core.commandOrder core.commandCorrelations books.commands
  observations : Roster core.observationOrder core.observationCorrelations books.observations
  /-- The commands are those of the service, in the same order. -/
  queue : view.queue core.service = books.commands.map fun entry => (entry.1, entry.2.kind)
  /-- The live identities are those of the requests, each of one request. -/
  live : Tally core.liveCorrelations books.ids
  bounded : books.ids.length ≤ core.config.maxLiveCorrelations.get
  reported_eq : core.observationPendingReported = books.reported
  reported : ∀ id ∈ books.reported, id ∈ core.observationOrder
  deliverable : (view.deliverable core.service).Sublist core.observationOrder
  awaiting : core.state = .awaitingHello → books = .empty
  active : ∀ terms, core.state = .active terms → terms.context.Fits ext
  closed : ∀ terms, core.state = .closed terms → terms.context.Fits ext ∧ books = .empty
  /-- Imaginations are owed in sessions that have agreed on limits of their results. -/
  imaginations : ∀ terms, core.state = .active terms → ∀ entry ∈ books.commands,
    entry.2.kind ≠ .patch → terms.compilationLimits.isSome

namespace Lockstep

variable {ext : ExecutorExternals} {view : ServiceView S} {svc : SessionService S}
  {core : SessionCore S} {books : Books} {context : SessionOutputContext} {request : NonZeroU64}
  {s : S}

theorem served (h : Lockstep ext view core books) (hvalid : view.Valid s)
    (hqueue : view.queue s = view.queue core.service)
    (hdeliverable : (view.deliverable s).Sublist (view.deliverable core.service)) :
    Lockstep ext view { core with service := s } books :=
  ⟨hvalid, h.commands, h.observations, hqueue.trans h.queue, h.live, h.bounded, h.reported_eq,
    h.reported, hdeliverable.trans h.deliverable, h.awaiting, h.active, h.closed, h.imaginations⟩

theorem queue_keys (h : Lockstep ext view core books) :
    (view.queue core.service).map Prod.fst = core.commandOrder := by
  rw [h.queue, h.commands.order_eq, List.map_map]
  rfl

theorem liveCapacityReached_eq (h : Lockstep ext view core books) :
    core.liveCapacityReached = decide (books.ids.length = core.config.maxLiveCorrelations.get) := by
  have hbounded := h.bounded
  have hlt := core.config.maxLiveCorrelations.lt
  rw [SessionCore.liveCapacityReached, h.live.size_eq, count, decide_eq_decide]
  omega

end Lockstep

def Answers (ext : ExecutorExternals) (view : ServiceView S) (books : Books) (request : NonZeroU64)
    (result : SessionCore S × Exec LocalExecutorError (List LocalFrame)) : Prop :=
  ∃ books' replies frames, result.2 = .ok frames ∧ List.Forall₂ (Reply.Framed ext) replies frames ∧
    books.Handled request books' replies ∧ Lockstep ext view result.1 books'

namespace SessionCore

variable {core core' : SessionCore S} {correlationId : NonZeroU64} {α : Type} {s : S}
  {x : Call S SessionFailureCode α}

theorem onService_of_eq {answer : Except SessionFailureCode α}
    (h : x core.service = (s, Exec.ofExcept answer)) :
    onService x core = ({ core with service := s }, .ok answer) := by
  rw [onService, Call.on, h]
  cases answer <;> rfl

theorem onService_of_returns {answer : Except SessionFailureCode α}
    (h : (x core.service).2 = Exec.ofExcept answer) :
    onService x core = ({ core with service := (x core.service).1 }, .ok answer) :=
  onService_of_eq (Prod.ext rfl h)

theorem onService_not_returns (h : ¬(x core.service).2.Returns) :
    ¬(onService x core).2.Returns := by
  rw [onService, Call.on]
  cases hx : (x core.service).2 with
  | ok a => exact absurd (hx ▸ Exec.Returns.ok a) h
  | error abort =>
    cases abort with
    | error e => exact absurd (hx ▸ Exec.Returns.fail e) h
    | panic message => exact Exec.not_returns_panic message
    | diverge => exact Exec.not_returns_diverge

theorem reserveCorrelation_eq (core : SessionCore S) (hroom : core.liveCapacityReached = false)
    (hidle : correlationId ∉ core.liveCorrelations) :
    reserveCorrelation correlationId core =
      ({ core with liveCorrelations := core.liveCorrelations.insert correlationId }, .ok ()) := by
  rw [reserveCorrelation, Call.get_bind, hroom]
  simp only [Bool.false_eq_true, ↓reduceIte, hidle, Call.modify_apply]

theorem releaseCorrelation_eq (core : SessionCore S)
    (hlive : correlationId ∈ core.liveCorrelations) :
    releaseCorrelation correlationId core =
      ({ core with liveCorrelations := core.liveCorrelations.erase correlationId }, .ok ()) := by
  rw [releaseCorrelation, Call.get_bind, if_pos hlive, Call.modify_apply]

@[simp] theorem ensureAdmissionKey_self (key : IdempotencyKey) :
    (ensureAdmissionKey key key : Method S Unit) = pure () := if_pos rfl

end SessionCore

end Cogniform
