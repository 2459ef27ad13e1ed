import Cogniform.Executor.Local

/-!
# What is reported of a processed command

An executor checks a response before it reports it: a receipt must say that the patch was applied.
Where the world already retains a result under that key, the receipt is that of the result, marked
as a replay. The check fails and the client is told of an internal failure, although the command was
processed. Within one lifetime this does not happen; it does after a restore or a revert, which keep
the results of the world and forget those of the gateway.
-/

namespace Cogniform

def PendingCommandKind.completion? :
    PendingCommandKind → GatewayResponse → Option LocalSessionServerKind
  | .patch, .patchApplied receipt => some (.patchCompleted receipt)
  | .imagination submitted, .imaginationProcessed compilation receipt =>
    some (.imaginationCompleted
      ⟨submitted.imaginationId, submitted.idempotencyKey, compilation, receipt⟩)
  | _, _ => none

def Reports (ext : ExecutorExternals) (correlationId : NonZeroU64) (context : SessionOutputContext)
    (completion message : LocalSessionServerKind) : Prop :=
  message = completion ∨
    message = .failure .limitExceeded ∧
      ∀ frame, controlFrameFor ext correlationId context completion ≠ .ok frame

namespace LocalSessionExecutor

variable {ext : LocalExternals} {commands : Set GatewayCommand} {floats : FloatText}
  {executor : LocalSessionExecutor} {events : List SessionEvent} {books : Books}
  {context : SessionOutputContext} {command : GatewayCommand} {response : GatewayResponse}
  {limits : RuntimeLimits}

theorem imaginationCompletion_answered {imagination : ImaginationEnvelope}
    {compilation : CompilationResult} {receipt : Option ApplyReceipt}
    (h : imagination.AnsweredBy ext.toServiceExternals limits compilation receipt)
    (hlimits : context.compilationLimits.isSome) (expected : ApplyStatus) :
    ((∀ applied, receipt = some applied → applied.status = expected) →
      SessionCore.imaginationCompletion ext.executor context (.fromEnvelope imagination) compilation
        receipt expected (.forRuntimeLimits limits) =
      .ok ⟨imagination.imaginationId, imagination.idempotencyKey, compilation, receipt⟩) ∧
    ∀ applied, receipt = some applied → applied.status ≠ expected →
      ∃ error, SessionCore.imaginationCompletion ext.executor context (.fromEnvelope imagination)
        compilation receipt expected (.forRuntimeLimits limits) = .error error := by
  obtain ⟨encoded, hencoded⟩ := h.encodable
  have hencoded : compilation.toCanonicalJson ext.executor.session.compilationJson
      (.forRuntimeLimits limits) = .ok encoded := hencoded
  have hagreed : context.compilationLimits.isNone = false := by
    simpa [Option.isSome_iff_ne_none] using hlimits
  have hisSome := h.receipt_isSome
  simp only [SessionCore.imaginationCompletion, SubmittedImagination.fromEnvelope, hagreed,
    Bool.false_eq_true, ↓reduceIte, hencoded, h.imaginationId, h.sceneRevision, ne_eq,
    not_true_eq_false]
  cases hpatch : compilation.patch with
  | none =>
    rw [hpatch, Option.isSome_none, Option.isSome_eq_false_iff, Option.isNone_iff_eq_none] at hisSome
    subst hisSome
    exact ⟨fun _ => rfl, by simp⟩
  | some patch =>
    rw [hpatch, Option.isSome_some, Option.isSome_iff_exists] at hisSome
    obtain ⟨applied, rfl⟩ := hisSome
    obtain ⟨hkey, htransaction⟩ := h.patch patch hpatch
    simp only [hkey, htransaction, h.receipt_key applied rfl, true_and]
    refine ⟨fun happlied => if_pos (happlied applied rfl), fun other hother hstatus => ?_⟩
    cases hother
    exact ⟨_, if_neg hstatus⟩

theorem reportedMessage_answered
    (hanswered : command.AnsweredBy ext.toServiceExternals limits response)
    (hlimits : command.pendingKind ≠ .patch → context.compilationLimits.isSome) :
    ∃ completion, command.pendingKind.completion? response = some completion ∧
      completion ≠ .failure .internal ∧
      ((∀ receipt, response.receipt? = some receipt → receipt.status = .applied) →
        SessionCore.reportedMessage ext.executor context command.idempotencyKey command.pendingKind
          (.forRuntimeLimits limits) (.ok (some response)) = completion) ∧
      ∀ receipt, response.receipt? = some receipt → receipt.status ≠ .applied →
        SessionCore.reportedMessage ext.executor context command.idempotencyKey command.pendingKind
          (.forRuntimeLimits limits) (.ok (some response)) = .failure .internal := by
  cases command with
  | patch patch =>
    cases response with
    | imaginationProcessed compilation receipt => exact hanswered.elim
    | patchApplied receipt =>
      have hkey : receipt.idempotencyKey = patch.idempotencyKey := hanswered
      refine ⟨.patchCompleted receipt, rfl, by simp, fun happlied => ?_, fun other hother hstatus => ?_⟩
      · simp only [SessionCore.reportedMessage, GatewayCommand.pendingKind,
          GatewayCommand.idempotencyKey, SessionCore.completionMessage, hkey, happlied receipt rfl,
          and_self, ↓reduceIte]
      · cases hother
        simp only [SessionCore.reportedMessage, GatewayCommand.pendingKind,
          SessionCore.completionMessage, hstatus, and_false, ↓reduceIte]
  | imagination imagination =>
    cases response with
    | patchApplied receipt => exact hanswered.elim
    | imaginationProcessed compilation receipt =>
      have hanswered : imagination.AnsweredBy ext.toServiceExternals limits compilation receipt :=
        hanswered
      have hlimits := hlimits (by simp [GatewayCommand.pendingKind])
      obtain ⟨hpasses, hfails⟩ := imaginationCompletion_answered hanswered hlimits .applied
      refine ⟨_, rfl, by simp, fun happlied => ?_, fun other hother hstatus => ?_⟩
      · simp only [SessionCore.reportedMessage, GatewayCommand.pendingKind,
          SessionCore.completionMessage, hpasses happlied]
        rfl
      · obtain ⟨error, herror⟩ := hfails other hother hstatus
        simp only [SessionCore.reportedMessage, GatewayCommand.pendingKind,
          SessionCore.completionMessage, herror]
        rfl

theorem InLockstep.first (h : InLockstep ext commands executor books) {key : IdempotencyKey}
    {rest : List IdempotencyKey} {pending : PendingCommand}
    (horder : executor.commandOrder = key :: rest)
    (hpending : executor.commandCorrelations[key]? = some pending) :
    ∃ later, books.commands = (key, pending) :: later := by
  have hmem := h.commands.get_iff.mp hpending
  have hkeys := h.commands.order_eq
  have hnodup := h.commands.nodup
  rw [horder] at hkeys
  cases hcommands : books.commands with
  | nil =>
    rw [hcommands] at hkeys
    cases hkeys
  | cons entry later =>
    rw [hcommands, List.map_cons] at hkeys
    obtain ⟨hkey, hrest⟩ := List.cons.inj hkeys
    rw [hcommands] at hmem
    refine ⟨later, ?_⟩
    rcases List.mem_cons.mp hmem with heq | hlater
    · rw [heq]
    · rw [horder, hrest, List.nodup_cons] at hnodup
      exact absurd (List.mem_map_of_mem hlater) hnodup.1

theorem InLockstep.processed (h : InLockstep ext commands executor books) {key : IdempotencyKey}
    {pending : PendingCommand} {later : List (IdempotencyKey × PendingCommand)}
    (hfirst : books.commands = (key, pending) :: later) {clock : AuthoritativeWorld.ApplyClock}
    (hresponse : (executor.service.processNext ext.toServiceExternals clock).2 =
      .ok (some response)) :
    ∃ command : GatewayCommand, command.idempotencyKey = key ∧ command.pendingKind = pending.kind ∧
      command.AnsweredBy ext.toServiceExternals executor.service.gateway.limits response ∧
      ∀ receipt, response.receipt? = some receipt → (receipt.status = .applied ↔
        executor.service.gateway.engine.world.world.idempotencyRecords[key]? = none) := by
  have hqueue := h.queue
  rw [hfirst, List.map_cons] at hqueue
  have hprocessed := Exec.mapError_eq_ok.mp hresponse
  rcases LocalGateway.processNext_cases ext.toGatewayExternals executor.service.gateway clock with
    ⟨-, heq⟩ | ⟨record, records, hentries, ⟨abort, -, heq⟩ | ⟨other, hexecute, heq⟩⟩
  · rw [heq] at hprocessed
    cases hprocessed
  · rw [heq] at hprocessed
    cases hprocessed
  · rw [heq] at hprocessed
    cases hprocessed
    simp only [LocalService.view, hentries, List.map_cons] at hqueue
    obtain ⟨hkey, hkind⟩ := Prod.mk.inj (List.cons.inj hqueue).1
    have hkey : record.command.idempotencyKey = key := hkey
    obtain ⟨hanswered, hstatus⟩ := h.valid.executed hexecute
    rw [hkey] at hstatus
    exact ⟨record.command, hkey, hkind, hanswered, hstatus⟩

theorem InLockstep.advance_first (hdistinct : ext.TellsApart commands)
    (h : InLockstep ext commands executor books) (env : CallEnvironment) {terms : SessionTerms}
    (hactive : executor.state = .active terms) {key : IdempotencyKey} {pending : PendingCommand}
    {later : List (IdempotencyKey × PendingCommand)}
    (hfirst : books.commands = (key, pending) :: later)
    (hresponse : (executor.service.processNext ext.toServiceExternals env.clock).2 =
      .ok (some response)) :
    ∃ frame, controlOrLimitFailureFor ext.executor pending.correlationId terms.context
        (SessionCore.reportedMessage ext.executor terms.context key pending.kind
          (.forRuntimeLimits executor.service.gateway.limits) (.ok (some response))) = .ok frame ∧
      ((executor.advance ext env).2.Returns →
        ∃ others, (executor.advance ext env).2 = .ok (frame :: others)) := by
  have hlaw := LocalService.lawful hdistinct env
  have hfits := h.active terms hactive
  have hanswer : ((LocalService.session ext.toServiceExternals env).processNext
      executor.service).2 = Exec.ofExcept (.ok (some response)) := by
    simp only [LocalService.session, hresponse]
    rfl
  obtain ⟨core, frame, heq, hframe, hstate, -, hlockstep⟩ :=
    h.advanceCommand_first hlaw hactive hfits hfirst hanswer
  refine ⟨frame, ?_, fun hreturns => ?_⟩
  · rw [← h.valid.runtimeLimits]
    exact hframe
  · have hadvance : executor.advance ext env =
        (do
          let observation ← SessionCore.advanceObservation ext.executor
            (LocalService.session ext.toServiceExternals env) terms.context
          pure ([frame] ++ observation.toList) : SessionCore.Method LocalService _) core := by
      rw [LocalSessionExecutor.advance, SessionCore.advance, Call.get_bind, hactive]
      exact Call.bind_ok heq
    rw [hadvance] at hreturns ⊢
    rcases hlockstep.advanceObservation hlaw (hstate.trans hactive) hfits with
      ⟨core', _, _, observation, heq', -⟩ | ⟨-, hstops⟩
    · rw [Call.bind_ok heq']
      exact ⟨observation.toList, rfl⟩
    · exact absurd hreturns (Call.not_returns_bind hstops _)

/-- **What is reported of a processed command.** The first frame of `advance` is its completion, or
tells that it does not fit, if and only if the world had no result under its key or the response has
no receipt. Otherwise it is an internal failure. -/
theorem advance_reports (hwrites : ext.executor.session.WritesServer floats)
    (hdistinct : ext.TellsApart commands) (h : Run ext commands executor events)
    (env : CallEnvironment) {terms : SessionTerms} (hactive : executor.state = .active terms)
    {key : IdempotencyKey} {rest : List IdempotencyKey} {pending : PendingCommand}
    (horder : executor.commandOrder = key :: rest)
    (hpending : executor.commandCorrelations[key]? = some pending)
    (hresponse : (executor.service.processNext ext.toServiceExternals env.clock).2 =
      .ok (some response)) :
    ∃ completion message frame, pending.kind.completion? response = some completion ∧
      controlFrameFor ext.executor pending.correlationId terms.context message = .ok frame ∧
      ((executor.advance ext env).2.Returns →
        ∃ later, (executor.advance ext env).2 = .ok (frame :: later)) ∧
      (Reports ext.executor pending.correlationId terms.context completion message ↔
        executor.service.gateway.engine.world.world.idempotencyRecords[key]? = none ∨
          response.receipt? = none) ∧
      (¬Reports ext.executor pending.correlationId terms.context completion message →
        message = .failure .internal) := by
  obtain ⟨books, hlockstep⟩ := h.inLockstep hwrites hdistinct
  obtain ⟨later, hfirst⟩ := hlockstep.first horder hpending
  obtain ⟨command, rfl, hkind, hanswered, hstatus⟩ := hlockstep.processed hfirst hresponse
  obtain ⟨frame, hframe, hadvance⟩ :=
    hlockstep.advance_first hdistinct env hactive hfirst hresponse
  have hlimits : command.pendingKind ≠ .patch → terms.context.compilationLimits.isSome := by
    rw [hkind]
    exact hlockstep.imaginations terms hactive _ (hfirst ▸ List.mem_cons_self)
  obtain ⟨completion, hcompletion, hne, hpasses, hfails⟩ :=
    reportedMessage_answered hanswered hlimits
  rw [hkind] at hcompletion hpasses hfails
  have hfits := hlockstep.active terms hactive
  obtain ⟨sent, frame', hok, hsent, hmessage⟩ := hfits.orLimitFailure pending.correlationId
    (SessionCore.reportedMessage ext.executor terms.context command.idempotencyKey pending.kind
      (.forRuntimeLimits executor.service.gateway.limits) (.ok (some response)))
  cases hframe.symm.trans hok
  refine ⟨completion, sent, frame, hcompletion, hsent, hadvance, ?_⟩
  by_cases hcondition :
      executor.service.gateway.engine.world.world.idempotencyRecords[command.idempotencyKey]? =
        none ∨ response.receipt? = none
  · have hreports : Reports ext.executor pending.correlationId terms.context completion sent := by
      rw [hpasses fun receipt hreceipt => ?_] at hmessage
      · refine hmessage.imp_right fun ⟨hsent, hreject⟩ => ⟨hsent, fun frame hframe => ?_⟩
        rw [hreject] at hframe
        cases hframe
      · rcases hcondition with hnone | hnone
        · exact (hstatus receipt hreceipt).mpr hnone
        · rw [hnone] at hreceipt
          cases hreceipt
    exact ⟨iff_of_true hreports hcondition, absurd hreports⟩
  · obtain ⟨hsome, hreceipt⟩ := not_or.mp hcondition
    obtain ⟨receipt, hreceipt⟩ := Option.ne_none_iff_exists'.mp hreceipt
    rw [hfails receipt hreceipt (mt (hstatus receipt hreceipt).mp hsome)] at hmessage
    obtain ⟨failed, hfailed⟩ := hfits pending.correlationId (.failure .internal) (.failure _)
    have hinternal : sent = .failure .internal := by
      refine hmessage.resolve_right fun ⟨_, hreject⟩ => ?_
      rw [hfailed] at hreject
      cases hreject
    refine ⟨iff_of_false ?_ hcondition, fun _ => hinternal⟩
    rw [hinternal]
    rintro (heq | ⟨heq, -⟩)
    · exact hne heq.symm
    · cases heq

open Observation (meshPatch)

/-! ### Samples -/

theorem exists_response {service : LocalService} {ext : ServiceExternals}
    {clock : AuthoritativeWorld.ApplyClock}
    (h : (service.processNext ext clock).2.toOption.any Option.isSome) :
    ∃ response, (service.processNext ext clock).2 = .ok (some response) := by
  obtain ⟨answer, hanswer, hsome⟩ := Exec.exists_ok_of_any h
  obtain ⟨response, rfl⟩ := Option.isSome_iff_exists.mp hsome
  exact ⟨response, hanswer⟩

theorem advance_reports_queued :
    ∃ completion message frame later,
      (queuedExecutor.advance sampleSession sampleEnvironment).2 = .ok (frame :: later) ∧
      controlFrameFor sampleSession.executor ⟨8, by decide, by decide⟩
        queuedExecutor.currentOutputContext message = .ok frame ∧
      Reports sampleSession.executor ⟨8, by decide, by decide⟩ queuedExecutor.currentOutputContext
        completion message := by
  obtain ⟨events, hrun⟩ := run_queuedExecutor
  obtain ⟨hphase, hpending, horder, hfresh, hreturns, hresponse⟩ :
      queuedExecutor.status.phase = .active ∧
      queuedExecutor.commandCorrelations[meshPatch.idempotencyKey]? =
        some ⟨⟨8, by decide, by decide⟩, .patch⟩ ∧
      queuedExecutor.commandOrder = [meshPatch.idempotencyKey] ∧
      queuedExecutor.service.gateway.engine.world.world.idempotencyRecords[
        meshPatch.idempotencyKey]?.isNone ∧
      (queuedExecutor.advance sampleSession sampleEnvironment).2.toOption.isSome ∧
      (queuedExecutor.service.processNext sampleSession.toServiceExternals
        sampleEnvironment.clock).2.toOption.any Option.isSome := by
    decide +kernel
  obtain ⟨terms, hactive, hcontext⟩ := SessionCore.exists_terms hphase
  obtain ⟨response, hresponse⟩ := exists_response hresponse
  obtain ⟨completion, message, frame, -, hframe, hadvance, hreports, -⟩ :=
    advance_reports (writesServer_soloSession _ _) (tellsApart_soloSession _ _) hrun
      sampleEnvironment hactive horder hpending hresponse
  obtain ⟨later, hlater⟩ := hadvance (.of_isSome hreturns)
  rw [hcontext]
  exact ⟨completion, message, frame, later, hlater, hframe,
    hreports.mpr (.inl (Option.isNone_iff_eq_none.mp hfresh))⟩

def processedService : LocalService :=
  ((sampleService.submit sampleSession.toServiceExternals (.patch meshPatch) 0).1.processNext
    sampleSession.toServiceExternals ⟨0, 0⟩).1

def sampleRecovery : EngineRecoveryPoint :=
  (processedService.gateway.engine.recoveryPointAtRevision processedService.revision).toOption.get
    (by decide +kernel)

def restoredService : LocalService :=
  (LocalService.restore sampleSession.toServiceExternals (fun _ => ⟨0, 0⟩) (.new 64 64)
    ⟨.ok (), .ok ()⟩ sampleRecovery).toOption.get (by decide +kernel)

def restoredExecutor : LocalSessionExecutor :=
  (LocalSessionExecutor.new sampleSession sampleEnvironment restoredService .default).toOption.get
    (by decide +kernel)

def reopenedExecutor : LocalSessionExecutor :=
  (restoredExecutor.handleFrame sampleSession sampleEnvironment
    (.control (.lit 7) [0x30, 0x0a])).1

def resubmittedExecutor : LocalSessionExecutor :=
  (reopenedExecutor.handleFrame sampleSession sampleEnvironment
    (.control (.lit 8) [0x31, 0x0a])).1

theorem run_resubmittedExecutor :
    ∃ events, Run sampleSession Set.univ resubmittedExecutor events := by
  have hservice : LocalService.Run sampleSession.toServiceExternals Set.univ restoredService :=
    .restore (Exec.eq_ok_of_get _)
  have hnew : Run sampleSession Set.univ restoredExecutor [] :=
    .new hservice sampleEnvironment (Exec.eq_ok_of_get _)
  have hopen := hnew.handleFrame sampleEnvironment (.control ⟨7, by decide, by decide⟩ [0x30, 0x0a])
    (fun _ _ _ _ => trivial) (.of_isSome (by decide +kernel))
  exact ⟨_, hopen.handleFrame sampleEnvironment (.control ⟨8, by decide, by decide⟩ [0x31, 0x0a])
    (fun _ _ _ _ => trivial) (.of_isSome (by decide +kernel))⟩

theorem advance_resubmitted :
    ∃ events response frame, Run sampleSession Set.univ resubmittedExecutor events ∧
      resubmittedExecutor.status.phase = .active ∧
      resubmittedExecutor.commandOrder = [meshPatch.idempotencyKey] ∧
      (resubmittedExecutor.service.processNext sampleSession.toServiceExternals
        sampleEnvironment.clock).2 = .ok (some response) ∧
      controlFrameFor sampleSession.executor ⟨8, by decide, by decide⟩
        resubmittedExecutor.currentOutputContext (.failure .internal) = .ok frame ∧
      (resubmittedExecutor.advance sampleSession sampleEnvironment).2 = .ok [frame] := by
  obtain ⟨events, hrun⟩ := run_resubmittedExecutor
  obtain ⟨hphase, horder, hresponse, hframes⟩ :
      resubmittedExecutor.status.phase = .active ∧
      resubmittedExecutor.commandOrder = [meshPatch.idempotencyKey] ∧
      (resubmittedExecutor.service.processNext sampleSession.toServiceExternals
        sampleEnvironment.clock).2.toOption.any Option.isSome ∧
      (resubmittedExecutor.advance sampleSession sampleEnvironment).2.toOption.any fun frames =>
        frames.length = 1 ∧
          controlFrameFor sampleSession.executor ⟨8, by decide, by decide⟩
            resubmittedExecutor.currentOutputContext (.failure .internal) =
          frames.head?.elim (Exec.fail .outputRejected) .ok := by
    decide +kernel
  obtain ⟨response, hresponse⟩ := exists_response hresponse
  obtain ⟨frames, hframes, hfirst⟩ := Exec.exists_ok_of_any hframes
  obtain ⟨hlength, hfirst⟩ := of_decide_eq_true hfirst
  obtain ⟨frame, rfl⟩ := List.length_eq_one_iff.mp hlength
  exact ⟨events, response, frame, hrun, hphase, horder, hresponse, hfirst, hframes⟩

end LocalSessionExecutor

end Cogniform
