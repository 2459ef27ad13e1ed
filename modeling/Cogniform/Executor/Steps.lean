import Cogniform.Executor.Lockstep

/-!
# What one call of an executor does

One lemma for each method of the executor, over any lawful service. A method that is called in
lockstep answers its request, with the frames the client is owed, and leaves executor and service in
lockstep again. No method meets a state that the source guards against.
-/

namespace Cogniform

variable {S : Type} {ext : ExecutorExternals} {view : ServiceView S} {svc : SessionService S}
  {core : SessionCore S} {books : Books} {context : SessionOutputContext} {request : NonZeroU64}
  {terms : SessionTerms} {frame : LocalFrame} {s : S}

theorem SessionCore.imaginationCompletion_cases (ext : ExecutorExternals)
    (context : SessionOutputContext) (submitted : SubmittedImagination)
    (compilation : CompilationResult) (receipt : Option ApplyReceipt) (expected : ApplyStatus)
    (limits : CompilationLimits) :
    (∃ completion, imaginationCompletion ext context submitted compilation receipt expected limits =
      .ok completion) ∨
    ∃ reason, imaginationCompletion ext context submitted compilation receipt expected limits =
      .error (.stateInvariant reason) := by
  rw [imaginationCompletion]
  split
  · exact .inr ⟨_, rfl⟩
  split
  · exact .inr ⟨_, rfl⟩
  split
  · exact .inr ⟨_, rfl⟩
  split
  · exact .inr ⟨_, rfl⟩
  dsimp only
  split
  · split
    · exact .inl ⟨_, rfl⟩
    · exact .inr ⟨_, rfl⟩
  · exact .inl ⟨_, rfl⟩
  · exact .inr ⟨_, rfl⟩

def SessionCore.reportedMessage (ext : ExecutorExternals) (context : SessionOutputContext)
    (key : IdempotencyKey) (kind : PendingCommandKind) (limits : CompilationLimits)
    (response : Except SessionFailureCode (Option GatewayResponse)) : LocalSessionServerKind :=
  match completionMessage ext context key kind limits response with
  | .ok message => message
  | .error _ => .failure .internal

theorem SessionCore.completionMessage_cases (ext : ExecutorExternals)
    (context : SessionOutputContext) (key : IdempotencyKey) (kind : PendingCommandKind)
    (limits : CompilationLimits) (response : Except SessionFailureCode (Option GatewayResponse)) :
    (∃ message, completionMessage ext context key kind limits response = .ok message ∧
      message.completes = true) ∨
    ∃ reason, completionMessage ext context key kind limits response =
      .error (.stateInvariant reason) := by
  match response with
  | .error code => exact .inl ⟨_, rfl, rfl⟩
  | .ok none => exact .inr ⟨_, rfl⟩
  | .ok (some response) =>
    cases kind with
    | patch =>
      cases response with
      | patchApplied receipt =>
        simp only [completionMessage]
        split
        · exact .inl ⟨_, rfl, rfl⟩
        · exact .inr ⟨_, rfl⟩
      | imaginationProcessed compilation receipt => exact .inr ⟨_, rfl⟩
    | imagination submitted =>
      cases response with
      | patchApplied receipt => exact .inr ⟨_, rfl⟩
      | imaginationProcessed compilation receipt =>
        simp only [completionMessage]
        rcases imaginationCompletion_cases ext context submitted compilation receipt .applied
          limits with ⟨completion, hcompletion⟩ | ⟨reason, hreason⟩
        · rw [hcompletion]
          exact .inl ⟨_, rfl, rfl⟩
        · rw [hreason]
          exact .inr ⟨_, rfl⟩

theorem SessionCore.reportedMessage_completes (ext : ExecutorExternals)
    (context : SessionOutputContext) (key : IdempotencyKey) (kind : PendingCommandKind)
    (limits : CompilationLimits) (response : Except SessionFailureCode (Option GatewayResponse)) :
    (reportedMessage ext context key kind limits response).completes = true := by
  rw [reportedMessage]
  rcases completionMessage_cases ext context key kind limits response with
    ⟨message, hmessage, hcompletes⟩ | ⟨reason, hreason⟩
  · rw [hmessage]
    exact hcompletes
  · rw [hreason]
    rfl

namespace Answers

theorem reply (h : Lockstep ext view core books) {message : LocalSessionServerKind}
    (hframe : controlFrameFor ext request context message = .ok frame)
    (himmediate : message.immediate = true)
    (hlive : request ∈ books.ids → ∃ code, message = .failure code) :
    Answers ext view books request (core, .ok [frame]) :=
  ⟨books, [⟨request, .message message⟩], [frame], rfl, .cons (Reply.framed_of_ok hframe) .nil,
    .replied message himmediate hlive, h⟩

theorem failure (h : Lockstep ext view core books) (hfits : context.Fits ext)
    (code : SessionFailureCode) :
    Answers ext view books request (core, singleFailureFor ext request context code) := by
  obtain ⟨frame, hframe⟩ := hfits request (.failure code) (.failure code)
  rw [singleFailureFor_of_ok hframe]
  exact .reply h hframe rfl fun _ => ⟨code, rfl⟩

theorem orLimitFailure (h : Lockstep ext view core books) (hfits : context.Fits ext)
    {message : LocalSessionServerKind} (himmediate : message.immediate = true)
    (hidle : request ∉ books.ids) :
    ∃ frame, controlOrLimitFailureFor ext request context message = .ok frame ∧
      Answers ext view books request (core, .ok [frame]) := by
  obtain ⟨sent, frame, hok, hframe, hsent⟩ := hfits.orLimitFailure request message
  refine ⟨frame, hok, .reply h hframe ?_ fun hlive => absurd hlive hidle⟩
  rcases hsent with rfl | ⟨rfl, -⟩
  · exact himmediate
  · rfl

/-! ### Commands -/

theorem queueCommand (h : Lockstep ext view core books) (hactive : core.state = .active terms)
    {key : IdempotencyKey} {kind : PendingCommandKind} (hvalid : view.Valid s)
    (hqueue : view.queue s = view.queue core.service ++ [(key, kind)])
    (hdeliverable : view.deliverable s = view.deliverable core.service)
    (hfresh : key ∉ core.commandOrder)
    (hroom : count core.commandOrder.length < svc.commandCapacity s)
    (hlive : core.liveCapacityReached = false) (hidle : request ∉ books.ids)
    (hkind : kind ≠ .patch → terms.compilationLimits.isSome)
    (hframe : controlFrameFor ext request context (kind.queuedMessage key) = .ok frame)
    (beyondCapacity : String) :
    Answers ext view books request
      (SessionCore.queueCommand svc request beyondCapacity key (.ok frame) kind
        { core with service := s }) := by
  have hids := Books.ids_command books.commands [] (key, ⟨request, kind⟩) books.observations
    books.reported
  rw [List.append_nil] at hids
  have hbounded := h.bounded
  have hnotfull := of_decide_eq_false (h.liveCapacityReached_eq.symm.trans hlive)
  have hreserve := SessionCore.reserveCorrelation_eq { core with service := s } hlive
    (mt h.live.mem_iff.mp hidle)
  rw [SessionCore.queueCommand, Call.get_bind, if_neg (Nat.not_le.mpr hroom), Call.lift_ok_bind,
    Call.bind_ok hreserve, Call.modify_bind, Call.pure_apply]
  refine ⟨_, _, _, rfl, .cons (Reply.framed_of_ok hframe) .nil, .queued key kind hidle, hvalid,
    h.commands.push hfresh _, h.observations, ?_, (h.live.insert hidle).perm hids.symm, ?_,
    h.reported_eq, h.reported, hdeliverable ▸ h.deliverable, SessionState.not_awaiting hactive,
    h.active, SessionState.not_closed hactive, fun terms' hactive' entry hentry => ?_⟩
  · rw [hqueue, h.queue, List.map_append]
    rfl
  · rw [hids.length_eq, List.length_cons]
    exact Nat.lt_of_le_of_ne hbounded hnotfull
  · rcases List.mem_append.mp hentry with hentry | hentry
    · exact h.imaginations terms' hactive' entry hentry
    · cases hactive.symm.trans hactive'
      rw [List.mem_singleton.mp hentry]
      exact hkind

theorem supersedeCommand (h : Lockstep ext view core books) (hactive : core.state = .active terms)
    (hfits : context.Fits ext) {key old : IdempotencyKey} {kind : PendingCommandKind}
    {pending : PendingCommand} {before after : List (IdempotencyKey × PendingCommand)}
    (hsplit : books.commands = before ++ (old, pending) :: after) (hvalid : view.Valid s)
    (hqueue : view.queue s = before.map (fun entry => (entry.1, entry.2.kind)) ++
      (key, kind) :: after.map fun entry => (entry.1, entry.2.kind))
    (hdeliverable : view.deliverable s = view.deliverable core.service)
    (hfresh : key ∉ core.commandOrder) (hidle : request ∉ books.ids)
    (hkind : kind ≠ .patch → terms.compilationLimits.isSome)
    (hframe : controlFrameFor ext request context (kind.supersededMessage key old) = .ok frame)
    (notLive notOrdered : String) :
    Answers ext view books request
      (SessionCore.supersedeCommand ext request context notLive notOrdered key old (.ok frame) kind
        { core with service := s }) := by
  have hcommands := h.commands
  rw [hsplit] at hcommands
  obtain ⟨rejected, hrejected⟩ :=
    hfits pending.correlationId (.failure .commandRejected) (.failure _)
  -- the identities without that of the command replaced
  have hold : books.ids.Perm (pending.correlationId ::
      (Books.mk (before ++ after) books.observations books.reported).ids) := by
    have hids := Books.ids_command before after (old, pending) books.observations books.reported
    rwa [← hsplit] at hids
  have hnew := Books.ids_command before after (key, ⟨request, kind⟩) books.observations
    books.reported
  have hrest := (h.live.perm hold).erase
  have hbounded := h.bounded
  rw [hold.length_eq, List.length_cons] at hbounded
  have hidle' : request ∉ (Books.mk (before ++ after) books.observations books.reported).ids :=
    fun hmem => hidle (hold.mem_iff.mpr (List.mem_cons_of_mem _ hmem))
  have hrelease := SessionCore.releaseCorrelation_eq
    { core with
      service := s
      commandOrder := core.commandOrder.set before.length key
      commandCorrelations := core.commandCorrelations.erase old }
    (h.live.mem_iff.mpr (hold.mem_iff.mpr List.mem_cons_self))
  have hreserve := SessionCore.reserveCorrelation_eq
    { core with
      service := s
      commandOrder := core.commandOrder.set before.length key
      commandCorrelations := core.commandCorrelations.erase old
      liveCorrelations := core.liveCorrelations.erase pending.correlationId }
    (by
      rw [SessionCore.liveCapacityReached, hrest.size_eq, count, decide_eq_false_iff_not]
      dsimp only
      omega)
    (mt hrest.mem_iff.mp hidle')
  rw [SessionCore.supersedeCommand, Call.get_bind]
  simp only [hcommands.getElem?_middle, failureFrameFor, hrejected, Call.lift_ok_bind,
    hcommands.idxOf?_eq, Call.modify_bind]
  rw [Call.bind_ok hrelease, Call.bind_ok hreserve, Call.modify_bind, Call.pure_apply]
  refine ⟨_, _, _, rfl, .cons (Reply.framed_of_ok hrejected) (.cons (Reply.framed_of_ok hframe) .nil),
    .superseded key kind hidle hsplit, hvalid, hcommands.replace hfresh _, h.observations, ?_,
    (hrest.insert hidle').perm hnew.symm, ?_, h.reported_eq, h.reported,
    hdeliverable ▸ h.deliverable, SessionState.not_awaiting hactive,
    h.active, SessionState.not_closed hactive, fun terms' hactive' entry hentry => ?_⟩
  · rw [hqueue, List.map_append]
    rfl
  · rw [hnew.length_eq, List.length_cons]
    exact hbounded
  · have himaginations := h.imaginations terms' hactive'
    rw [hsplit] at himaginations
    rcases List.mem_append.mp hentry with hentry | hentry
    · exact himaginations entry (List.mem_append_left _ hentry)
    rcases List.mem_cons.mp hentry with rfl | hentry
    · cases hactive.symm.trans hactive'
      exact hkind
    · exact himaginations entry (List.mem_append_right _ (List.mem_cons_of_mem _ hentry))

end Answers

namespace Lockstep

theorem new (hlaw : svc.Lawful view) (hvalid : view.Valid s) {config : LocalExecutorConfig}
    (h : SessionCore.new svc s config = .ok core) : Lockstep ext view core .empty := by
  obtain ⟨narrowed, -, h⟩ := Exec.bind_eq_ok.mp h
  dsimp only at h
  split at h
  · cases h
  split at h
  · cases h
  rename_i hquiescent
  rw [not_or, not_not, not_not, hlaw.commandDepth hvalid] at hquiescent
  obtain ⟨hdepth, hobservations⟩ := hquiescent
  split at h
  · cases h
  split at h
  · cases h
  split at h
  · cases h
    have hqueue : view.queue s = [] := by
      rw [count] at hdepth
      exact List.eq_nil_of_length_eq_zero (by omega)
    refine ⟨hvalid, .empty, .empty, hqueue, .empty, Nat.zero_le _, rfl, fun id hid => ?_, ?_,
      fun _ => rfl, by simp, by simp, by simp⟩
    · exact absurd hid (by simp [Books.empty])
    · rw [hlaw.quiescent hvalid hobservations]
  · cases h

theorem not_full (h : Lockstep ext view core books) (hlaw : svc.Lawful view)
    (hrefuses : ¬SessionCore.refusesCommand svc core = true)
    (hroom : count (view.queue core.service).length < svc.commandCapacity core.service) :
    core.liveCapacityReached = false := by
  rw [SessionCore.refusesCommand, hlaw.commandDepth h.valid, decide_eq_true hroom, Bool.and_true,
    Bool.not_eq_true] at hrefuses
  exact hrefuses

theorem split_queue (h : Lockstep ext view core books)
    {before after : List (IdempotencyKey × PendingCommandKind)}
    {old : IdempotencyKey × PendingCommandKind}
    (hsplit : view.queue core.service = before ++ old :: after) :
    ∃ before' pending after', books.commands = before' ++ (old.1, pending) :: after' ∧
      before'.map (fun entry => (entry.1, entry.2.kind)) = before ∧
      after'.map (fun entry => (entry.1, entry.2.kind)) = after := by
  rw [h.queue, List.map_eq_append_iff] at hsplit
  obtain ⟨before', rest, hcommands, hbefore, hrest⟩ := hsplit
  obtain ⟨⟨key, pending⟩, after', rfl, rfl, hafter⟩ := List.map_eq_cons_iff.mp hrest
  exact ⟨before', pending, after', hcommands, hbefore, hafter⟩

theorem kind_of_mem_queue (h : Lockstep ext view core books) {key : IdempotencyKey}
    {kind : PendingCommandKind} (hmem : (key, kind) ∈ view.queue core.service) :
    (core.commandCorrelations[key]?).map PendingCommand.kind = some kind := by
  rw [h.queue, List.mem_map] at hmem
  obtain ⟨⟨_, pending⟩, hmem, heq⟩ := hmem
  cases heq
  rw [h.commands.get_iff.mpr hmem]
  rfl

theorem submitPatch (h : Lockstep ext view core books) (hlaw : svc.Lawful view)
    (hactive : core.state = .active terms) (hfits : context.Fits ext) {patch : ScenePatch}
    (haccepts : view.Accepts (.patch patch)) (hidle : request ∉ books.ids) :
    Answers ext view books request
      (SessionCore.submitPatch ext svc request context patch core) := by
  rw [SessionCore.submitPatch, Call.get_bind]
  split
  · exact .failure h hfits _
  rename_i hrefuses
  obtain ⟨s, answer, hsubmit, hvalid, hdeliverable, hsubmitted⟩ := hlaw.submit h.valid haccepts
  have hserved := fun queue => h.served hvalid queue (hdeliverable ▸ .refl _)
  have hsubmit : svc.submitPatch patch core.service = (s, Exec.ofExcept answer) := hsubmit
  rw [Call.bind_ok (SessionCore.onService_of_eq hsubmit)]
  cases hsubmitted with
  | refused code queue => exact .failure (hserved queue) hfits code
  | alreadyQueued queue mem =>
    obtain ⟨frame, hframe⟩ := hfits request _ (.patchAlreadyQueued patch.idempotencyKey)
    have hkind : (core.commandCorrelations[patch.idempotencyKey]?).map PendingCommand.kind =
        some .patch := h.kind_of_mem_queue mem
    simp only [SessionCore.handlePatchAdmission, GatewayCommand.idempotencyKey,
      SessionCore.ensureAdmissionKey_self, Call.pure_bind, Call.get_bind, hkind, ↓reduceIte,
      patchAdmissionFrame, hframe, Call.lift_ok_bind, Call.pure_apply]
    exact .reply (hserved queue) hframe rfl fun hlive => absurd hlive hidle
  | dropped queue =>
    obtain ⟨frame, hframe⟩ := hfits request _ (.patchDropped patch.idempotencyKey)
    simp only [SessionCore.handlePatchAdmission, GatewayCommand.idempotencyKey,
      SessionCore.ensureAdmissionKey_self, Call.pure_bind, patchAdmissionFrame, hframe,
      Call.lift_ok_bind, Call.pure_apply]
    exact .reply (hserved queue) hframe rfl fun hlive => absurd hlive hidle
  | @replayed response queue answered =>
    cases response with
    | imaginationProcessed compilation receipt => exact absurd answered id
    | patchApplied receipt =>
      have hkey : receipt.idempotencyKey = patch.idempotencyKey := answered
      obtain ⟨frame, hok, hanswers⟩ := Answers.orLimitFailure (hserved queue) hfits
        (show (LocalSessionServerKind.patchAdmission
          ⟨receipt.idempotencyKey, .replayed receipt⟩).immediate = true from rfl) hidle
      simp only [SessionCore.handlePatchAdmission, ← hkey, SessionCore.ensureAdmissionKey_self,
        Call.pure_bind, hok, Call.lift_ok_bind, Call.pure_apply]
      exact hanswers
  | queued fresh room capacity queue =>
    obtain ⟨frame, hframe⟩ := hfits request _ (.patchQueued patch.idempotencyKey)
    simp only [SessionCore.handlePatchAdmission, GatewayCommand.idempotencyKey,
      SessionCore.ensureAdmissionKey_self, Call.pure_bind, patchAdmissionFrame, hframe]
    rw [h.queue_keys] at fresh
    have hlive := h.not_full hlaw hrefuses room
    rw [← List.length_map Prod.fst, h.queue_keys, ← capacity] at room
    exact .queueCommand h hactive hvalid queue hdeliverable fresh room hlive hidle
      (absurd rfl) hframe _
  | @superseded before after old fresh split queue =>
    have hne : old.1 ≠ patch.idempotencyKey := by
      rintro heq
      exact fresh (by rw [split]; simp [GatewayCommand.idempotencyKey, heq])
    rw [h.queue_keys] at fresh
    obtain ⟨before, pending, after, hsplit, rfl, rfl⟩ := h.split_queue split
    obtain ⟨frame, hframe⟩ := hfits request _ (.patchSuperseded hne)
    simp only [SessionCore.handlePatchAdmission, GatewayCommand.idempotencyKey,
      SessionCore.ensureAdmissionKey_self, Call.pure_bind, SessionCore.handleSupersession,
      patchAdmissionFrame, hframe]
    exact .supersedeCommand h hactive hfits hsplit hvalid queue hdeliverable fresh hidle
      (absurd rfl) hframe _ _

theorem handleImaginationReplay (h : Lockstep ext view core books) (hfits : context.Fits ext)
    (hidle : request ∉ books.ids) (submitted : SubmittedImagination)
    (compilation : CompilationResult) (receipt : Option ApplyReceipt) :
    Answers ext view books request
      (SessionCore.handleImaginationReplay ext svc request context submitted
        (.imaginationProcessed compilation receipt) core) := by
  rw [SessionCore.handleImaginationReplay, Call.get_bind]
  rcases SessionCore.imaginationCompletion_cases ext context submitted compilation receipt
    .idempotentReplay (.forRuntimeLimits (svc.runtimeLimits core.service)) with
    ⟨completion, hcompletion⟩ | ⟨reason, hreason⟩
  · obtain ⟨frame, hok, hanswers⟩ := Answers.orLimitFailure h hfits
      (show (LocalSessionServerKind.imaginationAdmission ⟨submitted.imaginationId,
        submitted.idempotencyKey, .replayed completion⟩).immediate = true from rfl) hidle
    simp only [hcompletion, imaginationAdmissionFrame, hok, Call.lift_ok_bind, Call.pure_apply]
    exact hanswers
  · simp only [hreason]
    exact .failure h hfits _

theorem submitImagination (h : Lockstep ext view core books) (hlaw : svc.Lawful view)
    (hactive : core.state = .active terms) (hfits : context.Fits ext)
    (hlimits : context.compilationLimits = terms.compilationLimits)
    {imagination : ImaginationEnvelope} (haccepts : view.Accepts (.imagination imagination))
    (hidle : request ∉ books.ids) :
    Answers ext view books request
      (SessionCore.submitImagination ext svc request context imagination core) := by
  rw [SessionCore.submitImagination, Call.get_bind]
  split
  · exact .failure h hfits _
  rename_i hagreed
  have hversion := not_not.mp (not_or.mp hagreed).1
  have hkind : PendingCommandKind.imagination (.fromEnvelope imagination) ≠ .patch →
      terms.compilationLimits.isSome := by
    intro _
    rw [← hlimits]
    simpa [Option.isSome_iff_ne_none] using (not_or.mp hagreed).2
  split
  · exact .failure h hfits _
  rename_i hrefuses
  obtain ⟨s, answer, hsubmit, hvalid, hdeliverable, hsubmitted⟩ := hlaw.submit h.valid haccepts
  have hserved := fun queue => h.served hvalid queue (hdeliverable ▸ .refl _)
  have hsubmit : svc.submitImagination imagination core.service = (s, Exec.ofExcept answer) :=
    hsubmit
  rw [Call.bind_ok (SessionCore.onService_of_eq hsubmit)]
  cases hsubmitted with
  | refused code queue => exact .failure (hserved queue) hfits code
  | alreadyQueued queue mem =>
    obtain ⟨frame, hframe⟩ := hfits request _ (.imaginationAlreadyQueued hversion
      imagination.imaginationId imagination.idempotencyKey)
    have hkind : (core.commandCorrelations[imagination.idempotencyKey]?).map PendingCommand.kind =
        some (.imagination (.fromEnvelope imagination)) := h.kind_of_mem_queue mem
    simp only [SessionCore.handleImaginationAdmission, GatewayCommand.idempotencyKey,
      SubmittedImagination.fromEnvelope, SessionCore.ensureAdmissionKey_self, Call.pure_bind,
      Call.get_bind] at hkind ⊢
    simp only [hkind, ↓reduceIte, imaginationAdmissionFrame,
      controlOrLimitFailureFor_of_ok hframe, Call.lift_ok_bind, Call.pure_apply]
    exact .reply (hserved queue) hframe rfl fun hlive => absurd hlive hidle
  | dropped queue =>
    obtain ⟨frame, hframe⟩ := hfits request _ (.imaginationDropped hversion
      imagination.imaginationId imagination.idempotencyKey)
    simp only [SessionCore.handleImaginationAdmission, GatewayCommand.idempotencyKey,
      SubmittedImagination.fromEnvelope, SessionCore.ensureAdmissionKey_self, Call.pure_bind,
      imaginationAdmissionFrame, controlOrLimitFailureFor_of_ok hframe, Call.lift_ok_bind,
      Call.pure_apply]
    exact .reply (hserved queue) hframe rfl fun hlive => absurd hlive hidle
  | @replayed response queue answered =>
    cases response with
    | patchApplied receipt => exact absurd answered id
    | imaginationProcessed compilation receipt =>
      exact (hserved queue).handleImaginationReplay hfits hidle _ compilation receipt
  | queued fresh room capacity queue =>
    obtain ⟨frame, hframe⟩ := hfits request _ (.imaginationQueued hversion
      imagination.imaginationId imagination.idempotencyKey)
    simp only [SessionCore.handleImaginationAdmission, GatewayCommand.idempotencyKey,
      SubmittedImagination.fromEnvelope, SessionCore.ensureAdmissionKey_self, Call.pure_bind,
      imaginationAdmissionFrame, controlOrLimitFailureFor_of_ok hframe]
    rw [h.queue_keys] at fresh
    have hlive := h.not_full hlaw hrefuses room
    rw [← List.length_map Prod.fst, h.queue_keys, ← capacity] at room
    exact .queueCommand h hactive hvalid queue hdeliverable fresh room hlive hidle hkind
      hframe _
  | @superseded before after old fresh split queue =>
    have hne : old.1 ≠ imagination.idempotencyKey := by
      rintro heq
      exact fresh (by rw [split]; simp [GatewayCommand.idempotencyKey, heq])
    rw [h.queue_keys] at fresh
    obtain ⟨before, pending, after, hsplit, rfl, rfl⟩ := h.split_queue split
    obtain ⟨frame, hframe⟩ := hfits request _ (.imaginationSuperseded hversion
      imagination.imaginationId hne)
    simp only [SessionCore.handleImaginationAdmission, GatewayCommand.idempotencyKey,
      SubmittedImagination.fromEnvelope, SessionCore.ensureAdmissionKey_self, Call.pure_bind,
      SessionCore.handleImaginationSupersession, imaginationAdmissionFrame,
      controlOrLimitFailureFor_of_ok hframe]
    exact .supersedeCommand h hactive hfits hsplit hvalid queue hdeliverable fresh hidle
      hkind hframe _ _

theorem query (h : Lockstep ext view core books) (hfits : context.Fits ext)
    (hidle : request ∉ books.ids) (query : SceneQuery) :
    Answers ext view books request (SessionCore.query ext svc request context query core) ∨
      ¬(svc.query query core.service).Returns ∧
        ¬(SessionCore.query ext svc request context query core).2.Returns := by
  rw [SessionCore.query, Call.get_bind]
  cases svc.query query core.service with
  | ok result =>
    obtain ⟨frame, hok, hanswers⟩ := Answers.orLimitFailure h hfits
      (show (LocalSessionServerKind.queryResult result).immediate = true from rfl) hidle
    left
    simp only [hok, Call.lift_ok_bind, Call.pure_apply]
    exact hanswers
  | error abort =>
    cases abort with
    | error code => exact .inl (.failure h hfits code)
    | panic message => exact .inr ⟨Exec.not_returns_panic message, Exec.not_returns_panic message⟩
    | diverge => exact .inr ⟨Exec.not_returns_diverge, Exec.not_returns_diverge⟩

theorem requestObservation (h : Lockstep ext view core books) (hlaw : svc.Lawful view)
    (hactive : core.state = .active terms) (hfits : context.Fits ext)
    (hidle : request ∉ books.ids) (observation : ObservationRequest) :
    Answers ext view books request
      (SessionCore.requestObservation ext svc request context observation core) := by
  rw [SessionCore.requestObservation, Call.get_bind]
  split
  · exact .failure h hfits _
  rename_i hroom
  have hlive : core.liveCapacityReached = false := by simpa using (not_or.mp hroom).1
  split
  · exact .failure h hfits _
  rename_i hfresh
  rw [h.observations.mem_table] at hfresh
  split
  · exact .failure h hfits _
  obtain ⟨frame, hframe⟩ := hfits request _
    (.observationAccepted ⟨observation.observationId, observation.sceneRevision⟩)
  obtain ⟨s, answer, hrequest, hvalid, hqueue, hsublist⟩ :=
    hlaw.requestObservation observation h.valid
  simp only [hframe, Call.lift_ok_bind]
  rw [Call.bind_ok (SessionCore.onService_of_eq hrequest)]
  cases answer with
  | error code =>
    rw [show (Except.error code : Except SessionFailureCode Unit).isOk = false from rfl,
      if_neg Bool.false_ne_true, List.append_nil] at hsublist
    exact .failure (h.served hvalid hqueue hsublist) hfits code
  | ok accepted =>
    have hids := Books.ids_observation books.commands books.observations []
      (observation.observationId, ⟨request, observation.sceneRevision⟩) books.reported
      books.reported
    rw [List.append_nil] at hids
    have hbounded := h.bounded
    have hnotfull := of_decide_eq_false (h.liveCapacityReached_eq.symm.trans hlive)
    have hreserve := SessionCore.reserveCorrelation_eq { core with service := s } hlive
      (mt h.live.mem_iff.mp hidle)
    dsimp only
    rw [Call.bind_ok hreserve, Call.modify_bind, Call.pure_apply]
    refine ⟨_, _, _, rfl, .cons (Reply.framed_of_ok hframe) .nil,
      .accepted ⟨observation.observationId, observation.sceneRevision⟩ hidle
        fun hmem => hfresh (h.reported _ hmem), hvalid, h.commands, h.observations.push hfresh _,
      hqueue.trans h.queue, (h.live.insert hidle).perm hids.symm, ?_, h.reported_eq,
      fun id hid => List.mem_append_left _ (h.reported id hid),
      hsublist.trans (h.deliverable.append (.refl _)), SessionState.not_awaiting hactive,
      h.active, SessionState.not_closed hactive, h.imaginations⟩
    · rw [hids.length_eq, List.length_cons]
      exact Nat.lt_of_le_of_ne hbounded hnotfull

theorem eq_empty (h : Lockstep ext view core books) (hcommands : core.commandOrder = [])
    (hobservations : core.observationOrder = []) : books = .empty := by
  obtain ⟨commands, observations, reported⟩ := books
  have hcommands' := h.commands.order_eq
  have hobservations' := h.observations.order_eq
  rw [hcommands, eq_comm, List.map_eq_nil_iff] at hcommands'
  rw [hobservations, eq_comm, List.map_eq_nil_iff] at hobservations'
  have hreported : reported = ∅ := by
    rw [Std.ExtTreeSet.eq_empty_iff_forall_not_mem]
    intro id hid
    have hmem := h.reported id hid
    rw [hobservations] at hmem
    cases hmem
  dsimp only at hcommands' hobservations'
  rw [hcommands', hobservations', hreported]
  rfl

theorem close (h : Lockstep ext view core books) (hactive : core.state = .active terms)
    (hidle : request ∉ books.ids) :
    Answers ext view books request (SessionCore.close ext svc request terms.context core) := by
  have hfits := h.active terms hactive
  rw [SessionCore.close, Call.get_bind]
  split
  · exact .failure h hfits _
  rename_i hbusy
  simp only [SessionCore.busy, Bool.or_eq_true, decide_eq_true_eq, not_or, not_not] at hbusy
  obtain ⟨⟨⟨⟨-, hcommands⟩, hobservations⟩, -⟩, -⟩ := hbusy
  have hempty := h.eq_empty hcommands hobservations
  obtain ⟨frame, hframe⟩ := hfits request _ .closed
  simp only [hframe, Call.lift_ok_bind, hactive, Call.modify_bind, Call.pure_apply]
  exact ⟨books, [⟨request, .message .closed⟩], [frame], rfl,
    .cons (Reply.framed_of_ok hframe) .nil, .replied .closed rfl fun hlive => absurd hlive hidle,
    h.valid, h.commands, h.observations, h.queue, h.live, h.bounded, h.reported_eq, h.reported,
    h.deliverable, by simp, by simp, fun _ heq => by cases heq; exact ⟨hfits, hempty⟩, by simp⟩

theorem openSession (h : Lockstep ext view core books) {floats : FloatText}
    (hwrites : ext.session.WritesServer floats) (hempty : books = .empty) (terms : SessionTerms) :
    Answers ext view books request (SessionCore.openSession ext request terms core) ∨
      SessionCore.openSession ext request terms core = (core, Exec.fail .outputRejected) := by
  rw [SessionCore.openSession]
  rcases controlFrameFor_cases ext request terms.context
    (.hello ⟨terms.limits, terms.compilationLimits⟩) with ⟨frame, hframe⟩ | hreject
  · left
    have hfits := SessionOutputContext.fits_of_hello hwrites hframe
    simp only [hframe, Call.lift_ok_bind, Call.modify_bind, Call.pure_apply]
    refine ⟨books, [⟨request, .message (.hello ⟨terms.limits, terms.compilationLimits⟩)⟩], [frame],
      rfl, .cons (Reply.framed_of_ok hframe) .nil, .replied _ rfl fun hlive => ?_, h.valid,
      h.commands, h.observations, h.queue, h.live, h.bounded, h.reported_eq, h.reported,
      h.deliverable, fun _ => hempty, fun _ heq => ?_, by simp, fun _ _ entry hentry => ?_⟩
    · rw [hempty] at hlive
      cases hlive
    · cases heq
      exact hfits
    · rw [hempty] at hentry
      cases hentry
  · right
    rw [hreject]
    rfl

theorem singleFailure (h : Lockstep ext view core books) (context : SessionOutputContext)
    (code : SessionFailureCode) :
    Answers ext view books request (core, singleFailureFor ext request context code) ∨
      singleFailureFor ext request context code = Exec.fail .outputRejected := by
  rcases controlFrameFor_cases ext request context (.failure code) with ⟨frame, hframe⟩ | hreject
  · left
    rw [singleFailureFor_of_ok hframe]
    exact .reply h hframe rfl fun _ => ⟨code, rfl⟩
  · right
    rw [singleFailureFor, failureFrameFor, hreject]
    rfl

end Lockstep

def Rejects (ext : ExecutorExternals) (view : ServiceView S) (books : Books)
    (result : SessionCore S × Exec LocalExecutorError (List LocalFrame)) : Prop :=
  (∃ error, result.2 = Exec.fail error) ∧ Lockstep ext view result.1 books

namespace Lockstep

theorem handleHello (h : Lockstep ext view core books) (hlaw : svc.Lawful view)
    {floats : FloatText} (hwrites : ext.session.WritesServer floats)
    (hawaiting : core.state = .awaitingHello) (version : UInt16) (config : LocalFrameConfig)
    (message : LocalSessionClientKind) :
    Answers ext view books request
        (SessionCore.handleHello ext svc request version config message core) ∨
      Rejects ext view books
        (SessionCore.handleHello ext svc request version config message core) := by
  have hempty := h.awaiting hawaiting
  have hfailure : ∀ {core : SessionCore S} (context code), Lockstep ext view core books →
      Answers ext view books request
          (Call.lift (singleFailureFor ext request context code) core) ∨
        Rejects ext view books (Call.lift (singleFailureFor ext request context code) core) :=
    fun context code h => (h.singleFailure context code).imp_right fun heq => ⟨⟨_, heq⟩, h⟩
  have hopen : ∀ {core : SessionCore S} (terms), Lockstep ext view core books →
      Answers ext view books request (SessionCore.openSession ext request terms core) ∨
        Rejects ext view books (SessionCore.openSession ext request terms core) :=
    fun terms h => (h.openSession hwrites hempty terms).imp_right fun heq => by
      rw [heq]
      exact ⟨⟨_, rfl⟩, h⟩
  rw [SessionCore.handleHello, Call.get_bind]
  cases message with
  | hello hello =>
    dsimp only
    cases core.config.grant version hello with
    | error refusal =>
      cases refusal with
      | failure code => exact hfailure _ _ h
      | error error => exact .inr ⟨⟨_, rfl⟩, h⟩
    | ok terms =>
      dsimp only
      cases terms.compilationLimits with
      | none => exact hopen terms h
      | some limits =>
        obtain ⟨s, answer, hconfigure, hvalid, hqueue, hdeliverable⟩ :=
          hlaw.configureCompilationLimits limits h.valid
        have hserved := h.served hvalid hqueue (hdeliverable ▸ .refl _)
        dsimp only
        rw [Call.bind_ok (SessionCore.onService_of_eq hconfigure)]
        cases answer with
        | error code => exact hfailure _ _ hserved
        | ok configured => exact hopen terms hserved
  | _ => exact hfailure _ _ h

theorem handleActive (h : Lockstep ext view core books) (hlaw : svc.Lawful view)
    (hactive : core.state = .active terms) (version : UInt16) (message : LocalSessionClientKind)
    (haccepts : ∀ command, message.command? = some command → view.Accepts command) :
    Answers ext view books request (SessionCore.handleActive ext svc request version message core) ∨
      ¬svc.Returning core.service ∧
        ¬(SessionCore.handleActive ext svc request version message core).2.Returns := by
  have hfits := h.active terms hactive
  have hcontext : core.currentOutputContext = terms.context := by
    rw [SessionCore.currentOutputContext, hactive]
  rw [SessionCore.handleActive, Call.get_bind]
  simp only [hcontext]
  split
  · exact .inl (.failure h hfits _)
  split
  · exact .inl (.failure h hfits _)
  rename_i hidle
  rw [h.live.mem_iff] at hidle
  cases message with
  | hello hello => exact .inl (.failure h hfits _)
  | submitPatch patch => exact .inl (h.submitPatch hlaw hactive hfits (haccepts _ rfl) hidle)
  | submitImagination imagination =>
    exact .inl (h.submitImagination hlaw hactive hfits rfl (haccepts _ rfl) hidle)
  | query query =>
    refine (h.query hfits hidle query).imp_right fun hquery => ⟨fun hreturning => ?_, hquery.2⟩
    exact hquery.1 (hreturning.query query)
  | requestObservation observation =>
    exact .inl (h.requestObservation hlaw hactive hfits hidle observation)
  | close => exact .inl (h.close hactive hidle)

/-- **One frame.** It is answered, and executor and service stay in lockstep. Before the session is
open the answer may be one that cannot be sent; apart from that the call fails only as a call of the
service does. -/
theorem handleFrame (h : Lockstep ext view core books) (hlaw : svc.Lawful view)
    {floats : FloatText} (hwrites : ext.session.WritesServer floats) (frame : LocalFrame)
    (haccepts : ∀ message command,
      decodeClientControlFrame ext.session frame core.currentFrameConfig = .ok message →
      message.message.command? = some command → view.Accepts command) :
    Answers ext view books frame.correlationId (SessionCore.handleFrame ext svc frame core) ∨
    (¬svc.Returning core.service ∧ ¬(SessionCore.handleFrame ext svc frame core).2.Returns) ∨
    core.state = .awaitingHello ∧
      Rejects ext view books (SessionCore.handleFrame ext svc frame core) := by
  have hcontext : ∀ terms, core.state = .active terms ∨ core.state = .closed terms →
      core.currentOutputContext.Fits ext := by
    rintro terms (hstate | hstate)
    · rw [SessionCore.currentOutputContext, hstate]
      exact h.active terms hstate
    · rw [SessionCore.currentOutputContext, hstate]
      exact (h.closed terms hstate).1
  rw [SessionCore.handleFrame, Call.get_bind]
  cases hdecode : decodeClientControlFrame ext.session frame core.currentFrameConfig with
  | error error =>
    cases hstate : core.state with
    | awaitingHello =>
      exact (h.singleFailure _ _).imp_right fun heq => .inr ⟨rfl, ⟨_, heq⟩, h⟩
    | active terms => exact .inl (.failure h (hcontext terms (.inl hstate)) _)
    | closed terms => exact .inl (.failure h (hcontext terms (.inr hstate)) _)
  | ok message =>
    dsimp only
    cases hstate : core.state with
    | awaitingHello =>
      exact (h.handleHello hlaw hwrites hstate _ _ _).imp_right fun hrejects => .inr ⟨rfl, hrejects⟩
    | active terms =>
      exact (h.handleActive hlaw hstate _ _ fun command hcommand =>
        haccepts message command hdecode hcommand).imp_right .inl
    | closed terms => exact .inl (.failure h (hcontext terms (.inr hstate)) _)

/-! ### Advancing -/

theorem advanceCommand_first (h : Lockstep ext view core books) (hlaw : svc.Lawful view)
    (hactive : core.state = .active terms) (hfits : context.Fits ext) {key : IdempotencyKey}
    {pending : PendingCommand} {rest : List (IdempotencyKey × PendingCommand)}
    (hfirst : books.commands = (key, pending) :: rest)
    {answer : Except SessionFailureCode (Option GatewayResponse)}
    (hanswer : (svc.processNext core.service).2 = Exec.ofExcept answer) :
    ∃ core' frame, SessionCore.advanceCommand ext svc context core = (core', .ok (some frame)) ∧
      controlOrLimitFailureFor ext pending.correlationId context
        (SessionCore.reportedMessage ext context key pending.kind
          (.forRuntimeLimits (svc.runtimeLimits core.service)) answer) = .ok frame ∧
      core'.state = core.state ∧ core'.service = (svc.processNext core.service).1 ∧
      Lockstep ext view core' { books with commands := rest } := by
  have hcommands := h.commands
  rw [hfirst] at hcommands
  have horder : core.commandOrder = key :: rest.map Prod.fst := hcommands.order_eq
  rw [horder] at hcommands
  have hget : core.commandCorrelations[key]? = some pending :=
    hcommands.get_iff.mpr List.mem_cons_self
  have hqueue := h.queue
  rw [hfirst, List.map_cons] at hqueue
  obtain ⟨hvalid, hrest, hdeliverable⟩ := hlaw.processNext h.valid hqueue
    (hanswer ▸ Exec.Returns.ofExcept answer)
  have hids : books.ids.Perm (pending.correlationId ::
      (Books.mk rest books.observations books.reported).ids) := by
    have hids := Books.ids_command [] rest (key, pending) books.observations books.reported
    rwa [List.nil_append, List.nil_append, ← hfirst] at hids
  have hlive := (h.live.perm hids).erase
  have hbounded := h.bounded
  rw [hids.length_eq, List.length_cons] at hbounded
  obtain ⟨sent, frame, hok, -, -⟩ := hfits.orLimitFailure pending.correlationId
    (SessionCore.reportedMessage ext context key pending.kind
      (.forRuntimeLimits (svc.runtimeLimits core.service)) answer)
  -- the executor as the service returns to it
  let popped : SessionCore S :=
    { core with
      service := (svc.processNext core.service).1
      commandOrder := rest.map Prod.fst
      commandCorrelations := core.commandCorrelations.erase key }
  have hprocess : SessionCore.onService svc.processNext
      { core with
        commandOrder := rest.map Prod.fst
        commandCorrelations := core.commandCorrelations.erase key } = (popped, .ok answer) :=
    SessionCore.onService_of_returns hanswer
  have hrelease := SessionCore.releaseCorrelation_eq popped
    (h.live.mem_iff.mpr (hids.mem_iff.mpr List.mem_cons_self))
  refine ⟨{ popped with
    liveCorrelations := core.liveCorrelations.erase pending.correlationId }, frame, ?_, hok, rfl,
    rfl, hvalid, hcommands.pop, h.observations, hrest, hlive, (Nat.le_succ _).trans hbounded,
    h.reported_eq, h.reported, hdeliverable ▸ h.deliverable, SessionState.not_awaiting hactive,
    h.active, SessionState.not_closed hactive, fun terms' hactive' entry hentry =>
      h.imaginations terms' hactive' entry (hfirst ▸ List.mem_cons_of_mem _ hentry)⟩
  · rw [SessionCore.reportedMessage] at hok
    rw [SessionCore.advanceCommand, Call.get_bind]
    simp only [horder, Call.modify_bind, hget]
    rw [Call.bind_ok hprocess]
    rcases SessionCore.completionMessage_cases ext context key pending.kind
      (.forRuntimeLimits (svc.runtimeLimits core.service)) answer with
      ⟨message, hmessage, -⟩ | ⟨reason, hreason⟩
    · rw [hmessage] at hok
      simp only [hmessage, Call.pure_bind, hok, Call.lift_ok_bind]
      rw [Call.bind_ok hrelease]
      rfl
    · rw [hreason] at hok
      simp only [hreason, Call.pure_bind, hok, Call.lift_ok_bind]
      rw [Call.bind_ok hrelease]
      rfl

theorem advanceCommand (h : Lockstep ext view core books) (hlaw : svc.Lawful view)
    (hactive : core.state = .active terms) (hfits : context.Fits ext) :
    (∃ core' books' reply frame, SessionCore.advanceCommand ext svc context core =
        (core', .ok frame) ∧ core'.state = core.state ∧
      (core'.service = core.service ∨ core'.service = (svc.processNext core.service).1) ∧
      List.Forall₂ (Reply.Framed ext) reply.toList frame.toList ∧
      books.AdvancedCommand books' reply ∧ Lockstep ext view core' books') ∨
    ¬(svc.processNext core.service).2.Returns ∧
      ¬(SessionCore.advanceCommand ext svc context core).2.Returns := by
  cases hcommands : books.commands with
  | nil =>
    have horder := h.commands.order_eq
    rw [hcommands, List.map_nil] at horder
    refine .inl ⟨core, books, none, none, ?_, rfl, .inl rfl, .nil, .idle hcommands, h⟩
    rw [SessionCore.advanceCommand, Call.get_bind]
    simp only [horder, Call.pure_apply]
  | cons entry rest =>
    obtain ⟨key, pending⟩ := entry
    by_cases hreturns : (svc.processNext core.service).2.Returns
    · obtain ⟨answer, hanswer⟩ := hreturns.exists_ofExcept
      obtain ⟨core', frame, heq, hok, hstate, hservice, hlockstep⟩ :=
        h.advanceCommand_first hlaw hactive hfits hcommands hanswer
      obtain ⟨sent, frame', hok', hframe, hsent⟩ := hfits.orLimitFailure pending.correlationId
        (SessionCore.reportedMessage ext context key pending.kind
          (.forRuntimeLimits (svc.runtimeLimits core.service)) answer)
      rw [hok] at hok'
      cases hok'
      refine .inl ⟨core', _, some ⟨pending.correlationId, .message sent⟩, some frame, heq, hstate,
        .inr hservice, .cons (Reply.framed_of_ok hframe) .nil, .answered hcommands sent ?_,
        hlockstep⟩
      rcases hsent with rfl | ⟨rfl, -⟩
      · exact SessionCore.reportedMessage_completes ..
      · rfl
    · refine .inr ⟨hreturns, ?_⟩
      have hcommands' := h.commands
      rw [hcommands] at hcommands'
      have horder : core.commandOrder = key :: rest.map Prod.fst := hcommands'.order_eq
      have hget : core.commandCorrelations[key]? = some pending :=
        hcommands'.get_iff.mpr List.mem_cons_self
      rw [SessionCore.advanceCommand, Call.get_bind]
      simp only [horder, Call.modify_bind, hget]
      refine Call.not_returns_bind ?_ _
      exact SessionCore.onService_not_returns hreturns

end Lockstep

/-- The executor, over a service in state `s`, without an observation that was answered. -/
def SessionCore.withoutObservation (core : SessionCore S) (s : S) (id : ObservationId)
    (position : ℕ) (correlationId : NonZeroU64) : SessionCore S :=
  { core with
    service := s
    observationCorrelations := core.observationCorrelations.erase id
    observationPendingReported := core.observationPendingReported.erase id
    observationOrder := core.observationOrder.eraseIdx position
    liveCorrelations := core.liveCorrelations.erase correlationId }

namespace Lockstep

theorem releaseObservation_eq (h : Lockstep ext view core books)
    {before after : List (ObservationId × PendingObservation)} {id : ObservationId}
    {pending : PendingObservation}
    (hsplit : books.observations = before ++ (id, pending) :: after) :
    SessionCore.releaseObservation id pending.correlationId { core with service := s } =
      (core.withoutObservation s id before.length pending.correlationId, .ok ()) := by
  have hobservations := h.observations
  rw [hsplit] at hobservations
  have hlive : pending.correlationId ∈ core.liveCorrelations := by
    rw [h.live.mem_iff, Books.ids, hsplit]
    simp
  have hrelease := SessionCore.releaseCorrelation_eq
    { core with
      service := s
      observationCorrelations := core.observationCorrelations.erase id
      observationPendingReported := core.observationPendingReported.erase id
      observationOrder := core.observationOrder.eraseIdx before.length } hlive
  rw [SessionCore.releaseObservation, Call.modify_bind, Call.get_bind]
  simp only [hobservations.idxOf?_eq, Call.modify_bind]
  exact hrelease

theorem released (h : Lockstep ext view core books) (hactive : core.state = .active terms)
    {before after : List (ObservationId × PendingObservation)} {id : ObservationId}
    {pending : PendingObservation}
    (hsplit : books.observations = before ++ (id, pending) :: after) (hvalid : view.Valid s)
    (hqueue : view.queue s = view.queue core.service)
    (hdeliverable : (view.deliverable s).Sublist (core.observationOrder.eraseIdx before.length)) :
    Lockstep ext view (core.withoutObservation s id before.length pending.correlationId)
      { books with observations := before ++ after, reported := books.reported.erase id } := by
  have hobservations := h.observations
  rw [hsplit] at hobservations
  have hids : books.ids.Perm (pending.correlationId ::
      (Books.mk books.commands (before ++ after) (books.reported.erase id)).ids) := by
    have hids := Books.ids_observation books.commands before after (id, pending) books.reported
      (books.reported.erase id)
    rwa [← hsplit] at hids
  have hbounded := h.bounded
  rw [hids.length_eq, List.length_cons] at hbounded
  refine ⟨hvalid, h.commands, hobservations.remove, hqueue.trans h.queue,
    (h.live.perm hids).erase, (Nat.le_succ _).trans hbounded, ?_, fun other hother => ?_,
    hdeliverable, SessionState.not_awaiting hactive,
    h.active, SessionState.not_closed hactive, h.imaginations⟩
  · rw [SessionCore.withoutObservation, h.reported_eq]
  · obtain ⟨hne, hmem⟩ := TreeSet.mem_erase.mp hother
    exact hobservations.mem_remove.mpr ⟨hne, h.reported other hmem⟩

theorem reportedPending (h : Lockstep ext view core books) {id : ObservationId}
    {pending : PendingObservation} (hentry : (id, pending) ∈ books.observations) :
    Lockstep ext view
      { core with observationPendingReported := core.observationPendingReported.insert id }
      { books with reported := books.reported.insert id } := by
  have hid : id ∈ core.observationOrder := by
    rw [h.observations.order_eq]
    exact List.mem_map_of_mem hentry
  have hempty : books ≠ .empty := by
    rintro rfl
    cases hentry
  refine ⟨h.valid, h.commands, h.observations, h.queue, h.live, h.bounded, ?_,
    fun other hother => ?_, h.deliverable, fun hstate => absurd (h.awaiting hstate) hempty,
    h.active, fun terms hstate => absurd (h.closed terms hstate).2 hempty, h.imaginations⟩
  · dsimp only
    rw [h.reported_eq]
  · rcases TreeSet.mem_insert.mp hother with rfl | hmem
    · exact hid
    · exact h.reported other hmem

theorem deliveryFrame_framed (hfits : context.Fits ext) (correlationId : NonZeroU64)
    (delivery : ServiceObservationDelivery) :
    ∃ body frame, SessionCore.deliveryFrame ext context correlationId delivery = .ok frame ∧
      Reply.Framed ext ⟨correlationId, body⟩ frame ∧ body.delivers = true := by
  have hfailure : ∀ code, ∃ body frame, failureFrameFor ext correlationId context code = .ok frame ∧
      Reply.Framed ext ⟨correlationId, body⟩ frame ∧ body.delivers = true := by
    intro code
    obtain ⟨frame, hframe⟩ := hfits correlationId (.failure code) (.failure code)
    exact ⟨.message (.failure code), frame, hframe, Reply.framed_of_ok hframe, rfl⟩
  cases delivery with
  | completed metadata payload =>
    simp only [SessionCore.deliveryFrame]
    split
    · exact ⟨.observation metadata payload, _, rfl, rfl, rfl⟩
    · exact hfailure _
  | failed id code => exact hfailure code

theorem advanceObservation (h : Lockstep ext view core books) (hlaw : svc.Lawful view)
    (hactive : core.state = .active terms) (hfits : context.Fits ext) :
    (∃ core' books' reply frame, SessionCore.advanceObservation ext svc context core =
        (core', .ok frame) ∧ List.Forall₂ (Reply.Framed ext) reply.toList frame.toList ∧
      books.AdvancedObservation books' reply ∧ Lockstep ext view core' books') ∨
    ¬(svc.pollObservation core.service).2.Returns ∧
      ¬(SessionCore.advanceObservation ext svc context core).2.Returns := by
  cases hobservations : books.observations with
  | nil =>
    have horder := h.observations.order_eq
    rw [hobservations, List.map_nil] at horder
    refine .inl ⟨core, books, none, none, ?_, .nil, .quiet, h⟩
    rw [SessionCore.advanceObservation, Call.get_bind]
    simp only [horder, Call.pure_apply]
  | cons entry rest =>
    obtain ⟨oldest, first⟩ := entry
    have hroster := h.observations
    rw [hobservations] at hroster
    have horder : core.observationOrder = oldest :: rest.map Prod.fst := hroster.order_eq
    rw [SessionCore.advanceObservation, Call.get_bind]
    simp only [horder]
    by_cases hreturns : (svc.pollObservation core.service).2.Returns
    · left
      obtain ⟨answer, hanswer⟩ := hreturns.exists_ofExcept
      obtain ⟨hvalid, hqueue, hpolled⟩ := hlaw.pollObservation h.valid hreturns
      rw [Call.bind_ok (SessionCore.onService_of_returns hanswer)]
      rw [hanswer] at hpolled
      match answer, hpolled with
      | .ok none, .nothing hdeliverable =>
        have hserved := h.served hvalid hqueue (hdeliverable ▸ .refl _)
        dsimp only
        cases hfind : (oldest :: rest.map Prod.fst).find? fun id =>
            id ∉ core.observationPendingReported with
        | none => exact ⟨_, books, none, none, rfl, .nil, .quiet, hserved⟩
        | some id =>
          have hmem := List.mem_of_find?_eq_some hfind
          have hunreported : id ∉ books.reported := by
            rw [← h.reported_eq]
            simpa using List.find?_some hfind
          rw [← horder, h.observations.order_eq, List.mem_map] at hmem
          obtain ⟨⟨found, pending⟩, hentry, hid⟩ := hmem
          obtain rfl : found = id := hid
          obtain ⟨frame, hframe⟩ := hfits pending.correlationId _
            (.observationPending ⟨found, pending.sceneRevision⟩)
          simp only [h.observations.get_iff.mpr hentry, Exec.expect_some, Call.lift_ok_bind, hframe,
            Call.modify_bind, Call.pure_apply]
          exact ⟨_, _, some _, some frame, rfl, .cons (Reply.framed_of_ok hframe) .nil,
            .reported hentry hunreported, hserved.reportedPending hentry⟩
      | .ok (some delivery), .delivered _ hdeliverable =>
        have hsublist := hdeliverable ▸ h.deliverable
        have hmem : delivery.observationId ∈ core.observationOrder :=
          hsublist.subset List.mem_cons_self
        rw [h.observations.order_eq, List.mem_map] at hmem
        obtain ⟨⟨id, pending⟩, hentry, hid⟩ := hmem
        obtain ⟨before, after, hsplit⟩ := List.append_of_mem hentry
        have hget := h.observations.get_iff.mpr hentry
        rw [show id = delivery.observationId from hid] at hsplit hget
        have hroster := h.observations
        rw [hsplit] at hroster
        obtain ⟨body, frame, hframe, hframed, hdelivers⟩ :=
          deliveryFrame_framed hfits pending.correlationId delivery
        have hdelivery : SessionCore.observationDeliveryFrame ext context delivery
            { core with service := (svc.pollObservation core.service).1 } =
            (core.withoutObservation (svc.pollObservation core.service).1 delivery.observationId
              before.length pending.correlationId, .ok frame) := by
          rw [SessionCore.observationDeliveryFrame, Call.get_bind]
          simp only [hget, hframe, Call.lift_ok_bind]
          rw [Call.bind_ok (h.releaseObservation_eq hsplit), Call.pure_apply]
        dsimp only
        rw [Call.bind_ok hdelivery, Call.pure_apply]
        exact ⟨_, _, some ⟨pending.correlationId, body⟩, some frame, rfl, .cons hframed .nil,
          .answered hsplit body hdelivers,
          h.released hactive hsplit hvalid hqueue (hroster.sublist_remove hsublist)⟩
      | .error code, .stopped _ hdeliverable =>
        obtain ⟨frame, hframe⟩ := hfits first.correlationId (.failure code) (.failure code)
        have hget : core.observationCorrelations[oldest]? = some first :=
          hroster.get_iff.mpr List.mem_cons_self
        simp only [hget, Exec.expect_some, Call.lift_ok_bind, failureFrameFor, hframe]
        rw [Call.bind_ok (h.releaseObservation_eq (show books.observations =
          [] ++ (oldest, first) :: rest from hobservations)), Call.pure_apply]
        exact ⟨_, _, some ⟨first.correlationId, .message (.failure code)⟩, some frame, rfl,
          .cons (Reply.framed_of_ok hframe) .nil,
          .answered (show books.observations = [] ++ (oldest, first) :: rest from hobservations)
            _ rfl,
          h.released hactive hobservations hvalid hqueue (hdeliverable ▸ List.nil_sublist _)⟩
    · exact .inr ⟨hreturns, Call.not_returns_bind (SessionCore.onService_not_returns hreturns) _⟩

/-- **One turn.** The first command is answered, and one observation may be reported or answered;
executor and service stay in lockstep. The call fails only as a call of the service does. -/
theorem advance (h : Lockstep ext view core books) (hlaw : svc.Lawful view) :
    (∃ core' books₁ books₂ command observation frames, SessionCore.advance ext svc core =
        (core', .ok frames) ∧
      List.Forall₂ (Reply.Framed ext) (command.toList ++ observation.toList) frames ∧
      books.AdvancedCommand books₁ command ∧ books₁.AdvancedObservation books₂ observation ∧
      Lockstep ext view core' books₂) ∨
    ¬svc.Returning core.service ∧ ¬(SessionCore.advance ext svc core).2.Returns := by
  rw [SessionCore.advance, Call.get_bind]
  have hidle : books = .empty → ∃ core' books₁ books₂ command observation frames,
      (pure [] : SessionCore.Method S (List LocalFrame)) core = (core', .ok frames) ∧
      List.Forall₂ (Reply.Framed ext) (command.toList ++ observation.toList) frames ∧
      books.AdvancedCommand books₁ command ∧ books₁.AdvancedObservation books₂ observation ∧
      Lockstep ext view core' books₂ := by
    rintro rfl
    exact ⟨core, _, _, none, none, [], rfl, .nil, .idle rfl, .quiet, h⟩
  cases hstate : core.state with
  | awaitingHello => exact .inl (hidle (h.awaiting hstate))
  | closed terms => exact .inl (hidle (h.closed terms hstate).2)
  | active terms =>
    have hfits := h.active terms hstate
    dsimp only
    rcases h.advanceCommand hlaw hstate hfits with
      ⟨core₁, books₁, command, commandFrame, heq₁, hstate₁, hservice, hframed₁, hcommand, h₁⟩ |
      ⟨hstops, hreturns⟩
    · rcases h₁.advanceObservation hlaw (hstate₁.trans hstate) hfits with
        ⟨core₂, books₂, observation, observationFrame, heq₂, hframed₂, hobservation, h₂⟩ |
        ⟨hstops, hreturns⟩
      · left
        rw [Call.bind_ok heq₁, Call.bind_ok heq₂, Call.pure_apply]
        exact ⟨core₂, books₁, books₂, command, observation, _, rfl,
          List.rel_append hframed₁ hframed₂, hcommand, hobservation, h₂⟩
      · right
        rw [Call.bind_ok heq₁]
        refine ⟨fun hreturning => hstops ?_, Call.not_returns_bind hreturns _⟩
        rcases hservice with hservice | hservice
        · rw [hservice]
          exact hreturning.pollObservation
        · rw [hservice]
          exact hreturning.processed
    · exact .inr ⟨fun hreturning => hstops hreturning.processNext,
        Call.not_returns_bind hreturns _⟩

end Lockstep

end Cogniform
