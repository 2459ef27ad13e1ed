import Cogniform.Engine.Observation

/-!
# The observation pipeline

Threads that submit, the worker and the receiving side take their steps in any order. A request is
reserved, queued, read back, completed and received, and its permit goes with it. Reading a frame
does not panic, a frame that was read has a width and a height, and the queue stays alive.
-/

namespace Cogniform

def ObservationCompletion.Sized (completion : ObservationCompletion) : Prop :=
  ∀ frame, completion.frame = .ok frame → 0 < frame.width.toNat ∧ 0 < frame.height.toNat

/-- `try_receive_delivery` once a completion has been taken from the channel. -/
def ObservationQueue.deliver (queue : ObservationQueue) (completion : ObservationCompletion)
    (latestKnownRevision : SceneRevision) :
    ObservationQueue × Exec ObservationError (Option ObservationDelivery) :=
  { queue with results := completion :: queue.results }.tryReceiveDelivery latestKnownRevision

/-- The queue, the permits threads have reserved and not submitted, the completion that is being
received, and what has been accepted and delivered so far. -/
structure Pipeline where
  queue : ObservationQueue
  reserved : List ObservationPermit
  receiving : Option ObservationCompletion
  accepted : List ObservationRequest
  delivered : List (ObservationRequest × ObservationDelivery)

namespace Pipeline

def started (capacity : NonZeroU32) (limits : RuntimeLimits) : Pipeline :=
  ⟨.started capacity limits, [], none, [], []⟩

inductive Advance (pipeline : Pipeline) : Pipeline → Prop where
  | worker {queue : ObservationQueue} (step : ObservationQueue.WorkerStep pipeline.queue queue)
      (alive : queue.working = true) (sized : ∀ completion ∈ queue.results, completion.Sized) :
      Advance pipeline { pipeline with queue := queue }
  | receive {completion : ObservationCompletion} {results : List ObservationCompletion}
      (idle : pipeline.receiving = none) (waiting : pipeline.queue.results = completion :: results) :
      Advance pipeline { pipeline with
        queue := { pipeline.queue with results := results }
        receiving := some completion }
  | deliver {completion : ObservationCompletion} {queue : ObservationQueue}
      {delivery : ObservationDelivery} (receiving : pipeline.receiving = some completion)
      (latest : SceneRevision)
      (step : pipeline.queue.deliver completion latest = (queue, .ok (some delivery))) :
      Advance pipeline { pipeline with
        queue := queue
        receiving := none
        delivered := pipeline.delivered ++ [(completion.request, delivery)] }

inductive Step (pipeline : Pipeline) : Pipeline → Prop where
  | reserve {queue : ObservationQueue} {permit : ObservationPermit}
      (step : pipeline.queue.tryReserve = (queue, .ok permit)) :
      Step pipeline { pipeline with queue := queue, reserved := permit :: pipeline.reserved }
  | submit {permit : ObservationPermit} (reserved : permit ∈ pipeline.reserved)
      (source : FrameMetadata) (request : ObservationRequest) {queue : ObservationQueue}
      {outcome : Exec ObservationError Unit}
      (step : pipeline.queue.submitReserved permit source request = (queue, outcome)) :
      Step pipeline { pipeline with
        queue := queue
        reserved := pipeline.reserved.erase permit
        accepted := if outcome = .ok () then pipeline.accepted ++ [request] else pipeline.accepted }
  | abandon {permit : ObservationPermit} (reserved : permit ∈ pipeline.reserved)
      {slots : ObservationSlots}
      (step : (pipeline.queue.slots.release permit : Exec Empty _) = .ok slots) :
      Step pipeline { pipeline with
        queue := { pipeline.queue with slots := slots }
        reserved := pipeline.reserved.erase permit }
  | advance {pipeline' : Pipeline} (step : Advance pipeline pipeline') : Step pipeline pipeline'

def held (pipeline : Pipeline) : List ObservationPermit :=
  pipeline.reserved ++ pipeline.receiving.toList.map ObservationCompletion.permit

def inFlight (pipeline : Pipeline) : List ObservationRequest :=
  (pipeline.receiving.toList ++ pipeline.queue.results).map ObservationCompletion.request ++
    (pipeline.queue.active.toList ++ pipeline.queue.jobs).map ObservationJob.request

def remaining (pipeline : Pipeline) : ℕ :=
  4 * pipeline.queue.jobs.length + 3 * pipeline.queue.active.toList.length +
    2 * pipeline.queue.results.length + pipeline.receiving.toList.length

structure Flows (capacity : NonZeroU32) (pipeline : Pipeline) : Prop where
  valid : pipeline.queue.Valid pipeline.held
  working : pipeline.queue.working = true
  capacity : pipeline.queue.slots.capacity = capacity
  sized : ∀ completion ∈ pipeline.receiving.toList ++ pipeline.queue.results, completion.Sized
  accepted : pipeline.accepted = pipeline.delivered.map Prod.fst ++ pipeline.inFlight
  answered : ∀ entry ∈ pipeline.delivered, entry.2.observationId = entry.1.observationId

end Pipeline

theorem frameDimensions_returns {kind : ObservationKind} {frame : RenderedFrame}
    (hsized : 0 < frame.width.toNat ∧ 0 < frame.height.toNat) :
    (frameDimensions kind frame).Returns := by
  rw [frameDimensions]
  split
  · simp only [nonZeroU32?, dif_pos hsized.1, dif_pos hsized.2, Exec.expect_some, Exec.ok_bind]
    exact .ok _
  · exact .ok _

theorem ObservationCompletion.Sized.completeObservation {completion : ObservationCompletion}
    (hsized : completion.Sized) (latest : SceneRevision) (limits : RuntimeLimits) :
    (completeObservation completion latest limits).Returns := by
  rw [Cogniform.completeObservation]
  cases hframe : completion.frame with
  | error error => exact .fail _
  | ok frame =>
    refine .bind (.ok frame) fun frame' h => ?_
    cases h
    dsimp only
    split
    · exact .fail _
    split
    · exact .fail _
    split
    · exact .fail _
    refine .bind (frameDimensions_returns (hsized frame hframe)) fun _ _ => ?_
    exact .bind (.mapError _ (.ofExcept _)) fun _ _ => .ok _

namespace ObservationQueue

variable {queue queue' : ObservationQueue} {held held' : List ObservationPermit}
  {permit : ObservationPermit}

theorem Valid.perm (h : Valid held queue) (hperm : held.Perm held') : Valid held' queue :=
  ⟨h.holds.perm (hperm.append_right _), h.stopped, h.closed, h.running⟩

theorem Valid.received {completion : ObservationCompletion} {results : List ObservationCompletion} :
    Valid held { queue with results := completion :: results } ↔
      Valid (completion.permit :: held) { queue with results := results } := by
  have hperm : (held ++ { queue with results := completion :: results }.permits).Perm
      ((completion.permit :: held) ++ { queue with results := results }.permits) :=
    List.perm_middle
  exact ⟨fun h => ⟨h.holds.perm hperm, h.stopped, h.closed, h.running⟩,
    fun h => ⟨h.holds.perm hperm.symm, h.stopped, h.closed, h.running⟩⟩

/-- **A submission is accepted** while the worker runs: the first channel is not full, since the
permits of its jobs and the one at hand are different permits. -/
theorem Valid.submitReserved_ok (h : Valid (permit :: held) queue) (hworking : queue.working = true)
    (source : FrameMetadata) (request : ObservationRequest) :
    queue.submitReserved permit source request =
      ({ queue with jobs := queue.jobs ++ [⟨permit, source, request⟩] }, .ok ()) := by
  have hroom : queue.jobs.length < queue.slots.capacity.get := by
    have hbounded := h.holds.bounded
    simp only [permits, List.length_append, List.length_cons, List.length_map] at hbounded
    omega
  rw [ObservationQueue.submitReserved, (h.running hworking).1, if_neg (by simp),
    if_neg (Nat.not_le.mpr hroom)]

theorem Valid.deliver {completion : ObservationCompletion} (hsized : completion.Sized)
    (h : Valid (completion.permit :: held) queue) (latest : SceneRevision) :
    ∃ slots delivery, queue.deliver completion latest =
        ({ queue with slots := slots }, .ok (some delivery)) ∧
      Valid held { queue with slots := slots } ∧ slots.capacity = queue.slots.capacity ∧
      delivery.observationId = completion.request.observationId := by
  obtain ⟨slots, hrelease, hholds, hcapacity⟩ := h.holds.exists_release (ε := ObservationError)
  have hvalid : Valid held { queue with slots := slots } :=
    ⟨hholds, h.stopped, h.closed, h.running⟩
  rw [ObservationQueue.deliver, ObservationQueue.tryReceiveDelivery]
  rcases hsized.completeObservation latest queue.limits with ⟨observation, hok⟩ | ⟨error, herror⟩
  · simp only [hok, hrelease]
    exact ⟨slots, _, rfl, hvalid, hcapacity, completeObservation_observationId hok⟩
  · simp only [herror, hrelease]
    exact ⟨slots, _, rfl, hvalid, hcapacity, rfl⟩

theorem WorkerStep.cases (hstep : WorkerStep queue queue') (halive : queue'.working = true)
    (hworking : queue.working = true) :
    (∃ job, queue.active = none ∧ queue.jobs = job :: queue'.jobs ∧
      queue' = { queue with active := some job, jobs := queue'.jobs }) ∨
    ∃ job completion, queue.active = some job ∧ completion.request = job.request ∧
      queue' = { queue with active := none, results := queue.results ++ [completion] } := by
  cases hstep with
  | take _ idle jobs_eq => exact .inl ⟨_, idle, jobs_eq, rfl⟩
  | finish active => exact .inr ⟨_, _, active, rfl, rfl⟩
  | panic => cases halive
  | dropJobs stopped => cases hworking.symm.trans stopped
  | dropResults stopped => cases hworking.symm.trans stopped

end ObservationQueue

/-! ### Steps and runs -/

namespace Pipeline

variable {capacity : NonZeroU32} {limits : RuntimeLimits} {pipeline pipeline' : Pipeline}

theorem Flows.started (capacity : NonZeroU32) (limits : RuntimeLimits) :
    (started capacity limits).Flows capacity :=
  ⟨.started capacity limits, rfl, rfl, by simp [Pipeline.started, ObservationQueue.started], rfl,
    by simp [Pipeline.started]⟩

theorem Flows.advance (h : pipeline.Flows capacity) (hstep : Advance pipeline pipeline') :
    pipeline'.Flows capacity ∧ pipeline'.remaining + 1 = pipeline.remaining ∧
      pipeline'.accepted = pipeline.accepted := by
  have haccepted := h.accepted
  rw [inFlight] at haccepted
  cases hstep with
  | @worker queue step alive sized =>
    obtain ⟨hvalid, hcapacity, -⟩ := h.valid.worker step
    have hsized : ∀ completion ∈ pipeline.receiving.toList ++ queue.results, completion.Sized := by
      intro completion hmem
      rcases List.mem_append.mp hmem with hmem | hmem
      · exact h.sized completion (List.mem_append_left _ hmem)
      · exact sized completion hmem
    refine ⟨⟨hvalid, alive, hcapacity.trans h.capacity, hsized, ?_, h.answered⟩, ?_, rfl⟩
    all_goals
      rcases step.cases alive h.working with ⟨job, hidle, hjobs, heq⟩ |
        ⟨job, completion, hactive, hrequest, heq⟩
    · rw [hidle, hjobs] at haccepted
      rw [inFlight, heq]
      exact haccepted
    · rw [hactive] at haccepted
      rw [inFlight, heq]
      simpa [hrequest] using haccepted
    · rw [remaining, remaining, hidle, hjobs, heq]
      simp only [Option.toList_some, Option.toList_none, List.length_cons, List.length_nil]
      omega
    · rw [remaining, remaining, hactive, heq]
      simp only [Option.toList_some, Option.toList_none, List.length_cons, List.length_nil,
        List.length_append]
      omega
  | @receive completion results idle waiting =>
    have hvalid := h.valid
    have hsized := h.sized
    rw [held, idle] at hvalid
    rw [idle, waiting] at haccepted hsized
    have hqueue : pipeline.queue = { pipeline.queue with results := completion :: results } := by
      rw [← waiting]
    rw [hqueue] at hvalid
    have hreceived := ObservationQueue.Valid.received.mp hvalid
    refine ⟨⟨hreceived.perm ?_, h.working, h.capacity, hsized, haccepted, h.answered⟩, ?_, rfl⟩
    · rw [held]
      simpa using (List.perm_append_singleton _ _).symm
    · rw [remaining, remaining, idle, waiting]
      simp only [Option.toList_some, Option.toList_none, List.length_cons, List.length_nil]
      omega
  | @deliver completion queue delivery receiving latest step =>
    have hvalid := h.valid
    have hsized := h.sized
    rw [held, receiving] at hvalid
    rw [receiving] at haccepted hsized
    obtain ⟨slots, delivery', hdeliver, hvalid, hcapacity, hanswers⟩ :=
      (hvalid.perm (List.perm_append_singleton _ _)).deliver (hsized completion (by simp)) latest
    rw [step] at hdeliver
    cases hdeliver
    refine ⟨⟨?_, h.working, hcapacity.trans h.capacity, ?_, ?_, ?_⟩, ?_, rfl⟩
    · rw [held]
      simpa using hvalid
    · exact fun completion hmem => hsized completion (List.mem_append_right _ hmem)
    · simpa [inFlight] using haccepted
    · intro entry hentry
      rcases List.mem_append.mp hentry with hentry | hentry
      · exact h.answered entry hentry
      · cases List.mem_singleton.mp hentry
        exact hanswers
    · rw [remaining, remaining, receiving]
      simp only [Option.toList_some, Option.toList_none, List.length_cons, List.length_nil]

theorem Flows.valid_cons (h : pipeline.Flows capacity) {permit : ObservationPermit}
    (hreserved : permit ∈ pipeline.reserved) :
    pipeline.queue.Valid (permit :: (pipeline.reserved.erase permit ++
      pipeline.receiving.toList.map ObservationCompletion.permit)) :=
  h.valid.perm ((List.perm_cons_erase hreserved).append_right _)

theorem Flows.step (h : pipeline.Flows capacity) (hstep : Step pipeline pipeline') :
    pipeline'.Flows capacity := by
  cases hstep with
  | reserve step =>
    obtain ⟨hvalid, hcapacity, -⟩ := h.valid.tryReserve step
    rw [ObservationQueue.tryReserve] at step
    split at step
    · cases step
    cases step
    exact ⟨hvalid, h.working, hcapacity.trans h.capacity, h.sized, h.accepted, h.answered⟩
  | @submit permit reserved source request queue outcome step =>
    have hvalid := h.valid_cons reserved
    have hok := hvalid.submitReserved_ok h.working source request
    obtain ⟨queue', outcome', heq, hvalid', hcapacity, -⟩ := hvalid.submitReserved source request
    rw [step] at hok heq
    cases hok
    cases heq
    refine ⟨hvalid', h.working, hcapacity.trans h.capacity, h.sized, ?_, h.answered⟩
    rw [if_pos rfl, h.accepted]
    simp [inFlight]
  | @abandon permit reserved slots step =>
    have hvalid := h.valid_cons reserved
    obtain ⟨hholds, hcapacity⟩ := hvalid.holds.release step
    exact ⟨⟨hholds, hvalid.stopped, hvalid.closed, hvalid.running⟩, h.working,
      hcapacity.trans h.capacity, h.sized, h.accepted, h.answered⟩
  | advance step => exact (h.advance step).1

theorem Flows.run (hrun : Relation.ReflTransGen Step (.started capacity limits) pipeline) :
    pipeline.Flows capacity := by
  induction hrun with
  | refl => exact .started capacity limits
  | tail _ hstep ih => exact ih.step hstep

inductive Drain (pipeline : Pipeline) : ℕ → Pipeline → Prop where
  | refl : Drain pipeline 0 pipeline
  | tail {n : ℕ} {middle final : Pipeline} (run : Drain pipeline n middle)
      (step : Advance middle final) : Drain pipeline (n + 1) final

theorem Flows.drain {n : ℕ} (h : pipeline.Flows capacity) (hdrain : pipeline.Drain n pipeline') :
    pipeline'.Flows capacity ∧ n + pipeline'.remaining = pipeline.remaining ∧
      pipeline'.accepted = pipeline.accepted := by
  induction hdrain with
  | refl => exact ⟨h, Nat.zero_add _, rfl⟩
  | tail _ hstep ih =>
    obtain ⟨hflows, hremaining, haccepted⟩ := ih
    obtain ⟨hflows', hremaining', haccepted'⟩ := hflows.advance hstep
    exact ⟨hflows', by omega, haccepted'.trans haccepted⟩

theorem Flows.results_lt (h : pipeline.Flows capacity) {job : ObservationJob}
    (hactive : pipeline.queue.active = some job) : pipeline.queue.results.length < capacity.get := by
  have hbounded := h.valid.holds.bounded
  rw [h.capacity] at hbounded
  simp only [ObservationQueue.permits, hactive, List.length_append, List.length_map,
    Option.toList_some, List.length_cons] at hbounded
  omega

theorem Flows.exists_advance (h : pipeline.Flows capacity) (hne : pipeline.remaining ≠ 0) :
    ∃ next, Advance pipeline next := by
  have hvalid := h.valid
  have hsized := h.sized
  rw [held] at hvalid
  cases hreceiving : pipeline.receiving with
  | some completion =>
    rw [hreceiving] at hvalid hsized
    obtain ⟨slots, delivery, hdeliver, -⟩ :=
      (hvalid.perm (List.perm_append_singleton _ _)).deliver (hsized completion (by simp)) .initial
    exact ⟨_, .deliver hreceiving .initial hdeliver⟩
  | none =>
    cases hresults : pipeline.queue.results with
    | cons completion results => exact ⟨_, .receive hreceiving hresults⟩
    | nil =>
      cases hactive : pipeline.queue.active with
      | some job =>
        refine ⟨_, .worker (.finish hactive (h.capacity ▸ h.results_lt hactive) 0 0
          (.error (.device "")) (by simp)) h.working ?_⟩
        simp [hresults, ObservationCompletion.Sized]
      | none =>
        cases hjobs : pipeline.queue.jobs with
        | cons job jobs =>
          refine ⟨_, .worker (.take h.working hactive hjobs) h.working ?_⟩
          simp [hresults]
        | nil => simp [remaining, hreceiving, hresults, hactive, hjobs] at hne

theorem remaining_eq_zero : pipeline.remaining = 0 ↔ pipeline.inFlight = [] := by
  simp only [remaining, inFlight, Nat.add_eq_zero_iff, Nat.mul_eq_zero, List.append_eq_nil_iff,
    List.map_eq_nil_iff, List.length_eq_zero_iff]
  tauto

/-- **The observation pipeline is bounded and loses nothing**, in whatever order the threads take
their steps. There are as many requests in flight as permits in use and admission records, at most
the capacity. No channel is ever full and no permit without its record. The accepted requests are
those delivered and, in the same order, those in flight, which are delivered in a fixed number of
steps, none of them waiting for another thread. -/
theorem pipeline_lossless (hrun : Relation.ReflTransGen Step (.started capacity limits) pipeline) :
    (pipeline.reserved.length + pipeline.inFlight.length = pipeline.queue.slots.inUse.toNat ∧
      pipeline.queue.slots.inUse.toNat = pipeline.queue.slots.pending.length ∧
      pipeline.queue.slots.pending.length ≤ capacity.get) ∧
    (∀ permit ∈ pipeline.reserved, ∀ source request,
      (pipeline.queue.submitReserved permit source request).2 = .ok ()) ∧
    (∀ job, pipeline.queue.active = some job → pipeline.queue.results.length < capacity.get) ∧
    (∀ permit ∈ pipeline.held ++ pipeline.queue.permits, ∃ slots,
      (pipeline.queue.slots.release permit : Exec Empty _) = .ok slots) ∧
    pipeline.accepted = pipeline.delivered.map Prod.fst ++ pipeline.inFlight ∧
    (∀ entry ∈ pipeline.delivered, entry.2.observationId = entry.1.observationId) ∧
    ∀ n final, pipeline.Drain n final → final.accepted = pipeline.accepted ∧
      n ≤ pipeline.remaining ∧ (n < pipeline.remaining → ∃ next, Advance final next) ∧
      (n = pipeline.remaining → final.delivered.map Prod.fst = pipeline.accepted) := by
  have h := Flows.run hrun
  have hholds := h.valid.holds
  refine ⟨⟨?_, ?_, ?_⟩, fun permit hpermit source request => ?_, fun job => h.results_lt,
    fun permit hpermit => ?_, h.accepted, h.answered, fun n final hdrain => ?_⟩
  · rw [hholds.inUse]
    simp only [held, inFlight, ObservationQueue.permits, List.length_append, List.length_map]
    omega
  · rw [hholds.inUse, hholds.pending.length_eq]
  · rw [hholds.pending.length_eq, ← h.capacity]
    exact hholds.bounded
  · rw [(h.valid_cons hpermit).submitReserved_ok h.working]
  · obtain ⟨slots, hrelease, -⟩ :=
      (hholds.perm (List.perm_cons_erase hpermit)).exists_release (ε := Empty)
    exact ⟨slots, hrelease⟩
  · obtain ⟨hflows, hremaining, haccepted⟩ := h.drain hdrain
    refine ⟨haccepted, by omega, fun hlt => hflows.exists_advance (by omega), fun heq => ?_⟩
    have hempty := remaining_eq_zero.mp (show final.remaining = 0 by omega)
    rw [← haccepted, hflows.accepted, hempty, List.append_nil]

def reservedOne : Pipeline :=
  ⟨(ObservationQueue.started (.lit 1) .default).tryReserve.1, [0], none, [], []⟩

theorem pipeline_lossless_reservedOne :
    reservedOne.reserved.length + reservedOne.inFlight.length =
        reservedOne.queue.slots.inUse.toNat ∧
      reservedOne.queue.slots.pending.length ≤ 1 := by
  have hrun : Relation.ReflTransGen Step (.started (.lit 1) .default) reservedOne :=
    .single (.reserve rfl)
  have h := pipeline_lossless hrun
  exact ⟨h.1.1, h.1.2.2⟩

end Pipeline

end Cogniform
