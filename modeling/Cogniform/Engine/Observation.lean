import Cogniform.Engine.Engine
import Cogniform.Observation.Payload

/-!
# The observation path

A request takes a permit, submits a frame and hands both to a worker over a bounded channel. The
worker reads the frame back and sends the result over a second channel. The permit travels with the
request and is dropped with it. What the worker does between two calls of the owner is a step
relation; it stops only by a panic, which drops what it holds and its ends of the two channels.
-/

namespace Cogniform

structure FrameMetadata where
  frameId : FrameId
  sceneRevision : SceneRevision
  cameraId : StableEntityId
  deriving DecidableEq

structure RenderedFrame where
  width : UInt32
  height : UInt32
  metadata : FrameMetadata
  color : List (Vector UInt8 4)
  depth : List F32
  normals : List (Option (Vector F32 3))
  stableEntityIds : List (Option StableEntityId)
  deriving DecidableEq

abbrev ObservationPermit := ℕ

/-- `Vec::swap_remove`: the last element takes the place of the removed one. -/
def swapRemove {α : Type} (l : List α) (position : ℕ) : List α :=
  match l.getLast? with
  | none => []
  | some last => (l.set position last).dropLast

structure ObservationSlots where
  capacity : NonZeroU32
  inUse : UInt32
  pending : List ObservationPermit
  nextAllocation : ObservationPermit

namespace ObservationSlots

def new (capacity : NonZeroU32) : ObservationSlots := ⟨capacity, 0, [], 0⟩

def tryAcquire (slots : ObservationSlots) : Option (ObservationPermit × ObservationSlots) :=
  if slots.capacity.get ≤ slots.inUse.toNat then none
  else some (slots.nextAllocation,
    { slots with
      pending := slots.pending ++ [slots.nextAllocation]
      inUse := slots.inUse + 1
      nextAllocation := slots.nextAllocation + 1 })

/-- `ObservationPermit::drop`. -/
def release {ε : Type} (slots : ObservationSlots) (permit : ObservationPermit) :
    Exec ε ObservationSlots :=
  match slots.pending.idxOf? permit with
  | none => .error (.panic "outstanding observation permit retains its age record")
  | some position =>
    .ok { slots with
      pending := swapRemove slots.pending position
      inUse := slots.inUse - 1 }

def releaseAll {ε : Type} (slots : ObservationSlots) (permits : List ObservationPermit) :
    Exec ε ObservationSlots :=
  permits.foldlM release slots

end ObservationSlots

/-! ### The queue -/

structure ObservationJob where
  permit : ObservationPermit
  source : FrameMetadata
  request : ObservationRequest

structure ObservationCompletion where
  permit : ObservationPermit
  request : ObservationRequest
  observedAtUnixMicros : UInt64
  productionLatencyMicros : UInt64
  frame : Except RendererError RenderedFrame

/-- `Observation`: a completed observation. -/
structure CompletedObservation where
  metadata : ObservationMetadata
  payload : ObservationPayload

inductive ObservationDelivery where
  | completed (observation : CompletedObservation)
  | failed (observationId : ObservationId) (error : ObservationError)

def ObservationDelivery.observationId : ObservationDelivery → ObservationId
  | .completed observation => observation.metadata.observationId
  | .failed observationId _ => observationId

structure ObservationQueue where
  slots : ObservationSlots
  limits : RuntimeLimits
  jobs : List ObservationJob
  active : Option ObservationJob
  results : List ObservationCompletion
  working : Bool
  jobsOpen : Bool
  resultsOpen : Bool

def visibilityCounts (ids : List (Option StableEntityId)) : List EntityVisibility :=
  let counts := (ids.filterMap id).foldl
    (fun (counts : Std.ExtTreeMap StableEntityId UInt64) entityId =>
      counts.insert entityId ((counts[entityId]?).getD 0 + 1)) ∅
  counts.toList.map fun entry => ⟨entry.1, entry.2⟩

def payloadFor (kind : ObservationKind) (frame : RenderedFrame) : ObservationPayload :=
  match kind with
  | .color => .color frame.color
  | .depth => .depth frame.depth
  | .normal => .normal frame.normals
  | .entityId => .entityId frame.stableEntityIds
  | .visibility => .visibility (visibilityCounts frame.stableEntityIds)

/-- `NonZeroU32::new`. -/
def nonZeroU32? (value : UInt32) : Option NonZeroU32 :=
  if h : 0 < value.toNat then some ⟨value.toNat, h, value.toNat_lt⟩ else none

def frameDimensions (kind : ObservationKind) (frame : RenderedFrame) :
    Exec ObservationError (Option ImageDimensions) :=
  if kind ≠ .visibility then do
    let width ← Exec.expect "validated frame width is non-zero" (nonZeroU32? frame.width)
    let height ← Exec.expect "validated frame height is non-zero" (nonZeroU32? frame.height)
    .ok (some ⟨width, height⟩)
  else .ok none

/-- `complete_observation`, apart from the permit it drops. -/
def completeObservation (completion : ObservationCompletion) (latestKnownRevision : SceneRevision)
    (limits : RuntimeLimits) : Exec ObservationError CompletedObservation := do
  let request := completion.request
  let frame ← (Exec.ofExcept completion.frame).mapError .renderer
  let source := frame.metadata
  if request.cameraId ≠ source.cameraId then
    Exec.fail (.cameraMismatch request.cameraId source.cameraId)
  else if request.sceneRevision ≠ source.sceneRevision then
    Exec.fail (.sourceRevisionMismatch request.sceneRevision source.sceneRevision)
  else if latestKnownRevision.get < source.sceneRevision.get then
    Exec.fail (.sourceRevisionAhead source.sceneRevision latestKnownRevision)
  else do
    let dimensions ← frameDimensions request.kind frame
    let metadata : ObservationMetadata := {
      schemaVersion := .v1
      observationId := request.observationId
      sceneRevision := source.sceneRevision
      frameId := source.frameId
      cameraId := source.cameraId
      kind := request.kind
      dimensions := dimensions
      quality := request.quality
      observedAtUnixMicros := completion.observedAtUnixMicros
      productionLatencyMicros := completion.productionLatencyMicros
      staleness := ⟨latestKnownRevision, latestKnownRevision.get - source.sceneRevision.get⟩ }
    (Exec.ofExcept (metadata.validate limits)).mapError .invalidMetadata
    .ok ⟨metadata, payloadFor request.kind frame⟩

namespace ObservationQueue

def started (capacity : NonZeroU32) (limits : RuntimeLimits) : ObservationQueue :=
  ⟨.new capacity, limits, [], none, [], true, true, true⟩

def outstanding (queue : ObservationQueue) : ℕ := queue.slots.inUse.toNat

def tryReserve (queue : ObservationQueue) :
    ObservationQueue × Exec ObservationError ObservationPermit :=
  match queue.slots.tryAcquire with
  | none => (queue, Exec.fail (.capacityExceeded queue.slots.capacity.get))
  | some (permit, slots) => ({ queue with slots := slots }, .ok permit)

def dropPermit {ε α : Type} (queue : ObservationQueue) (permit : ObservationPermit) (error : ε) :
    ObservationQueue × Exec ε α :=
  match queue.slots.release permit with
  | .error abort => (queue, .error abort)
  | .ok slots => ({ queue with slots := slots }, Exec.fail error)

def submitReserved (queue : ObservationQueue) (permit : ObservationPermit) (source : FrameMetadata)
    (request : ObservationRequest) : ObservationQueue × Exec ObservationError Unit :=
  if !queue.jobsOpen then queue.dropPermit permit .workerUnavailable
  else if queue.slots.capacity.get ≤ queue.jobs.length then
    queue.dropPermit permit (.capacityExceeded queue.slots.capacity.get)
  else ({ queue with jobs := queue.jobs ++ [⟨permit, source, request⟩] }, .ok ())

def tryReceiveDelivery (queue : ObservationQueue) (latestKnownRevision : SceneRevision) :
    ObservationQueue × Exec ObservationError (Option ObservationDelivery) :=
  match queue.results with
  | [] =>
    if queue.resultsOpen then (queue, .ok none) else (queue, Exec.fail .workerUnavailable)
  | completion :: rest =>
    let received := { queue with results := rest }
    let deliver (delivery : ObservationDelivery) :
        ObservationQueue × Exec ObservationError (Option ObservationDelivery) :=
      match received.slots.release completion.permit with
      | .error abort => (received, .error abort)
      | .ok slots => ({ received with slots := slots }, .ok (some delivery))
    match completeObservation completion latestKnownRevision queue.limits with
    | .ok observation => deliver (.completed observation)
    | .error (.error error) => deliver (.failed completion.request.observationId error)
    | .error (.panic message) => (received, .error (.panic message))
    | .error .diverge => (received, .error .diverge)

inductive WorkerStep (queue : ObservationQueue) : ObservationQueue → Prop where
  | take {job : ObservationJob} {jobs : List ObservationJob} (working : queue.working = true)
      (idle : queue.active = none) (jobs_eq : queue.jobs = job :: jobs) :
      WorkerStep queue { queue with active := some job, jobs := jobs }
  /-- It has read the frame, or failed to, and sends the result; the send waits for room. -/
  | finish {job : ObservationJob} (active : queue.active = some job)
      (room : queue.results.length < queue.slots.capacity.get)
      (observedAtUnixMicros productionLatencyMicros : UInt64)
      (frame : Except RendererError RenderedFrame)
      (source : ∀ rendered, frame = .ok rendered → rendered.metadata = job.source) :
      WorkerStep queue
        { queue with
          active := none
          results := queue.results ++
            [⟨job.permit, job.request, observedAtUnixMicros, productionLatencyMicros, frame⟩] }
  /-- Reading panics; the job is dropped as the stack unwinds. -/
  | panic {job : ObservationJob} {slots : ObservationSlots} (active : queue.active = some job)
      (release : (queue.slots.release job.permit : Exec Empty _) = .ok slots) :
      WorkerStep queue { queue with active := none, working := false, slots := slots }
  /-- Then its end of the first channel goes, and with it what is in the channel. -/
  | dropJobs {slots : ObservationSlots} (stopped : queue.working = false)
      (release : (queue.slots.releaseAll (queue.jobs.map ObservationJob.permit) : Exec Empty _) =
        .ok slots) :
      WorkerStep queue { queue with jobs := [], jobsOpen := false, slots := slots }
  /-- And its end of the second; what is in it can still be received. -/
  | dropResults (stopped : queue.working = false) :
      WorkerStep queue { queue with resultsOpen := false }

/-! ### The invariant -/

end ObservationQueue

theorem swapRemove_perm {α : Type} {l : List α} {position : ℕ} {a : α}
    (h : l[position]? = some a) : (a :: swapRemove l position).Perm l := by
  rcases List.eq_nil_or_concat l with rfl | ⟨init, last, rfl⟩
  · cases h
  rw [List.concat_eq_append] at h ⊢
  rw [swapRemove, List.getLast?_concat]
  dsimp only
  obtain ⟨hlt, hget⟩ := List.getElem?_eq_some_iff.mp h
  rw [List.length_append, List.length_singleton] at hlt
  rcases Nat.lt_succ_iff_lt_or_eq.mp hlt with hlt | rfl
  · rw [List.getElem_append_left hlt] at hget
    rw [List.set_append_left _ _ hlt, List.dropLast_concat]
    calc a :: init.set position last
      _ |>.Perm (a :: last :: init.eraseIdx position) :=
          (List.set_perm_cons_eraseIdx hlt last).cons a
      _ |>.Perm (last :: a :: init.eraseIdx position) := .swap ..
      _ |>.Perm (last :: init) := by
          rw [← hget]
          exact (List.getElem_cons_eraseIdx_perm hlt).cons last
      _ |>.Perm (init ++ [last]) := (List.perm_append_singleton last init).symm
  · rw [List.getElem_append_right (Nat.le_refl _)] at hget
    rw [List.set_append_right _ _ (Nat.le_refl _)]
    simp only [Nat.sub_self, List.getElem_cons_zero] at hget
    simp only [Nat.sub_self, List.set_cons_zero, List.dropLast_concat, ← hget]
    exact (List.perm_append_singleton last init).symm

namespace ObservationSlots

variable {slots slots' : ObservationSlots} {permit : ObservationPermit}
  {permits rest : List ObservationPermit} {ε : Type}

structure Holds (slots : ObservationSlots) (permits : List ObservationPermit) : Prop where
  pending : slots.pending.Perm permits
  nodup : permits.Nodup
  allocated : ∀ permit ∈ permits, permit < slots.nextAllocation
  inUse : slots.inUse.toNat = permits.length
  bounded : permits.length ≤ slots.capacity.get

theorem Holds.new (capacity : NonZeroU32) : Holds (.new capacity) [] :=
  ⟨.nil, .nil, by simp, rfl, Nat.zero_le _⟩

theorem Holds.perm (h : slots.Holds permits) (hperm : permits.Perm rest) : slots.Holds rest :=
  ⟨h.pending.trans hperm, hperm.nodup_iff.mp h.nodup,
    fun permit hmem => h.allocated permit (hperm.mem_iff.mpr hmem),
    h.inUse.trans hperm.length_eq, hperm.length_eq ▸ h.bounded⟩

theorem Holds.tryAcquire (h : slots.Holds permits)
    (hacquire : slots.tryAcquire = some (permit, slots')) :
    slots'.Holds (permit :: permits) ∧ slots'.capacity = slots.capacity := by
  rw [ObservationSlots.tryAcquire] at hacquire
  split at hacquire
  · cases hacquire
  rename_i hroom
  cases hacquire
  have hroom := Nat.not_le.mp hroom
  have hlt := slots.capacity.lt
  have hinUse := h.inUse
  refine ⟨⟨?_, List.nodup_cons.mpr ⟨fun hmem => ?_, h.nodup⟩, fun permit hmem => ?_, ?_, ?_⟩, rfl⟩
  · exact (List.perm_append_singleton _ _).trans (h.pending.cons _)
  · exact Nat.lt_irrefl _ (h.allocated _ hmem)
  · rcases List.mem_cons.mp hmem with rfl | hmem
    · exact Nat.lt_succ_self _
    · exact Nat.lt_succ_of_lt (h.allocated permit hmem)
  · rw [List.length_cons, UInt32.toNat_add, UInt32.toNat_one, hinUse]
    exact Nat.mod_eq_of_lt (by omega)
  · rw [List.length_cons]
    exact hinUse ▸ hroom

theorem Holds.exists_release (h : slots.Holds (permit :: rest)) :
    ∃ slots', (slots.release permit : Exec ε ObservationSlots) = .ok slots' ∧
      slots'.Holds rest ∧ slots'.capacity = slots.capacity := by
  have hmem : permit ∈ slots.pending := h.pending.mem_iff.mpr List.mem_cons_self
  obtain ⟨position, hposition⟩ := Option.isSome_iff_exists.mp (List.isSome_idxOf?.mpr hmem)
  have hget : slots.pending[position]? = some permit := by
    rw [List.idxOf?_eq_some_iff] at hposition
    obtain ⟨hlt, heq, -⟩ := hposition
    exact List.getElem?_eq_some_iff.mpr ⟨hlt, heq⟩
  have hinUse := h.inUse
  have hbounded := h.bounded
  rw [List.length_cons] at hinUse hbounded
  rw [release, hposition]
  refine ⟨_, rfl, ⟨?_, h.nodup.of_cons, fun other hother => ?_, ?_, ?_⟩, rfl⟩
  · exact List.Perm.cons_inv ((swapRemove_perm hget).trans h.pending)
  · exact h.allocated other (List.mem_cons_of_mem _ hother)
  · rw [UInt32.toNat_sub_of_le _ _ (by rw [UInt32.le_iff_toNat_le, hinUse]; simp), hinUse]
    rfl
  · exact Nat.le_of_succ_le hbounded

theorem Holds.release (h : slots.Holds (permit :: rest))
    (hrelease : (slots.release permit : Exec ε ObservationSlots) = .ok slots') :
    slots'.Holds rest ∧ slots'.capacity = slots.capacity := by
  obtain ⟨other, hother, hholds⟩ := h.exists_release (ε := ε)
  rw [hrelease] at hother
  cases hother
  exact hholds

theorem Holds.releaseAll (h : slots.Holds (permits ++ rest))
    (hrelease : (slots.releaseAll permits : Exec ε ObservationSlots) = .ok slots') :
    slots'.Holds rest ∧ slots'.capacity = slots.capacity := by
  induction permits generalizing slots with
  | nil =>
    cases hrelease
    exact ⟨h, rfl⟩
  | cons permit permits ih =>
    rw [ObservationSlots.releaseAll, List.foldlM_cons] at hrelease
    obtain ⟨middle, hmiddle, hrelease⟩ := Exec.bind_eq_ok.mp hrelease
    obtain ⟨hholds, hcapacity⟩ := h.release hmiddle
    obtain ⟨hholds', hcapacity'⟩ := ih hholds hrelease
    exact ⟨hholds', hcapacity'.trans hcapacity⟩

end ObservationSlots

namespace ObservationQueue

def permits (queue : ObservationQueue) : List ObservationPermit :=
  queue.results.map ObservationCompletion.permit ++
    (queue.active.toList ++ queue.jobs).map ObservationJob.permit

def deliverable (queue : ObservationQueue) : List ObservationId :=
  queue.results.map (fun completion => completion.request.observationId) ++
    if queue.working then
      (queue.active.toList ++ queue.jobs).map fun job => job.request.observationId
    else []

/-- The permits in use travel with a request or are in `held`, which a caller has reserved and not
submitted. A worker that runs holds its ends of both channels. -/
structure Valid (held : List ObservationPermit) (queue : ObservationQueue) : Prop where
  holds : queue.slots.Holds (held ++ queue.permits)
  stopped : queue.working = false → queue.active = none
  closed : queue.jobsOpen = false → queue.jobs = []
  running : queue.working = true → queue.jobsOpen = true ∧ queue.resultsOpen = true

variable {queue queue' : ObservationQueue} {held : List ObservationPermit}
  {permit : ObservationPermit} {source : FrameMetadata} {request : ObservationRequest}

namespace Valid

theorem started (capacity : NonZeroU32) (limits : RuntimeLimits) :
    Valid [] (.started capacity limits) :=
  ⟨.new capacity, fun h => (by cases h), fun h => (by cases h), fun _ => ⟨rfl, rfl⟩⟩

theorem working_of_active (h : Valid held queue) {job : ObservationJob}
    (hactive : queue.active = some job) : queue.working = true := by
  cases hworking : queue.working with
  | true => rfl
  | false =>
    rw [h.stopped hworking] at hactive
    cases hactive

theorem deliverable_eq_nil (h : Valid [] queue) (hzero : queue.outstanding = 0) :
    queue.deliverable = [] := by
  have hlength := h.holds.inUse
  rw [outstanding] at hzero
  rw [hzero, List.nil_append, eq_comm, List.length_eq_zero_iff, permits,
    List.append_eq_nil_iff, List.map_eq_nil_iff, List.map_eq_nil_iff] at hlength
  rw [deliverable, hlength.1, hlength.2]
  simp

/-- **One step of the worker.** It keeps the invariant, and delivers nothing that was not on its
way. -/
theorem worker (h : Valid held queue) (hstep : WorkerStep queue queue') :
    Valid held queue' ∧ queue'.slots.capacity = queue.slots.capacity ∧
      queue'.deliverable.Sublist queue.deliverable := by
  have hholds := h.holds
  rw [permits] at hholds
  cases hstep with
  | @take job jobs working idle jobs_eq =>
    rw [idle, jobs_eq] at hholds
    refine ⟨⟨hholds, ?_, ?_, h.running⟩, rfl, ?_⟩
    · intro hstopped
      rw [working] at hstopped
      cases hstopped
    · intro hclosed
      rw [(h.running working).1] at hclosed
      cases hclosed
    · rw [deliverable, deliverable, idle, jobs_eq]
      exact .refl _
  | @finish job active room observedAt latency frame source =>
    have working := h.working_of_active active
    rw [active] at hholds
    refine ⟨⟨?_, fun _ => rfl, h.closed, h.running⟩, rfl, ?_⟩
    · rw [permits, List.map_append, List.append_assoc]
      exact hholds
    · rw [deliverable, deliverable, active, if_pos working, if_pos working, List.map_append,
        List.append_assoc]
      exact .refl _
  | @panic job slots active release =>
    rw [active, Option.toList_some, List.singleton_append, List.map_cons] at hholds
    have hmiddle : queue.slots.Holds (job.permit :: (held ++
        (queue.results.map ObservationCompletion.permit ++
          queue.jobs.map ObservationJob.permit))) := by
      refine hholds.perm ?_
      rw [← List.append_assoc, ← List.append_assoc]
      exact List.perm_middle
    obtain ⟨hholds, hcapacity⟩ := hmiddle.release release
    refine ⟨⟨hholds, fun _ => rfl, h.closed, by simp⟩, hcapacity, ?_⟩
    rw [deliverable, deliverable, if_neg (by simp)]
    exact List.Sublist.append_left (List.nil_sublist _) _
  | @dropJobs slots stopped release =>
    rw [h.stopped stopped, Option.toList_none, List.nil_append] at hholds
    obtain ⟨hholds, hcapacity⟩ := (hholds.perm (by
      rw [← List.append_assoc]
      exact List.perm_append_comm)).releaseAll release
    refine ⟨⟨?_, fun _ => h.stopped stopped, fun _ => rfl, ?_⟩, hcapacity, ?_⟩
    · simpa [permits, h.stopped stopped] using hholds
    · intro working
      rw [stopped] at working
      cases working
    · rw [deliverable, deliverable, stopped]
      exact .refl _
  | dropResults stopped =>
    refine ⟨⟨hholds, h.stopped, h.closed, ?_⟩, rfl, .refl _⟩
    intro working
    rw [stopped] at working
    cases working

theorem tryReserve (h : Valid held queue) (hreserve : queue.tryReserve = (queue', .ok permit)) :
    Valid (permit :: held) queue' ∧ queue'.slots.capacity = queue.slots.capacity ∧
      queue'.deliverable = queue.deliverable := by
  rw [ObservationQueue.tryReserve] at hreserve
  split at hreserve
  · cases hreserve
  · rename_i hacquire
    cases hreserve
    obtain ⟨hholds, hcapacity⟩ := h.holds.tryAcquire hacquire
    exact ⟨⟨hholds, h.stopped, h.closed, h.running⟩, hcapacity, rfl⟩

theorem dropPermit {ε α : Type} (h : Valid (permit :: held) queue) (error : ε) :
    ∃ queue', (queue.dropPermit permit error : ObservationQueue × Exec ε α) =
        (queue', Exec.fail error) ∧
      Valid held queue' ∧ queue'.slots.capacity = queue.slots.capacity ∧
      queue'.deliverable = queue.deliverable := by
  obtain ⟨slots, hrelease, hholds, hcapacity⟩ := h.holds.exists_release (ε := ε)
  rw [ObservationQueue.dropPermit, hrelease]
  exact ⟨_, rfl, ⟨hholds, h.stopped, h.closed, h.running⟩, hcapacity, rfl⟩

theorem submitReserved (h : Valid (permit :: held) queue) (source : FrameMetadata)
    (request : ObservationRequest) :
    ∃ queue' outcome, queue.submitReserved permit source request = (queue', outcome) ∧
      Valid held queue' ∧ queue'.slots.capacity = queue.slots.capacity ∧
      ((outcome = .ok () ∧
          queue'.deliverable.Sublist (queue.deliverable ++ [request.observationId])) ∨
        (∃ error, outcome = Exec.fail error) ∧ queue'.deliverable = queue.deliverable) := by
  rw [ObservationQueue.submitReserved]
  split
  · obtain ⟨queue', heq, hvalid, hcapacity, hsame⟩ := h.dropPermit ObservationError.workerUnavailable
    exact ⟨_, _, heq, hvalid, hcapacity, .inr ⟨⟨_, rfl⟩, hsame⟩⟩
  rename_i hopen
  rw [Bool.not_eq_true', Bool.not_eq_false] at hopen
  split
  · obtain ⟨queue', heq, hvalid, hcapacity, hsame⟩ :=
      h.dropPermit (ObservationError.capacityExceeded queue.slots.capacity.get)
    exact ⟨_, _, heq, hvalid, hcapacity, .inr ⟨⟨_, rfl⟩, hsame⟩⟩
  refine ⟨_, _, rfl, ⟨?_, h.stopped, ?_, h.running⟩, rfl, .inl ⟨rfl, ?_⟩⟩
  · refine h.holds.perm ?_
    simp only [permits, List.cons_append, List.map_append, List.map_cons, List.map_nil,
      ← List.append_assoc]
    exact (List.perm_append_singleton _ _).symm
  · intro hclosed
    rw [hopen] at hclosed
    cases hclosed
  · rw [deliverable, deliverable, List.append_assoc]
    refine List.Sublist.append_left ?_ _
    cases queue.working with
    | true =>
      rw [if_pos rfl, if_pos rfl, ← List.append_assoc, List.map_append]
      exact .refl _
    | false => exact List.nil_sublist _

end Valid

end ObservationQueue

theorem completeObservation_observationId {completion : ObservationCompletion}
    {latest : SceneRevision} {limits : RuntimeLimits} {observation : CompletedObservation}
    (h : completeObservation completion latest limits = .ok observation) :
    observation.metadata.observationId = completion.request.observationId := by
  obtain ⟨frame, -, h⟩ := Exec.bind_eq_ok.mp h
  dsimp only at h
  split at h
  · cases h
  split at h
  · cases h
  split at h
  · cases h
  obtain ⟨dimensions, -, h⟩ := Exec.bind_eq_ok.mp h
  obtain ⟨⟨⟩, -, h⟩ := Exec.bind_eq_ok.mp h
  cases h
  rfl

namespace ObservationQueue

inductive Received (queue queue' : ObservationQueue) :
    Exec ObservationError (Option ObservationDelivery) → Prop where
  | empty (same : queue' = queue) : Received queue queue' (.ok none)
  | stopped (same : queue' = queue) (nothing : queue.deliverable = []) :
      Received queue queue' (Exec.fail .workerUnavailable)
  | delivered (delivery : ObservationDelivery)
      (first : queue.deliverable = delivery.observationId :: queue'.deliverable) :
      Received queue queue' (.ok (some delivery))

theorem Valid.tryReceiveDelivery {queue queue' : ObservationQueue} {held : List ObservationPermit}
    {latest : SceneRevision} {outcome : Exec ObservationError (Option ObservationDelivery)}
    (h : Valid held queue) (hpoll : queue.tryReceiveDelivery latest = (queue', outcome))
    (hreturns : outcome.Returns) :
    Valid held queue' ∧ queue'.slots.capacity = queue.slots.capacity ∧
      Received queue queue' outcome := by
  rw [ObservationQueue.tryReceiveDelivery] at hpoll
  cases hresults : queue.results with
  | nil =>
    rw [hresults] at hpoll
    dsimp only at hpoll
    split at hpoll
    · cases hpoll
      exact ⟨h, rfl, .empty rfl⟩
    · rename_i hclosed
      cases hpoll
      have hstopped : queue.working = false := by
        cases hworking : queue.working with
        | true => exact absurd (h.running hworking).2 hclosed
        | false => rfl
      exact ⟨h, rfl, .stopped rfl (by simp [deliverable, hresults, hstopped])⟩
  | cons completion rest =>
    have hholds := h.holds
    rw [permits, hresults, List.map_cons, List.cons_append] at hholds
    obtain ⟨slots, hrelease, hholds, hcapacity⟩ :=
      (hholds.perm List.perm_middle).exists_release (ε := ObservationError)
    have hfirst : queue.deliverable = completion.request.observationId ::
        { queue with results := rest, slots := slots }.deliverable := by
      rw [deliverable, hresults]
      rfl
    rw [hresults] at hpoll
    simp only [hrelease] at hpoll
    -- the permit is dropped whether or not the observation could be completed
    split at hpoll
    · rename_i observation hcomplete
      cases hpoll
      refine ⟨⟨hholds, h.stopped, h.closed, h.running⟩, hcapacity, .delivered _ ?_⟩
      rw [ObservationDelivery.observationId, completeObservation_observationId hcomplete]
      exact hfirst
    · cases hpoll
      exact ⟨⟨hholds, h.stopped, h.closed, h.running⟩, hcapacity, .delivered _ hfirst⟩
    all_goals
      cases hpoll
      rcases hreturns with ⟨_, h⟩ | ⟨_, h⟩ <;> cases h

end ObservationQueue

end Cogniform
