import Cogniform.Executor.Local
import Cogniform.Transport.Stream

/-!
# A session over standard streams

`serve-stdio` reads one frame from its input, hands it to the executor, writes what that returns,
and advances the executor until nothing is live; only then does it read again. Here is that loop,
over any driver, with the streams and the clock left open: a reader gives its bytes in any pieces, a
writer takes them in any pieces or fails, and a clock may read anything. The two loops have fuel, as
neither need end.

What a server did is in its history. Whatever the outside does, a request is read only when every
frame owed for the earlier ones is on the wire, whole and in order (`serveStreams_halfDuplex`).
-/

namespace Cogniform

/-! ### The server -/

inductive ServeStdioError where
  | interactiveStandardStream | inputFrameRejected | serviceUnavailable | serviceFailed
  | executorFailed | outputFrameFailed | outputFlushFailed | operationTimedOut
  | sessionEndedBeforeHello | sessionEndedBeforeClose
  deriving DecidableEq

/-- What a session is driven through. A call may depend on when it is made: on the time, and on what
other threads have done. -/
structure SessionDriver (D : Type) where
  handleFrame : ℕ → LocalFrame → Call D ServeStdioError (List LocalFrame)
  advance : ℕ → Call D ServeStdioError (List LocalFrame)
  status : D → LocalExecutorStatus
  negotiatedFrameConfig : D → Exec ServeStdioError (Option LocalFrameConfig)
  outputRequiresExit : D → List LocalFrame → LocalFrameConfig → Exec ServeStdioError Bool

/-- The outside at each moment: how the writer takes a frame, whether it can be flushed, and what
the clock reads. There are `instants` instants. -/
structure ServeEnvironment where
  takes : ℕ → List (WriteEvent IoErrorKind)
  flushes : ℕ → Bool
  now : ℕ → ℕ
  instants : ℕ
  operationTimeout : ℕ

inductive ServeEvent where
  | received (frame : LocalFrame)
  /-- A call of the driver returned these frames and left it in this state. -/
  | returned (frames : List LocalFrame) (status : LocalExecutorStatus)
  /-- A frame was handed to the writer, which took these bytes. -/
  | wrote (config : LocalFrameConfig) (frame : LocalFrame) (bytes : List UInt8)

structure ServeState (D : Type) where
  driver : D
  frameConfig : LocalFrameConfig
  reader : Reader IoErrorKind
  moment : ℕ
  history : List ServeEvent

def validateStatus (status : LocalExecutorStatus) : Exec ServeStdioError Unit :=
  let pending := status.pendingPatches + status.pendingImaginations + status.pendingObservations
  if 2 ^ 32 ≤ pending then Exec.fail .executorFailed
  else if status.liveCorrelations < pending
      ∨ status.liveCorrelations ≠ 0 ∧ status.phase ≠ .active then
    Exec.fail .executorFailed
  else .ok ()

def closedResult (status : LocalExecutorStatus) : Exec ServeStdioError Unit :=
  if status.liveCorrelations = 0 ∧ status.pendingPatches = 0 ∧ status.pendingImaginations = 0
      ∧ status.pendingObservations = 0 then .ok ()
  else Exec.fail .executorFailed

section

variable {D : Type} (ext : FrameExternals) (env : ServeEnvironment) (driver : SessionDriver D)

abbrev Serve (D α : Type) := Call (ServeState D) ServeStdioError α

/-- `Instant::now`. -/
def readClock : Serve D ℕ := fun s => ({ s with moment := s.moment + 1 }, .ok (env.now s.moment))

def readInputFrame : Serve D (Option LocalFrame) := fun s =>
  match readFrame ext s.frameConfig s.reader with
  | (rest, .error _) => ({ s with reader := rest }, Exec.fail .inputFrameRejected)
  | (rest, .ok none) => ({ s with reader := rest }, .ok none)
  | (rest, .ok (some frame)) =>
    ({ s with reader := rest, history := .received frame :: s.history }, .ok (some frame))

def callDriver (call : ℕ → Call D ServeStdioError (List LocalFrame)) :
    Serve D (List LocalFrame) := fun s =>
  match call s.moment s.driver with
  | (d, .error abort) => ({ s with driver := d, moment := s.moment + 1 }, .error abort)
  | (d, .ok frames) =>
    ({ s with
        driver := d
        moment := s.moment + 1
        history := .returned frames (driver.status d) :: s.history }, .ok frames)

def adoptNegotiatedConfig : Serve D Unit := do
  match ← Call.gets fun s => driver.negotiatedFrameConfig s.driver with
  | none => pure ()
  | some negotiated => Call.modify fun s => { s with frameConfig := negotiated }

/-- One frame of `write_output_frames`. -/
def writeOutputFrame (frame : LocalFrame) : Serve D Unit := fun s =>
  let written := writeFrame ext s.frameConfig (env.takes s.moment) frame
  ({ s with
      moment := s.moment + 1
      history := .wrote s.frameConfig frame written.1 :: s.history },
    match written.2 with
    | .error _ => Exec.fail .outputFrameFailed
    | .ok () => if env.flushes s.moment then .ok () else Exec.fail .outputFlushFailed)

def writeOutputFrames : List LocalFrame → Serve D Unit
  | [] => pure ()
  | frame :: frames => do
    writeOutputFrame ext env frame
    writeOutputFrames frames

def deliverOutput (output : List LocalFrame) : Serve D Unit := do
  adoptNegotiatedConfig driver
  let fatalServiceFailure ← Call.gets fun s =>
    driver.outputRequiresExit s.driver output s.frameConfig
  writeOutputFrames ext env output
  if fatalServiceFailure then Call.fail .serviceFailed else pure ()

def checkedStatus : Serve D LocalExecutorStatus := Call.gets fun s => do
  validateStatus (driver.status s.driver)
  .ok (driver.status s.driver)

/-- The loop of `drive_to_terminal`. Sleeping only lets time pass. -/
def driveUntil (deadline : ℕ) : ℕ → Serve D Unit
  | 0 => Call.lift (.error .diverge)
  | fuel + 1 => do
    let before ← readClock env
    if deadline ≤ before then Call.fail .operationTimedOut
    else
      let output ← callDriver driver driver.advance
      let after ← readClock env
      if deadline ≤ after then Call.fail .operationTimedOut
      else
        deliverOutput ext env driver output
        let status ← checkedStatus driver
        if status.liveCorrelations = 0 then pure ()
        else
          let now ← readClock env
          if deadline - now = 0 then Call.fail .operationTimedOut else driveUntil deadline fuel

def driveToTerminal (fuel : ℕ) : Serve D Unit := do
  let now ← readClock env
  if now + env.operationTimeout < env.instants then
    driveUntil ext env driver (now + env.operationTimeout) fuel
  else Call.fail .operationTimedOut

def settledStatus (fuel : ℕ) : Serve D LocalExecutorStatus := do
  let status ← checkedStatus driver
  if status.phase ≠ .closed ∧ status.liveCorrelations ≠ 0 then
    driveToTerminal ext env driver fuel
    checkedStatus driver
  else pure status

def serveLoop : ℕ → LocalFrame → Serve D Unit
  | 0, _ => Call.lift (.error .diverge)
  | fuel + 1, frame => do
    let output ← callDriver driver fun moment => driver.handleFrame moment frame
    deliverOutput ext env driver output
    let status ← settledStatus ext env driver fuel
    if status.phase = .closed then Call.lift (closedResult status)
    else
      match ← readInputFrame ext with
      | some next => serveLoop fuel next
      | none =>
        match status.phase with
        | .awaitingHello => Call.fail .sessionEndedBeforeHello
        | .active => Call.fail .sessionEndedBeforeClose
        | .closed => Call.lift (closedResult status)

/-- `serve_streams_with_policy`: the history of a session, and its result. -/
def serveStreams (createDriver : Exec ServeStdioError D) (reader : Reader IoErrorKind) (fuel : ℕ) :
    List ServeEvent × Exec ServeStdioError Unit :=
  match readFrame ext .default reader with
  | (_, .error _) => ([], Exec.fail .inputFrameRejected)
  | (_, .ok none) => ([], .ok ())
  | (rest, .ok (some frame)) =>
    match createDriver with
    | .error abort => ([.received frame], .error abort)
    | .ok d =>
      let served := serveLoop ext env driver fuel frame ⟨d, .default, rest, 0, [.received frame]⟩
      (served.1.history, served.2)

end

/-! ### Histories -/

def returnedFrames : List ServeEvent → List LocalFrame
  | [] => []
  | .returned frames _ :: earlier => returnedFrames earlier ++ frames
  | .received _ :: earlier | .wrote _ _ _ :: earlier => returnedFrames earlier

def sentFrames : List ServeEvent → List LocalFrame
  | [] => []
  | .wrote _ frame _ :: earlier => sentFrames earlier ++ [frame]
  | .received _ :: earlier | .returned _ _ :: earlier => sentFrames earlier

def lastStatus : List ServeEvent → Option LocalExecutorStatus
  | [] => none
  | .returned _ status :: _ => some status
  | .received _ :: earlier | .wrote _ _ _ :: earlier => lastStatus earlier

def LocalExecutorStatus.Idle (status : LocalExecutorStatus) : Prop :=
  status.liveCorrelations = 0 ∧ status.phase ≠ .closed

structure LocalExecutorStatus.Finished (status : LocalExecutorStatus) : Prop where
  closed : status.phase = .closed
  live : status.liveCorrelations = 0
  patches : status.pendingPatches = 0
  imaginations : status.pendingImaginations = 0
  observations : status.pendingObservations = 0

section

variable {D : Type} (ext : FrameExternals)

/-- Every frame was taken as a whole. -/
def Whole (history : List ServeEvent) : Prop :=
  ∀ config frame bytes, .wrote config frame bytes ∈ history →
    encodeFrame ext frame config = .ok bytes

/-- Of the frames returned these are still to be sent. -/
structure Owes (frames : List LocalFrame) (history : List ServeEvent) : Prop where
  whole : Whole ext history
  sent : sentFrames history ++ frames = returnedFrames history

/-- When a request was read, nothing was owed or in progress. -/
def HalfDuplex : List ServeEvent → Prop
  | [] => True
  | .received _ :: earlier =>
    Owes ext [] earlier ∧ (∀ status, lastStatus earlier = some status → status.Idle) ∧
      HalfDuplex earlier
  | .returned _ _ :: earlier | .wrote _ _ _ :: earlier => HalfDuplex earlier

/-- What an aborted session has sent: some whole frames, the first of those it owed. When the writer
failed, a part of the next one may follow them. -/
inductive Interrupted : Abort ServeStdioError → List ServeEvent → Prop where
  | between {abort : Abort ServeStdioError} {history : List ServeEvent} (frames : List LocalFrame)
      (owes : Owes ext frames history) : Interrupted abort history
  | within {history : List ServeEvent} {config : LocalFrameConfig} {frame : LocalFrame}
      {bytes : List UInt8} (frames : List LocalFrame) (owes : Owes ext (frame :: frames) history)
      (part : ∀ encoded, encodeFrame ext frame config = .ok encoded →
        bytes <+: encoded ∧ bytes ≠ encoded) :
      Interrupted (.error .outputFrameFailed) (.wrote config frame bytes :: history)

/-- A history with its result. Success means that there was no request, or that the session is over
and everything was sent. -/
structure Conducted (served : List ServeEvent × Exec ServeStdioError Unit) : Prop where
  halfDuplex : HalfDuplex ext served.1
  finished : served.2 = .ok () → served.1 = [] ∨ Owes ext [] served.1 ∧
    ∃ status, lastStatus served.1 = some status ∧ status.Finished
  interrupted : ∀ abort, served.2 = .error abort → Interrupted ext abort served.1

end

/-! ### What the server does -/

/-- A driver that is observed from a state on, and the frames it may be given. -/
structure Watch (D : Type) where
  ext : FrameExternals
  driver : SessionDriver D
  given : LocalFrame → Prop
  start : D

section

variable {D : Type} {W : Watch D} {env : ServeEnvironment} {frames : List LocalFrame}
  {s : ServeState D}

namespace Watch

/-- The states that successful calls bring the driver to. -/
inductive Driven (W : Watch D) : D → Prop where
  | start : W.Driven W.start
  | handleFrame {d d' : D} {moment : ℕ} {frame : LocalFrame} {frames : List LocalFrame}
      (h : W.Driven d) (hgiven : W.given frame)
      (hcall : W.driver.handleFrame moment frame d = (d', .ok frames)) : W.Driven d'
  | advance {d d' : D} {moment : ℕ} {frames : List LocalFrame} (h : W.Driven d)
      (hcall : W.driver.advance moment d = (d', .ok frames)) : W.Driven d'

def Given (W : Watch D) (history : List ServeEvent) : Prop :=
  ∀ frame, .received frame ∈ history → W.given frame

theorem Given.of_cons {event : ServeEvent} {earlier : List ServeEvent}
    (h : W.Given (event :: earlier)) : W.Given earlier :=
  fun frame hmem => h frame (List.mem_cons_of_mem event hmem)

/-- What was reported of the driver is what it was. -/
def Accounted (W : Watch D) (history : List ServeEvent) : Prop :=
  W.Given history → ∀ frames status, .returned frames status ∈ history →
    ∃ d, W.Driven d ∧ W.driver.status d = status

end Watch

/-- Between two events: these frames are still to be sent. -/
structure Ready (W : Watch D) (frames : List LocalFrame) (s : ServeState D) : Prop where
  halfDuplex : HalfDuplex W.ext s.history
  accounted : W.Accounted s.history
  owes : Owes W.ext frames s.history
  driven : W.Given s.history → W.Driven s.driver

/-- The same, when the driver has been called since the last request. -/
structure InTurn (W : Watch D) (frames : List LocalFrame) (s : ServeState D) : Prop
    extends Ready W frames s where
  status : lastStatus s.history = some (W.driver.status s.driver)

def Stopped (W : Watch D) (abort : Abort ServeStdioError) (s : ServeState D) : Prop :=
  HalfDuplex W.ext s.history ∧ W.Accounted s.history ∧ Interrupted W.ext abort s.history

theorem Ready.stopped (h : Ready W frames s) (abort : Abort ServeStdioError) : Stopped W abort s :=
  ⟨h.halfDuplex, h.accounted, .between frames h.owes⟩

theorem spec_readClock :
    Call.Spec (InTurn W frames) (readClock env) (fun _ => InTurn W frames) (Stopped W) := by
  intro s hs
  exact ⟨fun _ _ => ⟨⟨hs.halfDuplex, hs.accounted, hs.owes, hs.driven⟩, hs.status⟩,
    fun _ h => (by cases h)⟩

theorem spec_callDriver {P : ServeState D → Prop} (hP : ∀ s, P s → Ready W [] s)
    {call : ℕ → Call D ServeStdioError (List LocalFrame)}
    (hcall : ∀ s, P s → W.Given s.history → ∀ d frames,
      call s.moment s.driver = (d, .ok frames) → W.Driven d) :
    Call.Spec P (callDriver W.driver call) (InTurn W) (Stopped W) := by
  intro s hs
  obtain ⟨hturn, haccounted, howes, hdriven⟩ := hP s hs
  rw [callDriver]
  split
  · exact ⟨fun _ h => (by cases h), fun abort _ => ⟨hturn, haccounted, .between [] howes⟩⟩
  · rename_i d frames heq
    refine ⟨fun output houtput => ?_, fun _ h => (by cases h)⟩
    cases houtput
    have hreached (hgiven : W.Given s.history) : W.Driven d := hcall s hs hgiven d frames heq
    refine ⟨⟨hturn, fun hgiven others status hmem => ?_, ⟨fun config frame bytes hmem => ?_, ?_⟩,
      fun hgiven => hreached hgiven.of_cons⟩, rfl⟩
    · rcases List.mem_cons.mp hmem with hlast | hmem
      · cases hlast
        exact ⟨d, hreached hgiven.of_cons, rfl⟩
      · exact haccounted hgiven.of_cons others status hmem
    · exact howes.whole config frame bytes (by simpa using hmem)
    · have hsent := howes.sent
      rw [List.append_nil] at hsent
      exact congrArg (· ++ frames) hsent

theorem spec_adoptNegotiatedConfig :
    Call.Spec (InTurn W frames) (adoptNegotiatedConfig W.driver) (fun _ => InTurn W frames)
      (Stopped W) := by
  refine .bind (.gets (fun _ _ hs _ => hs) fun _ abort hs _ => hs.stopped abort) ?_
  rintro (_ | negotiated)
  · exact .pure fun _ hs => hs
  · intro s hs
    exact ⟨fun _ _ => ⟨⟨hs.halfDuplex, hs.accounted, hs.owes, hs.driven⟩, hs.status⟩,
      fun _ h => (by cases h)⟩

/-- **One frame.** Once it was taken as a whole, one frame less is owed. -/
theorem spec_writeOutputFrame (frame : LocalFrame) :
    Call.Spec (InTurn W (frame :: frames)) (writeOutputFrame W.ext env frame)
      (fun _ => InTurn W frames) (Stopped W) := by
  intro s hs
  have haccounted : W.Accounted (writeOutputFrame W.ext env frame s).1.history := by
    intro hgiven others status hmem
    exact hs.accounted hgiven.of_cons others status (by simpa [writeOutputFrame] using hmem)
  cases hwritten : (writeFrame W.ext s.frameConfig (env.takes s.moment) frame).2 with
  | error error =>
    refine ⟨fun _ hok => ?_, fun abort habort => ?_⟩
    · rw [writeOutputFrame, hwritten] at hok
      cases hok
    · rw [writeOutputFrame, hwritten] at habort
      cases habort
      -- the writer stopped somewhere in this frame
      refine ⟨hs.halfDuplex, haccounted, .within frames hs.owes fun encoded hencode => ?_⟩
      obtain ⟨hpart, hwhole⟩ := writeFrame_taken (env.takes s.moment) hencode
      refine ⟨hpart, fun h => ?_⟩
      rw [hwhole.mpr h] at hwritten
      cases hwritten
  | ok _ =>
    have hafter : InTurn W frames (writeOutputFrame W.ext env frame s).1 := by
      refine ⟨⟨hs.halfDuplex, haccounted, ⟨fun config other bytes hmem => ?_, ?_⟩,
        fun hgiven => hs.driven hgiven.of_cons⟩, hs.status⟩
      · rcases List.mem_cons.mp hmem with heq | hmem
        · cases heq
          exact encodeFrame_of_writeFrame hwritten
        · exact hs.owes.whole config other bytes hmem
      · have hsent := hs.owes.sent
        rw [List.append_cons] at hsent
        exact hsent
    exact ⟨fun _ _ => hafter, fun abort _ => hafter.stopped abort⟩

theorem spec_writeOutputFrames (frames : List LocalFrame) :
    Call.Spec (InTurn W frames) (writeOutputFrames W.ext env frames) (fun _ => InTurn W [])
      (Stopped W) := by
  induction frames with
  | nil => exact .pure fun _ h => h
  | cons frame frames ih =>
    rw [writeOutputFrames]
    exact .bind (spec_writeOutputFrame frame) fun _ => ih

theorem spec_deliverOutput (output : List LocalFrame) :
    Call.Spec (InTurn W output) (deliverOutput W.ext env W.driver output) (fun _ => InTurn W [])
      (Stopped W) := by
  refine .bind spec_adoptNegotiatedConfig fun _ =>
    .bind (.gets (fun _ _ hs _ => hs) fun _ abort hs _ => hs.stopped abort) fun fatal => ?_
  refine .bind (spec_writeOutputFrames output) fun _ => .cond (fun _ => ?_) fun _ => ?_
  · exact .fail fun _ hs => hs.stopped _
  · exact .pure fun _ hs => hs

theorem spec_checkedStatus {P : ServeState D → Prop} (hP : ∀ s, P s → InTurn W [] s) :
    Call.Spec P (checkedStatus W.driver) (fun status s => P s ∧ status = W.driver.status s.driver)
      (Stopped W) := by
  refine .gets (fun s status hs hstatus => ⟨hs, ?_⟩) fun s abort hs _ => (hP s hs).stopped abort
  obtain ⟨_, -, hstatus⟩ := Exec.bind_eq_ok.mp hstatus
  cases hstatus
  rfl

/-- **Advancing.** If it ends, nothing is in progress any more. -/
theorem spec_driveUntil (deadline fuel : ℕ) :
    Call.Spec (InTurn W []) (driveUntil W.ext env W.driver deadline fuel)
      (fun _ s => InTurn W [] s ∧ (W.driver.status s.driver).liveCorrelations = 0)
      (Stopped W) := by
  induction fuel with
  | zero => exact .gets (fun _ _ _ h => (by cases h)) fun _ abort hs _ => hs.stopped abort
  | succ fuel ih =>
    rw [driveUntil]
    refine .bind spec_readClock fun _ => .cond (fun _ => .fail fun _ hs => hs.stopped _) fun _ => ?_
    refine .bind (spec_callDriver (fun _ hs => hs.toReady) fun s hs hgiven d frames hcall => ?_)
      fun output => ?_
    · exact .advance (hs.driven hgiven) hcall
    refine .bind spec_readClock fun _ => .cond (fun _ => .fail fun _ hs => hs.stopped _) fun _ => ?_
    refine .bind (spec_deliverOutput output) fun _ =>
      .bind (spec_checkedStatus fun _ hs => hs) fun status => ?_
    refine .cond (fun hlive => .pure ?_) fun _ => ?_
    · rintro s ⟨hs, rfl⟩
      exact ⟨hs, hlive⟩
    · exact .bind (spec_readClock.mono fun _ hs => hs.1) fun _ =>
        .cond (fun _ => .fail fun _ hs => hs.stopped _) fun _ => ih

theorem spec_settledStatus (fuel : ℕ) :
    Call.Spec (InTurn W []) (settledStatus W.ext env W.driver fuel)
      (fun status s => InTurn W [] s ∧ status = W.driver.status s.driver ∧
        (status.phase ≠ .closed → status.liveCorrelations = 0)) (Stopped W) := by
  refine .bind (spec_checkedStatus fun _ hs => hs) fun status => .cond (fun _ => ?_) fun hsettled => ?_
  · refine .bind (R := fun _ s => InTurn W [] s ∧
      (W.driver.status s.driver).liveCorrelations = 0) ?_ fun _ => ?_
    · refine .bind (spec_readClock.mono fun _ hs => hs.1) fun _ => .cond (fun _ => ?_) fun _ => ?_
      · exact spec_driveUntil _ fuel
      · exact .fail fun _ hs => hs.stopped _
    · intro s hs
      obtain ⟨hok, hstop⟩ := spec_checkedStatus (P := fun s => InTurn W [] s ∧
        (W.driver.status s.driver).liveCorrelations = 0) (fun _ hs => hs.1) s hs
      refine ⟨fun status hstatus => ?_, hstop⟩
      obtain ⟨⟨hturn, hlive⟩, heq⟩ := hok status hstatus
      exact ⟨hturn, heq, fun _ => heq ▸ hlive⟩
  · refine .pure ?_
    rintro s ⟨hs, heq⟩
    refine ⟨hs, heq, fun hopen => ?_⟩
    by_contra hlive
    exact hsettled ⟨hopen, hlive⟩

theorem spec_readInputFrame :
    Call.Spec (fun s => InTurn W [] s ∧ (W.driver.status s.driver).Idle) (readInputFrame W.ext)
      (fun next s => Ready W [] s ∧ ∀ frame, next = some frame → W.Given s.history → W.given frame)
      (Stopped W) := by
  rintro s ⟨hs, hidle⟩
  rw [readInputFrame]
  split
  · exact ⟨fun _ h => (by cases h), fun abort _ => hs.stopped abort⟩
  · refine ⟨fun _ hnext => ⟨⟨hs.halfDuplex, hs.accounted, hs.owes, hs.driven⟩, ?_⟩,
      fun _ h => (by cases h)⟩
    cases hnext
    exact fun _ h => (by cases h)
  · refine ⟨fun _ hnext => ⟨⟨⟨hs.owes, fun status hstatus => ?_, hs.halfDuplex⟩, ?_,
      ⟨?_, hs.owes.sent⟩, fun hgiven => hs.driven hgiven.of_cons⟩, ?_⟩, fun _ h => (by cases h)⟩
    · rw [hs.status] at hstatus
      cases hstatus
      exact hidle
    · exact fun hgiven frames status hmem =>
        hs.accounted hgiven.of_cons frames status (by simpa using hmem)
    · exact fun config frame bytes hmem => hs.owes.whole config frame bytes (by simpa using hmem)
    · cases hnext
      rintro _ ⟨⟩ hgiven
      exact hgiven _ List.mem_cons_self

/-- **The session loop.** It ends by itself only when the session is over. -/
theorem spec_serveLoop (env : ServeEnvironment) (fuel : ℕ) : ∀ frame : LocalFrame,
    Call.Spec (fun s => Ready W [] s ∧ (W.Given s.history → W.given frame))
      (serveLoop W.ext env W.driver fuel frame)
      (fun _ s => InTurn W [] s ∧ (W.driver.status s.driver).Finished) (Stopped W) := by
  induction fuel with
  | zero =>
    intro frame
    exact .gets (fun _ _ _ h => (by cases h)) fun _ abort hs _ => hs.1.stopped abort
  | succ fuel ih =>
    intro frame
    rw [serveLoop]
    refine .bind (spec_callDriver (fun _ hs => hs.1) fun s hs hgiven d frames hcall => ?_)
      fun output => .bind (spec_deliverOutput output) fun _ =>
        .bind (spec_settledStatus fuel) fun status => .cond (fun hclosed => ?_) fun hopen => ?_
    · exact .handleFrame (hs.1.driven hgiven) (hs.2 hgiven) hcall
    · refine .gets (fun s _ hs hresult => ?_) fun _ abort hs _ => hs.1.stopped abort
      obtain ⟨hs, rfl, -⟩ := hs
      rw [closedResult] at hresult
      split at hresult
      · rename_i hnone
        exact ⟨hs, hclosed, hnone.1, hnone.2.1, hnone.2.2.1, hnone.2.2.2⟩
      · cases hresult
    · refine .bind (spec_readInputFrame.mono ?_) fun next => ?_
      · rintro s ⟨hs, rfl, hlive⟩
        exact ⟨hs, hlive hopen, hopen⟩
      · cases next with
        | some next => exact (ih next).mono fun s hs => ⟨hs.1, hs.2 next rfl⟩
        | none =>
          cases hphase : status.phase with
          | awaitingHello => exact .fail fun _ hs => hs.1.stopped _
          | active => exact .fail fun _ hs => hs.1.stopped _
          | closed => exact absurd hphase hopen

theorem serveStreams_spec (ext : FrameExternals) (env : ServeEnvironment)
    (driver : SessionDriver D) (createDriver : Exec ServeStdioError D)
    (reader : Reader IoErrorKind) (fuel : ℕ) (given : LocalFrame → Prop) :
    let served := serveStreams ext env driver createDriver reader fuel
    Conducted ext served ∧ ∀ frames status, .returned frames status ∈ served.1 →
      ∃ start, createDriver = .ok start ∧ Watch.Accounted ⟨ext, driver, given, start⟩ served.1 := by
  have hnothing : Owes ext [] [] := ⟨fun _ _ _ hmem => (by cases hmem), rfl⟩
  rw [serveStreams]
  split
  · exact ⟨⟨trivial, fun hok => (by cases hok), fun abort _ => .between [] hnothing⟩,
      fun _ _ hmem => (by cases hmem)⟩
  · exact ⟨⟨trivial, fun _ => .inl rfl, fun _ hstop => (by cases hstop)⟩,
      fun _ _ hmem => (by cases hmem)⟩
  rename_i rest frame _
  have hfirst : HalfDuplex ext [.received frame] :=
    ⟨hnothing, fun _ hstatus => (by cases hstatus), trivial⟩
  have howes : Owes ext [] [.received frame] := ⟨fun _ _ _ hmem => (by simp at hmem), rfl⟩
  split
  · exact ⟨⟨hfirst, fun hok => (by cases hok), fun abort _ => .between [] howes⟩,
      fun _ _ hmem => (by simp at hmem)⟩
  · rename_i d
    obtain ⟨hok, hstop⟩ := spec_serveLoop (W := ⟨ext, driver, given, d⟩) env fuel frame
      ⟨d, .default, rest, 0, [.received frame]⟩
      ⟨⟨hfirst, fun _ _ _ hmem => (by simp at hmem), howes, fun _ => .start⟩,
        fun hgiven => hgiven frame List.mem_cons_self⟩
    dsimp only
    cases hresult : (serveLoop ext env driver fuel frame
        ⟨d, .default, rest, 0, [.received frame]⟩).2 with
    | ok _ =>
      obtain ⟨hturn, hfinished⟩ := hok () hresult
      exact ⟨⟨hturn.halfDuplex, fun _ => .inr ⟨hturn.owes, _, hturn.status, hfinished⟩,
        fun _ h => (by cases h)⟩, fun _ _ _ => ⟨d, rfl, hturn.accounted⟩⟩
    | error abort =>
      obtain ⟨hturn, haccounted, hinterrupted⟩ := hstop abort hresult
      refine ⟨⟨hturn, fun h => (by cases h), fun abort h => ?_⟩, fun _ _ _ => ⟨d, rfl, haccounted⟩⟩
      cases h
      exact hinterrupted

end

/-! ### The executor as a driver -/

def outputContainsFatalServiceFailure (ext : SessionExternals) (config : LocalFrameConfig)
    (limits : Option CompilationLimits) : List LocalFrame → Exec ServeStdioError Bool
  | [] => .ok false
  | .observation _ _ _ :: frames => outputContainsFatalServiceFailure ext config limits frames
  | .control _ bytes :: frames =>
    match decodeServerMessage ext bytes config limits with
    | .error _ => Exec.fail .executorFailed
    | .ok message =>
      if message.message = .failure .serviceUnavailable ∨ message.message = .failure .internal then
        .ok true
      else outputContainsFatalServiceFailure ext config limits frames

namespace LocalSessionExecutor

def negotiatedTerms (executor : LocalSessionExecutor) : Option SessionTerms :=
  match executor.state with
  | .awaitingHello => none
  | .active terms | .closed terms => some terms

/-- `SessionDriver for LocalSessionExecutor`. Before a call other threads may have acted on the
executor's service. -/
def driver (ext : LocalExternals) (env : ℕ → CallEnvironment)
    (elsewhere : ℕ → LocalSessionExecutor → LocalSessionExecutor) :
    SessionDriver LocalSessionExecutor where
  handleFrame moment frame := fun executor =>
    let called := (elsewhere moment executor).handleFrame ext (env moment) frame
    (called.1, called.2.mapError fun _ => .executorFailed)
  advance moment := fun executor =>
    let called := (elsewhere moment executor).advance ext (env moment)
    (called.1, called.2.mapError fun _ => .executorFailed)
  status executor := executor.status
  negotiatedFrameConfig executor :=
    match executor.negotiatedTerms with
    | none => .ok none
    | some terms => (Exec.ofExcept terms.limits.toFrameConfig).mapError (fun _ => .executorFailed)
      >>= fun config => .ok (some config)
  outputRequiresExit executor frames config :=
    outputContainsFatalServiceFailure ext.executor.session config
      (executor.negotiatedTerms.bind SessionTerms.compilationLimits) frames

variable {ext : LocalExternals} {commands : Set GatewayCommand} {floats : FloatText}
  {executor : LocalSessionExecutor} {events : List SessionEvent} {books : Books}

theorem InLockstep.status_counts (h : InLockstep ext commands executor books) :
    executor.status.pendingPatches + executor.status.pendingImaginations +
        executor.status.pendingObservations = executor.status.liveCorrelations ∧
      executor.status.liveCorrelations = books.ids.length := by
  have hcommands := h.commands.toList_perm.length_eq
  have hobservations := congrArg List.length h.observations.order_eq
  have hsplit := List.length_eq_length_filter_add (l := executor.commandCorrelations.toList)
    fun entry => entry.2.kind = .patch
  have hids : books.ids.length = books.commands.length + books.observations.length := by
    simp [Books.ids]
  have hbounded := h.bounded
  have hlt := executor.config.maxLiveCorrelations.lt
  simp only [List.length_map] at hobservations
  simp only [SessionCore.status, h.live.size_eq, count, ne_eq, decide_not]
  omega

theorem Run.status_accepted (hwrites : ext.executor.session.WritesServer floats)
    (hdistinct : ext.TellsApart commands) (h : Run ext commands executor events) :
    validateStatus executor.status = .ok () ∧
      (executor.status.phase = .closed → closedResult executor.status = .ok ()) := by
  obtain ⟨books, hlockstep⟩ := h.inLockstep hwrites hdistinct
  obtain ⟨hpending, hlive⟩ := hlockstep.status_counts
  have hbounded := hlockstep.bounded
  have hlt := executor.config.maxLiveCorrelations.lt
  have hnone : books = .empty → executor.status.liveCorrelations = 0 := by
    rintro rfl
    exact hlive
  refine ⟨?_, fun hclosed => ?_⟩
  · rw [validateStatus, if_neg (by omega), if_neg]
    rintro (hmore | ⟨hbusy, hphase⟩)
    · omega
    · cases hstate : executor.state with
      | awaitingHello => exact hbusy (hnone (hlockstep.awaiting hstate))
      | active terms => exact hphase (by simp only [SessionCore.status, hstate])
      | closed terms => exact hbusy (hnone (hlockstep.closed terms hstate).2)
  · cases hstate : executor.state with
    | awaitingHello => simp only [SessionCore.status, hstate, reduceCtorEq] at hclosed
    | active terms => simp only [SessionCore.status, hstate, reduceCtorEq] at hclosed
    | closed terms =>
      have := hnone (hlockstep.closed terms hstate).2
      rw [closedResult, if_pos (by omega)]

section

variable {calls : ℕ → CallEnvironment} {elsewhere : ℕ → LocalSessionExecutor → LocalSessionExecutor}
  (helsewhere : ∀ moment executor events, Run ext commands executor events →
    Run ext commands (elsewhere moment executor) events)

include helsewhere

theorem run_of_driven {start : LocalSessionExecutor} {events : List SessionEvent}
    (hstart : Run ext commands start events)
    (h : Watch.Driven ⟨ext.executor.frame, driver ext calls elsewhere,
      fun frame => ∀ executor, Submits ext commands executor frame, start⟩ executor) :
    ∃ events, Run ext commands executor events := by
  induction h with
  | start => exact ⟨events, hstart⟩
  | @handleFrame _ _ moment frame _ _ hgiven hcall ih =>
    obtain ⟨events, hrun⟩ := ih
    obtain ⟨rfl, hok⟩ := Prod.mk.inj hcall
    exact ⟨_, (helsewhere moment _ events hrun).handleFrame (calls moment) frame (hgiven _)
      (Exec.mapError_eq_ok.mp hok ▸ .ok _)⟩
  | @advance _ _ moment _ _ hcall ih =>
    obtain ⟨events, hrun⟩ := ih
    obtain ⟨rfl, hok⟩ := Prod.mk.inj hcall
    exact ⟨_, (helsewhere moment _ events hrun).advance (calls moment)
      (Exec.mapError_eq_ok.mp hok ▸ .ok _)⟩

/-- **A server accepts its executor.** In no session over a local service, whatever the client, the
streams and the clock do, is the server stopped by its own checks of the executor's counts. -/
theorem serveStreams_accepted (hwrites : ext.executor.session.WritesServer floats)
    (hdistinct : ext.TellsApart commands) {create : Exec ServeStdioError LocalSessionExecutor}
    (hcreate : ∀ executor, create = .ok executor → ∃ events, Run ext commands executor events)
    (env : ServeEnvironment) (reader : Reader IoErrorKind) (fuel : ℕ) :
    let served := serveStreams ext.executor.frame env (driver ext calls elsewhere) create reader fuel
    (∀ frame, .received frame ∈ served.1 → ∀ executor, Submits ext commands executor frame) →
      ∀ frames status, .returned frames status ∈ served.1 → validateStatus status = .ok () ∧
        (status.phase = .closed → closedResult status = .ok ()) := by
  intro served hgiven frames status hmem
  obtain ⟨start, hstart, haccounted⟩ := (serveStreams_spec ext.executor.frame env
    (driver ext calls elsewhere) create reader fuel
    fun frame => ∀ executor, Submits ext commands executor frame).2 frames status hmem
  obtain ⟨events, hrun⟩ := hcreate start hstart
  obtain ⟨executor, hdriven, rfl⟩ := haccounted hgiven frames status hmem
  obtain ⟨events, hrun⟩ := run_of_driven helsewhere hrun hdriven
  exact hrun.status_accepted hwrites hdistinct

end

def requestReader : Reader IoErrorKind :=
  [.chunk ((encodeFrame sampleSession.executor.frame (.control (.lit 9) [0x31, 0x0a])
    .default).toOption.getD [])]

def servedQueued : List ServeEvent × Exec ServeStdioError Unit :=
  serveStreams sampleSession.executor.frame ⟨fun _ => [], fun _ => true, fun _ => 0, 1, 0⟩
    (driver sampleSession (fun _ => sampleEnvironment) fun _ executor => executor)
    (.ok queuedExecutor) requestReader 1

theorem serveStreams_accepted_queued : (returnedFrames servedQueued.1).length = 1 ∧
    ∀ frames status, .returned frames status ∈ servedQueued.1 → validateStatus status = .ok () :=
  ⟨by decide +kernel, fun frames status hmem => (serveStreams_accepted (fun _ _ _ h => h)
    (writesServer_soloSession _ _) (tellsApart_soloSession _ _)
    (fun _ hcreate => Except.ok.inj hcreate ▸ run_queuedExecutor) _ requestReader 1
    (fun _ _ _ _ _ _ _ => trivial) frames status hmem).1⟩

end LocalSessionExecutor

end Cogniform
