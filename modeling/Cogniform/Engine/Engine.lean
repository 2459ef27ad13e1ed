import Cogniform.Renderer.Scene
import Cogniform.Replay.Recorded
import Cogniform.World.Projection

/-!
# The local engine

A patch is applied and recorded first, and its packet is handed to the renderer in the same call, so
the renderer must not be able to refuse it. That it cannot is what this module is about: `Follows`
ties the scene to the world, and the configuration check ties their capacities. The device enters
only through its start-up and the frame identity that a submission uses up.
-/

namespace Cogniform

open AuthoritativeWorld (ApplyClock Projects)

/-! ### Configuration -/

structure RendererConfig where
  width : UInt32
  height : UInt32
  readbackCapacity : NonZeroU32
  maxSceneEntities : NonZeroU32

structure EngineConfig where
  world : WorldConfig
  renderer : RendererConfig
  replay : ReplayConfig
  observationCapacity : NonZeroU32

def RendererConfig.new (width height : UInt32) : RendererConfig :=
  ⟨width, height, .lit 2, .lit 65536⟩

def EngineConfig.new (width height : UInt32) : EngineConfig :=
  ⟨.default, .new width height, .default, .lit 2⟩

inductive RendererError where
  | frameIdOverflow
  | device (reason : String)
  deriving DecidableEq

inductive ObservationError where
  | invalidRequest (error : ValidationError)
  | requestRevisionMismatch (requested current : SceneRevision)
  | capacityExceeded (capacity : ℕ)
  | workerUnavailable
  | workerStartFailed (reason : String)
  | renderer (error : RendererError)
  | sourceRevisionAhead (source latest : SceneRevision)
  | sourceRevisionMismatch (requested rendered : SceneRevision)
  | cameraMismatch (requested rendered : StableEntityId)
  | invalidMetadata (error : ValidationError)
  deriving DecidableEq

inductive EngineError where
  | invalidConfig (reason : String)
  | recoveryFrameBehindReplay (nextFrameId recordedFrameId : FrameId)
  | replayConfig (error : ReplayConfigError)
  | replayRevision (error : ReplayRevisionError)
  | replayRecord (error : RecordedApplyError)
  | replay (error : ReplayError)
  | worldApply (error : WorldApplyError)
  | worldExtraction (error : WorldExtractionError)
  | sceneUpdate (error : SceneUpdateError)
  | renderer (error : RendererError)
  | observation (error : ObservationError)
  | worldInvariant (error : WorldInvariantError)
  deriving DecidableEq

/-- `validate_config`: the bounds of the domains fit each other. -/
def EngineConfig.validate (config : EngineConfig) : Except EngineError Unit :=
  match config.replay.validate with
  | .error error => .error (.replayConfig error)
  | .ok () =>
    let limits := config.world.runtimeLimits
    if config.renderer.maxSceneEntities.get < config.world.maxEntities.get then
      .error (.invalidConfig
        "renderer entity capacity must cover the maximum live world entity count")
    else if config.renderer.readbackCapacity.get < config.observationCapacity.get then
      .error (.invalidConfig
        "observation capacity cannot exceed the fixed readback pool capacity")
    else if limits.maxQueueCapacity.get < config.observationCapacity.get then
      .error (.invalidConfig "observation capacity exceeds the active protocol queue limit")
    else if limits.maxObservationWidth.get < config.renderer.width.toNat
        ∨ limits.maxObservationHeight.get < config.renderer.height.toNat
        ∨ limits.maxObservationPixels.get <
          config.renderer.width.toNat * config.renderer.height.toNat then
      .error (.invalidConfig "renderer target exceeds the active protocol observation limits")
    else .ok ()

theorem EngineConfig.validate_ok {config : EngineConfig} (h : config.validate = .ok ()) :
    config.replay.validate = .ok () ∧
      config.world.maxEntities.get ≤ config.renderer.maxSceneEntities.get := by
  rw [validate] at h
  split at h
  · cases h
  rename_i hreplay
  dsimp only at h
  split at h
  · cases h
  rename_i hentities
  exact ⟨hreplay, Nat.not_lt.mp hentities⟩

structure HeadlessRenderer where
  scene : RenderScene
  nextFrameId : UInt64

structure Startup where
  device : Except RendererError Unit
  worker : Except String Unit

namespace HeadlessRenderer

def newWithNextFrameId (config : RendererConfig) (nextFrameId : FrameId) (startup : Startup) :
    Except RendererError HeadlessRenderer :=
  match startup.device with
  | .error error => .error error
  | .ok () => .ok ⟨.new config.maxSceneEntities, nextFrameId.get⟩

def new (config : RendererConfig) (startup : Startup) : Except RendererError HeadlessRenderer :=
  newWithNextFrameId config (.lit 1) startup

theorem newWithNextFrameId_ok {config : RendererConfig} {nextFrameId : FrameId}
    {startup : Startup} {renderer : HeadlessRenderer}
    (h : newWithNextFrameId config nextFrameId startup = .ok renderer) :
    renderer = ⟨.new config.maxSceneEntities, nextFrameId.get⟩ := by
  rw [newWithNextFrameId] at h
  split at h
  · cases h
  · cases h
    rfl

/-- `next_frame_id()`: the frame identity the next submission will use. -/
def peekFrameId (renderer : HeadlessRenderer) : Exec RendererError FrameId :=
  Exec.okOr .frameIdOverflow (FrameId.new? renderer.nextFrameId)

def submit (renderer : HeadlessRenderer) : Exec RendererError (FrameId × HeadlessRenderer) := do
  let frameId ← renderer.peekFrameId
  .ok (frameId, { renderer with nextFrameId := renderer.nextFrameId + 1 })

end HeadlessRenderer

def startObservations (capacity : NonZeroU32) (limits : RuntimeLimits) (startup : Startup) :
    Except ObservationError Unit :=
  if limits.maxQueueCapacity.get < capacity.get then
    .error (.capacityExceeded limits.maxQueueCapacity.get)
  else
    match startup.worker with
    | .error reason => .error (.workerStartFailed reason)
    | .ok () => .ok ()

/-! ### Engine -/

structure CogniformEngine where
  world : RecordedWorld
  renderer : HeadlessRenderer

structure EngineRecoveryPoint where
  replayBytes : List UInt8
  nextFrameId : FrameId

/-- `Iterator::max` on frame identities. -/
def maxFrame : List FrameId → Option FrameId
  | [] => none
  | frame :: frames =>
    match maxFrame frames with
    | some later => if later.get.toNat < frame.get.toNat then some frame else some later
    | none => some frame

def validateRecoveryFrame (log : ReplayLog) (nextFrameId : FrameId) : Except EngineError Unit :=
  match maxFrame (log.entries.map fun entry => entry.estimatedVisibleFrame) with
  | some recordedFrameId =>
    if nextFrameId.get.toNat < recordedFrameId.get.toNat then
      .error (.recoveryFrameBehindReplay nextFrameId recordedFrameId)
    else .ok ()
  | none => .ok ()

namespace CogniformEngine

def new (config : EngineConfig) (startup : Startup) : Exec EngineError CogniformEngine := do
  Exec.ofExcept config.validate
  let world ← (Exec.ofExcept (RecordedWorld.new config.world config.replay)).mapError .replayConfig
  let renderer ← (Exec.ofExcept (HeadlessRenderer.new config.renderer startup)).mapError .renderer
  (Exec.ofExcept (startObservations config.observationCapacity config.world.runtimeLimits
    startup)).mapError .observation
  .ok ⟨world, renderer⟩

def prepareRestore (ext : Externals) (clocks : ℕ → ApplyClock) (config : EngineConfig)
    (recovery : EngineRecoveryPoint) : Exec EngineError RecordedWorld := do
  Exec.ofExcept config.validate
  let loaded ← (ReplayLog.loadPrefix ext recovery.replayBytes config.replay
    config.world.runtimeLimits : Exec Empty ReplayLoad).mapError Empty.elim
  match loaded.tail with
  | some error => Exec.fail (.replay (.tail error))
  | none => do
    Exec.ofExcept (validateRecoveryFrame loaded.log recovery.nextFrameId)
    (RecordedWorld.restore ext clocks config.world loaded.log).mapError .replay

def consumeReplayed (world : RecordedWorld) (renderer : HeadlessRenderer) :
    Exec EngineError CogniformEngine :=
  if world.world.revision ≠ .initial then do
    let extraction ← world.takeRenderExtraction.2.mapError .worldExtraction
    let updated := renderer.scene.apply extraction
    let _ ← updated.2.mapError .sceneUpdate
    .ok ⟨world.takeRenderExtraction.1, { renderer with scene := updated.1 }⟩
  else .ok ⟨world, renderer⟩

def restorePrepared (config : EngineConfig) (startup : Startup) (nextFrameId : FrameId)
    (world : RecordedWorld) : Exec EngineError CogniformEngine := do
  let renderer ← (Exec.ofExcept (HeadlessRenderer.newWithNextFrameId config.renderer nextFrameId
    startup)).mapError .renderer
  let engine ← consumeReplayed world renderer
  (Exec.ofExcept (startObservations config.observationCapacity config.world.runtimeLimits
    startup)).mapError .observation
  .ok engine

def restore (ext : Externals) (clocks : ℕ → ApplyClock) (config : EngineConfig)
    (startup : Startup) (recovery : EngineRecoveryPoint) : Exec EngineError CogniformEngine := do
  let world ← prepareRestore ext clocks config recovery
  restorePrepared config startup recovery.nextFrameId world

def recoveryPoint (engine : CogniformEngine) : Exec EngineError EngineRecoveryPoint := do
  let replayBytes ← engine.world.log.toBytes
  let nextFrameId ← engine.renderer.peekFrameId.mapError .renderer
  .ok ⟨replayBytes, nextFrameId⟩

/-- `recovery_point_at_revision`: the log up to a revision, with the current next frame identity. -/
def recoveryPointAtRevision (engine : CogniformEngine) (revision : SceneRevision) :
    Exec EngineError EngineRecoveryPoint := do
  let replayBytes ← (engine.world.log.toBytesThroughRevision revision).mapError .replayRevision
  let nextFrameId ← engine.renderer.peekFrameId.mapError .renderer
  .ok ⟨replayBytes, nextFrameId⟩

def recordError : RecordedApplyError → EngineError
  | .world error => .worldApply error
  | error => .replayRecord error

def applyPatch (ext : Externals) (engine : CogniformEngine) (patch : ScenePatch)
    (clock : ApplyClock) : CogniformEngine × Exec EngineError ApplyReceipt :=
  match engine.renderer.peekFrameId.mapError .renderer with
  | .error abort => (engine, .error abort)
  | .ok estimatedVisibleFrame =>
    let applied := engine.world.applyPatch ext patch estimatedVisibleFrame clock
    match applied.2.mapError recordError with
    | .error abort => ({ engine with world := applied.1 }, .error abort)
    | .ok receipt =>
      if receipt.status = .idempotentReplay then ({ engine with world := applied.1 }, .ok receipt)
      else
        let taken := applied.1.takeRenderExtraction
        match taken.2.mapError .worldExtraction with
        | .error abort => ({ engine with world := taken.1 }, .error abort)
        | .ok extraction =>
          let updated := engine.renderer.scene.apply extraction
          (⟨taken.1, { engine.renderer with scene := updated.1 }⟩,
            (updated.2.mapError .sceneUpdate).map fun _ => receipt)

/-- The engines that runs lead to, new or restored. A call counts once it has returned; a submitted
frame uses up its identity. -/
inductive Run (ext : Externals) (config : EngineConfig) : CogniformEngine → Prop where
  | new {startup : Startup} {engine : CogniformEngine}
      (h : CogniformEngine.new config startup = .ok engine) : Run ext config engine
  | restore {clocks : ℕ → ApplyClock} {startup : Startup} {recovery : EngineRecoveryPoint}
      {engine : CogniformEngine}
      (h : CogniformEngine.restore ext clocks config startup recovery = .ok engine) :
      Run ext config engine
  | applyPatch {engine : CogniformEngine} (h : Run ext config engine) (patch : ScenePatch)
      (clock : ApplyClock) (hreturns : (engine.applyPatch ext patch clock).2.Returns) :
      Run ext config (engine.applyPatch ext patch clock).1
  | submit {engine : CogniformEngine} (h : Run ext config engine) {frameId : FrameId}
      {renderer : HeadlessRenderer} (hsubmit : engine.renderer.submit = .ok (frameId, renderer)) :
      Run ext config { engine with renderer := renderer }

end CogniformEngine

open AuthoritativeWorld

structure Follows (config : WorldConfig) (scene : RenderScene) (world : AuthoritativeWorld) :
    Prop where
  reachable : Reachable config world
  valid : scene.Valid
  capacity : config.maxEntities.get ≤ scene.maxEntities.get
  revision : scene.revision = world.lastExtractedRevision
  /-- It has consumed as many packets as the world has produced. -/
  generation : scene.generation = world.renderExtractionGeneration
  agrees : ∀ id ∉ world.pendingRenderChanges, scene.entities[id]? = world.resolved id

namespace Follows

variable {config : WorldConfig} {scene : RenderScene} {world world' : AuthoritativeWorld}

theorem new {maxEntities : NonZeroU32} (h : config.maxEntities.get ≤ maxEntities.get) :
    Follows config (.new maxEntities) (.new config) where
  reachable := .new
  valid := RenderScene.valid_new maxEntities
  capacity := h
  revision := rfl
  generation := rfl
  agrees id _ := by
    rw [resolved, renderEntity, show (AuthoritativeWorld.new config).stableIndex[id]? = none
      from Std.ExtTreeMap.getElem?_empty]
    exact Std.ExtTreeMap.getElem?_empty

theorem applyPatch (h : Follows config scene world) (patch : ScenePatch) (frame : FrameId)
    (clock : ApplyClock) : Follows config scene (world.applyPatch patch frame clock).1 := by
  have hreachable := h.reachable.call (.applyPatch patch frame clock)
  rw [after] at hreachable
  rcases applyPatch_cases h.reachable.consistent patch frame clock with ⟨_, -, heq⟩ | ⟨_, -, heq⟩ |
    ⟨plan, newRevision, count, _, storage, index, -, haccepted, heq⟩
  · rwa [heq]
  · rwa [heq]
  · rw [heq] at hreachable ⊢
    refine ⟨hreachable, h.valid, h.capacity, h.revision, h.generation, fun id hid => ?_⟩
    obtain ⟨hpending, hchanged⟩ :
        id ∉ world.pendingRenderChanges ∧ id ∉ plan.renderChangedIds := by
      have hid' : id ∉ world.pendingRenderChanges ∪ plan.renderChangedIds := hid
      simpa [Std.ExtTreeSet.mem_union_iff] using hid'
    exact (h.agrees id hpending).trans (haccepted.resolved_eq h.reachable.consistent
      h.reachable.cacheDerived hreachable.cacheDerived hchanged).symm

theorem replayEntries {ext : Externals} {clocks : ℕ → ApplyClock} {entries : List ReplayEntry} :
    ∀ {entryIndex : ℕ} {world : AuthoritativeWorld}, Follows config scene world →
      ReplayLog.replayEntries ext clocks entryIndex world entries = .ok world' →
      Follows config scene world' := by
  induction entries with
  | nil =>
    intro entryIndex world h hreplay
    cases hreplay
    exact h
  | cons entry entries ih =>
    intro entryIndex world h hreplay
    rw [ReplayLog.replayEntries] at hreplay
    obtain ⟨middle, hmiddle, hreplay⟩ := Exec.bind_eq_ok.mp hreplay
    have hafter := (ReplayLog.replayEntry_ok h.reachable.consistent hmiddle).2
    refine ih ?_ hreplay
    rw [hafter, after]
    exact h.applyPatch _ _ _

theorem size_le (h : Follows config scene world) {records : RenderMap}
    (hrecords : ∀ id : StableEntityId, records[id]? = world.resolved id) :
    records.size ≤ scene.maxEntities.get := by
  have hworld := h.reachable.consistent
  have hlive : records.size ≤ world.stableIndex.size := by
    refine TreeMap.size_le_of_mem fun id hid => ?_
    obtain ⟨entity, hentity⟩ := TreeMap.mem_iff.mp hid
    rw [hrecords, resolved_eq_some hworld h.reachable.cacheDerived] at hentity
    obtain ⟨components, hcomponents, -⟩ := Option.map_eq_some_iff.mp hentity.components
    exact hworld.toIndexed.mem_sceneEntities.mp (TreeMap.mem_of_get hcomponents)
  have hbound := h.reachable.bounded.entities
  rw [h.reachable.config_eq] at hbound
  exact (hlive.trans hbound).trans h.capacity

theorem drain (h : Follows config scene world)
    (hgeneration : world.renderExtractionGeneration.toNat ≠ 2 ^ 64 - 1) :
    ∃ extraction scene' summary,
      world.takeRenderExtraction = (world.drain extraction, .ok extraction) ∧
      scene.apply extraction = (scene', .ok summary) ∧
      Follows config scene' (world.drain extraction) ∧
      scene'.revision = (world.drain extraction).revision ∧
      ∀ id entity, scene'.entities[id]? = some entity ↔
        Projects (world.drain extraction) id entity := by
  have hworld := h.reachable.consistent
  have hcache := h.reachable.cacheDerived
  obtain ⟨extraction, hnext⟩ :=
    nextExtraction_ok hworld hcache h.reachable.extracted_le hgeneration
  obtain ⟨hnumber, hbase, hscene, -, -⟩ := nextExtraction_spec hworld hcache hnext
  have hrecords := getElem?_consume_extraction hworld hcache hnext h.agrees
  obtain ⟨scene', summary, happly, hvalid, hentities, hrevision, hgeneration', hmax⟩ :=
    RenderScene.apply_eq h.valid (by rw [hnumber, h.generation]) (by rw [hbase, h.revision])
      (h.size_le hrecords)
  have htake : world.takeRenderExtraction = (world.drain extraction, .ok extraction) := by
    rw [takeRenderExtraction, hnext]
  have hreachable := h.reachable.call .takeRenderExtraction
  rw [after, htake] at hreachable
  refine ⟨extraction, scene', summary, htake, happly,
    ⟨hreachable, hvalid, by rw [hmax]; exact h.capacity, by rw [hrevision, hscene]; rfl,
      hgeneration', fun id _ => ?_⟩, by rw [hrevision, hscene]; rfl, fun id entity => ?_⟩
  · rw [hentities, hrecords]
    rfl
  · rw [hentities, hrecords, resolved_eq_some hworld hcache]
    exact ⟨fun h => ⟨h.entityId, h.components, h.transform⟩,
      fun h => ⟨h.entityId, h.components, h.transform⟩⟩

end Follows

theorem AuthoritativeWorld.Reachable.pending_of_initial {config : WorldConfig}
    {world : AuthoritativeWorld} (h : Reachable config world) :
    world.revision = .initial → world.pendingRenderChanges = ∅ :=
  h.invariant (P := fun world => world.revision = .initial → world.pendingRenderChanges = ∅)
    (fun _ => rfl)
    (fun {world _ plan newRevision _ _ _ _} _ _ haccepted _ _ heq => by
      have hnext := SceneRevision.checkedNext_eq_some.mp haccepted.revision
      have hzero : newRevision = .initial := haccepted.next.symm.trans heq
      rw [hzero] at hnext
      cases hnext)
    (fun _ _ _ _ => rfl)

/-! ### Engines stay in step -/

namespace CogniformEngine

variable {ext : Externals} {config : EngineConfig} {engine : CogniformEngine} {patch : ScenePatch}
  {clock : ApplyClock}

structure InStep (ext : Externals) (config : EngineConfig) (engine : CogniformEngine) : Prop where
  recorded : RecordedWorld.Run ext config.world config.replay engine.world
  follows : Follows config.world engine.renderer.scene engine.world.world
  drained : engine.world.world.pendingRenderChanges = ∅
  extracted : engine.world.world.lastExtractedRevision = engine.world.world.revision

theorem InStep.restorePrepared {startup : Startup} {nextFrameId : FrameId}
    {recorded : RecordedWorld} (hrecorded : RecordedWorld.Run ext config.world config.replay recorded)
    (hfollows : Follows config.world (.new config.renderer.maxSceneEntities) recorded.world)
    (h : CogniformEngine.restorePrepared config startup nextFrameId recorded = .ok engine) :
    InStep ext config engine := by
  rw [CogniformEngine.restorePrepared] at h
  obtain ⟨renderer, hrenderer, h⟩ := Exec.bind_eq_ok.mp h
  obtain ⟨restored, hrestored, h⟩ := Exec.bind_eq_ok.mp h
  obtain ⟨_, -, h⟩ := Exec.bind_eq_ok.mp h
  cases h
  rw [Exec.mapError_eq_ok, Exec.ofExcept_eq_ok] at hrenderer
  cases HeadlessRenderer.newWithNextFrameId_ok hrenderer
  rw [consumeReplayed] at hrestored
  split at hrestored
  · have hgeneration : recorded.world.renderExtractionGeneration.toNat ≠ 2 ^ 64 - 1 := by
      rw [← hfollows.generation, show (RenderScene.new _).generation = 0 from rfl]
      decide
    obtain ⟨extraction, scene, summary, htake, hscene, hafter, -, -⟩ := hfollows.drain hgeneration
    have htaken := hrecorded.takeRenderExtraction
    rw [RecordedWorld.takeRenderExtraction, htake] at htaken hrestored
    obtain ⟨_, heq, hrestored⟩ := Exec.bind_eq_ok.mp hrestored
    cases heq
    obtain ⟨_, -, hrestored⟩ := Exec.bind_eq_ok.mp hrestored
    cases hrestored
    rw [hscene]
    exact ⟨htaken, hafter, rfl, rfl⟩
  · rename_i hinitial
    rw [not_not] at hinitial
    cases hrestored
    refine ⟨hrecorded, hfollows, hfollows.reachable.pending_of_initial hinitial, ?_⟩
    rw [← hfollows.revision, hinitial]
    rfl

theorem InStep.new {startup : Startup} (h : CogniformEngine.new config startup = .ok engine) :
    InStep ext config engine := by
  rw [CogniformEngine.new] at h
  obtain ⟨_, hvalid, h⟩ := Exec.bind_eq_ok.mp h
  obtain ⟨world, hworld, h⟩ := Exec.bind_eq_ok.mp h
  obtain ⟨renderer, hrenderer, h⟩ := Exec.bind_eq_ok.mp h
  obtain ⟨_, -, h⟩ := Exec.bind_eq_ok.mp h
  cases h
  rw [Exec.ofExcept_eq_ok] at hvalid
  rw [Exec.mapError_eq_ok, Exec.ofExcept_eq_ok] at hworld hrenderer
  obtain ⟨hreplay, hcapacity⟩ := EngineConfig.validate_ok hvalid
  have hnew : world = ⟨.new config.world, config.world, .new config.replay⟩ := by
    rw [RecordedWorld.new, hreplay] at hworld
    cases hworld
    rfl
  have hrecorded : RecordedWorld.Run ext config.world config.replay world := .new hworld
  subst hnew
  cases HeadlessRenderer.newWithNextFrameId_ok hrenderer
  exact ⟨hrecorded, .new hcapacity, rfl, rfl⟩

theorem InStep.restore {clocks : ℕ → ApplyClock} {startup : Startup}
    {recovery : EngineRecoveryPoint}
    (h : CogniformEngine.restore ext clocks config startup recovery = .ok engine) :
    InStep ext config engine := by
  rw [CogniformEngine.restore, prepareRestore] at h
  obtain ⟨recorded, hprepare, h⟩ := Exec.bind_eq_ok.mp h
  obtain ⟨_, hvalid, hprepare⟩ := Exec.bind_eq_ok.mp hprepare
  rw [Exec.ofExcept_eq_ok] at hvalid
  obtain ⟨⟨log, tail⟩, hload, hprepare⟩ := Exec.bind_eq_ok.mp hprepare
  rw [Exec.mapError_eq_ok] at hload
  cases tail with
  | some error => cases hprepare
  | none =>
    obtain ⟨_, -, hprepare⟩ := Exec.bind_eq_ok.mp hprepare
    rw [Exec.mapError_eq_ok] at hprepare
    have hrecorded := RecordedWorld.Run.restore hload hprepare
    have hfollows : Follows config.world (.new config.renderer.maxSceneEntities) recorded.world := by
      obtain ⟨world, hreplay, hprepare⟩ := Exec.bind_eq_ok.mp hprepare
      cases hprepare
      exact (Follows.new (EngineConfig.validate_ok hvalid).2).replayEntries
        (ReplayLog.replay_ok hreplay).1
    exact InStep.restorePrepared hrecorded hfollows h

/-- **What an applied patch does** to an engine in step: the packet is taken and consumed, and the
engine is in step again. -/
theorem InStep.applied (h : InStep ext config engine) {frame : FrameId} {recorded : RecordedWorld}
    {receipt : ApplyReceipt} (hframe : engine.renderer.peekFrameId = .ok frame)
    (happly : engine.world.applyPatch ext patch frame clock = (recorded, .ok receipt))
    (hstatus : receipt.status = .applied) :
    ∃ extraction world scene summary,
      recorded.takeRenderExtraction = (world, .ok extraction) ∧
      engine.renderer.scene.apply extraction = (scene, .ok summary) ∧
      engine.applyPatch ext patch clock =
        (⟨world, { engine.renderer with scene := scene }⟩, .ok receipt) ∧
      InStep ext config ⟨world, { engine.renderer with scene := scene }⟩ ∧
      ∀ id entity, scene.entities[id]? = some entity ↔ Projects world.world id entity := by
  have hreturns : (engine.world.applyPatch ext patch frame clock).2.Returns := by
    rw [happly]
    exact .ok receipt
  have hrun := h.recorded.applyPatch patch frame clock hreturns
  rcases RecordedWorld.applyPatch_cases h.follows.reachable.consistent hreturns with
    ⟨-, ⟨error, hfail⟩ | ⟨_, hok, hreplay⟩⟩ | ⟨world, _, entry, happended, heq⟩
  · rw [happly] at hfail
    cases hfail
  · rw [happly] at hok
    cases hok
    rw [hstatus] at hreplay
    cases hreplay
  · rw [happly] at heq hrun
    cases heq
    obtain ⟨clock', hworld⟩ := happended.applied
    have hfollows := h.follows.applyPatch patch frame clock'
    rw [hworld] at hfollows
    obtain ⟨plan, newRevision, count, _, storage, index, _, -, haccepted, -, hworld'⟩ :=
      happended.accepted
    have hgeneration : world.renderExtractionGeneration.toNat ≠ 2 ^ 64 - 1 := by
      rw [hworld']
      exact haccepted.generation
    obtain ⟨extraction, scene, summary, htake, hscene, hafter, hrevision, hrecords⟩ :=
      hfollows.drain hgeneration
    have htaken := hrun.takeRenderExtraction
    rw [RecordedWorld.takeRenderExtraction, htake] at htaken
    refine ⟨extraction, _, scene, summary, by rw [RecordedWorld.takeRenderExtraction, htake],
      hscene, ?_, ⟨htaken, hafter, rfl, rfl⟩, hrecords⟩
    rw [applyPatch, hframe]
    simp only [Exec.mapError_ok, happly, hstatus, reduceCtorEq, if_false,
      RecordedWorld.takeRenderExtraction, htake, hscene]
    rfl

theorem applyPatch_of_error {frame : FrameId} {recorded : RecordedWorld}
    {abort : Abort RecordedApplyError} (hframe : engine.renderer.peekFrameId = .ok frame)
    (happly : engine.world.applyPatch ext patch frame clock = (recorded, .error abort)) :
    engine.applyPatch ext patch clock =
      ({ engine with world := recorded }, Exec.mapError recordError (.error abort)) := by
  rw [applyPatch, hframe]
  simp only [Exec.mapError_ok, happly]
  rcases abort with error | message | _ <;> rfl

theorem applyPatch_of_replay {frame : FrameId} {recorded : RecordedWorld} {receipt : ApplyReceipt}
    (hframe : engine.renderer.peekFrameId = .ok frame)
    (happly : engine.world.applyPatch ext patch frame clock = (recorded, .ok receipt))
    (hstatus : receipt.status = .idempotentReplay) :
    engine.applyPatch ext patch clock = ({ engine with world := recorded }, .ok receipt) := by
  rw [applyPatch, hframe]
  simp only [Exec.mapError_ok, happly, hstatus, if_true]

theorem applyPatch_returns {frame : FrameId} (hframe : engine.renderer.peekFrameId = .ok frame)
    (hreturns : (engine.applyPatch ext patch clock).2.Returns) :
    (engine.world.applyPatch ext patch frame clock).2.Returns := by
  rcases happly : engine.world.applyPatch ext patch frame clock with ⟨recorded, receipt | receipt⟩
  · rw [applyPatch_of_error hframe happly] at hreturns
    rcases receipt with error | message | _
    · exact .fail error
    all_goals rcases hreturns with ⟨_, habort⟩ | ⟨_, habort⟩ <;> cases habort
  · exact .ok receipt

theorem InStep.applyPatch_cases (h : InStep ext config engine)
    (hreturns : (engine.applyPatch ext patch clock).2.Returns) :
    (∃ error, engine.applyPatch ext patch clock = (engine, Exec.fail (.renderer error))) ∨
    ∃ frame, engine.renderer.peekFrameId = .ok frame ∧
      ((∃ error, engine.world.applyPatch ext patch frame clock = (engine.world, Exec.fail error) ∧
          engine.applyPatch ext patch clock = (engine, Exec.fail (recordError error))) ∨
        (∃ receipt, engine.world.applyPatch ext patch frame clock = (engine.world, .ok receipt) ∧
          receipt.status = .idempotentReplay ∧
          engine.applyPatch ext patch clock = (engine, .ok receipt)) ∨
        ∃ recorded receipt, engine.world.applyPatch ext patch frame clock = (recorded, .ok receipt) ∧
          receipt.status = .applied) := by
  have hpeek : engine.renderer.peekFrameId.Returns := Exec.Returns.okOr _ _
  rcases hpeek with ⟨frame, hframe⟩ | ⟨error, hframe⟩
  · refine .inr ⟨frame, hframe, ?_⟩
    rcases RecordedWorld.applyPatch_cases h.follows.reachable.consistent
      (applyPatch_returns hframe hreturns) with
      ⟨hsame, ⟨error, hfail⟩ | ⟨receipt, hok, hstatus⟩⟩ | ⟨world, receipt, entry, happended, heq⟩
    · have happly : engine.world.applyPatch ext patch frame clock =
          (engine.world, Exec.fail error) := Prod.ext hsame hfail
      exact .inl ⟨error, happly, applyPatch_of_error hframe happly⟩
    · have happly : engine.world.applyPatch ext patch frame clock = (engine.world, .ok receipt) :=
        Prod.ext hsame hok
      exact .inr (.inl ⟨receipt, happly, hstatus, applyPatch_of_replay hframe happly hstatus⟩)
    · obtain ⟨_, _, _, _, _, _, _, -, -, hreceipt, -⟩ := happended.accepted
      exact .inr (.inr ⟨_, receipt, heq, by rw [hreceipt]; rfl⟩)
  · refine .inl ⟨error, ?_⟩
    rw [applyPatch, hframe]
    rfl

theorem InStep.applyPatch_unchanged (h : InStep ext config engine)
    (hreturns : (engine.applyPatch ext patch clock).2.Returns) :
    (engine.applyPatch ext patch clock).1 = engine ∨
    ∃ frame recorded receipt, engine.renderer.peekFrameId = .ok frame ∧
      engine.world.applyPatch ext patch frame clock = (recorded, .ok receipt) ∧
      receipt.status = .applied := by
  rcases h.applyPatch_cases hreturns with ⟨_, heq⟩ |
    ⟨frame, hframe, ⟨_, -, heq⟩ | ⟨_, -, -, heq⟩ | ⟨recorded, receipt, happly, hstatus⟩⟩
  · exact .inl (by rw [heq])
  · exact .inl (by rw [heq])
  · exact .inl (by rw [heq])
  · exact .inr ⟨frame, recorded, receipt, hframe, happly, hstatus⟩

theorem InStep.applyPatch_fail (h : InStep ext config engine) {error : EngineError}
    (hfail : (engine.applyPatch ext patch clock).2 = Exec.fail error) :
    (engine.applyPatch ext patch clock).1 = engine := by
  have hreturns : (engine.applyPatch ext patch clock).2.Returns := by
    rw [hfail]
    exact .fail error
  rcases h.applyPatch_unchanged hreturns with hsame |
    ⟨frame, recorded, receipt, hframe, happly, hstatus⟩
  · exact hsame
  · obtain ⟨_, _, _, _, -, -, heq, -⟩ := h.applied hframe happly hstatus
    rw [heq] at hfail
    cases hfail

theorem InStep.applyPatch_receipt (h : InStep ext config engine) {receipt : ApplyReceipt}
    (hok : (engine.applyPatch ext patch clock).2 = .ok receipt) :
    receipt.idempotencyKey = patch.idempotencyKey ∧ (receipt.status = .applied ↔
      engine.world.world.idempotencyRecords[patch.idempotencyKey]? = none) := by
  have hworld : ∃ frame, (engine.world.applyPatch ext patch frame clock).2 = .ok receipt := by
    rcases h.applyPatch_cases (by rw [hok]; exact .ok receipt) with ⟨_, heq⟩ |
      ⟨frame, hframe, ⟨_, -, heq⟩ | ⟨_, happly, -, heq⟩ | ⟨_, _, happly, hstatus⟩⟩
    · rw [heq] at hok
      cases hok
    · rw [heq] at hok
      cases hok
    · rw [heq] at hok
      cases hok
      exact ⟨frame, by rw [happly]⟩
    · obtain ⟨_, _, _, _, -, -, heq, -⟩ := h.applied hframe happly hstatus
      rw [heq] at hok
      cases hok
      exact ⟨frame, by rw [happly]⟩
  obtain ⟨frame, hframe⟩ := hworld
  exact AuthoritativeWorld.applyPatch_receipt h.follows.reachable
    (RecordedWorld.applyPatch_world_ok hframe)

theorem InStep.applyPatch_records (h : InStep ext config engine)
    (hreturns : (engine.applyPatch ext patch clock).2.Returns) :
    (engine.applyPatch ext patch clock).1.world.world.idempotencyRecords.size ≤
      engine.world.world.idempotencyRecords.size + 1 := by
  rcases h.applyPatch_unchanged hreturns with hsame |
    ⟨frame, recorded, receipt, hframe, happly, hstatus⟩
  · rw [hsame]
    exact Nat.le_succ _
  · obtain ⟨_, _, _, _, htake, -, heq, -⟩ := h.applied hframe happly hstatus
    have hrecords := RecordedWorld.takeRenderExtraction_records recorded
    have hgrown := RecordedWorld.applyPatch_records h.follows.reachable.consistent ext patch frame
      clock
    rw [htake] at hrecords
    rw [happly] at hgrown
    rw [heq, hrecords]
    exact hgrown

theorem InStep.applyPatch_room (h : InStep ext config engine) (limit : ℕ)
    (hroom : engine.world.world.idempotencyRecords.size < config.world.maxIdempotencyRecords.get) :
    (engine.applyPatch ext patch clock).2 ≠
      Exec.fail (.worldApply (.idempotencyCapacityExceeded limit)) := by
  intro hfail
  have hreturns : (engine.applyPatch ext patch clock).2.Returns := by
    rw [hfail]
    exact .fail _
  rcases h.applyPatch_cases hreturns with ⟨_, heq⟩ |
    ⟨frame, hframe, ⟨error, happly, heq⟩ | ⟨_, -, -, heq⟩ | ⟨recorded, receipt, happly, hstatus⟩⟩
  · rw [heq] at hfail
    cases hfail
  · rw [heq] at hfail
    have hworld := h.follows.reachable.consistent
    have herror : error = .world (.idempotencyCapacityExceeded limit) := by
      cases error with
      | world error =>
        cases hfail
        rfl
      | _ => cases hfail
    subst herror
    have happly := RecordedWorld.applyPatch_world_error (show (engine.world.applyPatch ext patch frame
      clock).2 = Exec.fail (.world (.idempotencyCapacityExceeded limit)) by rw [happly])
    rcases AuthoritativeWorld.applyPatch_cases hworld patch frame clock with ⟨abort, hplan, hworld'⟩ |
      ⟨_, -, hworld'⟩ | ⟨_, _, _, _, _, _, -, -, hworld'⟩
    · rw [hworld'] at happly
      cases happly
      have hfull := admitPatch_capacity hworld hplan
      rw [h.follows.reachable.config_eq] at hfull
      exact Nat.not_lt.mpr hfull hroom
    · rw [hworld'] at happly
      cases happly
    · rw [hworld'] at happly
      cases happly
  · rw [heq] at hfail
    cases hfail
  · obtain ⟨_, _, _, _, -, -, heq, -⟩ := h.applied hframe happly hstatus
    rw [heq] at hfail
    cases hfail

theorem Run.inStep (h : Run ext config engine) : InStep ext config engine := by
  induction h with
  | new h => exact .new h
  | restore h => exact .restore h
  | applyPatch h patch clock hreturns ih =>
    rcases ih.applyPatch_unchanged hreturns with hsame |
      ⟨frame, recorded, receipt, hframe, happly, hstatus⟩
    · rwa [hsame]
    · obtain ⟨_, _, _, _, -, -, heq, hafter, -⟩ := ih.applied hframe happly hstatus
      rwa [heq]
  | submit h hsubmit ih =>
    rw [HeadlessRenderer.submit] at hsubmit
    obtain ⟨_, -, hsubmit⟩ := Exec.bind_eq_ok.mp hsubmit
    cases hsubmit
    exact ⟨ih.recorded, ih.follows, ih.drained, ih.extracted⟩

/-- **Nothing fails after the commit.** Once the world has recorded a patch, the renderer consumes
the packet and the call returns the receipt, with the renderer at the revision, generation and
records of the world. A call that returns an error has changed nothing. -/
theorem applyPatch_no_late_failure (ext : Externals) (config : EngineConfig)
    (engine : CogniformEngine) (hrun : Run ext config engine) (patch : ScenePatch)
    (clock : ApplyClock) :
    (∀ frame recorded receipt, engine.renderer.peekFrameId = .ok frame →
      engine.world.applyPatch ext patch frame clock = (recorded, .ok receipt) →
      receipt.status = .applied →
      ∃ extraction world scene summary,
        recorded.takeRenderExtraction = (world, .ok extraction) ∧
        engine.renderer.scene.apply extraction = (scene, .ok summary) ∧
        engine.applyPatch ext patch clock =
          (⟨world, { engine.renderer with scene := scene }⟩, .ok receipt) ∧
        scene.revision = world.world.revision ∧
        scene.generation = world.world.renderExtractionGeneration ∧
        ∀ id entity, scene.entities[id]? = some entity ↔ Projects world.world id entity) ∧
    ∀ error, (engine.applyPatch ext patch clock).2 = Exec.fail error →
      (engine.applyPatch ext patch clock).1 = engine := by
  have h := hrun.inStep
  refine ⟨fun frame recorded receipt hframe happly hstatus => ?_, fun error hfail => ?_⟩
  · obtain ⟨extraction, world, scene, summary, htake, hscene, heq, hafter, hrecords⟩ :=
      h.applied hframe happly hstatus
    exact ⟨extraction, world, scene, summary, htake, hscene, heq,
      hafter.follows.revision.trans hafter.extracted, hafter.follows.generation, hrecords⟩
  · exact h.applyPatch_fail hfail

open Observation (meshPatch)
open RecordedWorld (soloExternals)

def sampleEngine : CogniformEngine :=
  ⟨⟨.new .default, .default, .new .default⟩,
    ⟨.new (EngineConfig.new 64 64).renderer.maxSceneEntities, 1⟩⟩

theorem run_sampleEngine (ext : Externals) : Run ext (.new 64 64) sampleEngine :=
  .new (show CogniformEngine.new (.new 64 64) ⟨.ok (), .ok ()⟩ = .ok sampleEngine from rfl)

theorem applyPatch_no_late_failure_mesh :
    ∃ world scene receipt,
      sampleEngine.applyPatch (soloExternals meshPatch) meshPatch ⟨0, 0⟩ =
        (⟨world, { sampleEngine.renderer with scene := scene }⟩, .ok receipt) ∧
      scene.revision = world.world.revision ∧
      scene.generation = world.world.renderExtractionGeneration ∧
      ∀ id entity, scene.entities[id]? = some entity ↔ Projects world.world id entity := by
  have hstatus : (sampleEngine.world.applyPatch (soloExternals meshPatch) meshPatch
      ⟨1, by decide⟩ ⟨0, 0⟩).2.toOption.map ApplyReceipt.status = some .applied := by
    decide +kernel
  cases happly : sampleEngine.world.applyPatch (soloExternals meshPatch) meshPatch
      ⟨1, by decide⟩ ⟨0, 0⟩ with
  | mk recorded outcome =>
    rw [happly] at hstatus
    cases outcome with
    | error abort => cases hstatus
    | ok receipt =>
      obtain ⟨_, world, scene, _, -, -, heq, hsynced⟩ :=
        (applyPatch_no_late_failure _ _ sampleEngine (run_sampleEngine _) meshPatch ⟨0, 0⟩).1
          ⟨1, by decide⟩ recorded receipt rfl happly (Option.some.inj hstatus)
      exact ⟨world, scene, receipt, heq, hsynced⟩

end CogniformEngine

end Cogniform
