import Cogniform.Engine.Frames
import Cogniform.Engine.Recovery

/-!
# Going back

A service is restored from a backup, or reverted by restoring it from its own log, cut at an older
revision. Either way its log is the first part of the old one and its world has the logical hash
recorded there; a revert that fails changes nothing. In all services the scene that is rendered is
the projection of the world.
-/

namespace Cogniform

open AuthoritativeWorld (ApplyClock Projects)

namespace CogniformEngine

variable {ext : Externals} {config : EngineConfig} {engine engine' : CogniformEngine}

theorem restore_log {clocks : ℕ → ApplyClock} {startup : Startup} {recovery : EngineRecoveryPoint}
    (h : CogniformEngine.restore ext clocks config startup recovery = .ok engine) :
    (ReplayLog.loadPrefix ext recovery.replayBytes config.replay config.world.runtimeLimits :
      Exec Empty ReplayLoad) = .ok ⟨engine.world.log, none⟩ := by
  rw [CogniformEngine.restore, prepareRestore] at h
  obtain ⟨recorded, hprepare, h⟩ := Exec.bind_eq_ok.mp h
  obtain ⟨_, -, hprepare⟩ := Exec.bind_eq_ok.mp hprepare
  obtain ⟨⟨log, tail⟩, hload, hprepare⟩ := Exec.bind_eq_ok.mp hprepare
  rw [Exec.mapError_eq_ok] at hload
  cases tail with
  | some error => cases hprepare
  | none =>
    obtain ⟨⟨⟩, -, hprepare⟩ := Exec.bind_eq_ok.mp hprepare
    obtain ⟨world, -, hprepare⟩ := Exec.bind_eq_ok.mp (Exec.mapError_eq_ok.mp hprepare)
    cases hprepare
    rw [CogniformEngine.restorePrepared] at h
    obtain ⟨renderer, -, h⟩ := Exec.bind_eq_ok.mp h
    obtain ⟨taken, htaken, h⟩ := Exec.bind_eq_ok.mp h
    obtain ⟨_, -, h⟩ := Exec.bind_eq_ok.mp h
    cases h
    -- taking the packet of the replayed world leaves the log alone
    have hlog : engine.world.log = log := by
      rw [consumeReplayed] at htaken
      split at htaken
      · obtain ⟨_, -, htaken⟩ := Exec.bind_eq_ok.mp htaken
        obtain ⟨_, -, htaken⟩ := Exec.bind_eq_ok.mp htaken
        cases htaken
        rfl
      · cases htaken
        rfl
    rw [hload, hlog]

/-- An engine that goes on from entries of another: they are its log, its world is at their last
revision and has the logical hash recorded there, and the next frame is that of the other. -/
structure Resumes (ext : Externals) (engine : CogniformEngine) (entries : List ReplayEntry)
    (engine' : CogniformEngine) : Prop where
  evidence : engine'.world.log.entries.map ReplayEntry.evidence = entries.map ReplayEntry.evidence
  revision : engine'.world.world.revision.get.toNat = entries.length
  sceneHash : ∀ entry, entries.getLast? = some entry →
    engine'.world.world.logicalHash ext.sha256 = .ok entry.newSceneHash
  nextFrameId : engine'.renderer.nextFrameId = engine.renderer.nextFrameId

theorem InStep.restored (h : InStep ext config engine) {target : Option SceneRevision}
    {config' : EngineConfig} {clocks : ℕ → ApplyClock} {startup : Startup}
    {recovery : EngineRecoveryPoint} (hcapture : engine.capture target = .ok recovery)
    (hrestore : CogniformEngine.restore ext clocks config' startup recovery = .ok engine') :
    Resumes ext engine (engine.capturedEntries target) engine' := by
  obtain ⟨hbytes, hframe⟩ := h.capture hcapture
  have hload := restore_log hrestore
  rw [hbytes] at hload
  have hevidence := evidence_of_loaded (fun entry hentry =>
    h.recorded.recording.lockstep.log.fits entry (mem_of_mem_capturedEntries hentry)) hload
  have hlockstep := (InStep.restore hrestore).recorded.recording.lockstep
  refine ⟨hevidence, ?_, fun entry hentry => ?_, ?_⟩
  · have hlength := congrArg List.length hevidence
    rw [List.length_map, List.length_map] at hlength
    rw [hlockstep.revision, hlockstep.log.chained.revision, hlength]
  · have hlast := congrArg List.getLast? hevidence
    rw [List.getLast?_map, List.getLast?_map, hentry] at hlast
    obtain ⟨loaded, hloaded, heq⟩ := Option.map_eq_some_iff.mp hlast
    rw [← show loaded.newSceneHash = entry.newSceneHash from congrArg EntryEvidence.newSceneHash heq]
    refine hlockstep.sceneHash _ ?_
    rw [ReplayLink.after, hloaded]
    rfl
  · rw [(restore_frames hrestore).1, (HeadlessRenderer.peekFrameId_eq_ok.mp hframe)]

end CogniformEngine

namespace LocalService

open CogniformEngine (Resumes)

variable {ext : ServiceExternals} {commands : Set GatewayCommand} {service : LocalService}

/-- **What is shown is never behind.** In every service the renderer is at the revision and the
generation of the world, and its scene is the projection of the world. -/
theorem scene_current (h : Run ext commands service) :
    service.gateway.engine.renderer.scene.revision = service.revision ∧
      service.gateway.engine.renderer.scene.generation =
        service.gateway.engine.world.world.renderExtractionGeneration ∧
      ∀ id entity, service.gateway.engine.renderer.scene.entities[id]? = some entity ↔
        Projects service.gateway.engine.world.world id entity := by
  have hengine := h.valid.gateway.engine.inStep
  refine ⟨hengine.follows.revision.trans hengine.extracted, hengine.follows.generation,
    fun id entity => ?_⟩
  have hreachable := hengine.follows.reachable
  rw [hengine.follows.agrees id (by simp [hengine.drained]),
    AuthoritativeWorld.resolved_eq_some hreachable.consistent hreachable.cacheDerived]

theorem restore_parts {clocks : ℕ → ApplyClock} {config : LocalServiceConfig} {startup : Startup}
    {recovery : EngineRecoveryPoint}
    (h : LocalService.restore ext clocks config startup recovery = .ok service) :
    CogniformEngine.restore ext.toExternals clocks config.engine startup recovery =
        .ok service.gateway.engine ∧
      service.config = config ∧ service.gateway.queue.entries = [] ∧
      service.gateway.completed = ∅ ∧ service.observations =
        .started config.engine.observationCapacity config.engine.world.runtimeLimits := by
  obtain ⟨⟨⟩, -, h⟩ := Exec.bind_eq_ok.mp h
  obtain ⟨world, hworld, h⟩ := Exec.bind_eq_ok.mp h
  obtain ⟨⟨⟩, -, h⟩ := Exec.bind_eq_ok.mp h
  obtain ⟨engine, hengine, h⟩ := Exec.bind_eq_ok.mp h
  obtain ⟨gateway, hgateway, h⟩ := Exec.bind_eq_ok.mp h
  cases h
  have hnew := Exec.ofExcept_eq_ok.mp (Exec.mapError_eq_ok.mp hgateway)
  rw [LocalGateway.new] at hnew
  split at hnew
  · cases hnew
  cases hnew
  exact ⟨Exec.bind_eq_ok.mpr ⟨world, Exec.mapError_eq_ok.mp hworld, Exec.mapError_eq_ok.mp hengine⟩,
    rfl, rfl, rfl, rfl⟩

/-- **A backup holds what was captured.** It can be written under the configuration of the service
and is read back as it was; and a service restored from it, whatever its configuration, goes on from
there and owes nothing. -/
theorem backup_restores (h : Run ext commands service) {target : Option SceneRevision}
    {recovery : EngineRecoveryPoint}
    (hcapture : service.gateway.engine.capture target = .ok recovery) :
    (∃ encoded, recovery.toEnvelopeBytes ext.sha256 service.config.engine.replay = .ok encoded ∧
      EngineRecoveryPoint.fromEnvelopeBytes ext.sha256 encoded service.config.engine.replay =
        .ok recovery) ∧
    ∀ clocks config startup restored,
      LocalService.restore ext clocks config startup recovery = .ok restored →
      Resumes ext.toExternals service.gateway.engine
          (service.gateway.engine.capturedEntries target) restored.gateway.engine ∧
        restored.gateway.queue.entries = [] ∧ restored.gateway.completed = ∅ := by
  have hengine := h.valid.gateway.engine.inStep
  have hlog := hengine.recorded.recording.lockstep.log
  refine ⟨?_, fun clocks config startup restored hrestore => ?_⟩
  · have hvalid : EngineRecoveryPoint.validateReplayConfig service.config.engine.replay = .ok () := by
      rw [EngineRecoveryPoint.validateReplayConfig, hlog.config_valid]
      rfl
    have hfits : recovery.replayBytes.length ≤ service.config.engine.replay.maxLogBytes.get := by
      rw [(hengine.capture hcapture).1]
      refine le_trans ?_ (hlog.stream ▸ hlog.total)
      cases target with
      | none => exact le_rfl
      | some revision =>
        rw [CogniformEngine.capturedEntries, List.length_append, List.length_append]
        conv_rhs => rw [← List.take_append_drop revision.get.toNat
          service.gateway.engine.world.log.entries, framesBytes_append, List.length_append]
        omega
    exact ⟨_, EngineRecoveryPoint.toEnvelopeBytes_eq_ok.mpr ⟨hvalid, hfits, rfl⟩,
      EngineRecoveryPoint.fromEnvelopeBytes_envelope hvalid hfits⟩
  · obtain ⟨hrestored, -, hqueue, hcompleted, -⟩ := restore_parts hrestore
    exact ⟨hengine.restored hcapture hrestored, hqueue, hcompleted⟩

/-- **A revert is exact.** If it fails the service is as it was. If it succeeds, the revision was an
earlier one, and the service goes on from there, with nothing queued, completed or outstanding. -/
theorem revertToRevision_exact (h : Run ext commands service) (clocks : ℕ → ApplyClock)
    (startup : Startup) (imports uploads : ℕ) (revision : SceneRevision) :
    (∀ abort, (service.revertToRevision ext clocks startup imports uploads revision).2 =
        .error abort →
      (service.revertToRevision ext clocks startup imports uploads revision).1 = service) ∧
    ∀ reverted receipt, service.revertToRevision ext clocks startup imports uploads revision =
        (reverted, .ok receipt) →
      revision.get < service.revision.get ∧ reverted.revision = revision ∧
      Resumes ext.toExternals service.gateway.engine
        (service.gateway.engine.world.log.entries.take revision.get.toNat) reverted.gateway.engine ∧
      reverted.config = service.config ∧ reverted.gateway.queue.entries = [] ∧
      reverted.gateway.completed = ∅ ∧ reverted.observations.outstanding = 0 ∧
      receipt.removedReplayEntries + reverted.gateway.engine.world.log.entries.length =
        service.gateway.engine.world.log.entries.length := by
  have hengine := h.valid.gateway.engine.inStep
  have hlockstep := hengine.recorded.recording.lockstep
  have hcurrent : service.revision.get.toNat = service.gateway.engine.world.log.entries.length := by
    rw [LocalService.revision, hlockstep.revision, hlockstep.log.chained.revision]
  simp only [revertToRevision]
  split
  · exact ⟨fun _ _ => rfl, fun _ _ hok => (by cases hok)⟩
  rename_i hother
  split
  · exact ⟨fun _ _ => rfl, fun _ _ hok => (by cases hok)⟩
  rename_i recovery hrecovery
  split
  · exact ⟨fun _ _ => rfl, fun _ _ hok => (by cases hok)⟩
  split
  · exact ⟨fun _ _ => rfl, fun _ _ hok => (by cases hok)⟩
  rename_i replacement hrestore
  refine ⟨fun _ hstop => (by cases hstop), ?_⟩
  rintro _ _ ⟨⟩
  rw [Exec.mapError_eq_ok] at hrecovery
  obtain ⟨hrestored, hconfig, hqueue, hcompleted, hobservations⟩ := restore_parts hrestore
  have hcapture : service.gateway.engine.capture (some revision) = .ok recovery := hrecovery
  have hresumes := hengine.restored hcapture hrestored
  have hle : revision.get.toNat ≤ service.gateway.engine.world.log.entries.length := by
    obtain ⟨_, hbytes, -⟩ := Exec.bind_eq_ok.mp hrecovery
    exact (hlockstep.log.toBytesThroughRevision_eq_ok.mp (Exec.mapError_eq_ok.mp hbytes)).1
  have hrevision := hresumes.revision
  have hlength := congrArg List.length hresumes.evidence
  simp only [CogniformEngine.capturedEntries, List.length_map, List.length_take] at hrevision hlength
  have hreached : replacement.revision = revision := by
    refine congrArg SceneRevision.mk (UInt64.toNat.inj ?_)
    exact hrevision.trans (Nat.min_eq_left hle)
  refine ⟨?_, hreached, hresumes, hconfig, hqueue, hcompleted, ?_, ?_⟩
  · rw [UInt64.lt_iff_toNat_lt]
    have hne : revision.get.toNat ≠ service.revision.get.toNat := by
      intro heq
      exact hother (congrArg SceneRevision.mk (UInt64.toNat.inj heq))
    omega
  · rw [hobservations]
    rfl
  · dsimp only
    omega

open Observation (meshPatch)

def meshExternals : ServiceExternals where
  toExternals := RecordedWorld.soloExternals meshPatch
  imaginationJson := ⟨fun _ => none, fun _ => .error ⟨.data, 1, 1⟩⟩
  compilationJson := ⟨fun _ => ([], false), fun _ => .error ⟨.data, 1, 1⟩⟩

def newService : LocalService :=
  (LocalService.new meshExternals (.new 64 64) ⟨.ok (), .ok ()⟩).toOption.get (by decide +kernel)

def meshService : LocalService :=
  ((newService.submit meshExternals (.patch meshPatch) 0).1.processNext meshExternals ⟨0, 0⟩).1

theorem run_meshService : Run meshExternals Set.univ meshService :=
  .processNext (.submit (.new (Exec.eq_ok_of_get _)) (Set.mem_univ _) 0) ⟨0, 0⟩
    (Exec.Returns.of_isSome (by decide +kernel))

theorem scene_current_mesh : meshService.revision = ⟨1⟩ ∧
    meshService.gateway.engine.renderer.scene.revision = meshService.revision :=
  ⟨by decide +kernel, (scene_current run_meshService).1⟩

theorem backup_restores_mesh : ∃ recovery encoded,
    meshService.gateway.engine.capture none = .ok recovery ∧
      recovery.toEnvelopeBytes meshExternals.sha256 meshService.config.engine.replay = .ok encoded ∧
      EngineRecoveryPoint.fromEnvelopeBytes meshExternals.sha256 encoded
        meshService.config.engine.replay = .ok recovery := by
  obtain ⟨recovery, hcapture, -⟩ := Exec.exists_ok_of_any
    (x := meshService.gateway.engine.capture none) (p := fun _ => true) (by decide +kernel)
  obtain ⟨encoded, hencoded, hdecoded⟩ := (backup_restores run_meshService hcapture).1
  exact ⟨recovery, encoded, hcapture, hencoded, hdecoded⟩

theorem revertToRevision_exact_mesh : ∃ reverted receipt,
    meshService.revertToRevision meshExternals (fun _ => ⟨0, 0⟩) ⟨.ok (), .ok ()⟩ 0 0 .initial =
      (reverted, .ok receipt) ∧ reverted.revision = .initial ∧ reverted.gateway.completed = ∅ := by
  obtain ⟨receipt, hreceipt, -⟩ := Exec.exists_ok_of_any
    (x := (meshService.revertToRevision meshExternals (fun _ => ⟨0, 0⟩) ⟨.ok (), .ok ()⟩ 0 0
      .initial).2) (p := fun _ => true) (by decide +kernel)
  cases heq : meshService.revertToRevision meshExternals (fun _ => ⟨0, 0⟩) ⟨.ok (), .ok ()⟩ 0 0
      .initial with
  | mk reverted outcome =>
    rw [heq] at hreceipt
    obtain rfl : outcome = .ok receipt := hreceipt
    obtain ⟨-, hreached, -, -, -, hcompleted, -⟩ := (revertToRevision_exact run_meshService
      (fun _ => ⟨0, 0⟩) ⟨.ok (), .ok ()⟩ 0 0 .initial).2 reverted receipt heq
    exact ⟨reverted, receipt, rfl, hreached, hcompleted⟩

end LocalService

end Cogniform
