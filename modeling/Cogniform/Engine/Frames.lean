import Cogniform.Engine.Service
import Cogniform.Replay.Capture

/-!
# Frame identities across recovery

A recovery point carries a log and the next frame identity. The log records for each patch an
estimate of the frame that would show it; an older prefix of it is captured with the current frame
identity. A `Lineage` follows one engine through its captures: the identities issued by the source
before a capture, then those issued by the engine restored from it.
-/

namespace Cogniform

open AuthoritativeWorld (ApplyClock)

theorem maxFrame_eq_none {frames : List FrameId} : maxFrame frames = none ↔ frames = [] := by
  cases frames with
  | nil => simp [maxFrame]
  | cons frame frames =>
    simp only [maxFrame, reduceCtorEq, iff_false]
    split
    · split <;> simp
    · simp

theorem maxFrame_le {frames : List FrameId} {latest : FrameId}
    (h : maxFrame frames = some latest) :
    latest ∈ frames ∧ ∀ frame ∈ frames, frame.get.toNat ≤ latest.get.toNat := by
  induction frames generalizing latest with
  | nil => cases h
  | cons first frames ih =>
    rw [maxFrame] at h
    split at h
    · rename_i later hlater
      obtain ⟨hmem, hle⟩ := ih hlater
      split at h
      · rename_i hlt
        cases h
        refine ⟨List.mem_cons_self .., fun frame hframe => ?_⟩
        rcases List.mem_cons.mp hframe with rfl | hframe
        · exact le_rfl
        · exact (hle frame hframe).trans hlt.le
      · rename_i hlt
        cases h
        refine ⟨List.mem_cons_of_mem _ hmem, fun frame hframe => ?_⟩
        rcases List.mem_cons.mp hframe with rfl | hframe
        · exact Nat.not_lt.mp hlt
        · exact hle frame hframe
    · rename_i hnone
      cases h
      rw [maxFrame_eq_none.mp hnone]
      simp

theorem validateRecoveryFrame_eq_ok {log : ReplayLog} {nextFrameId : FrameId} :
    validateRecoveryFrame log nextFrameId = .ok () ↔
      ∀ entry ∈ log.entries, entry.estimatedVisibleFrame.get.toNat ≤ nextFrameId.get.toNat := by
  rw [validateRecoveryFrame]
  split
  · rename_i latest hlatest
    obtain ⟨hmem, hle⟩ := maxFrame_le hlatest
    obtain ⟨entry, hentry, hframe⟩ := List.mem_map.mp hmem
    split
    · rename_i hlt
      refine iff_of_false (by simp) fun hall => ?_
      have := hall entry hentry
      rw [hframe] at this
      omega
    · rename_i hlt
      exact iff_of_true rfl fun entry hentry =>
        (hle _ (List.mem_map_of_mem hentry)).trans (Nat.not_lt.mp hlt)
  · rename_i hnone
    rw [List.map_eq_nil_iff.mp (maxFrame_eq_none.mp hnone)]
    exact iff_of_true rfl (by simp)

namespace HeadlessRenderer

theorem peekFrameId_eq_ok {renderer : HeadlessRenderer} {frameId : FrameId} :
    renderer.peekFrameId = .ok frameId ↔ frameId.get = renderer.nextFrameId := by
  rw [peekFrameId, Exec.okOr_eq_ok, FrameId.new?_eq_some]

theorem submitScene_eq_ok {renderer renderer' : HeadlessRenderer}
    {device : Except RendererError Unit} {frameId : FrameId}
    (h : renderer.submitScene device = .ok (frameId, renderer')) :
    frameId.get = renderer.nextFrameId ∧
      renderer' = { renderer with nextFrameId := renderer.nextFrameId + 1 } := by
  obtain ⟨⟨⟩, -, h⟩ := Exec.bind_eq_ok.mp h
  obtain ⟨frame, hframe, h⟩ := Exec.bind_eq_ok.mp h
  cases h
  exact ⟨peekFrameId_eq_ok.mp hframe, rfl⟩

end HeadlessRenderer

theorem LocalService.requestObservation_engine (service : LocalService)
    (request : ObservationRequest) (device : Except RendererError Unit) :
    (service.requestObservation request device).1.gateway = service.gateway ∨
    ∃ frameId renderer,
      service.gateway.engine.renderer.submitScene device = .ok (frameId, renderer) ∧
      (service.requestObservation request device).1.gateway =
        { service.gateway with engine := { service.gateway.engine with renderer := renderer } } := by
  simp only [LocalService.requestObservation]
  split
  · exact .inl rfl
  split
  · exact .inl rfl
  split
  · exact .inl rfl
  split
  · exact .inl rfl
  · exact .inl rfl
  · exact .inl rfl
  · rename_i frameId renderer hsubmit
    exact .inr ⟨frameId, renderer, hsubmit, rfl⟩

/-! ### Captures and restores -/

namespace CogniformEngine

variable {ext : Externals} {config : EngineConfig} {engine : CogniformEngine}

def capture (engine : CogniformEngine) : Option SceneRevision → Exec EngineError EngineRecoveryPoint
  | none => engine.recoveryPoint
  | some revision => engine.recoveryPointAtRevision revision

def capturedEntries (engine : CogniformEngine) : Option SceneRevision → List ReplayEntry
  | none => engine.world.log.entries
  | some revision => engine.world.log.entries.take revision.get.toNat

theorem mem_of_mem_capturedEntries {target : Option SceneRevision} {entry : ReplayEntry}
    (h : entry ∈ engine.capturedEntries target) : entry ∈ engine.world.log.entries := by
  cases target with
  | none => exact h
  | some revision => exact List.mem_of_mem_take h

theorem InStep.capture (h : InStep ext config engine) {target : Option SceneRevision}
    {recovery : EngineRecoveryPoint} (hcapture : engine.capture target = .ok recovery) :
    recovery.replayBytes = replayHeader ++ framesBytes (engine.capturedEntries target) ∧
      engine.renderer.peekFrameId = .ok recovery.nextFrameId := by
  have hlog := h.recorded.recording.lockstep.log
  cases target with
  | none =>
    rw [CogniformEngine.capture, recoveryPoint, hlog.toBytes_eq, Exec.ok_bind] at hcapture
    obtain ⟨frameId, hframe, hcapture⟩ := Exec.bind_eq_ok.mp hcapture
    cases hcapture
    exact ⟨rfl, Exec.mapError_eq_ok.mp hframe⟩
  | some revision =>
    rw [CogniformEngine.capture, recoveryPointAtRevision] at hcapture
    obtain ⟨bytes, hbytes, hcapture⟩ := Exec.bind_eq_ok.mp hcapture
    obtain ⟨frameId, hframe, hcapture⟩ := Exec.bind_eq_ok.mp hcapture
    cases hcapture
    exact ⟨(hlog.toBytesThroughRevision_eq_ok.mp (Exec.mapError_eq_ok.mp hbytes)).2,
      Exec.mapError_eq_ok.mp hframe⟩

theorem restore_frames {clocks : ℕ → ApplyClock} {startup : Startup}
    {recovery : EngineRecoveryPoint}
    (h : CogniformEngine.restore ext clocks config startup recovery = .ok engine) :
    engine.renderer.nextFrameId = recovery.nextFrameId.get ∧
      validateRecoveryFrame engine.world.log recovery.nextFrameId = .ok () := by
  rw [CogniformEngine.restore, prepareRestore] at h
  obtain ⟨recorded, hprepare, h⟩ := Exec.bind_eq_ok.mp h
  obtain ⟨_, -, hprepare⟩ := Exec.bind_eq_ok.mp hprepare
  obtain ⟨⟨log, tail⟩, -, hprepare⟩ := Exec.bind_eq_ok.mp hprepare
  cases tail with
  | some error => cases hprepare
  | none =>
    obtain ⟨⟨⟩, hframe, hprepare⟩ := Exec.bind_eq_ok.mp hprepare
    obtain ⟨world, -, hprepare⟩ := Exec.bind_eq_ok.mp (Exec.mapError_eq_ok.mp hprepare)
    cases hprepare
    rw [CogniformEngine.restorePrepared] at h
    obtain ⟨renderer, hrenderer, h⟩ := Exec.bind_eq_ok.mp h
    obtain ⟨restored, hrestored, h⟩ := Exec.bind_eq_ok.mp h
    obtain ⟨_, -, h⟩ := Exec.bind_eq_ok.mp h
    cases h
    rw [Exec.mapError_eq_ok, Exec.ofExcept_eq_ok] at hrenderer
    cases HeadlessRenderer.newWithNextFrameId_ok hrenderer
    -- the packet of the replayed world touches neither the log nor the counter
    rw [consumeReplayed] at hrestored
    split at hrestored
    · obtain ⟨_, -, hrestored⟩ := Exec.bind_eq_ok.mp hrestored
      obtain ⟨_, -, hrestored⟩ := Exec.bind_eq_ok.mp hrestored
      cases hrestored
      exact ⟨rfl, Exec.ofExcept_eq_ok.mp hframe⟩
    · cases hrestored
      exact ⟨rfl, Exec.ofExcept_eq_ok.mp hframe⟩

def NotBehind (error : EngineError) : Prop :=
  ∀ nextFrameId recordedFrameId, error ≠ .recoveryFrameBehindReplay nextFrameId recordedFrameId

theorem mapError_notBehind {ε α : Type} {f : ε → EngineError} (hf : ∀ e, NotBehind (f e))
    (x : Exec ε α) : Exec.FailsWith NotBehind (x.mapError f) :=
  Exec.FailsWith.mapError (P := fun _ => True) (fun _ _ => trivial) fun e _ => hf e

theorem validate_notBehind (config : EngineConfig) :
    Exec.FailsWith NotBehind (Exec.ofExcept config.validate) := by
  intro error herror
  rw [EngineConfig.validate] at herror
  split at herror
  · cases herror
    simp [NotBehind]
  dsimp only at herror
  split_ifs at herror <;> cases herror <;> simp [NotBehind]

theorem restorePrepared_notBehind (config : EngineConfig) (startup : Startup)
    (nextFrameId : FrameId) (world : RecordedWorld) :
    Exec.FailsWith NotBehind (restorePrepared config startup nextFrameId world) := by
  refine .bind (mapError_notBehind (f := .renderer) (by simp [NotBehind]) _) fun renderer _ =>
    .bind ?_ fun _ _ =>
      .bind (mapError_notBehind (f := .observation) (by simp [NotBehind]) _) fun _ _ => .ok _
  rw [consumeReplayed]
  split
  · exact .bind (mapError_notBehind (f := .worldExtraction) (by simp [NotBehind]) _) fun _ _ =>
      .bind (mapError_notBehind (f := .sceneUpdate) (by simp [NotBehind]) _) fun _ _ => .ok _
  · exact .ok _

theorem restore_notBehind (clocks : ℕ → ApplyClock) (startup : Startup)
    {recovery : EngineRecoveryPoint}
    (h : ∀ log, (ReplayLog.loadPrefix ext recovery.replayBytes config.replay
        config.world.runtimeLimits : Exec Empty ReplayLoad) = .ok ⟨log, none⟩ →
      validateRecoveryFrame log recovery.nextFrameId = .ok ()) :
    Exec.FailsWith NotBehind
      (CogniformEngine.restore ext clocks config startup recovery) := by
  refine .bind (.bind (validate_notBehind config) fun _ _ =>
    .bind (mapError_notBehind (by simp [NotBehind]) _) fun loaded hloaded => ?_) fun world _ =>
      restorePrepared_notBehind config startup recovery.nextFrameId world
  obtain ⟨log, tail⟩ := loaded
  cases tail with
  | some error => exact .fail (by simp [NotBehind])
  | none =>
    dsimp only
    rw [h log (Exec.mapError_eq_ok.mp hloaded)]
    exact .bind (.ok ()) fun _ _ =>
      mapError_notBehind (f := .replay) (by simp [NotBehind]) _

/-- **The frame identity of a recovery point passes the check** on its own log, and whoever restores
the point finds that it does, if no estimate in the log was ahead of the renderer. -/
theorem InStep.capture_notBehind (h : InStep ext config engine)
    (hahead : ∀ nextFrameId, engine.renderer.peekFrameId = .ok nextFrameId →
      validateRecoveryFrame engine.world.log nextFrameId = .ok ())
    {target : Option SceneRevision} {recovery : EngineRecoveryPoint}
    (hcapture : engine.capture target = .ok recovery) :
    validateRecoveryFrame { engine.world.log with entries := engine.capturedEntries target }
        recovery.nextFrameId = .ok () ∧
      ∀ (clocks : ℕ → ApplyClock) (config : EngineConfig) (startup : Startup),
        Exec.FailsWith NotBehind
          (CogniformEngine.restore ext clocks config startup recovery) := by
  obtain ⟨hbytes, hframe⟩ := h.capture hcapture
  have hrecorded := validateRecoveryFrame_eq_ok.mp (hahead _ hframe)
  have hfits := h.recorded.recording.lockstep.log.fits
  refine ⟨validateRecoveryFrame_eq_ok.mpr fun entry hentry =>
    hrecorded entry (mem_of_mem_capturedEntries hentry), fun clocks config startup =>
    restore_notBehind clocks startup fun log hload => ?_⟩
  rw [hbytes] at hload
  have hevidence := evidence_of_loaded
    (fun entry hentry => hfits entry (mem_of_mem_capturedEntries hentry)) hload
  refine validateRecoveryFrame_eq_ok.mpr fun entry hentry => ?_
  have hmem := List.mem_map_of_mem (f := ReplayEntry.evidence) hentry
  rw [hevidence] at hmem
  obtain ⟨other, hother, heq⟩ := List.mem_map.mp hmem
  rw [← show other.estimatedVisibleFrame = entry.estimatedVisibleFrame from
    congrArg EntryEvidence.estimatedVisibleFrame heq]
  exact hrecorded other (mem_of_mem_capturedEntries hother)

theorem InStep.applyPatch_frames (h : InStep ext config engine) {patch : ScenePatch}
    {clock : ApplyClock} (hreturns : (engine.applyPatch ext patch clock).2.Returns) :
    (engine.applyPatch ext patch clock).1.renderer.nextFrameId = engine.renderer.nextFrameId ∧
      ∀ entry ∈ (engine.applyPatch ext patch clock).1.world.log.entries,
        entry ∈ engine.world.log.entries ∨
          entry.estimatedVisibleFrame.get = engine.renderer.nextFrameId := by
  rcases h.applyPatch_unchanged hreturns with hsame |
    ⟨frame, recorded, receipt, hframe, happly, hstatus⟩
  · rw [hsame]
    exact ⟨rfl, fun entry hentry => .inl hentry⟩
  obtain ⟨extraction, world, scene, summary, htake, -, heq, -⟩ := h.applied hframe happly hstatus
  have hlog : world.log = recorded.log := by
    have := congrArg (fun taken => taken.1.log) htake
    exact this.symm
  rw [heq]
  refine ⟨rfl, fun entry hentry => ?_⟩
  have hentry' : entry ∈ recorded.log.entries := hlog ▸ hentry
  rcases RecordedWorld.applyPatch_cases h.follows.reachable.consistent
    (by rw [happly]; exact .ok receipt) with ⟨hsame, -⟩ | ⟨_, _, appended, happended, hrecorded⟩
  · rw [happly] at hsame
    cases hsame
    exact .inl hentry'
  · rw [happly] at hrecorded
    cases hrecorded
    rcases List.mem_append.mp hentry' with hold | hnew
    · exact .inl hold
    · right
      obtain ⟨-, -, hvisible, -⟩ := happended.entry_fields
      rw [List.mem_singleton.mp hnew, hvisible]
      exact HeadlessRenderer.peekFrameId_eq_ok.mp hframe

end CogniformEngine

/-! ### Lineages -/

structure Lineage where
  config : EngineConfig
  engine : CogniformEngine
  issued : List FrameId

namespace Lineage

inductive Starts (ext : Externals) : Lineage → Prop where
  | new {config : EngineConfig} {startup : Startup} {engine : CogniformEngine}
      (h : CogniformEngine.new config startup = .ok engine) : Starts ext ⟨config, engine, []⟩
  | restore {clocks : ℕ → ApplyClock} {config : EngineConfig} {startup : Startup}
      {recovery : EngineRecoveryPoint} {engine : CogniformEngine}
      (h : CogniformEngine.restore ext clocks config startup recovery = .ok engine) :
      Starts ext ⟨config, engine, []⟩

/-- What can happen next. A request for an observation counts once it has submitted a frame
(`LocalService.requestObservation_engine`). A restored engine may have other bounds. -/
inductive Step (ext : Externals) (lineage : Lineage) : Lineage → Prop where
  | applyPatch (patch : ScenePatch) (clock : ApplyClock)
      (hreturns : (lineage.engine.applyPatch ext patch clock).2.Returns) :
      Step ext lineage { lineage with engine := (lineage.engine.applyPatch ext patch clock).1 }
  | requestObservation {device : Except RendererError Unit} {frameId : FrameId}
      {renderer : HeadlessRenderer}
      (hsubmit : lineage.engine.renderer.submitScene device = .ok (frameId, renderer)) :
      Step ext lineage { lineage with
        engine := { lineage.engine with renderer := renderer }
        issued := lineage.issued ++ [frameId] }
  | restore {target : Option SceneRevision} {recovery : EngineRecoveryPoint}
      (hcapture : lineage.engine.capture target = .ok recovery) {clocks : ℕ → ApplyClock}
      {config : EngineConfig} {startup : Startup} {engine : CogniformEngine}
      (hrestore : CogniformEngine.restore ext clocks config startup recovery = .ok engine) :
      Step ext lineage { lineage with config := config, engine := engine }

/-- The next frame identity, as long as there is one, is ahead of everything that was issued and of
every estimate in the log. -/
structure Frontier (ext : Externals) (lineage : Lineage) : Prop where
  run : CogniformEngine.Run ext lineage.config lineage.engine
  sorted : lineage.issued.Pairwise fun earlier later => earlier.get.toNat < later.get.toNat
  issued : ∀ nextFrameId, lineage.engine.renderer.peekFrameId = .ok nextFrameId →
    ∀ frameId ∈ lineage.issued, frameId.get.toNat < nextFrameId.get.toNat
  recorded : ∀ nextFrameId, lineage.engine.renderer.peekFrameId = .ok nextFrameId →
    validateRecoveryFrame lineage.engine.world.log nextFrameId = .ok ()

variable {ext : Externals} {lineage lineage' : Lineage}

theorem Starts.frontier (h : Starts ext lineage) : lineage.Frontier ext := by
  cases h with
  | new h =>
    have hrun : CogniformEngine.Run ext _ _ := .new h
    refine ⟨hrun, .nil, by simp, fun nextFrameId _ => validateRecoveryFrame_eq_ok.mpr ?_⟩
    rw [CogniformEngine.new] at h
    obtain ⟨_, hvalid, h⟩ := Exec.bind_eq_ok.mp h
    obtain ⟨world, hworld, h⟩ := Exec.bind_eq_ok.mp h
    obtain ⟨renderer, -, h⟩ := Exec.bind_eq_ok.mp h
    obtain ⟨_, -, h⟩ := Exec.bind_eq_ok.mp h
    cases h
    rw [Exec.mapError_eq_ok, Exec.ofExcept_eq_ok, RecordedWorld.new] at hworld
    split at hworld
    · cases hworld
    · cases hworld
      simp [ReplayLog.new]
  | restore h =>
    obtain ⟨hnext, hvalid⟩ := CogniformEngine.restore_frames h
    refine ⟨.restore h, .nil, by simp, fun nextFrameId hframe => ?_⟩
    rw [validateRecoveryFrame_eq_ok] at hvalid ⊢
    rwa [HeadlessRenderer.peekFrameId_eq_ok.mp hframe, hnext]

theorem Step.frontier (hstep : Step ext lineage lineage') (h : lineage.Frontier ext) :
    lineage'.Frontier ext := by
  cases hstep with
  | applyPatch patch clock hreturns =>
    obtain ⟨hcounter, hentries⟩ := h.run.inStep.applyPatch_frames hreturns
    have hpeek : ∀ nextFrameId,
        (lineage.engine.applyPatch ext patch clock).1.renderer.peekFrameId = .ok nextFrameId →
        lineage.engine.renderer.peekFrameId = .ok nextFrameId := by
      intro nextFrameId hframe
      rw [HeadlessRenderer.peekFrameId_eq_ok] at hframe ⊢
      rw [hframe, hcounter]
    refine ⟨h.run.applyPatch patch clock hreturns, h.sorted,
      fun nextFrameId hframe => h.issued nextFrameId (hpeek nextFrameId hframe),
      fun nextFrameId hframe => validateRecoveryFrame_eq_ok.mpr fun entry hentry => ?_⟩
    have hnext := hpeek nextFrameId hframe
    rcases hentries entry hentry with hold | hnew
    · exact validateRecoveryFrame_eq_ok.mp (h.recorded nextFrameId hnext) entry hold
    · rw [hnew, HeadlessRenderer.peekFrameId_eq_ok.mp hnext]
  | @requestObservation device frameId renderer hsubmit =>
    obtain ⟨hframe, rfl⟩ := HeadlessRenderer.submitScene_eq_ok hsubmit
    obtain ⟨⟨⟩, -, hrun⟩ := Exec.bind_eq_ok.mp hsubmit
    have hpeek := HeadlessRenderer.peekFrameId_eq_ok.mpr hframe
    -- the counter has no successor only if nothing can be issued any more
    have hsucc : ∀ nextFrameId : FrameId, nextFrameId.get = lineage.engine.renderer.nextFrameId + 1 →
        frameId.get.toNat < nextFrameId.get.toNat := by
      intro nextFrameId hnext
      have hne := nextFrameId.ne_zero
      have hlt := lineage.engine.renderer.nextFrameId.toNat_lt
      rw [hnext, ne_eq, ← UInt64.toNat_inj, UInt64.toNat_add] at hne
      rw [hnext, hframe, UInt64.toNat_add]
      simp only [UInt64.toNat_one, UInt64.toNat_zero] at hne ⊢
      omega
    refine ⟨h.run.submit hrun, ?_, fun nextFrameId hnext issued hissued => ?_,
      fun nextFrameId hnext => validateRecoveryFrame_eq_ok.mpr fun entry hentry => ?_⟩
    · rw [List.pairwise_append]
      exact ⟨h.sorted, List.pairwise_singleton .., fun issued hissued later hlater =>
        List.mem_singleton.mp hlater ▸ h.issued frameId hpeek issued hissued⟩
    · have hlt := hsucc nextFrameId (HeadlessRenderer.peekFrameId_eq_ok.mp hnext)
      rcases List.mem_append.mp hissued with hold | hnew
      · exact (h.issued frameId hpeek issued hold).trans hlt
      · rwa [List.mem_singleton.mp hnew]
    · have hlt := hsucc nextFrameId (HeadlessRenderer.peekFrameId_eq_ok.mp hnext)
      exact (validateRecoveryFrame_eq_ok.mp (h.recorded frameId hpeek) entry hentry).trans hlt.le
  | @restore target recovery hcapture clocks config startup engine hrestore =>
    obtain ⟨-, hframe⟩ := h.run.inStep.capture hcapture
    obtain ⟨hnext, hvalid⟩ := CogniformEngine.restore_frames hrestore
    have hsame : ∀ nextFrameId, engine.renderer.peekFrameId = .ok nextFrameId →
        nextFrameId.get = recovery.nextFrameId.get := fun nextFrameId hpeek =>
      (HeadlessRenderer.peekFrameId_eq_ok.mp hpeek).trans hnext
    refine ⟨.restore hrestore, h.sorted, fun nextFrameId hpeek issued hissued => ?_,
      fun nextFrameId hpeek => ?_⟩
    · rw [hsame nextFrameId hpeek]
      exact h.issued _ hframe issued hissued
    · rw [validateRecoveryFrame_eq_ok] at hvalid ⊢
      rwa [hsame nextFrameId hpeek]

theorem Step.exhausted (hstep : Step ext lineage lineage')
    (hzero : lineage.engine.renderer.nextFrameId = 0) : lineage' = lineage := by
  have hpeek : lineage.engine.renderer.peekFrameId = Exec.fail .frameIdOverflow := by
    rw [HeadlessRenderer.peekFrameId, hzero]
    rfl
  cases hstep with
  | applyPatch patch clock hreturns =>
    rw [CogniformEngine.applyPatch, hpeek]
    rfl
  | @requestObservation device frameId renderer hsubmit =>
    obtain ⟨hframe, -⟩ := HeadlessRenderer.submitScene_eq_ok hsubmit
    exact absurd (hframe.trans hzero) frameId.ne_zero
  | @restore target recovery hcapture clocks config startup engine hrestore =>
    exfalso
    cases target with
    | none =>
      obtain ⟨_, -, hcapture⟩ := Exec.bind_eq_ok.mp hcapture
      rw [hpeek] at hcapture
      cases hcapture
    | some revision =>
      obtain ⟨_, -, hcapture⟩ := Exec.bind_eq_ok.mp hcapture
      rw [hpeek] at hcapture
      cases hcapture

open Relation (ReflTransGen)

theorem Starts.frontier_of_reaches {start : Lineage} (hstart : Starts ext start)
    (h : ReflTransGen (Step ext) start lineage) : lineage.Frontier ext := by
  induction h with
  | refl => exact hstart.frontier
  | tail _ hstep ih => exact hstep.frontier ih

theorem eq_of_exhausted (hzero : lineage.engine.renderer.nextFrameId = 0)
    (h : ReflTransGen (Step ext) lineage lineage') : lineage' = lineage := by
  induction h with
  | refl => rfl
  | tail _ hstep ih =>
    subst ih
    exact hstep.exhausted hzero

/-- **Frame identities are never reissued.** Along every lineage they strictly increase. Whatever is
captured passes the check of its frame identity against its log, as recorded and as loaded by
whoever restores it. After the last identity nothing is issued or captured. -/
theorem frames_never_reissued (ext : Externals) (start lineage : Lineage)
    (hstart : Starts ext start) (hreach : ReflTransGen (Step ext) start lineage) :
    (lineage.issued.Pairwise fun earlier later => earlier.get.toNat < later.get.toNat) ∧
    (∀ target recovery, lineage.engine.capture target = .ok recovery →
      (∀ entry ∈ lineage.engine.capturedEntries target,
        entry.estimatedVisibleFrame.get.toNat ≤ recovery.nextFrameId.get.toNat) ∧
      validateRecoveryFrame
        { lineage.engine.world.log with entries := lineage.engine.capturedEntries target }
        recovery.nextFrameId = .ok () ∧
      ∀ clocks config startup nextFrameId recordedFrameId,
        CogniformEngine.restore ext clocks config startup recovery ≠
          Exec.fail (.recoveryFrameBehindReplay nextFrameId recordedFrameId)) ∧
    (∀ device frameId renderer,
      lineage.engine.renderer.submitScene device = .ok (frameId, renderer) →
      (renderer.nextFrameId = 0 ↔ frameId.get.toNat = 2 ^ 64 - 1)) ∧
    (lineage.engine.renderer.nextFrameId = 0 →
      (∀ device frameId renderer,
        lineage.engine.renderer.submitScene device ≠ .ok (frameId, renderer)) ∧
      ∀ later, ReflTransGen (Step ext) lineage later → later = lineage) := by
  have h := hstart.frontier_of_reaches hreach
  refine ⟨h.sorted, fun target recovery hcapture => ?_, fun device frameId renderer hsubmit => ?_,
    fun hzero => ⟨fun device frameId renderer hsubmit => ?_, fun later => eq_of_exhausted hzero⟩⟩
  · obtain ⟨hvalid, hrestore⟩ := h.run.inStep.capture_notBehind h.recorded hcapture
    exact ⟨validateRecoveryFrame_eq_ok.mp hvalid, hvalid,
      fun clocks config startup nextFrameId recordedFrameId hfail =>
        hrestore clocks config startup _ hfail nextFrameId recordedFrameId rfl⟩
  · obtain ⟨hframe, rfl⟩ := HeadlessRenderer.submitScene_eq_ok hsubmit
    have hlt := frameId.get.toNat_lt
    rw [← hframe, ← UInt64.toNat_inj, UInt64.toNat_add]
    simp only [UInt64.toNat_one, UInt64.toNat_zero]
    omega
  · obtain ⟨hframe, -⟩ := HeadlessRenderer.submitScene_eq_ok hsubmit
    exact frameId.ne_zero (hframe.trans hzero)

open CogniformEngine (sampleEngine)
open Observation (meshPatch)
open RecordedWorld (soloExternals)

def patchedEngine : CogniformEngine :=
  (({ sampleEngine with renderer := { sampleEngine.renderer with nextFrameId := 2 } } :
    CogniformEngine).applyPatch (soloExternals meshPatch) meshPatch ⟨0, 0⟩).1

theorem reaches_patchedEngine : ReflTransGen (Step (soloExternals meshPatch))
    ⟨.new 64 64, sampleEngine, []⟩ ⟨.new 64 64, patchedEngine, [⟨1, by decide⟩]⟩ := by
  have hissue := @Step.requestObservation (soloExternals meshPatch) ⟨.new 64 64, sampleEngine, []⟩
    (.ok ()) ⟨1, by decide⟩ { sampleEngine.renderer with nextFrameId := 2 } rfl
  refine .tail (.single hissue) (.applyPatch meshPatch ⟨0, 0⟩ (.of_isSome ?_))
  decide +kernel

theorem frames_never_reissued_sample :
    ∃ lineage, ReflTransGen (Step (soloExternals meshPatch)) ⟨.new 64 64, sampleEngine, []⟩ lineage ∧
      lineage.issued.map FrameId.get = [1, 2] ∧
      lineage.issued.Pairwise (fun earlier later => earlier.get.toNat < later.get.toNat) := by
  have hstart : Starts (soloExternals meshPatch) ⟨.new 64 64, sampleEngine, []⟩ :=
    .new (show CogniformEngine.new (.new 64 64) ⟨.ok (), .ok ()⟩ = .ok sampleEngine from rfl)
  obtain ⟨recovery, hcapture⟩ : ∃ recovery, patchedEngine.capture (some .initial) = .ok recovery := by
    refine ⟨_, Exec.eq_ok_of_get ?_⟩
    decide +kernel
  obtain ⟨hbytes, hframe⟩ :=
    (hstart.frontier_of_reaches reaches_patchedEngine).run.inStep.capture hcapture
  have hpoint : recovery = ⟨replayHeader, ⟨2, by decide⟩⟩ := by
    have hcounter : patchedEngine.renderer.nextFrameId = 2 := by decide +kernel
    rw [HeadlessRenderer.peekFrameId_eq_ok, hcounter] at hframe
    obtain ⟨bytes, next, hnext⟩ := recovery
    subst hframe
    exact congrArg (EngineRecoveryPoint.mk · _) (hbytes.trans (List.append_nil _))
  subst hpoint
  obtain ⟨engine, hrestore⟩ : ∃ engine, CogniformEngine.restore (soloExternals meshPatch)
      (fun _ => ⟨0, 0⟩) (.new 64 64) ⟨.ok (), .ok ()⟩ ⟨replayHeader, ⟨2, by decide⟩⟩ =
        .ok engine := by
    refine ⟨_, Exec.eq_ok_of_get ?_⟩
    decide +kernel
  have hsubmit : engine.renderer.submitScene (.ok ()) =
      .ok (⟨2, by decide⟩, { engine.renderer with nextFrameId := 3 }) := by
    have hnext : engine.renderer.nextFrameId = 2 := (CogniformEngine.restore_frames hrestore).1
    obtain ⟨world, scene, next⟩ := engine
    subst hnext
    rfl
  have hreach := (reaches_patchedEngine.tail (.restore hcapture hrestore)).tail
    (.requestObservation hsubmit)
  exact ⟨_, hreach, rfl, (frames_never_reissued _ _ _ hstart hreach).1⟩

end Lineage

end Cogniform
