import Cogniform.Replay.Recorded
import Cogniform.World.Operational

/-!
# When a log replays

A live world hands its pending identities to a renderer from time to time; a replay never does, and
one of the checks of a patch bounds the pending set. A replay therefore goes through exactly when
all identities that the log ever creates fit that bound together.
-/

namespace Cogniform

open AuthoritativeWorld (ApplyClock Accepted)

def createdIds (entries : List ReplayEntry) : EntitySet :=
  (∅ : EntitySet).insertMany
    (entries.flatMap fun entry => entry.patch.operations.filterMap SceneOperation.created?)

theorem mem_createdIds {entries : List ReplayEntry} {id : StableEntityId} :
    id ∈ createdIds entries ↔ ∃ entry ∈ entries, Creates entry.patch.operations id := by
  simp [createdIds, Creates, Std.ExtTreeSet.mem_insertMany_list]

theorem mem_createdIds_append {entries : List ReplayEntry} {entry : ReplayEntry}
    {id : StableEntityId} :
    id ∈ createdIds (entries ++ [entry]) ↔
      id ∈ createdIds entries ∨ Creates entry.patch.operations id := by
  simp [mem_createdIds, or_and_right, exists_or]

inductive Trace (ext : Externals) (config : WorldConfig) :
    List ReplayEntry → AuthoritativeWorld → Prop where
  | new : Trace ext config [] (.new config)
  | accept {entries : List ReplayEntry} {world world' : AuthoritativeWorld} {entry : ReplayEntry}
      (h : Trace ext config entries world)
      (hentry : ReplayLog.Replayed ext world world' entry) :
      Trace ext config (entries ++ [entry]) world'
  | drain {entries : List ReplayEntry} {world : AuthoritativeWorld}
      (h : Trace ext config entries world) (extraction : RenderExtraction) :
      Trace ext config entries (world.drain extraction)

namespace Trace

variable {ext : Externals} {config : WorldConfig} {entries : List ReplayEntry}
  {world world' : AuthoritativeWorld}

theorem consistent (h : Trace ext config entries world) : world.Consistent := by
  induction h with
  | new => exact AuthoritativeWorld.consistent_new config
  | accept _ hentry ih =>
    obtain ⟨plan, newRevision, count, scene, storage, index, receipt, haccepted, rfl⟩ :=
      hentry.accepted
    exact haccepted.consistent ih receipt
  | drain _ extraction ih => exact ih.drain extraction

theorem config_eq (h : Trace ext config entries world) : world.config = config := by
  induction h with
  | new => rfl
  | accept _ hentry ih =>
    obtain ⟨plan, newRevision, count, scene, storage, index, receipt, haccepted, rfl⟩ :=
      hentry.accepted
    exact ih
  | drain _ extraction ih => exact ih

theorem live_created (h : Trace ext config entries world) :
    ∀ id ∈ world.scene.entities, id ∈ createdIds entries := by
  induction h with
  | new =>
    intro id hid
    have hempty : id ∈ (∅ : Std.ExtTreeMap StableEntityId ℕ) := Indexed.empty.mem_sceneEntities.mp hid
    simp at hempty
  | accept _ hentry ih =>
    obtain ⟨plan, newRevision, count, scene, storage, index, receipt, haccepted, rfl⟩ :=
      hentry.accepted
    intro id hid
    have hscene : id ∈ scene.entities := by rwa [← haccepted.entities]
    exact mem_createdIds_append.mpr (((Scene.run_created haccepted.run).2 id hscene).imp_left (ih id))
  | drain _ extraction ih => exact ih

theorem of_replayEntries {clocks : ℕ → ApplyClock} {more : List ReplayEntry} :
    ∀ {entryIndex : ℕ} {entries : List ReplayEntry} {world : AuthoritativeWorld},
      Trace ext config entries world →
      ReplayLog.replayEntries ext clocks entryIndex world more = .ok world' →
      Trace ext config (entries ++ more) world' := by
  induction more with
  | nil =>
    intro entryIndex entries world htrace h
    cases h
    rwa [List.append_nil]
  | cons entry more ih =>
    intro entryIndex entries world htrace h
    rw [ReplayLog.replayEntries] at h
    obtain ⟨middle, hmiddle, h⟩ := Exec.bind_eq_ok.mp h
    have hentry := (ReplayLog.replayEntry_ok htrace.consistent hmiddle).1
    have hsplit : entries ++ entry :: more = (entries ++ [entry]) ++ more := by simp
    rw [hsplit]
    exact ih (htrace.accept hentry) h

end Trace

/-! ### Replaying a trace -/

namespace ReplayLog

variable {ext : Externals} {clock : ApplyClock} {entryIndex : ℕ} {world world' : AuthoritativeWorld}
  {entry : ReplayEntry}

theorem replayEntry_of_fail {error : WorldApplyError} (hindex : entryIndex < 2 ^ 32)
    (hrevision : world.revision = entry.previousRevision)
    (hprevious : world.logicalHash ext.sha256 = .ok entry.previousSceneHash)
    (happly : world.applyPatch entry.patch entry.estimatedVisibleFrame clock =
      (world', Exec.fail error)) :
    replayEntry ext clock entryIndex world entry = Exec.fail (.world entryIndex error) := by
  rw [replayEntry, if_neg (Nat.not_le.mpr hindex), hprevious, Exec.mapError_ok, Exec.ok_bind,
    if_neg (by simp [hrevision])]
  simp only [happly]
  rfl

theorem replayEntry_of_applied {receipt : ApplyReceipt} (hindex : entryIndex < 2 ^ 32)
    (hrevision : world.revision = entry.previousRevision)
    (hprevious : world.logicalHash ext.sha256 = .ok entry.previousSceneHash)
    (happly : world.applyPatch entry.patch entry.estimatedVisibleFrame clock = (world', .ok receipt))
    (hstatus : receipt.status = .applied)
    (hbefore : receipt.previousRevision = entry.previousRevision)
    (hafter : receipt.newRevision = entry.newRevision)
    (hnew : world'.logicalHash ext.sha256 = .ok entry.newSceneHash) :
    replayEntry ext clock entryIndex world entry = .ok world' := by
  rw [replayEntry, if_neg (Nat.not_le.mpr hindex), hprevious, Exec.mapError_ok, Exec.ok_bind,
    if_neg (by simp [hrevision])]
  simp only [happly, Exec.mapError_ok, Exec.ok_bind]
  rw [if_neg (by simp [hstatus, hbefore, hafter]), hnew, Exec.mapError_ok, Exec.ok_bind,
    if_neg (by simp)]

theorem replayEntries_append {clocks : ℕ → ApplyClock} {entries : List ReplayEntry} :
    ∀ (entryIndex : ℕ) (world : AuthoritativeWorld),
      replayEntries ext clocks entryIndex world (entries ++ [entry]) = (do
        let world ← replayEntries ext clocks entryIndex world entries
        replayEntry ext (clocks (entryIndex + entries.length)) (entryIndex + entries.length) world
          entry) := by
  induction entries with
  | nil =>
    intro entryIndex world
    rw [List.nil_append, replayEntries, replayEntries, Exec.ok_bind, List.length_nil, Nat.add_zero]
    cases replayEntry ext (clocks entryIndex) entryIndex world entry <;> rfl
  | cons first entries ih =>
    intro entryIndex world
    rw [List.cons_append, replayEntries, replayEntries]
    cases hfirst : replayEntry ext (clocks entryIndex) entryIndex world first with
    | error abort => rfl
    | ok middle =>
      rw [Exec.ok_bind, Exec.ok_bind, ih, List.length_cons, Nat.add_right_comm, Nat.add_assoc]

end ReplayLog

/-- A replayed world beside the live one: they share the logical and derived state and the recorded
keys, and the replayed one has every created identity pending. -/
structure Replica (entries : List ReplayEntry) (world twin : AuthoritativeWorld) : Prop where
  shared : twin = world.withOperational twin.operationalState
  keys : ∀ key : IdempotencyKey, twin.idempotencyRecords[key]? = none ↔
    world.idempotencyRecords[key]? = none
  size : twin.idempotencyRecords.size = world.idempotencyRecords.size
  pending : twin.pendingRenderChanges = createdIds entries
  generation : twin.renderExtractionGeneration = 0

namespace Replica

variable {ext : Externals} {config : WorldConfig} {entries : List ReplayEntry}
  {world world' twin : AuthoritativeWorld} {entry : ReplayEntry} {entryIndex : ℕ}

theorem new (config : WorldConfig) : Replica [] (.new config) (.new config) :=
  ⟨rfl, fun _ => Iff.rfl, rfl, rfl, rfl⟩

theorem drain (h : Replica entries world twin) (extraction : RenderExtraction) :
    Replica entries (world.drain extraction) twin :=
  ⟨h.shared, h.keys, h.size, h.pending, h.generation⟩

theorem logicalHash_eq (h : Replica entries world twin) (sha256 : List UInt8 → Digest) :
    twin.logicalHash sha256 = world.logicalHash sha256 := by
  rw [h.shared]
  rfl

theorem snapshot_eq (h : Replica entries world twin) : twin.snapshot = world.snapshot := by
  rw [h.shared]
  rfl

theorem revision_eq (h : Replica entries world twin) : twin.revision = world.revision := by
  rw [h.shared]
  rfl

theorem pending_union (h : Replica entries world twin) (htrace : Trace ext config entries world)
    {plan newRevision count scene storage index}
    (haccepted : Accepted world entry.patch plan newRevision count scene storage index) :
    twin.pendingRenderChanges ∪ plan.renderChangedIds = createdIds (entries ++ [entry]) := by
  refine Std.ExtTreeSet.ext_mem fun id => ?_
  rw [Std.ExtTreeSet.mem_union_iff, h.pending, mem_createdIds_append]
  refine ⟨?_, fun hid => hid.imp_right haccepted.created_rendered⟩
  rintro (hid | hid)
  · exact .inl hid
  · exact (haccepted.mem_renderChangedIds id hid).imp_left (htrace.live_created id)

/-- **One replayed entry.** What the live world accepted, the replayed one accepts too, unless the
identities created so far exceed the pending bound. -/
theorem step (h : Replica entries world twin) (htrace : Trace ext config entries world)
    (hindex : entryIndex < 2 ^ 32) (hentry : ReplayLog.Replayed ext world world' entry)
    (clock : ApplyClock) :
    if config.maxPendingRenderChanges.get < (createdIds (entries ++ [entry])).size then
      ReplayLog.replayEntry ext clock entryIndex twin entry = Exec.fail (.world entryIndex
        (.renderExtractionCapacityExceeded config.maxPendingRenderChanges.get))
    else ∃ twin', ReplayLog.replayEntry ext clock entryIndex twin entry = .ok twin' ∧
      Replica (entries ++ [entry]) world' twin' := by
  obtain ⟨plan, newRevision, count, scene, storage, index, receipt, haccepted, rfl⟩ :=
    hentry.accepted
  have hunion := h.pending_union htrace haccepted
  have hfresh : twin.idempotencyRecords[entry.patch.idempotencyKey]? = none :=
    (h.keys _).mpr haccepted.fresh
  have hgeneration : twin.renderExtractionGeneration.toNat ≠ 2 ^ 64 - 1 := by
    rw [h.generation]
    decide
  have happly := AuthoritativeWorld.applyPatch_withOperational haccepted
    (show twin.operationalState.idempotencyRecords[_]? = none from hfresh) hgeneration h.size
    entry.estimatedVisibleFrame clock
  rw [← h.shared, htrace.config_eq] at happly
  change _ = if _ < (twin.pendingRenderChanges ∪ plan.renderChangedIds).size then _ else _ at happly
  rw [hunion] at happly
  have hprevious := (h.logicalHash_eq ext.sha256).trans hentry.previousHash
  have hrevision := h.revision_eq.trans hentry.previousRevision
  split
  · rename_i hbound
    rw [if_pos hbound] at happly
    exact ReplayLog.replayEntry_of_fail hindex hrevision hprevious happly
  · rename_i hbound
    rw [if_neg hbound] at happly
    have hreplica : Replica (entries ++ [entry])
        ((world.committed plan storage index).record entry.patch receipt)
        ((twin.committed plan storage index).record entry.patch
          (AuthoritativeWorld.receiptOf entry.patch plan newRevision count
            entry.estimatedVisibleFrame clock)) := by
      refine ⟨?_, fun key => ?_, ?_, hunion, h.generation⟩
      · conv_lhs => rw [h.shared]
        rfl
      · change (twin.idempotencyRecords.insert entry.patch.idempotencyKey _)[key]? = none ↔
          (world.idempotencyRecords.insert entry.patch.idempotencyKey _)[key]? = none
        rw [TreeMap.getElem?_insert, TreeMap.getElem?_insert]
        split
        · simp
        · exact h.keys key
      · change (twin.idempotencyRecords.insert entry.patch.idempotencyKey _).size =
          (world.idempotencyRecords.insert entry.patch.idempotencyKey _).size
        rw [TreeMap.size_insert_of_not_mem (TreeMap.not_mem_iff.mpr hfresh),
          TreeMap.size_insert_of_not_mem (TreeMap.not_mem_iff.mpr haccepted.fresh), h.size]
    refine ⟨_, ReplayLog.replayEntry_of_applied hindex hrevision hprevious happly rfl ?_ ?_ ?_,
      hreplica⟩
    · exact haccepted.previous.trans hentry.previousRevision
    · exact haccepted.next.symm.trans hentry.newRevision
    · exact (hreplica.logicalHash_eq ext.sha256).trans hentry.newHash

end Replica

/-- **Replaying the entries of a trace.** The replay keeps up with the live world as long as the
created identities fit the pending bound, and fails on the bound otherwise. -/
theorem Trace.replayEntries {ext : Externals} {config : WorldConfig} {entries : List ReplayEntry}
    {world : AuthoritativeWorld} (h : Trace ext config entries world)
    (hlength : entries.length ≤ 2 ^ 32) (clocks : ℕ → ApplyClock) :
    if config.maxPendingRenderChanges.get < (createdIds entries).size then
      ∃ entryIndex, ReplayLog.replayEntries ext clocks 0 (.new config) entries =
        Exec.fail (.world entryIndex
          (.renderExtractionCapacityExceeded config.maxPendingRenderChanges.get))
    else ∃ twin, ReplayLog.replayEntries ext clocks 0 (.new config) entries = .ok twin ∧
      Replica entries world twin := by
  induction h with
  | new =>
    have hnone : ¬ config.maxPendingRenderChanges.get < (createdIds []).size :=
      Nat.not_lt.mpr (Nat.zero_le _)
    rw [if_neg hnone]
    exact ⟨_, rfl, .new config⟩
  | @accept entries world world' entry h hentry ih =>
    rw [List.length_append, List.length_singleton] at hlength
    have ih := ih (by omega)
    rw [ReplayLog.replayEntries_append, Nat.zero_add]
    by_cases hbefore : config.maxPendingRenderChanges.get < (createdIds entries).size
    · -- the replay has already failed
      have hmore : (createdIds entries).size ≤ (createdIds (entries ++ [entry])).size :=
        TreeSet.size_le_of_subset fun id hid => mem_createdIds_append.mpr (.inl hid)
      rw [if_pos hbefore] at ih
      obtain ⟨entryIndex, hfail⟩ := ih
      rw [if_pos (by omega), hfail]
      exact ⟨entryIndex, rfl⟩
    · rw [if_neg hbefore] at ih
      obtain ⟨twin, htwin, hreplica⟩ := ih
      have hstep := hreplica.step h (show entries.length < 2 ^ 32 by omega) hentry
        (clocks entries.length)
      rw [htwin, Exec.ok_bind]
      split
      · rename_i hbound
        rw [if_pos hbound] at hstep
        exact ⟨entries.length, hstep⟩
      · rename_i hbound
        rwa [if_neg hbound] at hstep
  | drain h extraction ih =>
    have ih := ih hlength
    split
    · rename_i hbound
      rwa [if_pos hbound] at ih
    · rename_i hbound
      rw [if_neg hbound] at ih
      obtain ⟨twin, htwin, hreplica⟩ := ih
      exact ⟨twin, htwin, hreplica.drain extraction⟩

/-! ### Recorded logs -/

namespace RecordedWorld

variable {ext : Externals} {worldConfig : WorldConfig} {replayConfig : ReplayConfig}
  {recorded : RecordedWorld}

theorem Appended.replayed {patch : ScenePatch} {frame : FrameId} {world : AuthoritativeWorld}
    {receipt : ApplyReceipt} {entry : ReplayEntry}
    (h : Appended ext recorded patch frame world receipt entry) :
    ReplayLog.Replayed ext recorded.world world entry := by
  obtain ⟨-, hpatch, -, hprevious, hnew, -, -⟩ := h.entry_fields
  obtain ⟨plan, newRevision, count, scene, storage, index, clock, -, haccepted, hreceipt, hworld⟩ :=
    h.accepted
  refine ⟨⟨plan, newRevision, count, scene, storage, index, receipt, ?_, ?_⟩, hprevious.symm, ?_,
    h.previousHash, h.newHash⟩
  · rwa [hpatch]
  · rwa [hpatch]
  · rw [hnew, hworld, hreceipt]
    exact haccepted.next

theorem Run.trace (h : Run ext worldConfig replayConfig recorded) :
    Trace ext worldConfig recorded.log.entries recorded.world := by
  induction h with
  | new h =>
    rw [RecordedWorld.new] at h
    split at h
    · cases h
    · cases h
      exact .new
  | restore hload h =>
    rw [RecordedWorld.restore] at h
    obtain ⟨world, hreplay, h⟩ := Exec.bind_eq_ok.mp h
    cases h
    exact .of_replayEntries .new (ReplayLog.replay_ok hreplay).1
  | @applyPatch recorded h patch frame clock hreturns ih =>
    rcases applyPatch_cases h.recording.reachable.consistent hreturns with ⟨heq, -⟩ |
      ⟨world, receipt, entry, happended, heq⟩
    · rwa [heq]
    · rw [heq]
      exact ih.accept happended.replayed
  | @takeRenderExtraction recorded h ih =>
    rw [RecordedWorld.takeRenderExtraction]
    rcases recorded.world.takeRenderExtraction_cases with ⟨_, -, heq⟩ | ⟨extraction, -, heq⟩
    · rwa [heq]
    · rw [heq]
      exact ih.drain extraction

/-- **When a recorded log replays.** After any run, replaying the log under the same bounds gives the
revision, snapshot and hash of the live world exactly when the identities the log creates fit the
pending bound together. -/
theorem replay_iff_createdIds (ext : Externals) (worldConfig : WorldConfig)
    (replayConfig : ReplayConfig) (recorded : RecordedWorld) (clocks : ℕ → ApplyClock)
    (hrun : Run ext worldConfig replayConfig recorded) :
    (∃ world snapshot, recorded.replay ext clocks = .ok world ∧
      world.revision = recorded.world.revision ∧
      world.snapshot = .ok snapshot ∧ recorded.world.snapshot = .ok snapshot ∧
      world.logicalHash ext.sha256 = recorded.world.logicalHash ext.sha256) ↔
    (createdIds recorded.log.entries).size ≤ worldConfig.maxPendingRenderChanges.get := by
  have h := hrun.recording
  have hlength := h.capacity.trans_lt replayConfig.maxEntries.lt
  have hreplay := hrun.trace.replayEntries hlength.le clocks
  rw [replay, ReplayLog.replay, h.chained.verify hlength, Exec.mapError_ok, Exec.ok_bind,
    h.worldConfig_eq]
  split at hreplay
  · rename_i hbound
    obtain ⟨entryIndex, hfail⟩ := hreplay
    refine iff_of_false ?_ (Nat.not_le.mpr hbound)
    rintro ⟨world, snapshot, hok, -⟩
    rw [hfail] at hok
    cases hok
  · rename_i hbound
    obtain ⟨twin, htwin, hreplica⟩ := hreplay
    obtain ⟨snapshot, hsnapshot⟩ := h.reachable.consistent.exists_snapshot
    exact iff_of_true ⟨twin, snapshot, htwin, hreplica.revision_eq,
      hreplica.snapshot_eq.trans hsnapshot, hsnapshot, hreplica.logicalHash_eq ext.sha256⟩
      (Nat.not_lt.mp hbound)

theorem replay_iff_createdIds_sample :
    ∃ world, sampleRecorded.replay (soloExternals AuthoritativeWorld.samplePatch)
        (fun _ => ⟨0, 0⟩) = .ok world ∧
      world.revision = sampleRecorded.world.revision := by
  obtain ⟨world, _, hreplay, hrevision, -⟩ := (replay_iff_createdIds _ .default .default
    sampleRecorded (fun _ => ⟨0, 0⟩) run_sampleRecorded).mpr (by decide +kernel)
  exact ⟨world, hreplay, hrevision⟩

def blankExternals : Externals where
  sha256 _ := .replicate 32 0
  patchJson := ⟨fun _ => some [0x7b, 0x7d], fun _ => .error ⟨.data, 1, 1⟩⟩

def narrowConfig : WorldConfig :=
  { WorldConfig.default with maxPendingRenderChanges := .lit 1 }

def createPatch (number : ℕ) (hne : number ≠ 0) (hlt : number < 2 ^ 64) : ScenePatch :=
  { AuthoritativeWorld.samplePatch with
    idempotencyKey := ⟨number, hne, by omega⟩
    baseRevision := ⟨.ofNat (number - 1)⟩
    operations := [.create ⟨number, hne, by omega⟩ []] }

def onePatch : ScenePatch := createPatch 1 (by decide) (by decide)

def twoPatch : ScenePatch := createPatch 2 (by decide) (by decide)

def drainedRecorded : RecordedWorld :=
  let first := (⟨.new narrowConfig, narrowConfig, .new .default⟩ : RecordedWorld).applyPatch
    blankExternals onePatch (.lit 1) ⟨0, 0⟩
  (first.1.takeRenderExtraction.1.applyPatch blankExternals twoPatch (.lit 2) ⟨0, 0⟩).1

theorem replay_after_extraction :
    Run blankExternals narrowConfig .default drainedRecorded ∧
      drainedRecorded.log.entries.length = 2 ∧
      drainedRecorded.replay blankExternals (fun _ => ⟨0, 0⟩) =
        Exec.fail (.world 1 (.renderExtractionCapacityExceeded 1)) := by
  refine ⟨.applyPatch (.takeRenderExtraction (.applyPatch (.new rfl) _ _ _ ?_)) _ _ _ ?_,
    by decide +kernel, Exec.eq_fail_of_failure? (by decide +kernel)⟩
  · exact .of_isSome (by decide +kernel)
  · exact .of_isSome (by decide +kernel)

end RecordedWorld

end Cogniform
