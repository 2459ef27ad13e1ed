import Cogniform.Replay.Recorded
import Cogniform.World.Noninterference

/-!
# Lifetimes of a recorded world

A recorded world is created or restored, works for a while, and its log can be restored again, under
other bounds if need be. `Lifetimes` are such histories, with the patches that were accepted on the
way and their receipts. World and log move in lockstep over all of it, and a key that was accepted
once is answered from the record ever after.
-/

namespace Cogniform

open AuthoritativeWorld (ApplyClock)

structure History where
  past : List (ScenePatch × ApplyReceipt)
  live : List (ScenePatch × ApplyReceipt)

namespace History

def answered (history : History) (patch : ScenePatch) :
    Exec RecordedApplyError ApplyReceipt → History
  | .ok receipt =>
    if receipt.status = .applied then
      { history with live := history.live ++ [(patch, receipt)] }
    else history
  | .error _ => history

def restored (history : History) : History := ⟨history.past ++ history.live, []⟩

end History

/-- Recorded worlds with their histories. A log to restore was loaded under valid bounds or written
by a recorded world. A call counts once it has returned. -/
inductive Lifetimes (ext : Externals) (replayConfig : ReplayConfig) :
    WorldConfig → RecordedWorld → History → Prop where
  | new {worldConfig : WorldConfig} {recorded : RecordedWorld}
      (h : RecordedWorld.new worldConfig replayConfig = .ok recorded) :
      Lifetimes ext replayConfig worldConfig recorded ⟨[], []⟩
  | load {worldConfig : WorldConfig} {limits : RuntimeLimits} {bytes : List UInt8}
      {load : ReplayLoad} {clocks : ℕ → ApplyClock} {recorded : RecordedWorld}
      (hvalid : replayConfig.validate = .ok ())
      (hload : (ReplayLog.loadPrefix ext bytes replayConfig limits : Exec Empty ReplayLoad) =
        .ok load)
      (h : RecordedWorld.restore ext clocks worldConfig load.log = .ok recorded) :
      Lifetimes ext replayConfig worldConfig recorded ⟨[], []⟩
  | restore {worldConfig worldConfig' : WorldConfig} {recorded recorded' : RecordedWorld}
      {history : History} {clocks : ℕ → ApplyClock}
      (h : Lifetimes ext replayConfig worldConfig recorded history)
      (hrestore : RecordedWorld.restore ext clocks worldConfig' recorded.log = .ok recorded') :
      Lifetimes ext replayConfig worldConfig' recorded' history.restored
  | applyPatch {worldConfig : WorldConfig} {recorded : RecordedWorld} {history : History}
      (h : Lifetimes ext replayConfig worldConfig recorded history) (patch : ScenePatch)
      (frame : FrameId) (clock : ApplyClock)
      (hreturns : (recorded.applyPatch ext patch frame clock).2.Returns) :
      Lifetimes ext replayConfig worldConfig (recorded.applyPatch ext patch frame clock).1
        (history.answered patch (recorded.applyPatch ext patch frame clock).2)
  | takeRenderExtraction {worldConfig : WorldConfig} {recorded : RecordedWorld}
      {history : History} (h : Lifetimes ext replayConfig worldConfig recorded history) :
      Lifetimes ext replayConfig worldConfig recorded.takeRenderExtraction.1 history

section Lockstep

open RecordedWorld (Lockstep SoundLog)

variable {ext : Externals} {replayConfig : ReplayConfig} {worldConfig : WorldConfig}
  {recorded : RecordedWorld} {history : History}

theorem soundLog_of_load {bytes : List UInt8} {limits : RuntimeLimits} {load : ReplayLoad}
    (hvalid : replayConfig.validate = .ok ())
    (h : (ReplayLog.loadPrefix ext bytes replayConfig limits : Exec Empty ReplayLoad) = .ok load) :
    SoundLog ext replayConfig load.log := by
  have htail : ∀ kind, (ReplayLoad.withTail (.new replayConfig) 0 kind : Exec Empty ReplayLoad) =
      .ok load → SoundLog ext replayConfig load.log := by
    intro kind heq
    rw [ReplayLoad.withTail] at heq
    split at heq
    · cases heq
    · cases heq
      exact .new hvalid
  by_cases hsize : bytes.length ≤ replayConfig.maxLogBytes.get
  · by_cases hheader : bytes.take 8 = replayHeader
    · obtain ⟨log, offset, tail, hload, hloaded, -⟩ := loadPrefix_eq hvalid hsize hheader
      rw [hload] at h
      cases h
      exact .of_loaded hvalid hsize hloaded
    · rw [ReplayLog.loadPrefix, hvalid] at h
      simp only at h
      rw [if_neg (Nat.not_lt.mpr hsize), if_pos hheader] at h
      exact htail _ h
  · rw [ReplayLog.loadPrefix, hvalid] at h
    simp only at h
    rw [if_pos (Nat.not_le.mp hsize)] at h
    exact htail _ h

theorem Lifetimes.lockstep (h : Lifetimes ext replayConfig worldConfig recorded history) :
    Lockstep ext worldConfig replayConfig recorded := by
  induction h with
  | new h => exact .new h
  | load hvalid hload h => exact .restore (soundLog_of_load hvalid hload) h
  | restore _ hrestore ih => exact .restore ih.log hrestore
  | applyPatch _ patch frame clock hreturns ih =>
    rcases RecordedWorld.applyPatch_cases ih.reachable.consistent hreturns with ⟨heq, -⟩ |
      ⟨world, receipt, entry, happended, heq⟩
    · rwa [heq]
    · rw [heq]
      exact ih.append happended
  | takeRenderExtraction _ ih => exact ih.takeRenderExtraction

theorem Chained.revision {entries : List ReplayEntry} (h : Chained ext entries) :
    (ReplayLink.after entries).revision.get.toNat = entries.length := by
  induction entries using List.reverseRecOn with
  | nil => rfl
  | append_singleton entries entry ih =>
    obtain ⟨hinit, hcheck⟩ := h.init
    rw [checkEntry] at hcheck
    split at hcheck
    · cases hcheck
    split at hcheck
    · cases hcheck
    split at hcheck
    · cases hcheck
    rename_i hrevision
    rw [not_or, Decidable.not_not, Decidable.not_not] at hrevision
    obtain ⟨hprevious, hnext⟩ := hrevision
    have hcount := SceneRevision.checkedNext_eq_some.mp hnext
    rw [ReplayLink.after_append, List.length_append, List.length_singleton, ← ih hinit,
      ← hprevious]
    exact hcount

theorem applyPatch_ne_invariant (hworld : recorded.world.Consistent) (ext : Externals)
    (patch : ScenePatch) (frame : FrameId) (clock : ApplyClock) (error : WorldInvariantError) :
    (recorded.applyPatch ext patch frame clock).2 ≠ Exec.fail (.invariant error) := by
  have hprepare : Exec.FailsWith (fun e => ∀ w, e ≠ RecordedApplyError.invariant w)
      (recorded.prepare ext patch) := by
    rw [RecordedWorld.prepare, RecordedWorld.encodePatch]
    refine .bind (.bind (Exec.FailsWith.mapError (P := fun _ => True) (fun _ _ => trivial)
      fun _ _ _ => by simp) fun bytes _ => ?_) fun _ _ => .bind
      ((AuthoritativeWorld.logicalHash_failsWith hworld _).mapError fun _ h => h.elim) fun _ _ => .ok _
    dsimp only
    split
    · exact .fail (by simp)
    split
    · exact .fail (by simp)
    split
    · exact .fail (by simp)
    · exact .ok _
  have hmap : ∀ outcome : Exec WorldApplyError ApplyReceipt,
      outcome.mapError RecordedApplyError.world ≠ Exec.fail (.invariant error) := by
    intro outcome hfail
    obtain ⟨_, -, heq⟩ := Exec.mapError_eq_fail.mp hfail
    cases heq
  intro h
  rw [RecordedWorld.applyPatch] at h
  split at h
  · exact hmap _ h
  split at h
  · rename_i habort
    cases h
    exact hprepare _ habort error rfl
  split at h
  · rename_i happlied
    cases h
    exact hmap _ happlied
  rename_i receipt happlied
  split at h
  · rename_i hfinish
    cases h
    -- the world that is hashed is the one the accepted patch left
    refine (RecordedWorld.finish_failsWith ?_ _ _ _ _ hfinish).elim
    rcases AuthoritativeWorld.applyPatch_cases hworld patch frame clock with ⟨_, -, heq⟩ |
      ⟨_, -, heq⟩ | ⟨_, _, _, _, _, _, -, haccepted, heq⟩
    · rwa [heq]
    · rwa [heq]
    · rw [heq]
      exact haccepted.consistent hworld _
  · cases h

/-- **World and log move in lockstep**, over all lifetimes. The log verifies, has one entry for each
revision, ends at the logical hash of the world and is within its bounds. A newly accepted patch
appends its own entry; repeats and refusals change nothing, and no refusal is due to an invariant.
-/
theorem lifetimes_lockstep (ext : Externals) (replayConfig : ReplayConfig)
    (worldConfig : WorldConfig) (recorded : RecordedWorld) (history : History)
    (hrun : Lifetimes ext replayConfig worldConfig recorded history) :
    recorded.log.entries.length = recorded.world.revision.get.toNat ∧
    (∃ verification, recorded.log.verify ext = .ok verification ∧
      verification.finalRevision = recorded.world.revision ∧
      (verification.finalSceneHash = none ↔ recorded.log.entries = []) ∧
      ∀ hash, verification.finalSceneHash = some hash →
        recorded.world.logicalHash ext.sha256 = .ok hash) ∧
    (∃ bytes, (recorded.log.toBytes : Exec Empty (List UInt8)) = .ok bytes ∧
      recorded.log.encodedBytes = bytes.length) ∧
    recorded.log.encodedBytes ≤ replayConfig.maxLogBytes.get ∧
    recorded.log.entries.length ≤ replayConfig.maxEntries.get ∧
    ∀ patch frame clock,
      (∀ receipt, (recorded.applyPatch ext patch frame clock).2 = .ok receipt →
        receipt.status = .applied →
        ∃ entry, (recorded.applyPatch ext patch frame clock).1.log.entries =
          recorded.log.entries ++ [entry] ∧ entry.patch = patch ∧
          entry.estimatedVisibleFrame = frame ∧ entry.newRevision = receipt.newRevision) ∧
      (∀ receipt, (recorded.applyPatch ext patch frame clock).2 = .ok receipt →
        receipt.status = .idempotentReplay →
        (recorded.applyPatch ext patch frame clock).1 = recorded) ∧
      (∀ error, (recorded.applyPatch ext patch frame clock).2 = Exec.fail error →
        (recorded.applyPatch ext patch frame clock).1 = recorded ∧
        ∀ e, error ≠ .invariant e) := by
  have h := hrun.lockstep
  have hworld := h.reachable.consistent
  have hlength := h.log.capacity.trans_lt replayConfig.maxEntries.lt
  have hverify := h.log.chained.verify hlength
  refine ⟨by rw [h.revision, h.log.chained.revision], ⟨_, hverify, h.revision.symm, ?_, h.sceneHash⟩,
    ⟨_, toBytes_eq fun entry hentry => ReplayEntry.fits_of_size (h.log.size entry hentry),
      h.log.stream⟩, h.log.total, h.log.capacity, fun patch frame clock => ⟨?_, ?_, ?_⟩⟩
  · rcases List.eq_nil_or_concat' recorded.log.entries with hnil | ⟨entries, entry, hconcat⟩
    · rw [hnil]
      exact iff_of_true rfl rfl
    · rw [hconcat, ReplayLink.after_append]
      exact iff_of_false (by simp [ReplayEntry.link]) (by simp)
  · intro receipt hok hstatus
    rcases RecordedWorld.applyPatch_cases hworld (.inl ⟨receipt, hok⟩) with
      ⟨-, ⟨error, hfail⟩ | ⟨_, hreplay, hreplayed⟩⟩ | ⟨world, _, entry, happended, heq⟩
    · rw [hok] at hfail
      cases hfail
    · rw [hok] at hreplay
      cases hreplay
      rw [hstatus] at hreplayed
      cases hreplayed
    · rw [heq] at hok ⊢
      cases hok
      obtain ⟨-, hpatch, hframe, -, hnew, -⟩ := happended.entry_fields
      exact ⟨entry, rfl, hpatch, hframe, hnew⟩
  · intro receipt hok hstatus
    rcases RecordedWorld.applyPatch_cases hworld (.inl ⟨receipt, hok⟩) with
      ⟨hsame, -⟩ | ⟨world, _, entry, happended, heq⟩
    · exact hsame
    · rw [heq] at hok
      cases hok
      obtain ⟨_, _, _, _, _, _, _, -, -, rfl, -⟩ := happended.accepted
      cases hstatus
  · intro error hfail
    refine ⟨?_, fun e heq => applyPatch_ne_invariant hworld ext patch frame clock e (heq ▸ hfail)⟩
    rcases RecordedWorld.applyPatch_cases hworld (.inr ⟨error, hfail⟩) with
      ⟨hsame, -⟩ | ⟨world, _, entry, happended, heq⟩
    · exact hsame
    · rw [heq] at hfail
      cases hfail

theorem lifetimes_sampleRecorded :
    ∃ receipt, receipt.newRevision = ⟨1⟩ ∧
      Lifetimes (RecordedWorld.soloExternals AuthoritativeWorld.samplePatch) .default .default
        RecordedWorld.sampleRecorded ⟨[], [(AuthoritativeWorld.samplePatch, receipt)]⟩ := by
  have hnew : Lifetimes (RecordedWorld.soloExternals AuthoritativeWorld.samplePatch) .default
      .default ⟨.new .default, .default, .new .default⟩ ⟨[], []⟩ := .new rfl
  obtain ⟨receipt, hok, hreceipt⟩ := Exec.exists_ok_of_any
    (x := ((⟨.new .default, .default, .new .default⟩ : RecordedWorld).applyPatch
      (RecordedWorld.soloExternals AuthoritativeWorld.samplePatch)
      AuthoritativeWorld.samplePatch ⟨1, by decide⟩ ⟨0, 0⟩).2)
    (p := fun receipt => receipt.status = .applied ∧ receipt.newRevision = ⟨1⟩)
    (by decide +kernel)
  obtain ⟨hstatus, hrevision⟩ := of_decide_eq_true hreceipt
  have hrun := hnew.applyPatch _ _ _ (.inl ⟨receipt, hok⟩)
  rw [hok, History.answered, if_pos hstatus] at hrun
  exact ⟨receipt, hrevision, hrun⟩

theorem lifetimes_lockstep_sample :
    RecordedWorld.sampleRecorded.world.revision = ⟨1⟩ ∧
      RecordedWorld.sampleRecorded.log.entries.length = 1 := by
  obtain ⟨_, -, hrun⟩ := lifetimes_sampleRecorded
  have hrevision : RecordedWorld.sampleRecorded.world.revision = ⟨1⟩ := by decide +kernel
  obtain ⟨hlength, -⟩ := lifetimes_lockstep _ _ _ _ _ hrun
  rw [hrevision] at hlength
  exact ⟨hrevision, hlength⟩

end Lockstep

/-! ### What a log remembers -/

section Remembers

open AuthoritativeWorld

structure ReplayEntry.Receipted (entry : ReplayEntry) (receipt : ApplyReceipt) : Prop where
  schemaVersion : receipt.schemaVersion = entry.patch.schemaVersion
  transactionId : receipt.transactionId = entry.patch.transactionId
  idempotencyKey : receipt.idempotencyKey = entry.patch.idempotencyKey
  status : receipt.status = .applied
  previousRevision : receipt.previousRevision = entry.previousRevision
  newRevision : receipt.newRevision = entry.newRevision
  operationCount : receipt.operationCount.get = entry.patch.operations.length
  diagnostics : receipt.diagnostics = []
  estimatedVisibleFrame : receipt.estimatedVisibleFrame = entry.estimatedVisibleFrame

variable {ext : Externals} {entry : ReplayEntry} {entries : List ReplayEntry}
  {receipt receipt' : ApplyReceipt} {world world' : AuthoritativeWorld} {plan : CommitPlan}
  {newRevision : SceneRevision} {count : NonZeroU32} {scene : Scene}
  {storage : Arena StoredRecord} {index : Std.ExtTreeMap StableEntityId ℕ} {clock : ApplyClock}

theorem ReplayEntry.Receipted.untimed_eq (h : entry.Receipted receipt)
    (h' : entry.Receipted receipt') : receipt.untimed = receipt'.untimed := by
  have hcount : receipt.operationCount = receipt'.operationCount :=
    NonZero.get_injective (h.operationCount.trans h'.operationCount.symm)
  simp only [ApplyReceipt.untimed, h.schemaVersion, h.transactionId, h.idempotencyKey, h.status,
    h.previousRevision, h.newRevision, hcount, h.diagnostics, h.estimatedVisibleFrame,
    h'.schemaVersion, h'.transactionId, h'.idempotencyKey, h'.status, h'.previousRevision,
    h'.newRevision, h'.diagnostics, h'.estimatedVisibleFrame]

theorem receipted_receiptOf
    (h : Accepted world entry.patch plan newRevision count scene storage index)
    (hprevious : entry.previousRevision = world.revision)
    (hnew : entry.newRevision = newRevision) :
    entry.Receipted
      (receiptOf entry.patch plan newRevision count entry.estimatedVisibleFrame clock) where
  schemaVersion := rfl
  transactionId := rfl
  idempotencyKey := rfl
  status := rfl
  previousRevision := h.previous.trans hprevious.symm
  newRevision := hnew.symm
  operationCount := by
    rw [← h.operations]
    exact AuthoritativeWorld.operationCount_ok h.count
  diagnostics := rfl
  estimatedVisibleFrame := rfl

structure Remembers (entries : List ReplayEntry) (world : AuthoritativeWorld) : Prop where
  distinct : (entries.map fun entry => entry.patch.idempotencyKey).Nodup
  retained : ∀ entry ∈ entries, ∃ receipt,
    world.idempotencyRecords[entry.patch.idempotencyKey]? =
      some ⟨entry.patch.transactionId, receipt⟩ ∧ entry.Receipted receipt

theorem Remembers.append (h : Remembers entries world)
    (hfresh : world.idempotencyRecords[entry.patch.idempotencyKey]? = none)
    (hreceipt : entry.Receipted receipt)
    (hrecords : world'.idempotencyRecords = world.idempotencyRecords.insert
      entry.patch.idempotencyKey ⟨entry.patch.transactionId, receipt⟩) :
    Remembers (entries ++ [entry]) world' := by
  have hne : ∀ other ∈ entries, other.patch.idempotencyKey ≠ entry.patch.idempotencyKey := by
    intro other hother heq
    obtain ⟨_, hrecord, -⟩ := h.retained other hother
    rw [heq, hfresh] at hrecord
    cases hrecord
  refine ⟨?_, fun other hother => ?_⟩
  · rw [List.map_append]
    refine List.nodup_append.mpr ⟨h.distinct, List.nodup_singleton _, ?_⟩
    intro key hkey last hlast
    obtain ⟨other, hother, rfl⟩ := List.mem_map.mp hkey
    rw [List.mem_singleton.mp hlast]
    exact hne other hother
  · rw [hrecords]
    rcases List.mem_append.mp hother with hother | hother
    · obtain ⟨receipt, hrecord, hreceipted⟩ := h.retained other hother
      refine ⟨receipt, ?_, hreceipted⟩
      rw [TreeMap.getElem?_insert, if_neg (hne other hother)]
      exact hrecord
    · rw [List.mem_singleton.mp hother]
      exact ⟨receipt, by rw [TreeMap.getElem?_insert, if_pos rfl], hreceipt⟩

theorem Remembers.replayEntry {entryIndex : ℕ} (h : Remembers entries world)
    (hworld : world.Consistent)
    (hreplay : ReplayLog.replayEntry ext clock entryIndex world entry = .ok world') :
    Remembers (entries ++ [entry]) world' := by
  obtain ⟨hreplayed, hafter⟩ := ReplayLog.replayEntry_ok hworld hreplay
  have hprevious := hreplayed.previousRevision
  have hnew := hreplayed.newRevision
  have hchanged : world' ≠ world := by
    obtain ⟨_, _, _, _, _, _, receipt, haccepted, heq⟩ := hreplayed.accepted
    have hrecord : world'.idempotencyRecords[entry.patch.idempotencyKey]? =
        some ⟨entry.patch.transactionId, receipt⟩ := by
      rw [heq, record, TreeMap.getElem?_insert, if_pos rfl]
    intro hsame
    rw [hsame, haccepted.fresh] at hrecord
    cases hrecord
  rw [after] at hafter
  rcases applyPatch_cases hworld entry.patch entry.estimatedVisibleFrame clock with
    ⟨_, -, heq⟩ | ⟨_, -, heq⟩ |
    ⟨plan, newRevision, count, scene, storage, index, -, haccepted, heq⟩
  · rw [heq] at hafter
    exact absurd hafter hchanged
  · rw [heq] at hafter
    exact absurd hafter hchanged
  · rw [heq] at hafter
    subst hafter
    exact h.append haccepted.fresh
      (receipted_receiptOf haccepted hprevious.symm (hnew.symm.trans haccepted.next)) rfl

theorem Remembers.replayEntries {config : WorldConfig} {clocks : ℕ → ApplyClock}
    {more : List ReplayEntry} :
    ∀ {entryIndex : ℕ} {entries : List ReplayEntry} {world : AuthoritativeWorld},
      Remembers entries world → Reachable config world →
      ReplayLog.replayEntries ext clocks entryIndex world more = .ok world' →
      Remembers (entries ++ more) world' := by
  induction more with
  | nil =>
    intro entryIndex entries world h _ hreplay
    cases hreplay
    rwa [List.append_nil]
  | cons entry more ih =>
    intro entryIndex entries world h hreachable hreplay
    rw [ReplayLog.replayEntries] at hreplay
    obtain ⟨middle, hmiddle, hreplay⟩ := Exec.bind_eq_ok.mp hreplay
    have hafter := (ReplayLog.replayEntry_ok hreachable.consistent hmiddle).2
    rw [show entries ++ entry :: more = (entries ++ [entry]) ++ more by simp]
    exact ih (h.replayEntry hreachable.consistent hmiddle) (hafter ▸ hreachable.call _) hreplay

theorem Remembers.restore {worldConfig : WorldConfig} {clocks : ℕ → ApplyClock} {log : ReplayLog}
    {recorded : RecordedWorld}
    (h : RecordedWorld.restore ext clocks worldConfig log = .ok recorded) :
    recorded.log = log ∧ Remembers log.entries recorded.world := by
  rw [RecordedWorld.restore] at h
  obtain ⟨world, hreplay, h⟩ := Exec.bind_eq_ok.mp h
  cases h
  refine ⟨rfl, ?_⟩
  have hempty : Remembers [] (.new worldConfig) := ⟨.nil, by simp⟩
  exact hempty.replayEntries .new (ReplayLog.replay_ok hreplay).1

theorem Remembers.appended {recorded : RecordedWorld} {patch : ScenePatch} {frame : FrameId}
    (h : Remembers recorded.log.entries recorded.world)
    (happended : RecordedWorld.Appended ext recorded patch frame world receipt entry) :
    Remembers (recorded.log.entries ++ [entry]) world ∧ entry.patch = patch ∧
      recorded.world.idempotencyRecords[patch.idempotencyKey]? = none ∧
      entry.Receipted receipt ∧
      world.idempotencyRecords = recorded.world.idempotencyRecords.insert patch.idempotencyKey
        ⟨patch.transactionId, receipt⟩ := by
  obtain ⟨-, hpatch, hframe, hprevious, hnew, -⟩ := happended.entry_fields
  obtain ⟨plan, newRevision, count, scene, storage, index, clock, -, haccepted, rfl, rfl⟩ :=
    happended.accepted
  subst hpatch hframe
  have hreceipt := @receipted_receiptOf _ _ _ _ _ _ _ _ clock haccepted hprevious hnew
  exact ⟨h.append haccepted.fresh hreceipt rfl, rfl, haccepted.fresh, hreceipt, rfl⟩

end Remembers

section Repeated

variable {ext : Externals} {replayConfig : ReplayConfig} {worldConfig : WorldConfig}
  {recorded : RecordedWorld} {history : History}

structure Remembered (recorded : RecordedWorld) (history : History) : Prop where
  log : Remembers recorded.log.entries recorded.world
  sublist : ((history.past ++ history.live).map Prod.fst).Sublist
    (recorded.log.entries.map ReplayEntry.patch)
  accepted : ∀ pair ∈ history.past ++ history.live,
    ∃ entry ∈ recorded.log.entries, entry.patch = pair.1 ∧ entry.Receipted pair.2
  /-- Since the last restore the receipts themselves are retained. -/
  live : ∀ pair ∈ history.live, recorded.world.idempotencyRecords[pair.1.idempotencyKey]? =
    some ⟨pair.1.transactionId, pair.2⟩

theorem Remembered.appended {patch : ScenePatch} {frame : FrameId} {world : AuthoritativeWorld}
    {receipt : ApplyReceipt} {entry : ReplayEntry} (h : Remembered recorded history)
    (happended : RecordedWorld.Appended ext recorded patch frame world receipt entry) :
    Remembered { recorded with world := world, log := recorded.log.append entry }
      { history with live := history.live ++ [(patch, receipt)] } := by
  obtain ⟨hlog, hpatch, hfresh, hreceipt, hrecords⟩ := h.log.appended happended
  refine ⟨hlog, ?_, fun pair hpair => ?_, fun pair hpair => ?_⟩
  · change ((history.past ++ (history.live ++ [(patch, receipt)])).map Prod.fst).Sublist
      ((recorded.log.entries ++ [entry]).map ReplayEntry.patch)
    subst hpatch
    rw [← List.append_assoc, List.map_append, List.map_append (f := ReplayEntry.patch)]
    exact h.sublist.append (List.Sublist.refl _)
  · change ∃ entry' ∈ recorded.log.entries ++ [entry], _
    rw [← List.append_assoc] at hpair
    rcases List.mem_append.mp hpair with hpair | hpair
    · obtain ⟨other, hother, hsame, hreceipted⟩ := h.accepted pair hpair
      exact ⟨other, List.mem_append_left _ hother, hsame, hreceipted⟩
    · rw [List.mem_singleton.mp hpair]
      exact ⟨entry, by simp, hpatch, hreceipt⟩
  · change world.idempotencyRecords[pair.1.idempotencyKey]? = _
    rw [hrecords, TreeMap.getElem?_insert]
    rcases List.mem_append.mp hpair with hpair | hpair
    · have hrecord := h.live pair hpair
      rw [if_neg fun heq => ?_]
      · exact hrecord
      · rw [heq, hfresh] at hrecord
        cases hrecord
    · rw [List.mem_singleton.mp hpair, if_pos rfl]

/-- **Accepted patches are remembered** over all lifetimes. -/
theorem Lifetimes.remembered (h : Lifetimes ext replayConfig worldConfig recorded history) :
    Remembered recorded history := by
  induction h with
  | new h =>
    rw [RecordedWorld.new] at h
    split at h
    · cases h
    · cases h
      exact ⟨⟨.nil, by simp [ReplayLog.new]⟩, List.nil_sublist _, by simp, by simp⟩
  | load hvalid hload h =>
    obtain ⟨hlog, hremembers⟩ := Remembers.restore h
    exact ⟨hlog ▸ hremembers, List.nil_sublist _, by simp, by simp⟩
  | restore _ hrestore ih =>
    obtain ⟨hlog, hremembers⟩ := Remembers.restore hrestore
    rw [← hlog] at hremembers
    refine ⟨hremembers, ?_, ?_, by simp [History.restored]⟩
    · rw [hlog, History.restored, List.append_nil]
      exact ih.sublist
    · rw [hlog, History.restored, List.append_nil]
      exact ih.accepted
  | @applyPatch worldConfig recorded history h patch frame clock hreturns ih =>
    rcases RecordedWorld.applyPatch_cases h.lockstep.reachable.consistent hreturns with
      ⟨hsame, ⟨error, hfail⟩ | ⟨receipt, hok, hstatus⟩⟩ | ⟨world, receipt, entry, happended, heq⟩
    · rwa [hsame, hfail]
    · rw [hsame, hok, History.answered, if_neg (by rw [hstatus]; decide)]
      exact ih
    · have hstatus : receipt.status = .applied := by
        obtain ⟨_, _, _, _, _, _, _, -, -, rfl, -⟩ := happended.accepted
        rfl
      rw [heq, History.answered, if_pos hstatus]
      exact ih.appended happended
  | @takeRenderExtraction worldConfig recorded history h ih =>
    have hrecords := RecordedWorld.takeRenderExtraction_records recorded
    refine ⟨⟨ih.log.distinct, ?_⟩, ih.sublist, ih.accepted, ?_⟩
    · rw [hrecords]
      exact ih.log.retained
    · rw [hrecords]
      exact ih.live

theorem applyPatch_recorded {patch : ScenePatch} {transactionId : TransactionId}
    {receipt : ApplyReceipt} (hvalid : patch.validate recorded.world.config.runtimeLimits = .ok ())
    (hrecord : recorded.world.idempotencyRecords[patch.idempotencyKey]? =
      some ⟨transactionId, receipt⟩) (ext : Externals) (frame : FrameId) (clock : ApplyClock) :
    recorded.applyPatch ext patch frame clock = (recorded,
      if transactionId ≠ patch.transactionId then
        Exec.fail (.world (.idempotencyKeyConflict patch.idempotencyKey transactionId
          patch.transactionId))
      else .ok { receipt with status := .idempotentReplay }) := by
  have hplan : recorded.world.admitPatch patch =
      if transactionId ≠ patch.transactionId then
        Exec.fail (.idempotencyKeyConflict patch.idempotencyKey transactionId patch.transactionId)
      else .ok (.replay { receipt with status := .idempotentReplay }) := by
    rw [AuthoritativeWorld.admitPatch, hvalid]
    simp only [hrecord]
  rw [RecordedWorld.applyPatch, hrecord, Option.isSome_some, if_pos rfl,
    AuthoritativeWorld.applyPatch, hplan]
  by_cases htransaction : transactionId ≠ patch.transactionId
  · simp only [if_pos htransaction]
    rfl
  · simp only [if_neg htransaction]
    rfl

/-- **Idempotency survives recovery.** Once a patch was accepted, in this lifetime or an earlier
one, a valid patch with its key and transaction gets the original receipt again, marked as a replay,
with its clock readings unless the log was restored since; nothing changes. Under another
transaction it is refused. So no two revisions have the same key. -/
theorem lifetimes_idempotent (ext : Externals) (replayConfig : ReplayConfig)
    (worldConfig : WorldConfig) (recorded : RecordedWorld) (history : History)
    (hrun : Lifetimes ext replayConfig worldConfig recorded history) :
    (∀ original receipt, (original, receipt) ∈ history.past ++ history.live →
      ∀ patch frame clock, patch.validate worldConfig.runtimeLimits = .ok () →
        patch.idempotencyKey = original.idempotencyKey →
        (patch.transactionId = original.transactionId →
          ∃ repeated, recorded.applyPatch ext patch frame clock = (recorded, .ok repeated) ∧
            repeated.untimed = { receipt with status := .idempotentReplay }.untimed ∧
            ((original, receipt) ∈ history.live →
              repeated = { receipt with status := .idempotentReplay })) ∧
        (patch.transactionId ≠ original.transactionId →
          recorded.applyPatch ext patch frame clock =
            (recorded, Exec.fail (.world (.idempotencyKeyConflict patch.idempotencyKey
              original.transactionId patch.transactionId))))) ∧
    ((history.past ++ history.live).map fun pair => pair.1.idempotencyKey).Nodup ∧
    (recorded.log.entries.map fun entry => entry.patch.idempotencyKey).Nodup := by
  have h := hrun.remembered
  have hconfig := hrun.lockstep.reachable.config_eq
  refine ⟨fun original receipt hpair patch frame clock hvalid hkey => ?_, ?_, h.log.distinct⟩
  · obtain ⟨entry, hentry, rfl, hreceipt⟩ := h.accepted _ hpair
    obtain ⟨retained, hrecord, hretained⟩ := h.log.retained entry hentry
    rw [← hconfig] at hvalid
    rw [← hkey] at hrecord
    have hanswer := applyPatch_recorded hvalid hrecord ext frame clock
    refine ⟨fun htransaction => ?_, fun htransaction => ?_⟩
    · rw [if_neg (not_not.mpr htransaction.symm)] at hanswer
      refine ⟨_, hanswer, ?_, fun hlive => ?_⟩
      · exact congrArg (fun receipt => { receipt with status := ApplyStatus.idempotentReplay })
          (hretained.untimed_eq hreceipt)
      · have hsame := h.live _ hlive
        rw [← hkey, hrecord, Option.some.injEq, RecordedApply.mk.injEq] at hsame
        rw [hsame.2]
    · rw [if_pos (Ne.symm htransaction)] at hanswer
      exact hanswer
  · have hkeys := h.sublist.map ScenePatch.idempotencyKey
    rw [List.map_map, List.map_map] at hkeys
    exact hkeys.nodup h.log.distinct

theorem lifetimes_idempotent_restored :
    ∃ restored repeated,
      RecordedWorld.restore (RecordedWorld.soloExternals AuthoritativeWorld.samplePatch)
        (fun _ => ⟨0, 0⟩) .default RecordedWorld.sampleRecorded.log = .ok restored ∧
      restored.applyPatch (RecordedWorld.soloExternals AuthoritativeWorld.samplePatch)
        AuthoritativeWorld.samplePatch ⟨9, by decide⟩ ⟨0, 0⟩ = (restored, .ok repeated) ∧
      repeated.status = .idempotentReplay ∧ repeated.newRevision = ⟨1⟩ := by
  obtain ⟨receipt, hrevision, hrun⟩ := lifetimes_sampleRecorded
  obtain ⟨restored, hrestore, -⟩ := Exec.exists_ok_of_any
    (x := RecordedWorld.restore (RecordedWorld.soloExternals AuthoritativeWorld.samplePatch)
      (fun _ => ⟨0, 0⟩) .default RecordedWorld.sampleRecorded.log)
    (p := fun _ => true) (by decide +kernel)
  obtain ⟨hrepeat, -⟩ := lifetimes_idempotent _ _ _ _ _ (hrun.restore hrestore)
  obtain ⟨hsame, -⟩ := hrepeat AuthoritativeWorld.samplePatch receipt (by simp [History.restored])
    AuthoritativeWorld.samplePatch ⟨9, by decide⟩ ⟨0, 0⟩ (by decide +kernel) rfl
  obtain ⟨repeated, hanswer, huntimed, -⟩ := hsame rfl
  refine ⟨restored, repeated, hrestore, hanswer, ?_, ?_⟩
  · have hstatus := congrArg ApplyReceipt.status huntimed
    exact hstatus
  · have hnew := congrArg ApplyReceipt.newRevision huntimed
    exact hnew.trans hrevision

end Repeated

end Cogniform
