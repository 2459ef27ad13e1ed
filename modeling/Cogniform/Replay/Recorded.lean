import Cogniform.Replay.Load
import Cogniform.World.Invariant

/-!
# The recorded world

A world together with the log of its accepted patches. A new patch is encoded and the bounds of the
log are checked before the world is touched; an accepted one is appended with the logical hashes
around it; a repeated key goes to the world alone. `Recording` is what the log knows about the
world. With the loader it gives crash recovery: cutting the stream anywhere loses exactly the
entries whose frames are cut.
-/

namespace Cogniform

open AuthoritativeWorld (ApplyClock)

inductive RecordedApplyError where
  | codec (error : CodecError)
  | entryCapacityExceeded (limit : ℕ)
  | entrySizeExceeded (actual limit : ℕ)
  | logSizeExceeded (actual limit : ℕ)
  | world (error : WorldApplyError)
  | invariant (error : WorldInvariantError)
  deriving DecidableEq

structure RecordedWorld where
  world : AuthoritativeWorld
  worldConfig : WorldConfig
  log : ReplayLog

def ReplayEntry.new {ε : Type} (ext : Externals) (entry : ReplayEntry) : Exec ε ReplayEntry := do
  let hash ← { entry with entryHash := zeroEntryHash }.computeHash ext
  .ok { entry with entryHash := hash }

namespace RecordedWorld

def new (worldConfig : WorldConfig) (replayConfig : ReplayConfig) :
    Except ReplayConfigError RecordedWorld :=
  match replayConfig.validate with
  | .error error => .error error
  | .ok () => .ok ⟨.new worldConfig, worldConfig, .new replayConfig⟩

def restore (ext : Externals) (clocks : ℕ → ApplyClock) (worldConfig : WorldConfig)
    (log : ReplayLog) : Exec ReplayError RecordedWorld := do
  let world ← log.replay ext clocks worldConfig
  .ok ⟨world, worldConfig, log⟩

def replay (ext : Externals) (clocks : ℕ → ApplyClock) (recorded : RecordedWorld) :
    Exec ReplayError AuthoritativeWorld :=
  recorded.log.replay ext clocks recorded.worldConfig

def encodePatch (ext : Externals) (recorded : RecordedWorld) (patch : ScenePatch) :
    Exec RecordedApplyError (List UInt8) := do
  let patchBytes ← (Exec.ofExcept (patch.toCanonicalJson ext.patchJson
    recorded.worldConfig.runtimeLimits)).mapError .codec
  let config := recorded.log.config
  let entryBytes := satAdd entryEnvelopeBytes patchBytes.length
  let newLogBytes := satAdd recorded.log.encodedBytes entryBytes
  if config.maxEntries.get ≤ recorded.log.entries.length then
    Exec.fail (.entryCapacityExceeded config.maxEntries.get)
  else if config.maxEntryBytes.get < entryBytes then
    Exec.fail (.entrySizeExceeded entryBytes config.maxEntryBytes.get)
  else if config.maxLogBytes.get < newLogBytes then
    Exec.fail (.logSizeExceeded newLogBytes config.maxLogBytes.get)
  else .ok patchBytes

def newEntry {ε : Type} (ext : Externals) (recorded : RecordedWorld) (patch : ScenePatch)
    (patchBytes : List UInt8) (frame : FrameId) (receipt : ApplyReceipt)
    (previousSceneHash newSceneHash : Digest) : Exec ε ReplayEntry :=
  ReplayEntry.new ext {
    sequence := .ofNat (recorded.log.entries.length + 1)
    patch := patch
    patchBytes := patchBytes
    estimatedVisibleFrame := frame
    previousRevision := recorded.world.revision
    newRevision := receipt.newRevision
    previousSceneHash := previousSceneHash
    newSceneHash := newSceneHash
    previousEntryHash := recorded.log.lastEntryHash
    entryHash := zeroEntryHash }

def prepare (ext : Externals) (recorded : RecordedWorld) (patch : ScenePatch) :
    Exec RecordedApplyError (List UInt8 × Digest) := do
  let patchBytes ← recorded.encodePatch ext patch
  let previousSceneHash ← (recorded.world.logicalHash ext.sha256).mapError .invariant
  .ok (patchBytes, previousSceneHash)

def finish (ext : Externals) (recorded : RecordedWorld) (world : AuthoritativeWorld)
    (patch : ScenePatch) (patchBytes : List UInt8) (frame : FrameId) (receipt : ApplyReceipt)
    (previousSceneHash : Digest) : Exec RecordedApplyError ReplayEntry := do
  let newSceneHash ← (world.logicalHash ext.sha256).mapError .invariant
  recorded.newEntry ext patch patchBytes frame receipt previousSceneHash newSceneHash

def applyPatch (ext : Externals) (recorded : RecordedWorld) (patch : ScenePatch) (frame : FrameId)
    (clock : ApplyClock) : RecordedWorld × Exec RecordedApplyError ApplyReceipt :=
  let applied := recorded.world.applyPatch patch frame clock
  if (recorded.world.idempotencyRecords[patch.idempotencyKey]?).isSome then
    ({ recorded with world := applied.1 }, applied.2.mapError .world)
  else
    match recorded.prepare ext patch with
    | .error abort => (recorded, .error abort)
    | .ok (patchBytes, previousSceneHash) =>
      match applied.2.mapError .world with
      | .error abort => ({ recorded with world := applied.1 }, .error abort)
      | .ok receipt =>
        match recorded.finish ext applied.1 patch patchBytes frame receipt previousSceneHash with
        | .error abort => ({ recorded with world := applied.1 }, .error abort)
        | .ok entry =>
          ({ recorded with world := applied.1, log := recorded.log.append entry }, .ok receipt)

def takeRenderExtraction (recorded : RecordedWorld) :
    RecordedWorld × Exec WorldExtractionError RenderExtraction :=
  let taken := recorded.world.takeRenderExtraction
  ({ recorded with world := taken.1 }, taken.2)

/-- The recorded worlds that runs lead to, from a new one or one restored from a complete stream. A
call counts once it has returned. -/
inductive Run (ext : Externals) (worldConfig : WorldConfig) (replayConfig : ReplayConfig) :
    RecordedWorld → Prop where
  | new {recorded : RecordedWorld} (h : RecordedWorld.new worldConfig replayConfig = .ok recorded) :
      Run ext worldConfig replayConfig recorded
  | restore {bytes : List UInt8} {log : ReplayLog} {clocks : ℕ → ApplyClock}
      {recorded : RecordedWorld}
      (hload : (ReplayLog.loadPrefix ext bytes replayConfig worldConfig.runtimeLimits :
        Exec Empty ReplayLoad) = .ok ⟨log, none⟩)
      (h : RecordedWorld.restore ext clocks worldConfig log = .ok recorded) :
      Run ext worldConfig replayConfig recorded
  | applyPatch {recorded : RecordedWorld} (h : Run ext worldConfig replayConfig recorded)
      (patch : ScenePatch) (frame : FrameId) (clock : ApplyClock)
      (hreturns : (recorded.applyPatch ext patch frame clock).2.Returns) :
      Run ext worldConfig replayConfig (recorded.applyPatch ext patch frame clock).1
  | takeRenderExtraction {recorded : RecordedWorld}
      (h : Run ext worldConfig replayConfig recorded) :
      Run ext worldConfig replayConfig recorded.takeRenderExtraction.1

end RecordedWorld

section Hash

open Exec

theorem lengthBytes_failsWith {ε : Type} {P : ε → Prop} (message : String) (length : ℕ) :
    FailsWith P (lengthBytes message length) := by
  rw [lengthBytes]
  split
  · exact .ok _
  · exact .panic _

theorem ComponentValue.hashBytes_failsWith {ε : Type} {P : ε → Prop} (value : ComponentValue) :
    FailsWith P value.hashBytes := by
  cases value with
  | name value => exact .bind (lengthBytes_failsWith _ _) fun _ _ => .ok _
  | _ => exact .ok _

theorem WorldSnapshot.hashBytes_failsWith {ε : Type} {P : ε → Prop} (snapshot : WorldSnapshot) :
    FailsWith P snapshot.hashBytes := by
  refine .bind (lengthBytes_failsWith _ _) fun _ _ => .bind (.mapM (fun entity => ?_) _) fun _ _ =>
    .ok _
  exact .bind (lengthBytes_failsWith _ _) fun _ _ =>
    .bind (.mapM ComponentValue.hashBytes_failsWith _) fun _ _ => .ok _

theorem AuthoritativeWorld.logicalHash_failsWith {world : AuthoritativeWorld}
    (h : world.Consistent) (sha256 : List UInt8 → Digest) :
    FailsWith (fun _ => False) (world.logicalHash sha256) := by
  rw [logicalHash, snapshot, validateInvariants_of_consistent h]
  exact .bind (.bind (.ok ()) fun _ _ => .ok _) fun _ _ =>
    .bind (WorldSnapshot.hashBytes_failsWith _) fun _ _ => .ok _

end Hash

/-! ### One call -/

namespace RecordedWorld

variable {ext : Externals} {recorded : RecordedWorld} {patch : ScenePatch} {frame : FrameId}
  {clock : ApplyClock}

structure Appended (ext : Externals) (recorded : RecordedWorld) (patch : ScenePatch)
    (frame : FrameId) (world : AuthoritativeWorld) (receipt : ApplyReceipt)
    (entry : ReplayEntry) : Prop where
  accepted : ∃ plan newRevision count scene storage index clock,
    recorded.world.admitPatch patch = .ok (.commit plan newRevision count) ∧
    AuthoritativeWorld.Accepted recorded.world patch plan newRevision count scene storage index ∧
    receipt = AuthoritativeWorld.receiptOf patch plan newRevision count frame clock ∧
    world = (recorded.world.committed plan storage index).record patch receipt
  applied : ∃ clock, recorded.world.applyPatch patch frame clock = (world, .ok receipt)
  encoded : recorded.encodePatch ext patch = .ok entry.patchBytes
  previousHash : recorded.world.logicalHash ext.sha256 = .ok entry.previousSceneHash
  newHash : world.logicalHash ext.sha256 = .ok entry.newSceneHash
  entry_eq : (recorded.newEntry ext patch entry.patchBytes frame receipt entry.previousSceneHash
    entry.newSceneHash : Exec RecordedApplyError ReplayEntry) = .ok entry

theorem prepare_ok {patchBytes : List UInt8} {previousSceneHash : Digest}
    (h : recorded.prepare ext patch = .ok (patchBytes, previousSceneHash)) :
    recorded.encodePatch ext patch = .ok patchBytes ∧
      recorded.world.logicalHash ext.sha256 = .ok previousSceneHash := by
  rw [prepare] at h
  obtain ⟨bytes, hbytes, h⟩ := Exec.bind_eq_ok.mp h
  obtain ⟨hash, hhash, h⟩ := Exec.bind_eq_ok.mp h
  cases h
  exact ⟨hbytes, Exec.mapError_eq_ok.mp hhash⟩

theorem newEntry_ok {ε : Type} {patchBytes : List UInt8} {receipt : ApplyReceipt}
    {previousSceneHash newSceneHash : Digest} {entry : ReplayEntry}
    (h : (recorded.newEntry ext patch patchBytes frame receipt previousSceneHash newSceneHash :
      Exec ε ReplayEntry) = .ok entry) :
    ∃ hash, (ReplayEntry.computeHash ext entry : Exec ε Digest) = .ok hash ∧
      entry = ⟨.ofNat (recorded.log.entries.length + 1), patch, patchBytes, frame,
        recorded.world.revision, receipt.newRevision, previousSceneHash, newSceneHash,
        recorded.log.lastEntryHash, hash⟩ := by
  rw [newEntry, ReplayEntry.new] at h
  obtain ⟨hash, hhash, h⟩ := Exec.bind_eq_ok.mp h
  cases h
  exact ⟨hash, hhash, rfl⟩

theorem finish_failsWith {world : AuthoritativeWorld} (hworld : world.Consistent)
    (patchBytes : List UInt8) (receipt : ApplyReceipt) (previousSceneHash : Digest) :
    Exec.FailsWith (fun _ => False)
      (recorded.finish ext world patch patchBytes frame receipt previousSceneHash) := by
  refine .bind ((AuthoritativeWorld.logicalHash_failsWith hworld _).mapError fun _ h => h)
    fun _ _ => .bind (.bind (.bind (lengthBytes_failsWith _ _) fun _ _ => .ok _) fun _ _ => .ok _)
    fun _ _ => .ok _

def OfLog (error : RecordedApplyError) : Prop := ∀ e, error ≠ .world e

theorem mapError_ofLog {ε α : Type} {f : ε → RecordedApplyError} (hf : ∀ e, OfLog (f e))
    (x : Exec ε α) : Exec.FailsWith OfLog (x.mapError f) :=
  Exec.FailsWith.mapError (P := fun _ => True) (fun _ _ => trivial) fun e _ => hf e

theorem prepare_ofLog : Exec.FailsWith OfLog (recorded.prepare ext patch) := by
  rw [prepare, encodePatch]
  refine .bind (.bind (mapError_ofLog (f := .codec) (by simp [OfLog]) _) fun bytes _ => ?_)
    fun _ _ => .bind (mapError_ofLog (f := .invariant) (by simp [OfLog]) _) fun _ _ => .ok _
  dsimp only
  split
  · exact .fail (by simp [OfLog])
  split
  · exact .fail (by simp [OfLog])
  split
  · exact .fail (by simp [OfLog])
  · exact .ok _

theorem finish_ofLog (world : AuthoritativeWorld) (patchBytes : List UInt8) (receipt : ApplyReceipt)
    (previousSceneHash : Digest) : Exec.FailsWith OfLog
      (recorded.finish ext world patch patchBytes frame receipt previousSceneHash) := by
  rw [finish]
  exact .bind (mapError_ofLog (f := .invariant) (by simp [OfLog]) _) fun _ _ =>
    .bind (.bind (.bind (lengthBytes_failsWith _ _) fun _ _ => .ok _) fun _ _ => .ok _)
      fun _ _ => .ok _

theorem applyPatch_world_error {error : WorldApplyError}
    (h : (recorded.applyPatch ext patch frame clock).2 = Exec.fail (.world error)) :
    (recorded.world.applyPatch patch frame clock).2 = Exec.fail error := by
  have hmap : (recorded.world.applyPatch patch frame clock).2.mapError RecordedApplyError.world =
      Exec.fail (.world error) →
      (recorded.world.applyPatch patch frame clock).2 = Exec.fail error := by
    intro hfail
    obtain ⟨e, he, heq⟩ := Exec.mapError_eq_fail.mp hfail
    cases heq
    exact he
  rw [applyPatch] at h
  split at h
  · exact hmap h
  split at h
  · rename_i hprepare
    cases h
    exact absurd rfl (prepare_ofLog _ hprepare error)
  split at h
  · rename_i happlied
    cases h
    exact hmap happlied
  split at h
  · rename_i hfinish
    cases h
    exact absurd rfl (finish_ofLog _ _ _ _ _ hfinish error)
  · cases h

theorem applyPatch_world_ok {receipt : ApplyReceipt}
    (h : (recorded.applyPatch ext patch frame clock).2 = .ok receipt) :
    (recorded.world.applyPatch patch frame clock).2 = .ok receipt := by
  rw [applyPatch] at h
  split at h
  · exact Exec.mapError_eq_ok.mp h
  split at h
  · cases h
  split at h
  · cases h
  · rename_i happlied
    split at h
    · cases h
    · cases h
      exact Exec.mapError_eq_ok.mp happlied

theorem applyPatch_world (ext : Externals) (recorded : RecordedWorld) (patch : ScenePatch)
    (frame : FrameId) (clock : ApplyClock) :
    (recorded.applyPatch ext patch frame clock).1.world = recorded.world ∨
      (recorded.applyPatch ext patch frame clock).1.world =
        (recorded.world.applyPatch patch frame clock).1 := by
  rw [applyPatch]
  split
  · exact .inr rfl
  split
  · exact .inl rfl
  split
  · exact .inr rfl
  split
  · exact .inr rfl
  · exact .inr rfl

theorem applyPatch_records (hworld : recorded.world.Consistent) (ext : Externals)
    (patch : ScenePatch) (frame : FrameId) (clock : ApplyClock) :
    (recorded.applyPatch ext patch frame clock).1.world.idempotencyRecords.size ≤
      recorded.world.idempotencyRecords.size + 1 := by
  rcases applyPatch_world ext recorded patch frame clock with heq | heq
  · rw [heq]
    exact Nat.le_succ _
  · rw [heq]
    exact AuthoritativeWorld.applyPatch_records hworld patch frame clock

theorem takeRenderExtraction_records (recorded : RecordedWorld) :
    recorded.takeRenderExtraction.1.world.idempotencyRecords =
      recorded.world.idempotencyRecords := by
  rw [takeRenderExtraction, AuthoritativeWorld.takeRenderExtraction]
  split <;> rfl

/-- **What a returning call of `applyPatch` does.** It changes nothing, or it commits the patch and
appends its entry. -/
theorem applyPatch_cases (hworld : recorded.world.Consistent)
    (hreturns : (recorded.applyPatch ext patch frame clock).2.Returns) :
    ((recorded.applyPatch ext patch frame clock).1 = recorded ∧
      ((∃ error, (recorded.applyPatch ext patch frame clock).2 = Exec.fail error) ∨
        ∃ receipt, (recorded.applyPatch ext patch frame clock).2 = .ok receipt ∧
          receipt.status = .idempotentReplay)) ∨
    ∃ world receipt entry, Appended ext recorded patch frame world receipt entry ∧
      recorded.applyPatch ext patch frame clock =
        ({ recorded with world := world, log := recorded.log.append entry }, .ok receipt) := by
  have hunchanged : ∀ outcome, recorded.applyPatch ext patch frame clock = (recorded, outcome) →
      (∀ receipt, outcome = .ok receipt → receipt.status = .idempotentReplay) →
      (recorded.applyPatch ext patch frame clock).1 = recorded ∧
        ((∃ error, (recorded.applyPatch ext patch frame clock).2 = Exec.fail error) ∨
          ∃ receipt, (recorded.applyPatch ext patch frame clock).2 = .ok receipt ∧
            receipt.status = .idempotentReplay) := by
    intro outcome heq hstatus
    rw [heq] at hreturns ⊢
    rcases hreturns with ⟨receipt, hok⟩ | hfail
    · exact ⟨rfl, .inr ⟨receipt, hok, hstatus receipt hok⟩⟩
    · exact ⟨rfl, .inl hfail⟩
  have happly := AuthoritativeWorld.applyPatch_cases hworld patch frame clock
  by_cases hkey : (recorded.world.idempotencyRecords[patch.idempotencyKey]?).isSome
  · -- a recorded key never commits
    left
    rcases happly with ⟨abort, -, heq⟩ | ⟨receipt, hreplay, heq⟩ |
      ⟨plan, newRevision, count, scene, storage, index, -, haccepted, heq⟩
    · refine hunchanged (Exec.mapError .world (.error abort)) ?_ ?_
      · rw [applyPatch, if_pos hkey, heq]
      · intro receipt hok
        rw [Exec.mapError_eq_ok] at hok
        cases hok
    · refine hunchanged (.ok receipt) ?_ ?_
      · rw [applyPatch, if_pos hkey, heq]
        rfl
      · rintro _ ⟨⟩
        obtain ⟨_, -, rfl⟩ := AuthoritativeWorld.admitPatch_replay hreplay
        rfl
    · rw [haccepted.fresh] at hkey
      cases hkey
  · cases hprepare : recorded.prepare ext patch with
    | error abort =>
      left
      refine hunchanged (.error abort) ?_ (by simp)
      rw [applyPatch, if_neg hkey, hprepare]
    | ok prepared =>
      obtain ⟨patchBytes, previousSceneHash⟩ := prepared
      rcases happly with ⟨abort, -, heq⟩ | ⟨receipt, hreplay, -⟩ |
        ⟨plan, newRevision, count, scene, storage, index, hplan, haccepted, heq⟩
      · left
        cases hmap : (Exec.mapError .world (.error abort) : Exec RecordedApplyError ApplyReceipt) with
        | ok receipt =>
          rw [Exec.mapError_eq_ok] at hmap
          cases hmap
        | error abort' =>
          refine hunchanged (.error abort') ?_ (by simp)
          rw [applyPatch, if_neg hkey, hprepare]
          simp only [heq, hmap]
      · obtain ⟨found, hfound, -⟩ := AuthoritativeWorld.admitPatch_replay hreplay
        rw [hfound] at hkey
        exact absurd rfl hkey
      · right
        cases hfinish : recorded.finish ext ((recorded.world.committed plan storage index).record
            patch (AuthoritativeWorld.receiptOf patch plan newRevision count frame clock)) patch
            patchBytes frame (AuthoritativeWorld.receiptOf patch plan newRevision count frame clock)
            previousSceneHash with
        | error abort =>
          -- a returning call does not panic here, and there is no other way to fail
          rw [applyPatch, if_neg hkey, hprepare] at hreturns
          simp only [heq, Exec.mapError_ok, hfinish] at hreturns
          rcases hreturns with ⟨_, hok⟩ | ⟨error, herror⟩
          · cases hok
          · cases herror
            exact (finish_failsWith (haccepted.consistent hworld _) _ _ _ error hfinish).elim
        | ok entry =>
          obtain ⟨hencoded, hprevious⟩ := prepare_ok hprepare
          have happend := hfinish
          rw [finish] at happend
          obtain ⟨newSceneHash, hnew, hentry⟩ := Exec.bind_eq_ok.mp happend
          rw [Exec.mapError_eq_ok] at hnew
          obtain ⟨hash, -, hfields⟩ := newEntry_ok hentry
          have hbytes : entry.patchBytes = patchBytes := by rw [hfields]
          have hprev : entry.previousSceneHash = previousSceneHash := by rw [hfields]
          have hnext : entry.newSceneHash = newSceneHash := by rw [hfields]
          refine ⟨_, _, entry, ⟨⟨plan, newRevision, count, scene, storage, index, clock, hplan,
            haccepted, rfl, rfl⟩, ⟨clock, heq⟩, by rw [hbytes]; exact hencoded,
            by rw [hprev]; exact hprevious, by rw [hnext]; exact hnew,
            by rw [hbytes, hprev, hnext]; exact hentry⟩, ?_⟩
          rw [applyPatch, if_neg hkey, hprepare]
          simp only [heq, Exec.mapError_ok, hfinish]

end RecordedWorld

namespace ReplayLog

open AuthoritativeWorld

variable {ext : Externals} {clock : ApplyClock} {entryIndex : ℕ} {world world' : AuthoritativeWorld}
  {entry : ReplayEntry}

/-- Everything a replayed entry does: the world accepts its patch, between the recorded revisions
and hashes. -/
structure Replayed (ext : Externals) (world world' : AuthoritativeWorld) (entry : ReplayEntry) :
    Prop where
  accepted : ∃ plan newRevision count scene storage index receipt,
    Accepted world entry.patch plan newRevision count scene storage index ∧
    world' = (world.committed plan storage index).record entry.patch receipt
  previousRevision : world.revision = entry.previousRevision
  newRevision : world'.revision = entry.newRevision
  previousHash : world.logicalHash ext.sha256 = .ok entry.previousSceneHash
  newHash : world'.logicalHash ext.sha256 = .ok entry.newSceneHash

theorem replayEntry_ok (hworld : world.Consistent)
    (h : replayEntry ext clock entryIndex world entry = .ok world') :
    Replayed ext world world' entry ∧
      world' = world.after (.applyPatch entry.patch entry.estimatedVisibleFrame clock) := by
  rw [replayEntry] at h
  split at h
  · cases h
  obtain ⟨previousHash, hprevious, h⟩ := Exec.bind_eq_ok.mp h
  rw [Exec.mapError_eq_ok] at hprevious
  split at h
  · cases h
  rename_i hmatch
  rw [not_or, Decidable.not_not, Decidable.not_not] at hmatch
  obtain ⟨hrevision, rfl⟩ := hmatch
  obtain ⟨receipt, hreceipt, h⟩ := Exec.bind_eq_ok.mp h
  rw [Exec.mapError_eq_ok] at hreceipt
  split at h
  · cases h
  rename_i hcausal
  rw [not_or, not_or, Decidable.not_not, Decidable.not_not, Decidable.not_not] at hcausal
  obtain ⟨hstatus, -, hnew⟩ := hcausal
  obtain ⟨newHash, hhash, h⟩ := Exec.bind_eq_ok.mp h
  rw [Exec.mapError_eq_ok] at hhash
  split at h
  · cases h
  rename_i hsame
  rw [Decidable.not_not] at hsame
  subst hsame
  cases h
  refine ⟨?_, rfl⟩
  rcases applyPatch_cases hworld entry.patch entry.estimatedVisibleFrame clock with
    ⟨_, -, heq⟩ | ⟨replayed, hreplay, heq⟩ |
    ⟨plan, newRevision, count, scene, storage, index, -, haccepted, heq⟩
  · rw [heq] at hreceipt
    cases hreceipt
  · rw [heq] at hreceipt
    cases hreceipt
    obtain ⟨_, -, rfl⟩ := admitPatch_replay hreplay
    cases hstatus
  · rw [heq] at hreceipt hhash ⊢
    cases hreceipt
    refine ⟨⟨plan, newRevision, count, scene, storage, index, _, haccepted, rfl⟩, hrevision, ?_,
      hprevious, hhash⟩
    exact haccepted.next.trans hnew

theorem replayEntries_ok {config : WorldConfig} {clocks : ℕ → ApplyClock}
    {entries : List ReplayEntry} :
    ∀ {entryIndex : ℕ} {world : AuthoritativeWorld} (before : List ReplayEntry),
      Reachable config world → world.revision = (ReplayLink.after before).revision →
      (∀ hash, (ReplayLink.after before).sceneHash = some hash →
        world.logicalHash ext.sha256 = .ok hash) →
      replayEntries ext clocks entryIndex world entries = .ok world' →
        Reachable config world' ∧
        world'.revision = (ReplayLink.after (before ++ entries)).revision ∧
        ∀ hash, (ReplayLink.after (before ++ entries)).sceneHash = some hash →
          world'.logicalHash ext.sha256 = .ok hash := by
  induction entries with
  | nil =>
    intro entryIndex world before hreachable hrevision hhash h
    cases h
    rw [List.append_nil]
    exact ⟨hreachable, hrevision, hhash⟩
  | cons entry entries ih =>
    intro entryIndex world before hreachable hrevision hhash h
    rw [replayEntries] at h
    obtain ⟨middle, hmiddle, h⟩ := Exec.bind_eq_ok.mp h
    obtain ⟨hreplayed, hafter⟩ := replayEntry_ok hreachable.consistent hmiddle
    have hsplit : before ++ entry :: entries = (before ++ [entry]) ++ entries := by simp
    rw [hsplit]
    refine ih (before ++ [entry]) ?_ ?_ ?_ h
    · rw [hafter]
      exact hreachable.call _
    · rw [ReplayLink.after_append]
      exact hreplayed.newRevision
    · rw [ReplayLink.after_append]
      rintro hash ⟨⟩
      exact hreplayed.newHash

theorem replay_ok {config : WorldConfig} {clocks : ℕ → ApplyClock} {log : ReplayLog}
    (h : log.replay ext clocks config = .ok world') :
    replayEntries ext clocks 0 (.new config) log.entries = .ok world' ∧
      Reachable config world' ∧
      world'.revision = (ReplayLink.after log.entries).revision ∧
      ∀ hash, (ReplayLink.after log.entries).sceneHash = some hash →
        world'.logicalHash ext.sha256 = .ok hash := by
  rw [replay] at h
  obtain ⟨_, -, h⟩ := Exec.bind_eq_ok.mp h
  exact ⟨h, replayEntries_ok [] .new rfl (fun _ hash => by cases hash) h⟩

end ReplayLog

/-! ### The invariant of the log -/

namespace RecordedWorld

variable {ext : Externals} {worldConfig : WorldConfig} {replayConfig : ReplayConfig}
  {recorded : RecordedWorld} {patch : ScenePatch} {frame : FrameId}

structure SoundLog (ext : Externals) (replayConfig : ReplayConfig) (log : ReplayLog) : Prop where
  config_eq : log.config = replayConfig
  config_valid : replayConfig.validate = .ok ()
  chained : Chained ext log.entries
  size : ∀ entry ∈ log.entries, entry.encodedBytes ≤ replayConfig.maxEntryBytes.get
  capacity : log.entries.length ≤ replayConfig.maxEntries.get
  stream : log.encodedBytes = (replayHeader ++ framesBytes log.entries).length
  total : log.encodedBytes ≤ replayConfig.maxLogBytes.get

structure Lockstep (ext : Externals) (worldConfig : WorldConfig) (replayConfig : ReplayConfig)
    (recorded : RecordedWorld) : Prop where
  reachable : AuthoritativeWorld.Reachable worldConfig recorded.world
  worldConfig_eq : recorded.worldConfig = worldConfig
  log : SoundLog ext replayConfig recorded.log
  revision : recorded.world.revision = (ReplayLink.after recorded.log.entries).revision
  sceneHash : ∀ hash, (ReplayLink.after recorded.log.entries).sceneHash = some hash →
    recorded.world.logicalHash ext.sha256 = .ok hash

structure Recording (ext : Externals) (worldConfig : WorldConfig) (replayConfig : ReplayConfig)
    (recorded : RecordedWorld) : Prop where
  reachable : AuthoritativeWorld.Reachable worldConfig recorded.world
  worldConfig_eq : recorded.worldConfig = worldConfig
  config_eq : recorded.log.config = replayConfig
  config_valid : replayConfig.validate = .ok ()
  chained : Chained ext recorded.log.entries
  encodes : ∀ entry ∈ recorded.log.entries,
    entry.patch.toCanonicalJson ext.patchJson worldConfig.runtimeLimits = .ok entry.patchBytes
  size : ∀ entry ∈ recorded.log.entries, entry.encodedBytes ≤ replayConfig.maxEntryBytes.get
  capacity : recorded.log.entries.length ≤ replayConfig.maxEntries.get
  stream : recorded.log.encodedBytes =
    (replayHeader ++ framesBytes recorded.log.entries).length
  total : recorded.log.encodedBytes ≤ replayConfig.maxLogBytes.get
  revision : recorded.world.revision = (ReplayLink.after recorded.log.entries).revision
  sceneHash : ∀ hash, (ReplayLink.after recorded.log.entries).sceneHash = some hash →
    recorded.world.logicalHash ext.sha256 = .ok hash

theorem Recording.lockstep (h : Recording ext worldConfig replayConfig recorded) :
    Lockstep ext worldConfig replayConfig recorded :=
  ⟨h.reachable, h.worldConfig_eq,
    ⟨h.config_eq, h.config_valid, h.chained, h.size, h.capacity, h.stream, h.total⟩, h.revision,
    h.sceneHash⟩

theorem Lockstep.recording (h : Lockstep ext worldConfig replayConfig recorded)
    (hencodes : ∀ entry ∈ recorded.log.entries,
      entry.patch.toCanonicalJson ext.patchJson worldConfig.runtimeLimits = .ok entry.patchBytes) :
    Recording ext worldConfig replayConfig recorded :=
  ⟨h.reachable, h.worldConfig_eq, h.log.config_eq, h.log.config_valid, h.log.chained, hencodes,
    h.log.size, h.log.capacity, h.log.stream, h.log.total, h.revision, h.sceneHash⟩

theorem encodePatch_ok {patchBytes : List UInt8}
    (h : recorded.encodePatch ext patch = .ok patchBytes) :
    patch.toCanonicalJson ext.patchJson recorded.worldConfig.runtimeLimits = .ok patchBytes ∧
      recorded.log.entries.length < recorded.log.config.maxEntries.get ∧
      entryEnvelopeBytes + patchBytes.length ≤ recorded.log.config.maxEntryBytes.get ∧
      recorded.log.encodedBytes + (entryEnvelopeBytes + patchBytes.length) ≤
        recorded.log.config.maxLogBytes.get := by
  have hentry := recorded.log.config.maxEntryBytes.lt
  have hlog := recorded.log.config.maxLogBytes.lt
  rw [encodePatch] at h
  obtain ⟨bytes, hbytes, h⟩ := Exec.bind_eq_ok.mp h
  rw [Exec.mapError_eq_ok, Exec.ofExcept_eq_ok] at hbytes
  dsimp only at h
  split at h
  · cases h
  split at h
  · cases h
  split at h
  · cases h
  cases h
  rename_i hcapacity hsize htotal
  simp only [satAdd, entryEnvelopeBytes, fixedEntryBodyBytes] at hsize htotal ⊢
  exact ⟨hbytes, by omega, by omega, by omega⟩

theorem Appended.entry_fields {world : AuthoritativeWorld} {receipt : ApplyReceipt}
    {entry : ReplayEntry} (h : Appended ext recorded patch frame world receipt entry) :
    entry.sequence = .ofNat (recorded.log.entries.length + 1) ∧ entry.patch = patch ∧
      entry.estimatedVisibleFrame = frame ∧ entry.previousRevision = recorded.world.revision ∧
      entry.newRevision = receipt.newRevision ∧
      entry.previousEntryHash = recorded.log.lastEntryHash ∧
      (entry.computeHash ext : Exec RecordedApplyError Digest) = .ok entry.entryHash := by
  obtain ⟨hash, hhash, hfields⟩ := newEntry_ok h.entry_eq
  rw [hfields] at hhash ⊢
  exact ⟨rfl, rfl, rfl, rfl, rfl, rfl, hhash⟩

theorem Lockstep.takeRenderExtraction (h : Lockstep ext worldConfig replayConfig recorded) :
    Lockstep ext worldConfig replayConfig recorded.takeRenderExtraction.1 := by
  have hreachable := h.reachable.call .takeRenderExtraction
  rw [AuthoritativeWorld.after] at hreachable
  refine ⟨hreachable, h.worldConfig_eq, h.log, ?_, ?_⟩
  all_goals
    rw [RecordedWorld.takeRenderExtraction]
    rcases recorded.world.takeRenderExtraction_cases with ⟨_, -, heq⟩ | ⟨extraction, -, heq⟩
  · rw [heq]
    exact h.revision
  · rw [heq]
    exact h.revision
  · rw [heq]
    exact h.sceneHash
  · rw [heq]
    exact h.sceneHash

theorem Lockstep.checkEntry {world : AuthoritativeWorld} {receipt : ApplyReceipt}
    {entry : ReplayEntry} (h : Lockstep ext worldConfig replayConfig recorded)
    (happended : Appended ext recorded patch frame world receipt entry) :
    checkEntry ext recorded.log.entries.length (.after recorded.log.entries) entry = .ok () := by
  obtain ⟨-, hcapacity, hsize, -⟩ := encodePatch_ok happended.encoded
  obtain ⟨hsequence, -, -, hprevious, hnew, hlast, hhash⟩ := happended.entry_fields
  obtain ⟨plan, newRevision, count, scene, storage, index, clock, -, haccepted, rfl, -⟩ :=
    happended.accepted
  have hlt := recorded.log.config.maxEntries.lt
  have hfits : entry.Fits := ReplayEntry.fits_of_size hsize
  rw [hfits.computeHash] at hhash
  rw [Cogniform.checkEntry, if_neg (by omega), if_neg, if_neg, if_neg, if_neg,
    hfits.computeHash, Exec.ok_bind, if_neg]
  · rw [Decidable.not_not]
    exact (Except.ok.inj hhash).symm
  · -- the scene hash of the last entry is the hash the world has now
    cases hscene : (ReplayLink.after recorded.log.entries).sceneHash with
    | none => simp
    | some hash =>
      have hcurrent := (h.sceneHash hash hscene).symm.trans happended.previousHash
      rw [Except.ok.injEq] at hcurrent
      simp [hcurrent]
  · rw [Decidable.not_not, hlast]
    rfl
  · rw [not_or, Decidable.not_not, Decidable.not_not, hprevious, hnew]
    exact ⟨h.revision, haccepted.revision⟩
  · rw [Decidable.not_not, hsequence]
    exact UInt64.toNat_ofNat_of_lt' (by rw [UInt64.size]; omega)

theorem Lockstep.append {world : AuthoritativeWorld} {receipt : ApplyReceipt}
    {entry : ReplayEntry} (h : Lockstep ext worldConfig replayConfig recorded)
    (happended : Appended ext recorded patch frame world receipt entry) :
    Lockstep ext worldConfig replayConfig
      { recorded with world := world, log := recorded.log.append entry } := by
  obtain ⟨-, hcapacity, hsize, htotal⟩ := encodePatch_ok happended.encoded
  obtain ⟨-, hpatch, -, -, hnew, -, -⟩ := happended.entry_fields
  rw [h.log.config_eq] at hcapacity hsize htotal
  have hlog := replayConfig.maxLogBytes.lt
  have hbytes : (recorded.log.append entry).encodedBytes =
      recorded.log.encodedBytes + entry.encodedBytes := by
    rw [ReplayLog.append, satAdd, ReplayEntry.encodedBytes]
    exact Nat.min_eq_left (by omega)
  have hframe : framesBytes [entry] = entry.frameBytes := by simp [framesBytes]
  have hreachable : AuthoritativeWorld.Reachable worldConfig world := by
    obtain ⟨clock, happly⟩ := happended.applied
    have hcall := h.reachable.call (.applyPatch patch frame clock)
    rwa [AuthoritativeWorld.after, happly] at hcall
  have hsound : SoundLog ext replayConfig (recorded.log.append entry) := by
    refine ⟨h.log.config_eq, h.log.config_valid, h.log.chained.append (h.checkEntry happended),
      fun other hother => ?_, ?_, ?_, hbytes.trans_le htotal⟩
    · rcases List.mem_append.mp hother with hother | hother
      · exact h.log.size other hother
      · rw [List.mem_singleton.mp hother]
        exact hsize
    · change (recorded.log.entries ++ [entry]).length ≤ _
      rw [List.length_append]
      exact hcapacity
    · change (recorded.log.append entry).encodedBytes =
        (replayHeader ++ framesBytes (recorded.log.entries ++ [entry])).length
      rw [hbytes, h.log.stream, framesBytes_append, hframe, ← List.append_assoc,
        ← entry.length_frameBytes, ← List.length_append]
  refine ⟨hreachable, h.worldConfig_eq, hsound, ?_, ?_⟩
  · change world.revision = (ReplayLink.after (recorded.log.entries ++ [entry])).revision
    obtain ⟨plan, newRevision, count, scene, storage, index, clock, -, haccepted, rfl, rfl⟩ :=
      happended.accepted
    rw [ReplayLink.after_append]
    exact haccepted.next.trans hnew.symm
  · change ∀ hash, (ReplayLink.after (recorded.log.entries ++ [entry])).sceneHash = some hash → _
    rw [ReplayLink.after_append]
    rintro hash ⟨⟩
    exact happended.newHash

theorem Recording.append {world : AuthoritativeWorld} {receipt : ApplyReceipt}
    {entry : ReplayEntry} (h : Recording ext worldConfig replayConfig recorded)
    (happended : Appended ext recorded patch frame world receipt entry) :
    Recording ext worldConfig replayConfig
      { recorded with world := world, log := recorded.log.append entry } := by
  obtain ⟨hjson, -⟩ := encodePatch_ok happended.encoded
  obtain ⟨-, hpatch, -⟩ := happended.entry_fields
  refine (h.lockstep.append happended).recording fun other hother => ?_
  rcases List.mem_append.mp hother with hother | hother
  · exact h.encodes other hother
  · rw [List.mem_singleton.mp hother, hpatch, ← h.worldConfig_eq]
    exact hjson

theorem SoundLog.new (hvalid : replayConfig.validate = .ok ()) :
    SoundLog ext replayConfig (.new replayConfig) := by
  refine ⟨rfl, hvalid, .nil, by simp [ReplayLog.new], Nat.zero_le _, rfl, ?_⟩
  change replayHeader.length ≤ _
  rw [ReplayConfig.validate] at hvalid
  split at hvalid
  · cases hvalid
  · rw [length_replayHeader]
    omega

theorem Lockstep.new (h : RecordedWorld.new worldConfig replayConfig = .ok recorded) :
    Lockstep ext worldConfig replayConfig recorded := by
  rw [RecordedWorld.new] at h
  split at h
  · cases h
  · rename_i hvalid
    cases h
    exact ⟨.new, rfl, .new hvalid, rfl, fun _ hash => by cases hash⟩

theorem SoundLog.of_loaded {encoded : List UInt8} {limits : RuntimeLimits} {log : ReplayLog}
    {offset : ℕ} (hvalid : replayConfig.validate = .ok ())
    (hsize : encoded.length ≤ replayConfig.maxLogBytes.get)
    (h : Loaded ext replayConfig limits encoded log offset) : SoundLog ext replayConfig log := by
  refine ⟨h.config_eq, hvalid, h.valid.chained, h.valid.size, h.valid.capacity, ?_,
    h.size.trans_le (h.le.trans hsize)⟩
  rw [h.stream, List.length_take, Nat.min_eq_left h.le, h.size]

theorem Lockstep.restore {clocks : ℕ → ApplyClock} {log : ReplayLog}
    (hlog : SoundLog ext replayConfig log)
    (h : RecordedWorld.restore ext clocks worldConfig log = .ok recorded) :
    Lockstep ext worldConfig replayConfig recorded := by
  rw [RecordedWorld.restore] at h
  obtain ⟨world, hreplay, h⟩ := Exec.bind_eq_ok.mp h
  cases h
  obtain ⟨-, hreachable, hrevision, hhash⟩ := ReplayLog.replay_ok hreplay
  exact ⟨hreachable, rfl, hlog, hrevision, hhash⟩

theorem loadPrefix_complete {encoded : List UInt8} {limits : RuntimeLimits} {log : ReplayLog}
    (h : (ReplayLog.loadPrefix ext encoded replayConfig limits : Exec Empty ReplayLoad) =
      .ok ⟨log, none⟩) :
    replayConfig.validate = .ok () ∧ encoded.length ≤ replayConfig.maxLogBytes.get ∧
      Loaded ext replayConfig limits encoded log encoded.length := by
  have htail : ∀ kind, (ReplayLoad.withTail (.new replayConfig) 0 kind : Exec Empty ReplayLoad) ≠
      .ok ⟨log, none⟩ := by
    intro kind heq
    rw [ReplayLoad.withTail] at heq
    split at heq
    · cases heq
    · cases heq
  have hload := h
  rw [ReplayLog.loadPrefix] at h
  split at h
  · exact absurd h (htail _)
  rename_i hvalid
  split at h
  · exact absurd h (htail _)
  rename_i hsize
  split at h
  · exact absurd h (htail _)
  rename_i hheader
  rw [Nat.not_lt] at hsize
  rw [Decidable.not_not] at hheader
  obtain ⟨log', offset, tail, heq, hloaded, hstop⟩ := loadPrefix_eq hvalid hsize hheader
  rw [heq] at hload
  cases hload
  rw [hstop] at hloaded
  exact ⟨hvalid, hsize, hloaded⟩

theorem Run.recording (h : Run ext worldConfig replayConfig recorded) :
    Recording ext worldConfig replayConfig recorded := by
  induction h with
  | new h =>
    refine (Lockstep.new h).recording ?_
    rw [RecordedWorld.new] at h
    split at h
    · cases h
    · cases h
      simp [ReplayLog.new]
  | @restore bytes log clocks recorded hload h =>
    obtain ⟨hvalid, hsize, hloaded⟩ := loadPrefix_complete hload
    have hlockstep := Lockstep.restore (.of_loaded hvalid hsize hloaded) h
    rw [RecordedWorld.restore] at h
    obtain ⟨world, -, h⟩ := Exec.bind_eq_ok.mp h
    cases h
    exact hlockstep.recording fun entry hentry => (hloaded.valid.canonical entry hentry).encodes
  | @applyPatch recorded _ patch frame clock hreturns ih =>
    rcases applyPatch_cases ih.reachable.consistent hreturns with ⟨heq, -⟩ |
      ⟨world, receipt, entry, happended, heq⟩
    · rwa [heq]
    · rw [heq]
      exact ih.append happended
  | @takeRenderExtraction recorded _ ih =>
    exact ih.lockstep.takeRenderExtraction.recording ih.encodes

/-! ### Truncated streams -/

/-- Where the frame of the `count`-th entry ends, and for `0` where the header does. -/
def boundary (entries : List ReplayEntry) (count : ℕ) : ℕ :=
  replayHeader.length + ((entries.take count).map ReplayEntry.encodedBytes).sum

theorem length_stream (entries : List ReplayEntry) :
    (replayHeader ++ framesBytes entries).length =
      replayHeader.length + (entries.map ReplayEntry.encodedBytes).sum := by
  rw [List.length_append, framesBytes, List.length_flatMap]
  simp only [ReplayEntry.length_frameBytes]

theorem boundary_eq (entries : List ReplayEntry) (count : ℕ) :
    boundary entries count = (replayHeader ++ framesBytes (entries.take count)).length :=
  (length_stream _).symm

theorem stream_take_take (entries : List ReplayEntry) (count : ℕ) :
    replayHeader ++ framesBytes (entries.take count) <+: replayHeader ++ framesBytes entries := by
  refine ⟨framesBytes (entries.drop count), ?_⟩
  rw [List.append_assoc, ← framesBytes_append, List.take_append_drop]

theorem boundary_mono (entries : List ReplayEntry) {count count' : ℕ} (h : count ≤ count') :
    boundary entries count ≤ boundary entries count' := by
  have hprefix := stream_take_take (entries.take count') count
  rw [List.take_take, Nat.min_eq_left h] at hprefix
  rw [boundary_eq, boundary_eq]
  exact hprefix.length_le

theorem boundary_length (entries : List ReplayEntry) :
    boundary entries entries.length = (replayHeader ++ framesBytes entries).length := by
  rw [boundary_eq, List.take_length]

theorem header_le_boundary (entries : List ReplayEntry) (count : ℕ) :
    8 ≤ boundary entries count := by
  rw [boundary, length_replayHeader]
  exact Nat.le_add_right ..

theorem Recording.loaded (h : Recording ext worldConfig replayConfig recorded)
    (hcodec : ∀ patch bytes, patch.toCanonicalJson ext.patchJson worldConfig.runtimeLimits =
      .ok bytes → ScenePatch.fromJson ext.patchJson bytes worldConfig.runtimeLimits = .ok patch) :
    Loaded ext replayConfig worldConfig.runtimeLimits
      (replayHeader ++ framesBytes recorded.log.entries) recorded.log
      (replayHeader ++ framesBytes recorded.log.entries).length where
  config_eq := h.config_eq
  valid := ⟨h.chained, fun entry hentry => ⟨hcodec _ _ (h.encodes entry hentry),
    h.encodes entry hentry⟩, h.size, h.capacity⟩
  size := h.stream
  stream := (List.take_length ..).symm
  le := le_rfl

theorem loadPrefix_short {encoded : List UInt8} {limits : RuntimeLimits}
    (hvalid : replayConfig.validate = .ok ()) (hsize : encoded.length ≤ replayConfig.maxLogBytes.get)
    (hshort : encoded.length < 8) :
    (ReplayLog.loadPrefix ext encoded replayConfig limits : Exec Empty ReplayLoad) =
      .ok ⟨.new replayConfig, some ⟨0, 0, .invalidHeader⟩⟩ := by
  have hheader : encoded.take 8 ≠ replayHeader := by
    intro heq
    have hlength := congrArg List.length heq
    rw [List.length_take, length_replayHeader] at hlength
    omega
  rw [ReplayLog.loadPrefix, hvalid]
  simp only
  rw [if_neg (Nat.not_lt.mpr hsize), if_pos hheader]
  rfl

theorem Recording.loadPrefix_take (h : Recording ext worldConfig replayConfig recorded)
    (hcodec : ∀ patch bytes, patch.toCanonicalJson ext.patchJson worldConfig.runtimeLimits =
      .ok bytes → ScenePatch.fromJson ext.patchJson bytes worldConfig.runtimeLimits = .ok patch)
    {n : ℕ} (hheader : 8 ≤ n)
    (hn : n ≤ (replayHeader ++ framesBytes recorded.log.entries).length) :
    ∃ log tail, (ReplayLog.loadPrefix ext ((replayHeader ++ framesBytes recorded.log.entries).take n)
        replayConfig worldConfig.runtimeLimits : Exec Empty ReplayLoad) = .ok ⟨log, tail⟩ ∧
      log.config = replayConfig ∧
      log.encodedBytes = boundary recorded.log.entries log.entries.length ∧
      log.entries <+: recorded.log.entries ∧
      boundary recorded.log.entries log.entries.length ≤ n ∧
      (∀ count ≤ recorded.log.entries.length, boundary recorded.log.entries count ≤ n →
        count ≤ log.entries.length) ∧
      (tail = none ↔ boundary recorded.log.entries log.entries.length = n) := by
  have hstream := h.loaded hcodec
  have htotal := h.total
  rw [h.stream] at htotal
  have hlength := List.length_take_of_le hn
  have htake : ((replayHeader ++ framesBytes recorded.log.entries).take n).take 8 =
      replayHeader := by
    rw [List.take_take, Nat.min_eq_left hheader, List.take_left' length_replayHeader]
  obtain ⟨log, offset, tail, hload, hloaded, hstop⟩ :=
    @loadPrefix_eq ext _ worldConfig.runtimeLimits _ Empty h.config_valid
      (by rw [hlength]; exact hn.trans htotal) htake
  have hle := hloaded.le
  rw [hlength] at hle
  -- the loaded entries are a prefix of the recorded ones, as the stream ends with the latter
  have hprefix : log.entries <+: recorded.log.entries := by
    refine prefix_of_valid hstream (not_acceptable_of_length_le le_rfl) hloaded.valid ?_
    rw [hloaded.stream]
    exact (List.take_prefix ..).trans (List.take_prefix ..)
  have hentries := List.prefix_iff_eq_take.mp hprefix
  have hoffset : boundary recorded.log.entries log.entries.length = offset := by
    rw [boundary_eq, ← hentries, hloaded.stream, List.length_take, hlength, Nat.min_eq_left hle]
  have hmaximal : ∀ entry, ¬ Acceptable ext replayConfig worldConfig.runtimeLimits
      ((replayHeader ++ framesBytes recorded.log.entries).take n) log offset entry := by
    cases tail with
    | none => exact not_acceptable_of_length_le hstop.ge
    | some error => exact not_acceptable_of_fail hstop.2.2.2
  refine ⟨log, tail, hload, hloaded.config_eq, hloaded.size.trans hoffset.symm, hprefix,
    hoffset.trans_le hle, fun count hcount hboundary => ?_, ?_⟩
  · -- every recorded entry before the cut is in the truncated stream
    have hcut : replayHeader ++ framesBytes (recorded.log.entries.take count) <+:
        (replayHeader ++ framesBytes recorded.log.entries).take n := by
      rw [boundary_eq] at hboundary
      exact List.prefix_take_iff.mpr ⟨stream_take_take .., hboundary⟩
    have htaken := (prefix_of_valid hloaded hmaximal (hstream.valid.take count) hcut).length_le
    rwa [List.length_take, Nat.min_eq_left hcount] at htaken
  · rw [hoffset]
    cases tail with
    | none => exact iff_of_true rfl (hstop.trans hlength)
    | some error => exact iff_of_false (by simp) (by rw [← hlength]; exact hstop.2.2.1.ne)

/-- **Loading a truncated stream.** Cut the stream of a recorded log anywhere: the entries whose
frames end at or before the cut are loaded, no tail is reported exactly when the cut is an entry
boundary at or after the header, and the whole stream gives the recorded log back. -/
theorem loadPrefix_truncated (ext : Externals) (worldConfig : WorldConfig)
    (replayConfig : ReplayConfig) (recorded : RecordedWorld)
    (hcodec : ∀ patch bytes, patch.toCanonicalJson ext.patchJson worldConfig.runtimeLimits =
      .ok bytes → ScenePatch.fromJson ext.patchJson bytes worldConfig.runtimeLimits = .ok patch)
    (hrun : Run ext worldConfig replayConfig recorded) :
    ∃ bytes, (recorded.log.toBytes : Exec Empty (List UInt8)) = .ok bytes ∧
      ∀ n ≤ bytes.length, ∃ load kept,
        (ReplayLog.loadPrefix ext (bytes.take n) replayConfig worldConfig.runtimeLimits :
          Exec Empty ReplayLoad) = .ok load ∧
        load.log.entries = recorded.log.entries.take kept ∧
        (∀ i < recorded.log.entries.length,
          i < kept ↔ boundary recorded.log.entries (i + 1) ≤ n) ∧
        (load.tail = none ↔
          ∃ count ≤ recorded.log.entries.length, n = boundary recorded.log.entries count) ∧
        (n = bytes.length → load = ⟨recorded.log, none⟩) := by
  have h := hrun.recording
  have htotal := h.total
  rw [h.stream] at htotal
  refine ⟨_, toBytes_eq fun entry hentry => ReplayEntry.fits_of_size (h.size entry hentry),
    fun n hn => ?_⟩
  have hlength := List.length_take_of_le hn
  by_cases hheader : n < 8
  · -- a cut inside the header
    have hbelow : ∀ count, ¬ boundary recorded.log.entries count ≤ n := by
      intro count
      have := header_le_boundary recorded.log.entries count
      omega
    refine ⟨_, 0, loadPrefix_short h.config_valid (by rw [hlength]; exact hn.trans htotal)
      (by rwa [hlength]), rfl, fun i _ => iff_of_false (Nat.not_lt_zero i) (hbelow _),
      iff_of_false (by simp) ?_, fun hfull => ?_⟩
    · rintro ⟨count, -, rfl⟩
      exact hbelow count le_rfl
    · exact absurd (boundary_length _ |>.trans hfull.symm).le (hbelow _)
  · obtain ⟨log, tail, hload, hconfig, hsize, hprefix, hle, hkept, htail⟩ :=
      h.loadPrefix_take hcodec (Nat.not_lt.mp hheader) hn
    refine ⟨⟨log, tail⟩, log.entries.length, hload, List.prefix_iff_eq_take.mp hprefix,
      fun i hi => ⟨fun hlt => (boundary_mono _ hlt).trans hle, hkept (i + 1) hi⟩, ?_, ?_⟩
    · rw [htail]
      refine ⟨fun heq => ⟨_, hprefix.length_le, heq.symm⟩, ?_⟩
      rintro ⟨count, hcount, rfl⟩
      exact Nat.le_antisymm hle (boundary_mono _ (hkept count hcount le_rfl))
    · intro hfull
      have hall := hkept _ le_rfl ((boundary_length _).trans hfull.symm).le
      have heq : log.entries = recorded.log.entries := hprefix.eq_of_length_le hall
      have hnone : tail = none := by rw [htail, heq, boundary_length, hfull]
      have hlog : log = recorded.log := by
        rw [heq, boundary_length, ← h.stream] at hsize
        rw [← h.config_eq] at hconfig
        cases log
        cases hrecorded : recorded.log
        simp_all
      rw [hlog, hnone]

def soloExternals (patch : ScenePatch) : Externals where
  sha256 _ := .replicate 32 0
  patchJson := ⟨fun other => if other = patch then some [0x7b, 0x7d] else none,
    fun bytes => if bytes = [0x7b, 0x7d, 0x0a] then .ok patch else .error ⟨.data, 1, 1⟩⟩

theorem soloExternals_codec {patch : ScenePatch} {limits : RuntimeLimits}
    (h : ScenePatch.fromJson (soloExternals patch).patchJson [0x7b, 0x7d, 0x0a] limits =
      .ok patch) :
    ∀ other bytes, other.toCanonicalJson (soloExternals patch).patchJson limits = .ok bytes →
      ScenePatch.fromJson (soloExternals patch).patchJson bytes limits = .ok other := by
  intro other bytes hencode
  obtain ⟨-, written, hwritten, rfl⟩ := encode_ok hencode
  rw [soloExternals, Option.ite_none_right_eq_some, Option.some.injEq] at hwritten
  obtain ⟨rfl, rfl⟩ := hwritten
  exact h

def sampleRecorded : RecordedWorld :=
  ((⟨.new .default, .default, .new .default⟩ : RecordedWorld).applyPatch
    (soloExternals AuthoritativeWorld.samplePatch) AuthoritativeWorld.samplePatch (.lit 1)
    ⟨0, 0⟩).1

theorem run_sampleRecorded :
    Run (soloExternals AuthoritativeWorld.samplePatch) .default .default sampleRecorded :=
  .applyPatch (.new rfl) _ _ _ (.of_isSome (by decide +kernel))

theorem loadPrefix_truncated_sample :
    sampleRecorded.log.entries.length = 1 ∧
      ∃ bytes, (sampleRecorded.log.toBytes : Exec Empty (List UInt8)) = .ok bytes ∧
        (ReplayLog.loadPrefix (soloExternals AuthoritativeWorld.samplePatch) bytes .default
          WorldConfig.default.runtimeLimits : Exec Empty ReplayLoad) =
            .ok ⟨sampleRecorded.log, none⟩ := by
  obtain ⟨bytes, hbytes, hload⟩ := loadPrefix_truncated _ .default .default sampleRecorded
    (soloExternals_codec (by decide +kernel)) run_sampleRecorded
  obtain ⟨load, kept, htake, -, -, -, hfull⟩ := hload bytes.length le_rfl
  rw [List.take_length, hfull rfl] at htake
  exact ⟨by decide +kernel, bytes, hbytes, htake⟩

end RecordedWorld

end Cogniform
