import Cogniform.Protocol.Codec
import Cogniform.World.Apply

/-!
# The replay log

An append-only list of accepted patches. Each entry carries the canonical bytes of its patch, the
revisions and logical hashes around it, the digest of the entry before it and its own. SHA-256 and
the JSON library enter through `Externals`, as arbitrary functions.
-/

namespace Cogniform

structure Externals where
  sha256 : List UInt8 → Digest
  patchJson : Serde ScenePatch

/-! ### Bounds -/

structure ReplayConfig where
  maxEntries : NonZeroU32
  maxEntryBytes : NonZeroU32
  maxLogBytes : NonZeroU32
  deriving DecidableEq

def ReplayConfig.default : ReplayConfig where
  maxEntries := .lit 4_096
  maxEntryBytes := .lit 1_049_000
  maxLogBytes := .lit 67_108_864

structure ReplayConfigError where
  actual : ℕ
  minimum : ℕ
  deriving DecidableEq

def replayHeader : List UInt8 := asciiBytes "CNFRPL1\n"

def fixedEntryBodyBytes : ℕ := 166

def entryEnvelopeBytes : ℕ := 4 + fixedEntryBodyBytes

theorem length_replayHeader : replayHeader.length = 8 := by decide

def ReplayConfig.validate (config : ReplayConfig) : Except ReplayConfigError Unit :=
  if config.maxLogBytes.get < 8 then .error ⟨config.maxLogBytes.get, 8⟩ else .ok ()

inductive ReplayIntegrityErrorKind where
  | sequenceGap | revisionGap | previousEntryHashMismatch | previousSceneHashMismatch
  | entryHashMismatch
  deriving DecidableEq

structure ReplayIntegrityError where
  entryIndex : ℕ
  kind : ReplayIntegrityErrorKind
  deriving DecidableEq

inductive ReplayTailErrorKind where
  | invalidConfig (error : ReplayConfigError)
  | invalidHeader | truncated | logSizeExceeded | entrySizeExceeded | entryCapacityExceeded
  | malformedEntry
  | invalidPatch (error : CodecError)
  | nonCanonicalPatch
  | integrity (kind : ReplayIntegrityErrorKind)
  deriving DecidableEq

structure ReplayTailError where
  verifiedEntries : ℕ
  offset : ℕ
  kind : ReplayTailErrorKind
  deriving DecidableEq

inductive ReplayError where
  | tail (error : ReplayTailError)
  | integrity (error : ReplayIntegrityError)
  | world (entryIndex : ℕ) (source : WorldApplyError)
  | invariant (entryIndex : ℕ) (source : WorldInvariantError)
  | revisionMismatch (entryIndex : ℕ)
  | sceneHashMismatch (entryIndex : ℕ)
  deriving DecidableEq

structure ReplayRevisionError where
  requested : SceneRevision
  latest : SceneRevision
  deriving DecidableEq

structure ReplayEntry where
  sequence : UInt64
  patch : ScenePatch
  patchBytes : List UInt8
  estimatedVisibleFrame : FrameId
  previousRevision : SceneRevision
  newRevision : SceneRevision
  previousSceneHash : Digest
  newSceneHash : Digest
  previousEntryHash : Digest
  entryHash : Digest
  deriving DecidableEq

def zeroEntryHash : Digest := .replicate 32 0

namespace ReplayEntry

def encodedBytes (entry : ReplayEntry) : ℕ := entryEnvelopeBytes + entry.patchBytes.length

def leadBytes (entry : ReplayEntry) : List UInt8 :=
  bigEndian 2 1 ++ bigEndian 8 entry.sequence.toNat
    ++ bigEndian 8 entry.estimatedVisibleFrame.get.toNat
    ++ bigEndian 8 entry.previousRevision.get.toNat ++ bigEndian 8 entry.newRevision.get.toNat
    ++ entry.previousSceneHash.toList ++ entry.newSceneHash.toList
    ++ entry.previousEntryHash.toList

/-- `update_hash_fields`: the fields an entry digest covers. -/
def hashFields {ε : Type} (entry : ReplayEntry) : Exec ε (List UInt8) := do
  let length ← lengthBytes "protocol encoded byte bound fits u32" entry.patchBytes.length
  .ok (entry.leadBytes ++ length ++ entry.patchBytes)

def computeHash {ε : Type} (ext : Externals) (entry : ReplayEntry) : Exec ε Digest := do
  let fields ← entry.hashFields
  .ok (ext.sha256 (asciiBytes "cogniform.replay-entry\x00" ++ fields))

def encodeInto {ε : Type} (entry : ReplayEntry) : Exec ε (List UInt8) := do
  let length ← lengthBytes "admitted replay entry length fits u32"
    (fixedEntryBodyBytes + entry.patchBytes.length)
  let fields ← entry.hashFields
  .ok (length ++ fields ++ entry.entryHash.toList)

end ReplayEntry

/-! ### Logs -/

structure ReplayLog where
  config : ReplayConfig
  entries : List ReplayEntry
  encodedBytes : ℕ
  deriving DecidableEq

structure ReplayLink where
  entryHash : Digest
  sceneHash : Option Digest
  revision : SceneRevision

def ReplayEntry.link (entry : ReplayEntry) : ReplayLink :=
  ⟨entry.entryHash, some entry.newSceneHash, entry.newRevision⟩

def ReplayLink.initial : ReplayLink := ⟨zeroEntryHash, none, .initial⟩

def ReplayLink.after (entries : List ReplayEntry) : ReplayLink :=
  (entries.getLast?.map ReplayEntry.link).getD .initial

/-- The checks that `verify` and `verify_next` make on one entry, in their order. -/
def checkEntry (ext : Externals) (entryIndex : ℕ) (link : ReplayLink) (entry : ReplayEntry) :
    Exec ReplayIntegrityError Unit :=
  if 2 ^ 32 ≤ entryIndex then .error (.panic "replay entry bound fits u32")
  else if entry.sequence.toNat ≠ entryIndex + 1 then Exec.fail ⟨entryIndex, .sequenceGap⟩
  else if entry.previousRevision ≠ link.revision
      ∨ entry.previousRevision.checkedNext ≠ some entry.newRevision then
    Exec.fail ⟨entryIndex, .revisionGap⟩
  else if entry.previousEntryHash ≠ link.entryHash then
    Exec.fail ⟨entryIndex, .previousEntryHashMismatch⟩
  else if link.sceneHash.any (· ≠ entry.previousSceneHash) then
    Exec.fail ⟨entryIndex, .previousSceneHashMismatch⟩
  else do
    let hash ← entry.computeHash ext
    if entry.entryHash ≠ hash then Exec.fail ⟨entryIndex, .entryHashMismatch⟩ else .ok ()

def verifyEntries (ext : Externals) :
    ℕ → ReplayLink → List ReplayEntry → Exec ReplayIntegrityError ReplayLink
  | _, link, [] => .ok link
  | entryIndex, link, entry :: entries => do
    checkEntry ext entryIndex link entry
    verifyEntries ext (entryIndex + 1) entry.link entries

structure ReplayVerification where
  entryCount : ℕ
  finalRevision : SceneRevision
  finalSceneHash : Option Digest
  finalEntryHash : Digest
  deriving DecidableEq

def encodeEntries {ε : Type} : List ReplayEntry → Exec ε (List UInt8)
  | [] => .ok []
  | entry :: entries => do
    let frame ← entry.encodeInto
    let rest ← encodeEntries entries
    .ok (frame ++ rest)

namespace ReplayLog

def new (config : ReplayConfig) : ReplayLog := ⟨config, [], replayHeader.length⟩

def verify (ext : Externals) (log : ReplayLog) : Exec ReplayIntegrityError ReplayVerification := do
  let link ← verifyEntries ext 0 .initial log.entries
  if 2 ^ 32 ≤ log.entries.length then .error (.panic "replay entry bound fits u32")
  else .ok ⟨log.entries.length, link.revision, link.sceneHash, link.entryHash⟩

def verifyNext (ext : Externals) (log : ReplayLog) (entry : ReplayEntry) :
    Exec ReplayIntegrityError Unit :=
  checkEntry ext log.entries.length (.after log.entries) entry

def toBytes {ε : Type} (log : ReplayLog) : Exec ε (List UInt8) := do
  let frames ← encodeEntries log.entries
  .ok (replayHeader ++ frames)

def reserveEntries {ε : Type} : ℕ → List ReplayEntry → Exec ε ℕ
  | total, [] => .ok total
  | total, entry :: entries =>
    if 2 ^ 64 ≤ total + entry.encodedBytes then
      .error (.panic "retained entries fit the configured replay byte bound")
    else reserveEntries (total + entry.encodedBytes) entries

/-- `to_bytes_through_revision`: the stream of the entries up to a revision. -/
def toBytesThroughRevision (log : ReplayLog) (revision : SceneRevision) :
    Exec ReplayRevisionError (List UInt8) :=
  let latest := (ReplayLink.after log.entries).revision
  if latest.get < revision.get then Exec.fail ⟨revision, latest⟩
  else if log.entries.length < revision.get.toNat then
    .error (.panic "range end index out of range for slice")
  else do
    let _ ← reserveEntries replayHeader.length (log.entries.take revision.get.toNat)
    let frames ← encodeEntries (log.entries.take revision.get.toNat)
    .ok (replayHeader ++ frames)

def lastEntryHash (log : ReplayLog) : Digest := (ReplayLink.after log.entries).entryHash

def append (log : ReplayLog) (entry : ReplayEntry) : ReplayLog :=
  { log with
    encodedBytes := satAdd log.encodedBytes entry.encodedBytes
    entries := log.entries ++ [entry] }

def replayEntry (ext : Externals) (clock : AuthoritativeWorld.ApplyClock) (entryIndex : ℕ)
    (world : AuthoritativeWorld) (entry : ReplayEntry) : Exec ReplayError AuthoritativeWorld :=
  if 2 ^ 32 ≤ entryIndex then .error (.panic "replay entry bound fits u32")
  else do
    let previousHash ← (world.logicalHash ext.sha256).mapError (.invariant entryIndex)
    if world.revision ≠ entry.previousRevision ∨ previousHash ≠ entry.previousSceneHash then
      Exec.fail (.sceneHashMismatch entryIndex)
    else
      let applied := world.applyPatch entry.patch entry.estimatedVisibleFrame clock
      let receipt ← applied.2.mapError (.world entryIndex)
      if receipt.status ≠ .applied ∨ receipt.previousRevision ≠ entry.previousRevision
          ∨ receipt.newRevision ≠ entry.newRevision then
        Exec.fail (.revisionMismatch entryIndex)
      else do
        let newHash ← (applied.1.logicalHash ext.sha256).mapError (.invariant entryIndex)
        if newHash ≠ entry.newSceneHash then Exec.fail (.sceneHashMismatch entryIndex)
        else .ok applied.1

/-- Replay entries in order; `clocks` are the clock readings at each entry. -/
def replayEntries (ext : Externals) (clocks : ℕ → AuthoritativeWorld.ApplyClock) :
    ℕ → AuthoritativeWorld → List ReplayEntry → Exec ReplayError AuthoritativeWorld
  | _, world, [] => .ok world
  | entryIndex, world, entry :: entries => do
    let world ← replayEntry ext (clocks entryIndex) entryIndex world entry
    replayEntries ext clocks (entryIndex + 1) world entries

def replay (ext : Externals) (clocks : ℕ → AuthoritativeWorld.ApplyClock) (log : ReplayLog)
    (worldConfig : WorldConfig) : Exec ReplayError AuthoritativeWorld := do
  let _ ← (log.verify ext).mapError .integrity
  replayEntries ext clocks 0 (.new worldConfig) log.entries

end ReplayLog

/-! ### The chain -/

section Chain

variable {ext : Externals}

theorem ReplayLink.after_append (entries : List ReplayEntry) (entry : ReplayEntry) :
    ReplayLink.after (entries ++ [entry]) = entry.link := by
  rw [after, List.getLast?_append_of_ne_nil _ (by simp)]
  rfl

theorem verifyEntries_append {entries : List ReplayEntry} (entry : ReplayEntry) :
    ∀ (entryIndex : ℕ) (link : ReplayLink),
      verifyEntries ext entryIndex link (entries ++ [entry]) = (do
        let link ← verifyEntries ext entryIndex link entries
        checkEntry ext (entryIndex + entries.length) link entry
        .ok entry.link) := by
  induction entries with
  | nil => intro entryIndex link; rfl
  | cons first entries ih =>
    intro entryIndex link
    rw [List.cons_append, verifyEntries, verifyEntries]
    cases hfirst : checkEntry ext entryIndex link first with
    | error abort => rfl
    | ok _ =>
      rw [Exec.ok_bind, Exec.ok_bind, ih, List.length_cons, Nat.add_right_comm, Nat.add_assoc]

def Chained (ext : Externals) (entries : List ReplayEntry) : Prop :=
  ∀ before entry after, entries = before ++ entry :: after →
    checkEntry ext before.length (.after before) entry = .ok ()

theorem Chained.nil : Chained ext [] := by
  intro before entry after h
  simp at h

theorem Chained.append {entries : List ReplayEntry} {entry : ReplayEntry}
    (h : Chained ext entries)
    (hentry : checkEntry ext entries.length (.after entries) entry = .ok ()) :
    Chained ext (entries ++ [entry]) := by
  intro before other after heq
  rcases List.eq_nil_or_concat after with rfl | ⟨after, last, rfl⟩
  · obtain ⟨rfl, hlast⟩ := List.append_inj' heq rfl
    cases hlast
    exact hentry
  · have heq' : entries ++ [entry] = (before ++ other :: after) ++ [last] := by simpa using heq
    obtain ⟨rfl, -⟩ := List.append_inj' heq' rfl
    exact h before other after rfl

theorem Chained.left {entries more : List ReplayEntry} (h : Chained ext (entries ++ more)) :
    Chained ext entries :=
  fun before other after heq => h before other (after ++ more) (by rw [heq]; simp)

theorem Chained.init {entries : List ReplayEntry} {entry : ReplayEntry}
    (h : Chained ext (entries ++ [entry])) :
    Chained ext entries ∧ checkEntry ext entries.length (.after entries) entry = .ok () :=
  ⟨h.left, h entries entry [] rfl⟩

theorem Chained.verifyEntries {entries : List ReplayEntry} (h : Chained ext entries) :
    verifyEntries ext 0 .initial entries = .ok (.after entries) := by
  induction entries using List.reverseRecOn with
  | nil => rfl
  | append_singleton entries entry ih =>
    obtain ⟨hinit, hentry⟩ := h.init
    rw [verifyEntries_append, ih hinit, Exec.ok_bind, Nat.zero_add, hentry, Exec.ok_bind,
      ReplayLink.after_append]

theorem Chained.verify {log : ReplayLog} (h : Chained ext log.entries)
    (hlength : log.entries.length < 2 ^ 32) :
    log.verify ext = .ok ⟨log.entries.length, (ReplayLink.after log.entries).revision,
      (ReplayLink.after log.entries).sceneHash, (ReplayLink.after log.entries).entryHash⟩ := by
  rw [ReplayLog.verify, h.verifyEntries, Exec.ok_bind, if_neg (Nat.not_le.mpr hlength)]

end Chain

/-! ### The stream -/

namespace ReplayEntry

variable {ε : Type} {entry : ReplayEntry}

def bodyBytes (entry : ReplayEntry) : List UInt8 :=
  entry.leadBytes ++ (bigEndian 4 entry.patchBytes.length
    ++ (entry.patchBytes ++ entry.entryHash.toList))

def frameBytes (entry : ReplayEntry) : List UInt8 :=
  bigEndian 4 (fixedEntryBodyBytes + entry.patchBytes.length) ++ entry.bodyBytes

def Fits (entry : ReplayEntry) : Prop := fixedEntryBodyBytes + entry.patchBytes.length < 2 ^ 32

theorem length_leadBytes (entry : ReplayEntry) : entry.leadBytes.length = 130 := by
  simp [leadBytes, length_bigEndian]

theorem length_bodyBytes (entry : ReplayEntry) :
    entry.bodyBytes.length = fixedEntryBodyBytes + entry.patchBytes.length := by
  simp only [bodyBytes, List.length_append, length_leadBytes, length_bigEndian,
    Vector.length_toList, fixedEntryBodyBytes]
  omega

theorem length_frameBytes (entry : ReplayEntry) : entry.frameBytes.length = entry.encodedBytes := by
  simp only [frameBytes, List.length_append, length_bigEndian, length_bodyBytes, encodedBytes,
    entryEnvelopeBytes]
  omega

theorem encodedBytes_pos (entry : ReplayEntry) : 0 < entry.encodedBytes := by
  rw [encodedBytes, entryEnvelopeBytes]
  omega

theorem Fits.patchBytes_lt (h : entry.Fits) : entry.patchBytes.length < 2 ^ 32 := by
  rw [Fits, fixedEntryBodyBytes] at h
  omega

theorem Fits.hashFields (h : entry.Fits) :
    (entry.hashFields : Exec ε (List UInt8)) =
      .ok (entry.leadBytes ++ bigEndian 4 entry.patchBytes.length ++ entry.patchBytes) := by
  rw [ReplayEntry.hashFields, lengthBytes, if_pos h.patchBytes_lt, Exec.ok_bind]

theorem Fits.computeHash (h : entry.Fits) (ext : Externals) :
    (entry.computeHash ext : Exec ε Digest) =
      .ok (ext.sha256 (asciiBytes "cogniform.replay-entry\x00" ++
        (entry.leadBytes ++ bigEndian 4 entry.patchBytes.length ++ entry.patchBytes))) := by
  rw [ReplayEntry.computeHash, h.hashFields, Exec.ok_bind]

theorem Fits.encodeInto (h : entry.Fits) :
    (entry.encodeInto : Exec ε (List UInt8)) = .ok entry.frameBytes := by
  have hlength : fixedEntryBodyBytes + entry.patchBytes.length < 2 ^ 32 := h
  rw [ReplayEntry.encodeInto, lengthBytes, if_pos hlength, Exec.ok_bind, h.hashFields,
    Exec.ok_bind, frameBytes, bodyBytes]
  simp only [List.append_assoc]

end ReplayEntry

def framesBytes (entries : List ReplayEntry) : List UInt8 :=
  entries.flatMap ReplayEntry.frameBytes

theorem framesBytes_append (entries more : List ReplayEntry) :
    framesBytes (entries ++ more) = framesBytes entries ++ framesBytes more :=
  List.flatMap_append

theorem encodeEntries_eq {ε : Type} {entries : List ReplayEntry}
    (h : ∀ entry ∈ entries, entry.Fits) :
    (encodeEntries entries : Exec ε (List UInt8)) = .ok (framesBytes entries) := by
  induction entries with
  | nil => rfl
  | cons entry entries ih =>
    rw [encodeEntries, (h entry (List.mem_cons_self ..)).encodeInto, Exec.ok_bind,
      ih fun other hother => h other (List.mem_cons_of_mem _ hother), Exec.ok_bind]
    rfl

theorem toBytes_eq {ε : Type} {log : ReplayLog} (h : ∀ entry ∈ log.entries, entry.Fits) :
    (log.toBytes : Exec ε (List UInt8)) = .ok (replayHeader ++ framesBytes log.entries) := by
  rw [ReplayLog.toBytes, encodeEntries_eq h, Exec.ok_bind]

end Cogniform
