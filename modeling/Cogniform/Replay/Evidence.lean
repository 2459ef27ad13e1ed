import Cogniform.Replay.Replayable

/-!
# Tamper evidence

The last digest of a verified log determines the log. The argument runs backwards: equal digests
come from equal fields, equal fields name the same predecessor, and the chain ends at the zero
digest, which no entry has. What is used of SHA-256 is that it does not collide on the entries that
are compared.
-/

namespace Cogniform

structure EntryEvidence where
  sequence : UInt64
  estimatedVisibleFrame : FrameId
  previousRevision : SceneRevision
  newRevision : SceneRevision
  previousSceneHash : Digest
  newSceneHash : Digest
  previousEntryHash : Digest
  patchBytes : List UInt8
  entryHash : Digest
  deriving DecidableEq

namespace ReplayEntry

def evidence (entry : ReplayEntry) : EntryEvidence :=
  ⟨entry.sequence, entry.estimatedVisibleFrame, entry.previousRevision, entry.newRevision,
    entry.previousSceneHash, entry.newSceneHash, entry.previousEntryHash, entry.patchBytes,
    entry.entryHash⟩

def hashInput (entry : ReplayEntry) : List UInt8 :=
  asciiBytes "cogniform.replay-entry\x00"
    ++ (entry.leadBytes ++ bigEndian 4 entry.patchBytes.length ++ entry.patchBytes)

theorem bigEndian_inj {width m n : ℕ} (hm : m < 256 ^ width) (hn : n < 256 ^ width)
    (h : bigEndian width m = bigEndian width n) : m = n := by
  rw [← ofBigEndian_bigEndian hm, h, ofBigEndian_bigEndian hn]

theorem uint64_inj {m n : UInt64} (h : bigEndian 8 m.toNat = bigEndian 8 n.toNat) : m = n :=
  UInt64.toNat_inj.mp (bigEndian_inj (by have := m.toNat_lt; omega) (by have := n.toNat_lt; omega) h)

theorem frame_inj {m n : FrameId} (h : bigEndian 8 m.get.toNat = bigEndian 8 n.get.toNat) :
    m = n := by
  obtain ⟨m, hm⟩ := m
  obtain ⟨n, hn⟩ := n
  obtain rfl := uint64_inj h
  rfl

variable {left right : ReplayEntry}

theorem fields_eq_of_leadBytes (h : left.leadBytes = right.leadBytes) :
    left.sequence = right.sequence ∧
      left.estimatedVisibleFrame = right.estimatedVisibleFrame ∧
      left.previousRevision = right.previousRevision ∧ left.newRevision = right.newRevision ∧
      left.previousSceneHash = right.previousSceneHash ∧
      left.newSceneHash = right.newSceneHash ∧
      left.previousEntryHash = right.previousEntryHash := by
  rw [leadBytes, leadBytes] at h
  -- from the last field to the first, each one splits off at its own width
  obtain ⟨h, hentry⟩ := List.append_inj' h (by simp)
  obtain ⟨h, hnewScene⟩ := List.append_inj' h (by simp)
  obtain ⟨h, hpreviousScene⟩ := List.append_inj' h (by simp)
  obtain ⟨h, hnew⟩ := List.append_inj' h (by simp)
  obtain ⟨h, hprevious⟩ := List.append_inj' h (by simp)
  obtain ⟨h, hframe⟩ := List.append_inj' h (by simp)
  obtain ⟨-, hsequence⟩ := List.append_inj' h (by simp)
  exact ⟨uint64_inj hsequence, frame_inj hframe, congrArg SceneRevision.mk (uint64_inj hprevious),
    congrArg SceneRevision.mk (uint64_inj hnew), Vector.toList_inj.mp hpreviousScene,
    Vector.toList_inj.mp hnewScene, Vector.toList_inj.mp hentry⟩

theorem evidence_eq_of_hashInput (hdigest : left.entryHash = right.entryHash)
    (h : left.hashInput = right.hashInput) : left.evidence = right.evidence := by
  rw [hashInput, hashInput, List.append_cancel_left_eq, List.append_assoc, List.append_assoc] at h
  obtain ⟨hlead, h⟩ := List.append_inj h (by rw [length_leadBytes, length_leadBytes])
  obtain ⟨-, hbytes⟩ := List.append_inj h (by simp)
  obtain ⟨hsequence, hframe, hprevious, hnew, hpreviousScene, hnewScene, hentry⟩ :=
    fields_eq_of_leadBytes hlead
  simp only [evidence, hsequence, hframe, hprevious, hnew, hpreviousScene, hnewScene, hentry,
    hbytes, hdigest]

end ReplayEntry

/-! ### Verified logs -/

section Verified

variable {ext : Externals}

theorem checkEntry_hashes {entryIndex : ℕ} {link : ReplayLink} {entry : ReplayEntry}
    (h : checkEntry ext entryIndex link entry = .ok ()) :
    entry.previousEntryHash = link.entryHash ∧ entry.entryHash = ext.sha256 entry.hashInput := by
  rw [checkEntry] at h
  split at h
  · cases h
  split at h
  · cases h
  split at h
  · cases h
  split at h
  · cases h
  rename_i hprevious
  split at h
  · cases h
  obtain ⟨digest, hdigest, h⟩ := Exec.bind_eq_ok.mp h
  split at h
  · cases h
  rename_i hentry
  rw [Decidable.not_not] at hprevious hentry
  refine ⟨hprevious, hentry.trans ?_⟩
  rw [ReplayEntry.computeHash, ReplayEntry.hashFields, lengthBytes] at hdigest
  split at hdigest
  · rw [Exec.ok_bind, Exec.ok_bind] at hdigest
    exact (Except.ok.inj hdigest).symm
  · cases hdigest

theorem chained_of_verifyEntries {entries : List ReplayEntry} {link : ReplayLink}
    (h : verifyEntries ext 0 .initial entries = .ok link) :
    Chained ext entries ∧ link = .after entries := by
  induction entries using List.reverseRecOn generalizing link with
  | nil =>
    cases h
    exact ⟨.nil, rfl⟩
  | append_singleton entries entry ih =>
    rw [verifyEntries_append] at h
    obtain ⟨middle, hmiddle, h⟩ := Exec.bind_eq_ok.mp h
    obtain ⟨⟨⟩, hcheck, h⟩ := Exec.bind_eq_ok.mp h
    cases h
    obtain ⟨hchained, rfl⟩ := ih hmiddle
    rw [Nat.zero_add] at hcheck
    exact ⟨hchained.append hcheck, (ReplayLink.after_append entries entry).symm⟩

theorem chained_of_verify {log : ReplayLog} {verification : ReplayVerification}
    (h : log.verify ext = .ok verification) :
    Chained ext log.entries ∧
      verification.finalEntryHash = (ReplayLink.after log.entries).entryHash := by
  rw [ReplayLog.verify] at h
  obtain ⟨link, hlink, h⟩ := Exec.bind_eq_ok.mp h
  split at h
  · cases h
  · cases h
    obtain ⟨hchained, rfl⟩ := chained_of_verifyEntries hlink
    exact ⟨hchained, rfl⟩

theorem after_ne_initial {entries : List ReplayEntry} {entry : ReplayEntry}
    (h : Chained ext (entries ++ [entry])) (hzero : ext.sha256 entry.hashInput ≠ zeroEntryHash) :
    (ReplayLink.after []).entryHash ≠ (ReplayLink.after (entries ++ [entry])).entryHash := by
  rw [ReplayLink.after_append]
  intro heq
  exact hzero ((checkEntry_hashes h.init.2).2.symm.trans heq.symm)

theorem evidence_eq_of_after {left right : List ReplayEntry} (hleft : Chained ext left)
    (hright : Chained ext right)
    (hsha : ∀ a ∈ left, ∀ b ∈ right, ext.sha256 a.hashInput = ext.sha256 b.hashInput →
      a.hashInput = b.hashInput)
    (hzero : ∀ entry ∈ left ++ right, ext.sha256 entry.hashInput ≠ zeroEntryHash)
    (h : (ReplayLink.after left).entryHash = (ReplayLink.after right).entryHash) :
    left.map ReplayEntry.evidence = right.map ReplayEntry.evidence := by
  induction left using List.reverseRecOn generalizing right with
  | nil =>
    rcases List.eq_nil_or_concat' right with rfl | ⟨right, b, rfl⟩
    · rfl
    · exact absurd h (after_ne_initial hright (hzero b (by simp)))
  | append_singleton left a ih =>
    rcases List.eq_nil_or_concat' right with rfl | ⟨right, b, rfl⟩
    · exact absurd h.symm (after_ne_initial hleft (hzero a (by simp)))
    · obtain ⟨hleft, ha⟩ := hleft.init
      obtain ⟨hright, hb⟩ := hright.init
      obtain ⟨haPrevious, haDigest⟩ := checkEntry_hashes ha
      obtain ⟨hbPrevious, hbDigest⟩ := checkEntry_hashes hb
      have hdigest : a.entryHash = b.entryHash := by
        rwa [ReplayLink.after_append, ReplayLink.after_append] at h
      have hinput : a.hashInput = b.hashInput := by
        refine hsha a (by simp) b (by simp) ?_
        rw [← haDigest, ← hbDigest, hdigest]
      have hentry : a.evidence = b.evidence := ReplayEntry.evidence_eq_of_hashInput hdigest hinput
      have hbefore : left.map ReplayEntry.evidence = right.map ReplayEntry.evidence := by
        refine ih hleft hright (fun c hc d hd => hsha c (by simp [hc]) d (by simp [hd]))
          (fun entry hentry => hzero entry ?_) ?_
        · rcases List.mem_append.mp hentry with hentry | hentry
          · simp [hentry]
          · simp [hentry]
        · rw [← haPrevious, ← hbPrevious]
          exact congrArg EntryEvidence.previousEntryHash hentry
      rw [List.map_append, List.map_append, hbefore, List.map_singleton, List.map_singleton, hentry]

end Verified

namespace ReplayLog

/-- **The last digest determines the log.** Two verified logs with the same final entry digest have
the same entries in every recorded field, if SHA-256 does not collide on their entries and gives
none of them the zero digest. -/
theorem evidence_eq_of_finalEntryHash (ext : Externals) (left right : ReplayLog)
    (leftVerification rightVerification : ReplayVerification)
    (hleft : left.verify ext = .ok leftVerification)
    (hright : right.verify ext = .ok rightVerification)
    (hsha : ∀ a ∈ left.entries, ∀ b ∈ right.entries,
      ext.sha256 a.hashInput = ext.sha256 b.hashInput → a.hashInput = b.hashInput)
    (hzero : ∀ entry ∈ left.entries ++ right.entries,
      ext.sha256 entry.hashInput ≠ zeroEntryHash)
    (h : leftVerification.finalEntryHash = rightVerification.finalEntryHash) :
    left.entries.map ReplayEntry.evidence = right.entries.map ReplayEntry.evidence := by
  obtain ⟨hleft, hleftHash⟩ := chained_of_verify hleft
  obtain ⟨hright, hrightHash⟩ := chained_of_verify hright
  exact evidence_eq_of_after hleft hright hsha hzero (by rw [← hleftHash, h, hrightHash])

def digitExternals : Externals where
  sha256 bytes := .ofFn fun i => bytes.reverse.getD i 0
  patchJson := ⟨fun patch => some [UInt8.ofNat (0x30 + patch.idempotencyKey.get)],
    fun _ => .error ⟨.data, 1, 1⟩⟩

def pairLog : ReplayLog :=
  let empty : RecordedWorld := ⟨.new .default, .default, .new .default⟩
  let first := empty.applyPatch digitExternals RecordedWorld.onePatch (.lit 1) ⟨0, 0⟩
  (first.1.applyPatch digitExternals RecordedWorld.twoPatch (.lit 2) ⟨0, 0⟩).1.log

def strippedLog : ReplayLog :=
  { pairLog with
    entries := pairLog.entries.map fun entry =>
      { entry with patch := AuthoritativeWorld.samplePatch } }

theorem evidence_eq_of_finalEntryHash_pair :
    pairLog.entries ≠ strippedLog.entries ∧
      pairLog.entries.map ReplayEntry.evidence = strippedLog.entries.map ReplayEntry.evidence := by
  have hleft : (pairLog.verify digitExternals).toOption.isSome = true := by decide +kernel
  have hright : (strippedLog.verify digitExternals).toOption.isSome = true := by decide +kernel
  have hfinal : (pairLog.verify digitExternals).toOption.map ReplayVerification.finalEntryHash =
      (strippedLog.verify digitExternals).toOption.map ReplayVerification.finalEntryHash := by
    decide +kernel
  cases hl : pairLog.verify digitExternals with
  | error abort => rw [hl] at hleft; cases hleft
  | ok left =>
    cases hr : strippedLog.verify digitExternals with
    | error abort => rw [hr] at hright; cases hright
    | ok right =>
      rw [hl, hr] at hfinal
      exact ⟨by decide +kernel, evidence_eq_of_finalEntryHash digitExternals pairLog strippedLog left
        right hl hr (by decide +kernel) (by decide +kernel) (Option.some.inj hfinal)⟩

end ReplayLog

end Cogniform
