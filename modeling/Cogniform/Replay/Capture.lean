import Cogniform.Replay.Evidence
import Cogniform.Replay.Lifetimes

/-!
# Captured streams

A log is captured as a stream, the whole of it or up to a revision. A sound log is captured without
a panic: revisions count its entries and its size is within bounds. And whoever loads the stream to
its end, under whatever bounds, gets the same recorded fields.
-/

namespace Cogniform

/-! ### Writing -/

namespace RecordedWorld.SoundLog

variable {ext : Externals} {replayConfig : ReplayConfig} {log : ReplayLog}

theorem fits (h : SoundLog ext replayConfig log) : ∀ entry ∈ log.entries, entry.Fits :=
  fun entry hentry => ReplayEntry.fits_of_size (h.size entry hentry)

theorem toBytes_eq {ε : Type} (h : SoundLog ext replayConfig log) :
    (log.toBytes : Exec ε (List UInt8)) = .ok (replayHeader ++ framesBytes log.entries) :=
  Cogniform.toBytes_eq h.fits

theorem reserveEntries_eq {ε : Type} {entries : List ReplayEntry} {total : ℕ}
    (h : total + (entries.map ReplayEntry.encodedBytes).sum < 2 ^ 64) :
    (ReplayLog.reserveEntries total entries : Exec ε ℕ) =
      .ok (total + (entries.map ReplayEntry.encodedBytes).sum) := by
  induction entries generalizing total with
  | nil => rfl
  | cons entry entries ih =>
    rw [List.map_cons, List.sum_cons, ← Nat.add_assoc] at h ⊢
    rw [ReplayLog.reserveEntries, if_neg (by omega), ih h]

theorem length_take_lt (h : SoundLog ext replayConfig log) (count : ℕ) :
    (replayHeader ++ framesBytes (log.entries.take count)).length < 2 ^ 32 := by
  have hle := (stream_take_take log.entries count).length_le
  have htotal := h.total
  have hlt := replayConfig.maxLogBytes.lt
  rw [h.stream] at htotal
  omega

theorem toBytesThroughRevision_eq (h : SoundLog ext replayConfig log) {revision : SceneRevision}
    (hle : revision.get.toNat ≤ log.entries.length) :
    log.toBytesThroughRevision revision =
      .ok (replayHeader ++ framesBytes (log.entries.take revision.get.toNat)) := by
  have hlatest := h.chained.revision
  have hlength := h.length_take_lt revision.get.toNat
  rw [length_stream] at hlength
  rw [ReplayLog.toBytesThroughRevision, if_neg (by rw [UInt64.lt_iff_toNat_lt]; omega),
    if_neg (by omega), reserveEntries_eq (hlength.trans (by decide)), Exec.ok_bind,
    encodeEntries_eq fun entry hentry => h.fits entry (List.mem_of_mem_take hentry), Exec.ok_bind]

theorem toBytesThroughRevision_eq_ok (h : SoundLog ext replayConfig log) {revision : SceneRevision}
    {bytes : List UInt8} : log.toBytesThroughRevision revision = .ok bytes ↔
      revision.get.toNat ≤ log.entries.length ∧
        bytes = replayHeader ++ framesBytes (log.entries.take revision.get.toNat) := by
  constructor
  · intro hok
    have hle : revision.get.toNat ≤ log.entries.length := by
      by_contra hlt
      have hlatest := h.chained.revision
      rw [ReplayLog.toBytesThroughRevision,
        if_pos (by rw [UInt64.lt_iff_toNat_lt]; omega)] at hok
      cases hok
    rw [h.toBytesThroughRevision_eq hle] at hok
    cases hok
    exact ⟨hle, rfl⟩
  · rintro ⟨hle, rfl⟩
    exact h.toBytesThroughRevision_eq hle

end RecordedWorld.SoundLog

theorem evidence_of_frameBytes {left right : ReplayEntry} {more rest : List UInt8}
    (hleft : left.Fits) (hright : right.Fits)
    (h : left.frameBytes ++ more = right.frameBytes ++ rest) :
    left.evidence = right.evidence ∧ more = rest := by
  rw [ReplayEntry.frameBytes, ReplayEntry.frameBytes, List.append_assoc, List.append_assoc] at h
  obtain ⟨hsize, h⟩ := List.append_inj h (by rw [length_bigEndian, length_bigEndian])
  have hlength := ReplayEntry.bigEndian_inj (show _ < 256 ^ 4 from hleft)
    (show _ < 256 ^ 4 from hright) hsize
  obtain ⟨hbody, hrest⟩ := List.append_inj h (by
    rw [left.length_bodyBytes, right.length_bodyBytes, hlength])
  rw [ReplayEntry.bodyBytes, ReplayEntry.bodyBytes] at hbody
  obtain ⟨hlead, hbody⟩ := List.append_inj hbody (by
    rw [left.length_leadBytes, right.length_leadBytes])
  obtain ⟨-, hbody⟩ := List.append_inj hbody (by rw [length_bigEndian, length_bigEndian])
  obtain ⟨hbytes, hdigest⟩ := List.append_inj hbody (Nat.add_left_cancel hlength)
  obtain ⟨hsequence, hframe, hprevious, hnew, hpreviousScene, hnewScene, hentry⟩ :=
    ReplayEntry.fields_eq_of_leadBytes hlead
  refine ⟨?_, hrest⟩
  simp only [ReplayEntry.evidence, hsequence, hframe, hprevious, hnew, hpreviousScene, hnewScene,
    hentry, hbytes, Vector.toList_inj.mp hdigest]

theorem frameBytes_ne_nil (entry : ReplayEntry) (rest : List UInt8) :
    entry.frameBytes ++ rest ≠ [] := by
  intro hnil
  have hpos := entry.encodedBytes_pos
  rw [← entry.length_frameBytes, (List.append_eq_nil_iff.mp hnil).1] at hpos
  exact Nat.lt_irrefl 0 hpos

theorem evidence_of_framesBytes {left right : List ReplayEntry} (hleft : ∀ entry ∈ left, entry.Fits)
    (hright : ∀ entry ∈ right, entry.Fits) (h : framesBytes left = framesBytes right) :
    left.map ReplayEntry.evidence = right.map ReplayEntry.evidence := by
  induction left generalizing right with
  | nil =>
    cases right with
    | nil => rfl
    | cons entry right => exact absurd h.symm (frameBytes_ne_nil entry _)
  | cons entry left ih =>
    cases right with
    | nil => exact absurd h (frameBytes_ne_nil entry _)
    | cons other right =>
      obtain ⟨hevidence, hrest⟩ := evidence_of_frameBytes (hleft entry (List.mem_cons_self ..))
        (hright other (List.mem_cons_self ..)) h
      rw [List.map_cons, List.map_cons, hevidence,
        ih (fun entry hentry => hleft entry (List.mem_cons_of_mem _ hentry))
          (fun entry hentry => hright entry (List.mem_cons_of_mem _ hentry)) hrest]

theorem evidence_of_loaded {ext : Externals} {config : ReplayConfig} {limits : RuntimeLimits}
    {entries : List ReplayEntry} {log : ReplayLog} (hfits : ∀ entry ∈ entries, entry.Fits)
    (h : (ReplayLog.loadPrefix ext (replayHeader ++ framesBytes entries) config limits :
      Exec Empty ReplayLoad) = .ok ⟨log, none⟩) :
    log.entries.map ReplayEntry.evidence = entries.map ReplayEntry.evidence := by
  obtain ⟨-, -, hloaded⟩ := RecordedWorld.loadPrefix_complete h
  have hstream := hloaded.stream
  rw [List.take_length] at hstream
  exact evidence_of_framesBytes hloaded.valid.fits hfits (List.append_cancel_left hstream)

end Cogniform
