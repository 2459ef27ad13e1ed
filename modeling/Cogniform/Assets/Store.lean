import Cogniform.Assets.Proxy
import Cogniform.Lib.Ledger

/-!
# The asset store

The store takes verified sources into a bounded queue, decodes one at a time and keeps what they
decode to. Two counters stand beside the queue and the records; admission compares them with the
limits. The decoder and SHA-256 may be any functions, and clock readings are arguments.
-/

namespace Cogniform

/-! ### Records and answers -/

inductive AssetState where
  | queued
  | ready
  | proxyReady
  | rejected
  deriving DecidableEq

structure AssetRecord where
  contentHash : Digest
  state : AssetState
  sourceBytes : ℕ
  decodedBytes : ℕ
  meshCount : ℕ
  diagnostics : List AssetDiagnostic

structure StoredAsset where
  record : AssetRecord
  decoded : Option DecodedAsset

structure PendingImport where
  contentHash : Digest
  source : List UInt8
  queuedAt : ℕ

inductive AssetAdmission where
  | queued (contentHash : Digest)
  | alreadyKnown (contentHash : Digest) (state : AssetState)
  deriving DecidableEq

structure AssetProcessOutcome where
  contentHash : Digest
  state : AssetState
  meshCount : ℕ
  deriving DecidableEq

structure AssetStoreEviction where
  contentHash : Digest
  previousState : Option AssetState
  removedPendingImports : ℕ
  releasedPendingSourceBytes : ℕ
  releasedResidentCpuBytes : ℕ
  removedMeshes : ℕ
  removedTextures : ℕ
  deriving DecidableEq

inductive AssetError where
  | sourceSizeExceeded (actual limit : ℕ)
  | contentHashMismatch (expected actual : Digest)
  | recordCapacityExceeded (capacity : ℕ)
  | importCapacityExceeded (capacity : ℕ)
  | pendingSourceBytesExceeded (actual limit : ℕ)
  | assetNotFound (contentHash : Digest)
  | assetNotReady (contentHash : Digest)
  | meshNotFound (contentHash : Digest) (meshIndex : UInt32)
  deriving DecidableEq

structure AssetExternals where
  sha256 : List UInt8 → Digest
  decodeGlb : List UInt8 → AssetLimits → Except AssetDiagnostic DecodedAsset

def rejectRecord (stored : StoredAsset) (diagnostic : AssetDiagnostic) : StoredAsset where
  record :=
    { stored.record with
      state := .rejected, decodedBytes := 0, meshCount := 0, diagnostics := [diagnostic] }
  decoded := none

/-! ### The store -/

structure AssetStore where
  config : AssetStoreConfig
  pending : List PendingImport
  records : Std.ExtTreeMap Digest StoredAsset
  pendingSourceBytes : ℕ
  residentCpuBytes : ℕ

namespace AssetStore

def new (config : AssetStoreConfig) : AssetStore := ⟨config, [], ∅, 0, 0⟩

section

variable (ext : AssetExternals) (store : AssetStore)

def enqueue (expectedHash : Digest) (source : List UInt8) (queuedAt : ℕ) :
    AssetStore × Exec AssetError AssetAdmission :=
  let limits := store.config.limits
  let sourceBytes := count64 source.length
  if limits.maxSourceBytes.get < sourceBytes then
    (store, Exec.fail (.sourceSizeExceeded sourceBytes limits.maxSourceBytes.get))
  else
    let actualHash := ext.sha256 source
    if actualHash ≠ expectedHash then
      (store, Exec.fail (.contentHashMismatch expectedHash actualHash))
    else
      match store.records[expectedHash]? with
      | some stored => (store, .ok (.alreadyKnown expectedHash stored.record.state))
      | none =>
        if limits.maxAssets.get ≤ store.records.size then
          (store, Exec.fail (.recordCapacityExceeded limits.maxAssets.get))
        else if limits.maxPendingImports.get ≤ store.pending.length then
          (store, Exec.fail (.importCapacityExceeded limits.maxPendingImports.get))
        else
          let projectedPending := satAdd store.pendingSourceBytes sourceBytes
          if limits.maxPendingSourceBytes.get < projectedPending then
            (store, Exec.fail
              (.pendingSourceBytesExceeded projectedPending limits.maxPendingSourceBytes.get))
          else
            ({ store with
                records := store.records.insert expectedHash
                  ⟨⟨expectedHash, .queued, sourceBytes, 0, 0, []⟩, none⟩
                pending := store.pending ++ [⟨expectedHash, source, queuedAt⟩]
                pendingSourceBytes := projectedPending },
              .ok (.queued expectedHash))

/-- What `process_next` makes of a source: a decoded asset with its state and diagnostic, or the
diagnostic of a rejected one. -/
def importSource (config : AssetStoreConfig) (source : List UInt8) :
    Exec Empty (Except AssetDiagnostic (AssetState × DecodedAsset × Option AssetDiagnostic)) :=
  match ext.decodeGlb source config.limits with
  | .ok decoded => .ok (.ok (.ready, decoded, none))
  | .error diagnostic =>
    if diagnostic.code.permitsProxy && config.unsupportedPolicy = .proxyCuboid then do
      let proxy ← proxyAsset
      .ok (.ok (.proxyReady, proxy, some diagnostic))
    else .ok (.error diagnostic)

def settle (contentHash : Digest) (stored : StoredAsset) :
    AssetStore × Exec Empty (Option AssetProcessOutcome) :=
  ({ store with records := store.records.insert contentHash stored },
    .ok (some ⟨contentHash, stored.record.state, stored.record.meshCount⟩))

def readyRecord (stored : StoredAsset) (state : AssetState) (decoded : DecodedAsset)
    (diagnostic : Option AssetDiagnostic) : StoredAsset where
  record :=
    { stored.record with
      state
      decodedBytes := decoded.byteLen
      meshCount := count decoded.meshes.length
      diagnostics := diagnostic.toList }
  decoded := some decoded

def processNext : AssetStore × Exec Empty (Option AssetProcessOutcome) :=
  match store.pending with
  | [] => (store, .ok none)
  | pending :: rest =>
    let sourceBytes := count64 pending.source.length
    let store := { store with
      pending := rest, pendingSourceBytes := store.pendingSourceBytes - sourceBytes }
    match importSource ext store.config pending.source with
    | .error abort => (store, .error abort)
    | .ok decoded =>
      match store.records[pending.contentHash]? with
      | none => (store, .error (.panic "queued import retains its record"))
      | some stored =>
        match decoded with
        | .error diagnostic => store.settle pending.contentHash (rejectRecord stored diagnostic)
        | .ok (state, decoded, diagnostic) =>
          if store.config.limits.maxAssetDecodedBytes.get < decoded.byteLen then
            store.settle pending.contentHash
              (rejectRecord stored ⟨.byteLimitExceeded, "asset_store.asset_decoded_bytes", none⟩)
          else
            let projected := satAdd store.residentCpuBytes decoded.byteLen
            if store.config.limits.maxResidentCpuBytes.get < projected then
              store.settle pending.contentHash
                (rejectRecord stored ⟨.byteLimitExceeded, "asset_store.resident_cpu_bytes", none⟩)
            else
              { store with residentCpuBytes := projected }.settle pending.contentHash
                (readyRecord stored state decoded diagnostic)

def uploadJob (key : AssetMeshKey) : Except AssetError AssetUploadJob :=
  match store.records[key.contentHash]? with
  | none => .error (.assetNotFound key.contentHash)
  | some stored =>
    match stored.decoded with
    | none => .error (.assetNotReady key.contentHash)
    | some decoded =>
      match decoded.meshes[key.meshIndex.toNat]? with
      | none => .error (.meshNotFound key.contentHash key.meshIndex)
      | some mesh =>
        .ok ⟨key, mesh.vertices, mesh.material,
          fun role => if mesh.material.hasTexture role then decoded.texture role else none⟩

def selects (contentHash : Digest) (pending : PendingImport) : Bool :=
  pending.contentHash = contentHash

def evict (contentHash : Digest) : AssetStore × Exec Empty AssetStoreEviction :=
  match store.records[contentHash]? with
  | none =>
    if store.pending.any (selects contentHash) then
      (store, .error (.panic "pending imports always retain a lifecycle record"))
    else (store, .ok ⟨contentHash, none, 0, 0, 0, 0, 0⟩)
  | some stored =>
    let removal : Exec Empty (AssetStore × AssetStoreEviction) := do
      let released ← release "pending import count remains exactly accounted"
        "pending source bytes remain exactly accounted" (selects contentHash)
        (fun pending => pending.source.length) store.pending
      if 1 < released.number then .error (.panic "removed_pending_imports <= 1")
      else
        let pendingSourceBytes ← Exec.expect "queued source bytes remain exactly accounted"
          (subChecked store.pendingSourceBytes released.weight)
        let residentCpuBytes ← Exec.expect "decoded CPU bytes remain exactly accounted"
          (subChecked store.residentCpuBytes stored.record.decodedBytes)
        .ok ({ store with
            records := store.records.erase contentHash
            pending := released.kept, pendingSourceBytes, residentCpuBytes },
          ⟨contentHash, some stored.record.state, released.number, released.weight,
            stored.record.decodedBytes, stored.record.meshCount,
            stored.decoded.elim 0 DecodedAsset.textureCount⟩)
    match removal with
    | .error abort => (store, .error abort)
    | .ok (store', eviction) => (store', .ok eviction)

end

/-! ### The invariant -/

end AssetStore

def StoredAsset.decodedSize (stored : StoredAsset) : ℕ := stored.decoded.elim 0 DecodedAsset.byteLen

structure StoredAsset.Sound (contentHash : Digest) (stored : StoredAsset) : Prop where
  contentHash_eq : stored.record.contentHash = contentHash
  /-- There is a decoded asset exactly when the record is ready. -/
  decoded_iff : stored.decoded.isSome ↔
    stored.record.state = .ready ∨ stored.record.state = .proxyReady
  decodedBytes_eq : stored.record.decodedBytes = stored.decodedSize
  meshCount_eq : stored.record.meshCount =
    stored.decoded.elim 0 fun decoded => count decoded.meshes.length

namespace StoredAsset.Sound

variable {contentHash : Digest} {stored : StoredAsset}

theorem queued (contentHash : Digest) (sourceBytes : ℕ) :
    Sound contentHash ⟨⟨contentHash, .queued, sourceBytes, 0, 0, []⟩, none⟩ :=
  ⟨rfl, by simp, rfl, rfl⟩

theorem rejectRecord (h : stored.Sound contentHash) (diagnostic : AssetDiagnostic) :
    (rejectRecord stored diagnostic).Sound contentHash :=
  ⟨h.contentHash_eq, by simp [Cogniform.rejectRecord], rfl, rfl⟩

theorem readyRecord (h : stored.Sound contentHash) {state : AssetState}
    (hstate : state = .ready ∨ state = .proxyReady) (decoded : DecodedAsset)
    (diagnostic : Option AssetDiagnostic) :
    (AssetStore.readyRecord stored state decoded diagnostic).Sound contentHash :=
  ⟨h.contentHash_eq, iff_of_true rfl hstate, rfl, rfl⟩

end StoredAsset.Sound

namespace AssetStore

structure Exact (store : AssetStore) : Prop where
  nodup : (store.pending.map PendingImport.contentHash).Nodup
  /-- What is queued has a queued record, and the other way round. -/
  queued_iff (contentHash : Digest) :
    contentHash ∈ store.pending.map PendingImport.contentHash ↔
      ∃ stored, store.records[contentHash]? = some stored ∧ stored.record.state = .queued
  sound {contentHash : Digest} {stored : StoredAsset} :
    store.records[contentHash]? = some stored → stored.Sound contentHash
  pendingSourceBytes_eq :
    store.pendingSourceBytes = weigh (fun pending => pending.source.length) store.pending
  residentCpuBytes_eq :
    store.residentCpuBytes = TreeMap.total (fun _ stored => stored.decodedSize) store.records
  records_le : store.records.size ≤ store.config.limits.maxAssets.get
  pending_le : store.pending.length ≤ store.config.limits.maxPendingImports.get
  pendingSourceBytes_le :
    store.pendingSourceBytes ≤ store.config.limits.maxPendingSourceBytes.get
  residentCpuBytes_le : store.residentCpuBytes ≤ store.config.limits.maxResidentCpuBytes.get

def Unclipped (limit total : ℕ) : Prop := total < 2 ^ 64 ∨ limit < 2 ^ 64 - 1

theorem Unclipped.satAdd_eq {limit a b : ℕ} (h : Unclipped limit (a + b))
    (hle : satAdd a b ≤ limit) : satAdd a b = a + b := by
  rw [satAdd] at hle ⊢
  rcases h with h | h <;> omega

section

variable {ext : AssetExternals} {store : AssetStore}

theorem Exact.new (config : AssetStoreConfig) : (new config).Exact where
  nodup := .nil
  queued_iff contentHash := by
    refine iff_of_false List.not_mem_nil ?_
    rintro ⟨stored, hstored, -⟩
    rw [AssetStore.new, Std.ExtTreeMap.getElem?_empty] at hstored
    cases hstored
  sound h := by
    rw [AssetStore.new, Std.ExtTreeMap.getElem?_empty] at h
    cases h
  pendingSourceBytes_eq := rfl
  residentCpuBytes_eq := TreeMap.total_empty.symm
  records_le := Nat.zero_le _
  pending_le := Nat.zero_le _
  pendingSourceBytes_le := Nat.zero_le _
  residentCpuBytes_le := Nat.zero_le _

/-- **What admission can do**: refuse or know the source and change nothing, or queue it within the
limits. -/
theorem enqueue_cases (ext : AssetExternals) (store : AssetStore) (expectedHash : Digest)
    (source : List UInt8) (queuedAt : ℕ) :
    (∃ error, store.enqueue ext expectedHash source queuedAt = (store, Exec.fail error)) ∨
    (∃ stored, store.records[expectedHash]? = some stored ∧
      store.enqueue ext expectedHash source queuedAt =
        (store, .ok (.alreadyKnown expectedHash stored.record.state))) ∨
    (store.records[expectedHash]? = none ∧
      store.records.size < store.config.limits.maxAssets.get ∧
      store.pending.length < store.config.limits.maxPendingImports.get ∧
      satAdd store.pendingSourceBytes (count64 source.length) ≤
        store.config.limits.maxPendingSourceBytes.get ∧
      store.enqueue ext expectedHash source queuedAt =
        ({ store with
            records := store.records.insert expectedHash
              ⟨⟨expectedHash, .queued, count64 source.length, 0, 0, []⟩, none⟩
            pending := store.pending ++ [⟨expectedHash, source, queuedAt⟩]
            pendingSourceBytes := satAdd store.pendingSourceBytes (count64 source.length) },
          .ok (.queued expectedHash))) := by
  rw [enqueue]
  dsimp only
  split
  · exact .inl ⟨_, rfl⟩
  split
  · exact .inl ⟨_, rfl⟩
  cases hstored : store.records[expectedHash]? with
  | some stored => exact .inr (.inl ⟨stored, rfl, rfl⟩)
  | none =>
    dsimp only
    split
    · exact .inl ⟨_, rfl⟩
    split
    · exact .inl ⟨_, rfl⟩
    split
    · exact .inl ⟨_, rfl⟩
    · rename_i hrecords hpending hbytes
      exact .inr (.inr ⟨rfl, Nat.lt_of_not_le hrecords, Nat.lt_of_not_le hpending,
        Nat.le_of_not_lt hbytes, rfl⟩)

theorem Exact.enqueue (h : store.Exact) {expectedHash : Digest} {source : List UInt8}
    {queuedAt : ℕ}
    (hfits : Unclipped store.config.limits.maxPendingSourceBytes.get
      (store.pendingSourceBytes + source.length)) :
    (store.enqueue ext expectedHash source queuedAt).1.Exact := by
  obtain ⟨error, heq⟩ | ⟨stored, -, heq⟩ | ⟨hnew, hrecords, hpending, hbytes, heq⟩ :=
    enqueue_cases ext store expectedHash source queuedAt
  · rw [heq]
    exact h
  · rw [heq]
    exact h
  have hsum : satAdd store.pendingSourceBytes (count64 source.length) =
      store.pendingSourceBytes + source.length := by
    rw [satAdd, count64] at hbytes ⊢
    rcases hfits with hfits | hfits <;> omega
  have hnotQueued : expectedHash ∉ store.pending.map PendingImport.contentHash := by
    rw [h.queued_iff, hnew]
    rintro ⟨_, hstored, -⟩
    cases hstored
  have hnotMem : expectedHash ∉ store.records := TreeMap.not_mem_iff.mpr hnew
  rw [heq]
  exact
    { nodup := by
        rw [List.map_append, List.map_singleton, ← List.concat_eq_append]
        exact List.Nodup.concat hnotQueued h.nodup
      queued_iff := by
        intro contentHash
        rw [List.map_append, List.mem_append, List.map_singleton, List.mem_singleton,
          h.queued_iff]
        dsimp only
        rw [TreeMap.getElem?_insert]
        by_cases hsame : contentHash = expectedHash
        · rw [if_pos hsame]
          exact iff_of_true (.inr hsame) ⟨_, rfl, rfl⟩
        · rw [if_neg hsame]
          exact or_iff_left hsame
      sound := by
        intro contentHash stored hstored
        dsimp only at hstored
        rw [TreeMap.getElem?_insert] at hstored
        split at hstored
        · rename_i hsame
          cases hsame
          cases hstored
          exact .queued expectedHash _
        · exact h.sound hstored
      pendingSourceBytes_eq := by
        dsimp only
        rw [hsum, h.pendingSourceBytes_eq, weigh_append, weigh_cons, weigh_nil, Nat.add_zero]
      residentCpuBytes_eq := by
        dsimp only
        rw [TreeMap.total_insert hnotMem, h.residentCpuBytes_eq]
        exact (Nat.zero_add _).symm
      records_le := by
        dsimp only
        rw [TreeMap.size_insert_of_not_mem hnotMem]
        exact hrecords
      pending_le := by
        rw [List.length_append]
        exact hpending
      pendingSourceBytes_le := hbytes
      residentCpuBytes_le := h.residentCpuBytes_le }

theorem importSource_eq_ok (ext : AssetExternals) (config : AssetStoreConfig)
    (source : List UInt8) :
    (∃ diagnostic, importSource ext config source = .ok (.error diagnostic)) ∨
    ∃ state decoded diagnostic, (state = .ready ∨ state = .proxyReady) ∧
      importSource ext config source = .ok (.ok (state, decoded, diagnostic)) := by
  rw [importSource]
  cases ext.decodeGlb source config.limits with
  | ok decoded => exact .inr ⟨_, decoded, _, .inl rfl, rfl⟩
  | error diagnostic =>
    dsimp only
    split
    · obtain ⟨proxy, hproxy, -⟩ := proxyAsset_eq_ok
      rw [hproxy]
      exact .inr ⟨_, proxy, _, .inr rfl, rfl⟩
    · exact .inl ⟨diagnostic, rfl⟩

def ImportFits (ext : AssetExternals) (store : AssetStore) : Prop :=
  ∀ pending rest state decoded diagnostic, store.pending = pending :: rest →
    importSource ext store.config pending.source = .ok (.ok (state, decoded, diagnostic)) →
    Unclipped store.config.limits.maxResidentCpuBytes.get
      (store.residentCpuBytes + decoded.byteLen)

/-- **What an import can do**: nothing without a queued source, and otherwise take the oldest one
out and settle its record, rejected or ready within the limits. -/
theorem Exact.processNext_cases (h : store.Exact) (hfits : store.ImportFits ext) :
    (store.pending = [] ∧ store.processNext ext = (store, .ok none)) ∨
    ∃ pending rest stored settled, store.pending = pending :: rest ∧
      store.records[pending.contentHash]? = some stored ∧ stored.record.state = .queued ∧
      settled.Sound pending.contentHash ∧ settled.record.state ≠ .queued ∧
      store.residentCpuBytes + settled.decodedSize ≤
        store.config.limits.maxResidentCpuBytes.get ∧
      store.processNext ext =
        ({ store with
            pending := rest
            pendingSourceBytes := store.pendingSourceBytes - pending.source.length
            records := store.records.insert pending.contentHash settled
            residentCpuBytes := store.residentCpuBytes + settled.decodedSize },
          .ok (some ⟨pending.contentHash, settled.record.state, settled.record.meshCount⟩)) := by
  cases hpending : store.pending with
  | nil =>
    refine .inl ⟨rfl, ?_⟩
    rw [processNext, hpending]
  | cons pending rest =>
    have hmem : pending.contentHash ∈ store.pending.map PendingImport.contentHash := by
      rw [hpending]
      exact List.mem_cons_self ..
    obtain ⟨stored, hstored, hqueued⟩ := (h.queued_iff _).mp hmem
    have hsound := h.sound hstored
    have hsource : count64 pending.source.length = pending.source.length := by
      have hle : pending.source.length ≤ store.pendingSourceBytes := by
        rw [h.pendingSourceBytes_eq]
        exact le_weigh (w := fun pending : PendingImport => pending.source.length)
          (hpending ▸ List.mem_cons_self ..)
      have hlt := store.config.limits.maxPendingSourceBytes.lt
      have hcap := h.pendingSourceBytes_le
      rw [count64]
      omega
    have hrejected (diagnostic : AssetDiagnostic) :
        store.residentCpuBytes + (rejectRecord stored diagnostic).decodedSize ≤
          store.config.limits.maxResidentCpuBytes.get := h.residentCpuBytes_le
    rw [processNext, hpending]
    dsimp only
    rw [hsource, hstored]
    refine .inr ⟨pending, rest, stored, ?_⟩
    obtain ⟨diagnostic, himport⟩ | ⟨state, decoded, diagnostic, hstate, himport⟩ :=
      importSource_eq_ok ext store.config pending.source
    · rw [himport]
      exact ⟨rejectRecord stored diagnostic, rfl, hstored, hqueued, hsound.rejectRecord _,
        (fun h => by cases h), hrejected _, rfl⟩
    · rw [himport]
      dsimp only
      split
      · exact ⟨rejectRecord stored _, rfl, hstored, hqueued, hsound.rejectRecord _,
          (fun h => by cases h), hrejected _, rfl⟩
      split
      · exact ⟨rejectRecord stored _, rfl, hstored, hqueued, hsound.rejectRecord _,
          (fun h => by cases h), hrejected _, rfl⟩
      · rename_i hcap
        have hsum := (hfits _ _ _ _ _ hpending himport).satAdd_eq (Nat.le_of_not_lt hcap)
        refine ⟨readyRecord stored state decoded diagnostic, rfl, hstored, hqueued,
          hsound.readyRecord hstate _ _, ?_, ?_, ?_⟩
        · rcases hstate with rfl | rfl <;> simp [readyRecord]
        · rw [hsum] at hcap
          exact Nat.le_of_not_lt hcap
        · rw [hsum]
          rfl

theorem Exact.processNext (h : store.Exact) (hfits : store.ImportFits ext) :
    (store.processNext ext).1.Exact := by
  obtain ⟨-, heq⟩ | ⟨pending, rest, stored, settled, hpending, hstored, hqueued, hsound, hdone,
    hcap, heq⟩ := h.processNext_cases hfits
  · rw [heq]
    exact h
  have hnodup := h.nodup
  rw [hpending, List.map_cons, List.nodup_cons] at hnodup
  have hmem : pending.contentHash ∈ store.records := TreeMap.mem_of_get hstored
  have hunsized : stored.decodedSize = 0 := by
    have hnone : ¬stored.decoded.isSome := by
      rw [(h.sound hstored).decoded_iff, hqueued]
      simp
    rw [StoredAsset.decodedSize, Option.not_isSome_iff_eq_none.mp hnone]
    rfl
  have hweigh := h.pendingSourceBytes_eq
  rw [hpending, weigh_cons] at hweigh
  have hpendingLe := h.pending_le
  rw [hpending, List.length_cons] at hpendingLe
  have hbytes := h.pendingSourceBytes_le
  rw [heq]
  exact
    { nodup := hnodup.2
      queued_iff := by
        intro contentHash
        dsimp only
        rw [TreeMap.getElem?_insert]
        have hiff := h.queued_iff contentHash
        rw [hpending, List.map_cons, List.mem_cons] at hiff
        by_cases hsame : contentHash = pending.contentHash
        · rw [if_pos hsame, hsame]
          refine iff_of_false hnodup.1 ?_
          rintro ⟨_, hsettled, hstate⟩
          cases hsettled
          exact hdone hstate
        · rw [if_neg hsame, ← hiff]
          exact (or_iff_right hsame).symm
      sound := by
        intro contentHash other hother
        dsimp only at hother
        rw [TreeMap.getElem?_insert] at hother
        split at hother
        · rename_i hsame
          cases hsame
          cases hother
          exact hsound
        · exact h.sound hother
      pendingSourceBytes_eq := by
        dsimp only
        omega
      residentCpuBytes_eq := by
        have htotal := TreeMap.total_modify (w := fun _ stored => StoredAsset.decodedSize stored)
          hstored settled
        dsimp only
        rw [h.residentCpuBytes_eq]
        omega
      records_le := by
        dsimp only
        rw [TreeMap.size_insert_of_mem hmem]
        exact h.records_le
      pending_le := by
        dsimp only
        omega
      pendingSourceBytes_le := by
        dsimp only
        omega
      residentCpuBytes_le := hcap }

def without (store : AssetStore) (contentHash : Digest) : AssetStore :=
  { store with
    pending := store.pending.filter fun pending => !selects contentHash pending
    records := store.records.erase contentHash
    pendingSourceBytes := weigh (fun pending => pending.source.length)
      (store.pending.filter fun pending => !selects contentHash pending)
    residentCpuBytes :=
      TreeMap.total (fun _ stored => stored.decodedSize) (store.records.erase contentHash) }

def held (store : AssetStore) (contentHash : Digest) : AssetStoreEviction :=
  let stored := store.records[contentHash]?
  let decoded := stored.bind StoredAsset.decoded
  let pending := store.pending.filter (selects contentHash)
  ⟨contentHash, stored.map fun stored => stored.record.state, pending.length,
    weigh (fun pending => pending.source.length) pending, decoded.elim 0 DecodedAsset.byteLen,
    decoded.elim 0 fun decoded => count decoded.meshes.length,
    decoded.elim 0 DecodedAsset.textureCount⟩

section

variable {contentHash : Digest}

theorem mem_filter_selects {pending : PendingImport} :
    pending ∈ store.pending.filter (selects contentHash) ↔
      pending ∈ store.pending ∧ pending.contentHash = contentHash := by
  rw [List.mem_filter, selects, decide_eq_true_eq]

theorem Exact.length_filter_selects_le (h : store.Exact) :
    (store.pending.filter (selects contentHash)).length ≤ 1 := by
  have hnodup := h.nodup
  rw [List.Nodup, List.pairwise_map] at hnodup
  have hpairwise := hnodup.filter (selects contentHash)
  match hselected : store.pending.filter (selects contentHash) with
  | [] => exact Nat.zero_le 1
  | [_] => exact Nat.le_refl 1
  | first :: second :: rest =>
    rw [hselected] at hpairwise
    have hne := List.rel_of_pairwise_cons hpairwise (List.mem_cons_self ..)
    have hfirst : first ∈ store.pending.filter (selects contentHash) := by simp [hselected]
    have hsecond : second ∈ store.pending.filter (selects contentHash) := by simp [hselected]
    rw [mem_filter_selects] at hfirst hsecond
    exact absurd (hfirst.2.trans hsecond.2.symm) hne

theorem Exact.evict_eq (h : store.Exact) :
    store.evict contentHash = (store.without contentHash, .ok (store.held contentHash)) := by
  have hsplit := weigh_filter_add_filter_not (fun pending => pending.source.length)
    (selects contentHash) store.pending
  rw [← h.pendingSourceBytes_eq] at hsplit
  rw [evict]
  cases hstored : store.records[contentHash]? with
  | none =>
    have hnone : ∀ pending ∈ store.pending, ¬selects contentHash pending := by
      intro pending hpending hselects
      have hqueued := (h.queued_iff contentHash).mp
        (List.mem_map.mpr ⟨pending, hpending, of_decide_eq_true hselects⟩)
      rw [hstored] at hqueued
      obtain ⟨_, hsome, -⟩ := hqueued
      cases hsome
    have hfilter : store.pending.filter (selects contentHash) = [] :=
      List.filter_eq_nil_iff.mpr hnone
    have hkept : (store.pending.filter fun pending => !selects contentHash pending) =
        store.pending := by
      refine List.filter_eq_self.mpr fun pending hpending => ?_
      rw [Bool.eq_false_iff.mpr (hnone pending hpending)]
      rfl
    have hwithout : store.without contentHash = store := by
      rw [without, hkept, TreeMap.erase_of_not_mem (TreeMap.not_mem_iff.mpr hstored),
        ← h.pendingSourceBytes_eq, ← h.residentCpuBytes_eq]
    rw [hwithout, held, hstored, hfilter]
    exact if_neg (by simpa using hnone)
  | some stored =>
    have hsound := h.sound hstored
    have hresident := TreeMap.total_erase (w := fun _ stored => StoredAsset.decodedSize stored)
      hstored
    rw [← h.residentCpuBytes_eq, ← hsound.decodedBytes_eq] at hresident
    have hone : (store.pending.filter (selects contentHash)).length ≤ 1 :=
      h.length_filter_selects_le
    have hcap := h.pendingSourceBytes_le
    have hlt := store.config.limits.maxPendingSourceBytes.lt
    dsimp only
    rw [release_eq_ok (by omega) (by omega), Exec.ok_bind]
    dsimp only
    rw [if_neg (by omega), subChecked_of_le (by omega), Exec.expect_some, Exec.ok_bind,
      subChecked_of_le (by omega), Exec.expect_some, Exec.ok_bind]
    dsimp only
    have hpending : store.pendingSourceBytes - weigh (fun pending => pending.source.length)
        (store.pending.filter (selects contentHash)) = weigh (fun pending => pending.source.length)
          (store.pending.filter fun pending => !selects contentHash pending) := by
      omega
    have hcpu : store.residentCpuBytes - stored.record.decodedBytes =
        TreeMap.total (fun _ stored => StoredAsset.decodedSize stored)
          (store.records.erase contentHash) := by
      omega
    rw [hpending, hcpu, without, held, hstored, hsound.decodedBytes_eq, hsound.meshCount_eq]
    rfl

theorem Exact.without (h : store.Exact) : (store.without contentHash).Exact := by
  have hsplit := weigh_filter_add_filter_not (fun pending => pending.source.length)
    (selects contentHash) store.pending
  rw [← h.pendingSourceBytes_eq] at hsplit
  have hpendingLe := h.pendingSourceBytes_le
  have hmem (other : Digest) : other ∈ (store.without contentHash).pending.map
      PendingImport.contentHash ↔
      other ≠ contentHash ∧ other ∈ store.pending.map PendingImport.contentHash := by
    simp only [AssetStore.without, selects, List.mem_map, List.mem_filter, Bool.not_eq_true',
      decide_eq_false_iff_not]
    constructor
    · rintro ⟨pending, ⟨hpending, hne⟩, rfl⟩
      exact ⟨hne, pending, hpending, rfl⟩
    · rintro ⟨hne, pending, hpending, rfl⟩
      exact ⟨pending, ⟨hpending, hne⟩, rfl⟩
  have hget (other : Digest) : (store.without contentHash).records[other]? =
      if other = contentHash then none else store.records[other]? :=
    TreeMap.getElem?_erase ..
  exact
    { nodup := h.nodup.sublist (List.filter_sublist.map _)
      queued_iff := by
        intro other
        rw [hmem, h.queued_iff, hget]
        by_cases hsame : other = contentHash
        · rw [if_pos hsame]
          refine iff_of_false (fun hne => hne.1 hsame) ?_
          rintro ⟨_, hnone, -⟩
          cases hnone
        · rw [if_neg hsame]
          exact and_iff_right hsame
      sound := by
        intro other stored hstored
        rw [hget] at hstored
        split at hstored
        · cases hstored
        · exact h.sound hstored
      pendingSourceBytes_eq := rfl
      residentCpuBytes_eq := rfl
      records_le := by
        refine Nat.le_trans (TreeMap.size_le_of_mem fun other hother => ?_) h.records_le
        exact (TreeMap.mem_erase.mp hother).2
      pending_le := Nat.le_trans (List.length_filter_le ..) h.pending_le
      pendingSourceBytes_le := by
        dsimp only [AssetStore.without]
        omega
      residentCpuBytes_le := by
        refine Nat.le_trans ?_ h.residentCpuBytes_le
        rw [h.residentCpuBytes_eq]
        cases hstored : store.records[contentHash]? with
        | none =>
          dsimp only [AssetStore.without]
          rw [TreeMap.erase_of_not_mem (TreeMap.not_mem_iff.mpr hstored)]
        | some stored =>
          rw [← TreeMap.total_erase hstored]
          exact Nat.le_add_left .. }

end

/-! ### Runs -/

inductive Op where
  | enqueue (expectedHash : Digest) (source : List UInt8) (queuedAt : ℕ)
  | processNext
  | uploadJob (key : AssetMeshKey)
  | evict (contentHash : Digest)

def after (ext : AssetExternals) (store : AssetStore) : Op → AssetStore
  | .enqueue expectedHash source queuedAt => (store.enqueue ext expectedHash source queuedAt).1
  | .processNext => (store.processNext ext).1
  | .uploadJob _ => store
  | .evict contentHash => (store.evict contentHash).1

def Answers (ext : AssetExternals) (store : AssetStore) : Op → Prop
  | .enqueue expectedHash source queuedAt =>
    (store.enqueue ext expectedHash source queuedAt).2.Returns
  | .processNext => (store.processNext ext).2.Returns
  | .uploadJob key => (Exec.ofExcept (store.uploadJob key)).Returns
  | .evict contentHash => (store.evict contentHash).2.Returns

/-- The sums a call compares with a limit fit 64 bits, or the limit is below what they are clipped
to. -/
def Fits (ext : AssetExternals) (store : AssetStore) : Op → Prop
  | .enqueue _ source _ =>
    Unclipped store.config.limits.maxPendingSourceBytes.get
      (store.pendingSourceBytes + source.length)
  | .processNext => store.ImportFits ext
  | .uploadJob _ => True
  | .evict _ => True

inductive Run (ext : AssetExternals) (config : AssetStoreConfig) : AssetStore → Prop
  | new : Run ext config (new config)
  | step {store : AssetStore} (op : Op) (run : Run ext config store) (fits : store.Fits ext op) :
      Run ext config (store.after ext op)

theorem Exact.after (h : store.Exact) {op : Op} (hfits : store.Fits ext op) :
    (store.after ext op).Exact := by
  cases op with
  | enqueue expectedHash source queuedAt => exact h.enqueue hfits
  | processNext => exact h.processNext hfits
  | uploadJob key => exact h
  | evict contentHash =>
    rw [AssetStore.after, h.evict_eq]
    exact h.without

theorem Exact.answers (h : store.Exact) {op : Op} (hfits : store.Fits ext op) :
    store.Answers ext op := by
  cases op with
  | enqueue expectedHash source queuedAt =>
    rw [Answers]
    obtain ⟨error, heq⟩ | ⟨stored, -, heq⟩ | ⟨-, -, -, -, heq⟩ :=
      enqueue_cases ext store expectedHash source queuedAt
    · rw [heq]
      exact .fail error
    · rw [heq]
      exact .ok _
    · rw [heq]
      exact .ok _
  | processNext =>
    rw [Answers]
    obtain ⟨-, heq⟩ | ⟨_, _, _, _, -, -, -, -, -, -, heq⟩ := h.processNext_cases hfits
    · rw [heq]
      exact .ok _
    · rw [heq]
      exact .ok _
  | uploadJob key => exact .ofExcept _
  | evict contentHash =>
    rw [Answers, h.evict_eq]
    exact .ok _

theorem Exact.config_after (h : store.Exact) {op : Op} (hfits : store.Fits ext op) :
    (store.after ext op).config = store.config := by
  cases op with
  | enqueue expectedHash source queuedAt =>
    obtain ⟨error, heq⟩ | ⟨stored, -, heq⟩ | ⟨-, -, -, -, heq⟩ :=
      enqueue_cases ext store expectedHash source queuedAt <;> rw [AssetStore.after, heq]
  | processNext =>
    obtain ⟨-, heq⟩ | ⟨_, _, _, _, -, -, -, -, -, -, heq⟩ := h.processNext_cases hfits <;>
      rw [AssetStore.after, heq]
  | uploadJob key => rfl
  | evict contentHash =>
    rw [AssetStore.after, h.evict_eq]
    rfl

theorem Run.exact {config : AssetStoreConfig} (h : Run ext config store) :
    store.Exact ∧ store.config = config := by
  induction h with
  | new => exact ⟨.new config, rfl⟩
  | step op run hfits ih => exact ⟨ih.1.after hfits, (ih.1.config_after hfits).trans ih.2⟩

/-- **Accounting is exact.** In every state that calls lead to the counters are the sums they stand
for and within the limits, and no call that fits panics. Eviction leaves the state without its hash
and reports what was held for it; a refused source changes nothing. -/
theorem run_exact (ext : AssetExternals) (config : AssetStoreConfig) (store : AssetStore)
    (h : Run ext config store) :
    store.config = config ∧ store.Exact ∧
    (∀ op, store.Fits ext op → store.Answers ext op) ∧
    (∀ contentHash,
      store.evict contentHash = (store.without contentHash, .ok (store.held contentHash))) ∧
    ∀ expectedHash source queuedAt error,
      (store.enqueue ext expectedHash source queuedAt).2 = Exec.fail error →
      (store.enqueue ext expectedHash source queuedAt).1 = store := by
  obtain ⟨hexact, hconfig⟩ := h.exact
  refine ⟨hconfig, hexact, fun op hfits => hexact.answers hfits, fun _ => hexact.evict_eq, ?_⟩
  intro expectedHash source queuedAt error herror
  obtain ⟨_, heq⟩ | ⟨_, -, heq⟩ | ⟨-, -, -, -, heq⟩ :=
    enqueue_cases ext store expectedHash source queuedAt
  · rw [heq]
  · rw [heq]
  · rw [heq] at herror
    cases herror

def sizedExternals (byteLen : ℕ) (h : byteLen < 2 ^ 64) : AssetExternals where
  sha256 source := .replicate 32 (source.headD 0)
  decodeGlb _ _ := .ok ⟨[], fun _ => none, byteLen, h⟩

def sampleStore : AssetStore :=
  [Op.enqueue (.replicate 32 1) [1] 0, .enqueue (.replicate 32 2) [2] 0, .processNext].foldl
    (after (sizedExternals 100 (by decide))) (.new .default)

theorem run_exact_sample :
    sampleStore.Exact ∧
      sampleStore.evict (.replicate 32 1) =
        (sampleStore.without (.replicate 32 1), .ok (sampleStore.held (.replicate 32 1))) ∧
      sampleStore.held (.replicate 32 1) = ⟨.replicate 32 1, some .ready, 0, 0, 100, 0, 0⟩ ∧
      sampleStore.held (.replicate 32 2) = ⟨.replicate 32 2, some .queued, 1, 1, 0, 0, 0⟩ := by
  have hrun : Run (sizedExternals 100 (by decide)) .default sampleStore := by
    rw [sampleStore, List.foldl_cons, List.foldl_cons, List.foldl_cons, List.foldl_nil]
    refine .step _ (.step _ (.step _ .new ?_) ?_) ?_
    · exact .inr (by decide +kernel)
    · exact .inr (by decide +kernel)
    · exact fun _ _ _ _ _ _ _ => .inr (by decide +kernel)
  obtain ⟨-, hexact, -, hevict, -⟩ := run_exact _ _ _ hrun
  exact ⟨hexact, hevict _, by decide +kernel, by decide +kernel⟩

def unlimitedConfig : AssetStoreConfig :=
  { AssetStoreConfig.default with
    limits :=
      { AssetLimits.default with
        maxAssetDecodedBytes := .lit (2 ^ 64 - 1)
        maxResidentCpuBytes := .lit (2 ^ 64 - 1) } }

/-- **A limit of `u64::MAX`** lets two assets of half the range in: the counter stops at the limit,
and evicting both asks it for more than it has. -/
theorem run_clipped :
    let store := [Op.enqueue (.replicate 32 1) [1] 0, .enqueue (.replicate 32 2) [2] 0,
      .processNext, .processNext].foldl (after (sizedExternals (2 ^ 63) (by decide)))
        (.new unlimitedConfig)
    store.residentCpuBytes = 2 ^ 64 - 1 ∧
      TreeMap.total (fun _ stored => stored.decodedSize) store.records = 2 ^ 64 ∧
      ((store.evict (.replicate 32 1)).1.evict (.replicate 32 2)).2 =
        .error (.panic "decoded CPU bytes remain exactly accounted") := by
  decide +kernel

end

end AssetStore

end Cogniform
