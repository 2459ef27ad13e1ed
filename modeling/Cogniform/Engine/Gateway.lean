import Cogniform.Compiler.Result
import Cogniform.Engine.Engine
import Cogniform.Lib.Line

/-!
# The command gateway

The gateway owns one engine and admits patches and imaginations into a bounded queue that is
processed one command at a time. A command is known by its idempotency key: what was completed under
a key is answered again from the record, and the number of keys that are queued or completed is
bounded. The compiler may be any function.
-/

namespace Cogniform

open AuthoritativeWorld (ApplyClock)

/-! ### Commands and answers -/

structure GatewayConfig where
  commandCapacity : NonZeroU32
  idempotencyCapacity : NonZeroU32

def GatewayConfig.default : GatewayConfig :=
  ⟨.lit 64, .lit 1024⟩

structure GatewayExternals extends Externals where
  imaginationJson : Serde ImaginationEnvelope

inductive GatewayCommand where
  | patch (patch : ScenePatch)
  | imagination (imagination : ImaginationEnvelope)
  deriving DecidableEq

inductive GatewayError where
  | invalidConfig (reason : String)
  | invalidCommand (error : ValidationError)
  | invalidCommandEncoding (error : CodecError)
  | commandCapacityExceeded (capacity : ℕ)
  | idempotencyCapacityExceeded
  | idempotencyConflict (idempotencyKey : IdempotencyKey)
  | compiler (error : CompileError)
  | engine (error : EngineError)
  | worldView (error : WorldInvariantError)
  | queryRevisionMismatch (requested actual : SceneRevision)
  | queryResultCapacityExceeded (actual limit : ℕ)
  | invalidQueryResult (error : ValidationError)
  deriving DecidableEq

inductive GatewayResponse where
  | patchApplied (receipt : ApplyReceipt)
  | imaginationProcessed (compilation : CompilationResult) (receipt : Option ApplyReceipt)
  deriving DecidableEq

def GatewayResponse.asReplayed : GatewayResponse → GatewayResponse
  | .patchApplied receipt => .patchApplied { receipt with status := .idempotentReplay }
  | .imaginationProcessed compilation (some receipt) =>
    .imaginationProcessed compilation (some { receipt with status := .idempotentReplay })
  | .imaginationProcessed compilation none => .imaginationProcessed compilation none

inductive GatewayAdmission where
  | queued (idempotencyKey : IdempotencyKey)
  | alreadyQueued (idempotencyKey : IdempotencyKey)
  | superseded (idempotencyKey supersededIdempotencyKey : IdempotencyKey)
  | dropped (idempotencyKey : IdempotencyKey)
  | replayed (response : GatewayResponse)
  deriving DecidableEq

namespace GatewayCommand

def idempotencyKey : GatewayCommand → IdempotencyKey
  | .patch value => value.idempotencyKey
  | .imagination value => value.idempotencyKey

def delivery : GatewayCommand → DeliverySemantic
  | .patch value => value.delivery
  | .imagination value => value.delivery

def supersessionKey (command : GatewayCommand) : Option SceneText :=
  match command.delivery with
  | .latestWins supersessionKey => some supersessionKey
  | .mustApply | .bestEffort => none

theorem supersessionKey_eq_some {command : GatewayCommand} {key : SceneText} :
    command.supersessionKey = some key ↔ command.delivery = .latestWins key := by
  rw [supersessionKey]
  cases command.delivery <;> simp

/-- `validate_with_limits` of either kind. -/
def validate (limits : RuntimeLimits) : GatewayCommand → Except ValidationError Unit
  | .patch value => value.validate limits
  | .imagination value => value.validate limits

def kind : GatewayCommand → UInt8
  | .patch _ => 0
  | .imagination _ => 1

def toCanonicalJson (ext : GatewayExternals) (limits : RuntimeLimits) :
    GatewayCommand → Except CodecError (List UInt8)
  | .patch value => value.toCanonicalJson ext.patchJson limits
  | .imagination value => value.toCanonicalJson ext.imaginationJson limits

def fingerprintInput (command : GatewayCommand) (encoded : List UInt8) : List UInt8 :=
  asciiBytes "cogniform.gateway.command.v1\x00" ++ [command.kind] ++ encoded

def fingerprint (ext : GatewayExternals) (limits : RuntimeLimits) (command : GatewayCommand) :
    Except GatewayError Digest :=
  match command.toCanonicalJson ext limits with
  | .error error => .error (.invalidCommandEncoding error)
  | .ok encoded => .ok (ext.sha256 (command.fingerprintInput encoded))

theorem eq_of_fingerprintInput {ext : GatewayExternals} {limits : RuntimeLimits}
    (hpatch : ext.patchJson.Injective) (himagination : ext.imaginationJson.Injective)
    {left right : GatewayCommand} {leftBytes rightBytes : List UInt8}
    (hleft : left.toCanonicalJson ext limits = .ok leftBytes)
    (hright : right.toCanonicalJson ext limits = .ok rightBytes)
    (h : left.fingerprintInput leftBytes = right.fingerprintInput rightBytes) : left = right := by
  rw [fingerprintInput, fingerprintInput, List.append_assoc, List.append_assoc] at h
  obtain ⟨hkind, rfl⟩ := List.cons.inj (List.append_cancel_left h)
  cases left with
  | patch left =>
    cases right with
    | patch right => rw [encode_injective hpatch hleft hright]
    | imagination right => cases hkind
  | imagination left =>
    cases right with
    | patch right => cases hkind
    | imagination right => rw [encode_injective himagination hleft hright]

end GatewayCommand

/-! ### The queue -/

structure CommandRecord where
  command : GatewayCommand
  fingerprint : Digest
  queuedAt : ℕ

def CommandRecord.new (ext : GatewayExternals) (limits : RuntimeLimits) (command : GatewayCommand)
    (queuedAt : ℕ) : Except GatewayError CommandRecord :=
  match command.fingerprint ext limits with
  | .error error => .error error
  | .ok fingerprint => .ok ⟨command, fingerprint, queuedAt⟩

def CommandRecord.idempotencyKey (record : CommandRecord) : IdempotencyKey :=
  record.command.idempotencyKey

def CommandRecord.supersessionKey (record : CommandRecord) : Option SceneText :=
  record.command.supersessionKey

def CommandRecord.delivery (record : CommandRecord) : DeliverySemantic := record.command.delivery

structure CommandQueue where
  capacity : ℕ
  entries : List CommandRecord
  admitted : ℕ
  superseded : ℕ
  dropped : ℕ
  rejected : ℕ

namespace CommandQueue

def new (capacity : NonZeroU32) : CommandQueue := ⟨capacity.get, [], 0, 0, 0, 0⟩

def depth (queue : CommandQueue) : ℕ := count queue.entries.length

def append (queue : CommandQueue) (record : CommandRecord) (hasIdempotencyCapacity : Bool) :
    CommandQueue × Except GatewayError GatewayAdmission :=
  if (queue.capacity ≤ queue.depth ∨ !hasIdempotencyCapacity)
      ∧ record.delivery = .bestEffort then
    ({ queue with dropped := satAdd queue.dropped 1 },
      .ok (.dropped record.idempotencyKey))
  else if queue.capacity ≤ queue.depth then
    ({ queue with rejected := satAdd queue.rejected 1 },
      .error (.commandCapacityExceeded queue.capacity))
  else if !hasIdempotencyCapacity then
    ({ queue with rejected := satAdd queue.rejected 1 }, .error .idempotencyCapacityExceeded)
  else
    ({ queue with
        entries := queue.entries ++ [record]
        admitted := satAdd queue.admitted 1 },
      .ok (.queued record.idempotencyKey))

def supersededPosition (queue : CommandQueue) (record : CommandRecord) : Option ℕ :=
  match record.supersessionKey with
  | none => none
  | some supersessionKey =>
    queue.entries.findIdx? fun existing => existing.supersessionKey = some supersessionKey

/-- `CommandQueue::admit`. -/
def admitRecord (queue : CommandQueue) (record : CommandRecord) (hasIdempotencyCapacity : Bool) :
    CommandQueue × Except GatewayError GatewayAdmission :=
  let idempotencyKey := record.idempotencyKey
  match queue.entries.find? fun existing => existing.idempotencyKey = idempotencyKey with
  | some existing =>
    if existing.fingerprint = record.fingerprint then (queue, .ok (.alreadyQueued idempotencyKey))
    else (queue, .error (.idempotencyConflict idempotencyKey))
  | none =>
    match queue.supersededPosition record with
    | none => queue.append record hasIdempotencyCapacity
    | some position =>
      match queue.entries[position]? with
      | none => queue.append record hasIdempotencyCapacity
      | some existing =>
        ({ queue with
            entries := queue.entries.set position record
            superseded := satAdd queue.superseded 1 },
          .ok (.superseded idempotencyKey existing.idempotencyKey))

end CommandQueue

/-! ### The gateway -/

structure CompletedRecord where
  fingerprint : Digest
  response : GatewayResponse

structure LocalGateway where
  engine : CogniformEngine
  compiler : Compiler
  queue : CommandQueue
  completed : Std.ExtTreeMap IdempotencyKey CompletedRecord
  idempotencyCapacity : ℕ
  limits : RuntimeLimits

/-- `validate_config`: the capacities fit each other and the engine. -/
def GatewayConfig.validate (config : GatewayConfig) (limits : RuntimeLimits)
    (availableWorldRecords : ℕ) : Except GatewayError Unit :=
  if limits.maxQueueCapacity.get < config.commandCapacity.get then
    .error (.invalidConfig "gateway command capacity exceeds the active protocol queue limit")
  else if config.idempotencyCapacity.get < config.commandCapacity.get then
    .error (.invalidConfig "gateway idempotency capacity must cover command capacity")
  else if availableWorldRecords < config.idempotencyCapacity.get then
    .error (.invalidConfig
      "gateway idempotency capacity exceeds available world result retention")
  else .ok ()

namespace LocalGateway

def new (engine : CogniformEngine) (config : GatewayConfig) (compiler : Compiler) :
    Except GatewayError LocalGateway :=
  let world := engine.world.world
  let limits := world.config.runtimeLimits
  match config.validate limits
      (world.config.maxIdempotencyRecords.get - count world.idempotencyRecords.size) with
  | .error error => .error error
  | .ok () =>
    .ok ⟨engine, compiler, .new config.commandCapacity, ∅, config.idempotencyCapacity.get, limits⟩

def hasIdempotencyCapacity (gateway : LocalGateway) : Bool :=
  (count gateway.completed.size + gateway.queue.depth) % 2 ^ 32 < gateway.idempotencyCapacity

/-- `LocalGateway::admit`. -/
def admitRecord (gateway : LocalGateway) (record : CommandRecord) :
    LocalGateway × Except GatewayError GatewayAdmission :=
  let idempotencyKey := record.idempotencyKey
  match gateway.completed[idempotencyKey]? with
  | some recorded =>
    if recorded.fingerprint ≠ record.fingerprint then
      (gateway, .error (.idempotencyConflict idempotencyKey))
    else (gateway, .ok (.replayed recorded.response.asReplayed))
  | none =>
    let admitted := gateway.queue.admitRecord record gateway.hasIdempotencyCapacity
    ({ gateway with queue := admitted.1 }, admitted.2)

def submit (ext : GatewayExternals) (gateway : LocalGateway) (command : GatewayCommand)
    (queuedAt : ℕ) : LocalGateway × Except GatewayError GatewayAdmission :=
  match command.validate gateway.limits with
  | .error error => (gateway, .error (.invalidCommand error))
  | .ok () =>
    match CommandRecord.new ext gateway.limits command queuedAt with
    | .error error => (gateway, .error error)
    | .ok record => gateway.admitRecord record

def submitPatch (ext : GatewayExternals) (gateway : LocalGateway) (patch : ScenePatch)
    (queuedAt : ℕ) : LocalGateway × Except GatewayError GatewayAdmission :=
  gateway.submit ext (.patch patch) queuedAt

def submitImagination (ext : GatewayExternals) (gateway : LocalGateway)
    (imagination : ImaginationEnvelope) (queuedAt : ℕ) :
    LocalGateway × Except GatewayError GatewayAdmission :=
  gateway.submit ext (.imagination imagination) queuedAt

def compile (gateway : LocalGateway) (imagination : ImaginationEnvelope) :
    Exec GatewayError CompilationResult := do
  let snapshot ← gateway.engine.world.world.snapshot.mapError .worldView
  let scene := CompilationSceneView.new snapshot.revision
    (snapshot.entities.map EntitySnapshot.entityId)
  (gateway.compiler imagination scene).mapError .compiler

def execute (ext : GatewayExternals) (gateway : LocalGateway) (command : GatewayCommand)
    (clock : ApplyClock) : CogniformEngine × Exec GatewayError GatewayResponse :=
  match command with
  | .patch patch =>
    let applied := gateway.engine.applyPatch ext.toExternals patch clock
    (applied.1, (applied.2.mapError .engine).map .patchApplied)
  | .imagination imagination =>
    match gateway.compile imagination with
    | .error abort => (gateway.engine, .error abort)
    | .ok compilation =>
      match compilation.patch with
      | none => (gateway.engine, .ok (.imaginationProcessed compilation none))
      | some patch =>
        let applied := gateway.engine.applyPatch ext.toExternals patch clock
        (applied.1, (applied.2.mapError .engine).map fun receipt =>
          .imaginationProcessed compilation (some receipt))

/-- `process_next`. A command that fails is dropped with its key. -/
def processNext (ext : GatewayExternals) (gateway : LocalGateway) (clock : ApplyClock) :
    LocalGateway × Exec GatewayError (Option GatewayResponse) :=
  match gateway.queue.entries with
  | [] => (gateway, .ok none)
  | record :: rest =>
    let queue := { gateway.queue with entries := rest }
    let executed := gateway.execute ext record.command clock
    match executed.2 with
    | .error abort => ({ gateway with engine := executed.1, queue := queue }, .error abort)
    | .ok response =>
      ({ gateway with
          engine := executed.1
          queue := queue
          completed := gateway.completed.insert record.idempotencyKey
            ⟨record.fingerprint, response⟩ },
        .ok (some response))

end LocalGateway

/-! ### What one call can do -/

namespace CommandQueue

inductive Admits (queue : CommandQueue) (record : CommandRecord) (hasIdempotencyCapacity : Bool)
    (queue' : CommandQueue) : Except GatewayError GatewayAdmission → Prop where
  | stays {answer : Except GatewayError GatewayAdmission} (entries : queue'.entries = queue.entries)
      (answer_eq : answer = .ok (.alreadyQueued record.idempotencyKey) ∨
        answer = .ok (.dropped record.idempotencyKey) ∨ ∃ error, answer = .error error) :
      Admits queue record hasIdempotencyCapacity queue' answer
  /-- It is appended, under a new key, to a queue with room in which it replaces nothing. -/
  | queued
      (fresh : ∀ existing ∈ queue.entries,
        existing.idempotencyKey ≠ record.idempotencyKey)
      (unsuperseding : ∀ existing ∈ queue.entries, ∀ key,
        record.supersessionKey = some key → existing.supersessionKey ≠ some key)
      (room : queue.depth < queue.capacity) (capacity : hasIdempotencyCapacity = true)
      (entries : queue'.entries = queue.entries ++ [record]) :
      Admits queue record hasIdempotencyCapacity queue'
        (.ok (.queued record.idempotencyKey))
  /-- It takes the place of a command with the same supersession key. -/
  | superseded {before after : List CommandRecord} {old : CommandRecord} {key : SceneText}
      (fresh : ∀ existing ∈ queue.entries,
        existing.idempotencyKey ≠ record.idempotencyKey)
      (split : queue.entries = before ++ old :: after)
      (old_key : old.supersessionKey = some key)
      (new_key : record.supersessionKey = some key)
      (entries : queue'.entries = before ++ record :: after) :
      Admits queue record hasIdempotencyCapacity queue'
        (.ok (.superseded record.idempotencyKey old.idempotencyKey))

theorem Admits.mem {queue queue' : CommandQueue} {record other : CommandRecord} {has : Bool}
    {answer : Except GatewayError GatewayAdmission} (h : Admits queue record has queue' answer)
    (hother : other ∈ queue'.entries) : other ∈ queue.entries ∨ other = record := by
  cases h with
  | stays entries answer_eq => exact .inl (entries ▸ hother)
  | queued fresh unsuperseding room capacity entries =>
    rw [entries] at hother
    exact (List.mem_append.mp hother).imp_right List.mem_singleton.mp
  | superseded fresh split old_key new_key entries =>
    rw [entries, List.mem_append, List.mem_cons] at hother
    rw [split, List.mem_append, List.mem_cons]
    rcases hother with hbefore | rfl | hafter
    · exact .inl (.inl hbefore)
    · exact .inr rfl
    · exact .inl (.inr (.inr hafter))

theorem append_admits {queue : CommandQueue} {record : CommandRecord}
    (fresh : ∀ existing ∈ queue.entries,
      existing.idempotencyKey ≠ record.idempotencyKey)
    (unsuperseding : ∀ existing ∈ queue.entries, ∀ key,
      record.supersessionKey = some key → existing.supersessionKey ≠ some key)
    (hasIdempotencyCapacity : Bool) :
    Admits queue record hasIdempotencyCapacity (queue.append record hasIdempotencyCapacity).1
      (queue.append record hasIdempotencyCapacity).2 := by
  rw [append]
  split
  · exact .stays rfl (.inr (.inl rfl))
  split
  · exact .stays rfl (.inr (.inr ⟨_, rfl⟩))
  rename_i hroom
  split
  · exact .stays rfl (.inr (.inr ⟨_, rfl⟩))
  rename_i hcapacity
  exact .queued fresh unsuperseding (Nat.not_le.mp hroom) (by simpa using hcapacity) rfl

theorem admitRecord_capacity (queue : CommandQueue) (record : CommandRecord)
    (hasIdempotencyCapacity : Bool) :
    (queue.admitRecord record hasIdempotencyCapacity).1.capacity = queue.capacity := by
  have happend : (queue.append record hasIdempotencyCapacity).1.capacity = queue.capacity := by
    rw [append]
    repeat' split
    all_goals rfl
  rw [admitRecord]
  repeat' split
  all_goals first | rfl | exact happend

theorem admitRecord_admits (queue : CommandQueue) (record : CommandRecord)
    (hasIdempotencyCapacity : Bool) :
    Admits queue record hasIdempotencyCapacity (queue.admitRecord record hasIdempotencyCapacity).1
      (queue.admitRecord record hasIdempotencyCapacity).2 := by
  rw [admitRecord]
  split
  · split
    · exact .stays rfl (.inl rfl)
    · exact .stays rfl (.inr (.inr ⟨_, rfl⟩))
  rename_i hfind
  have fresh : ∀ existing ∈ queue.entries,
      existing.idempotencyKey ≠ record.idempotencyKey := by
    simpa using hfind
  cases hposition : queue.supersededPosition record with
  | none =>
    refine append_admits fresh (fun existing hexisting key hkey hold => ?_) _
    rw [supersededPosition, hkey] at hposition
    have hnone := List.findIdx?_eq_none_iff.mp hposition existing hexisting
    rw [hold] at hnone
    simp at hnone
  | some position =>
    rw [supersededPosition] at hposition
    split at hposition
    · cases hposition
    rename_i key hkey
    obtain ⟨before, old, after, hsplit, hold, hget, hset⟩ :=
      Line.exists_split_of_findIdx? hposition
    simp only [hget]
    exact .superseded fresh hsplit (of_decide_eq_true hold) hkey (hset record)

theorem admitRecord_alreadyQueued {queue : CommandQueue} {record : CommandRecord} {has : Bool}
    {key : IdempotencyKey} (h : (queue.admitRecord record has).2 = .ok (.alreadyQueued key)) :
    ∃ existing ∈ queue.entries, existing.idempotencyKey = record.idempotencyKey ∧
      existing.fingerprint = record.fingerprint := by
  have happend : (queue.append record has).2 ≠ .ok (.alreadyQueued key) := by
    rw [append]
    repeat' split
    all_goals simp
  rw [admitRecord] at h
  split at h
  · rename_i existing hfind
    split at h
    · rename_i hfingerprint
      have hkey := List.find?_some hfind
      exact ⟨existing, List.mem_of_find?_eq_some hfind, of_decide_eq_true hkey, hfingerprint⟩
    · cases h
  · split at h
    · exact absurd h happend
    · split at h
      · exact absurd h happend
      · cases h

end CommandQueue

namespace LocalGateway

variable {ext : GatewayExternals} {config : EngineConfig} {gateway : LocalGateway}
  {command : GatewayCommand} {clock : ApplyClock}

theorem submit_cases (ext : GatewayExternals) (gateway : LocalGateway) (command : GatewayCommand)
    (queuedAt : ℕ) :
    ((gateway.submit ext command queuedAt).1 = gateway ∧
      ((∃ error, (gateway.submit ext command queuedAt).2 = .error error) ∨
        ∃ response, (gateway.submit ext command queuedAt).2 = .ok (.replayed response))) ∨
    ∃ fingerprint, command.validate gateway.limits = .ok () ∧
      command.fingerprint ext gateway.limits = .ok fingerprint ∧
      command.idempotencyKey ∉ gateway.completed ∧
      gateway.submit ext command queuedAt =
        ({ gateway with
            queue := (gateway.queue.admitRecord ⟨command, fingerprint, queuedAt⟩
              gateway.hasIdempotencyCapacity).1 },
          (gateway.queue.admitRecord ⟨command, fingerprint, queuedAt⟩
            gateway.hasIdempotencyCapacity).2) := by
  rw [submit]
  split
  · exact .inl ⟨rfl, .inl ⟨_, rfl⟩⟩
  rename_i hvalid
  rw [CommandRecord.new]
  cases hfingerprint : command.fingerprint ext gateway.limits with
  | error error => exact .inl ⟨rfl, .inl ⟨error, rfl⟩⟩
  | ok fingerprint =>
    dsimp only
    rw [admitRecord]
    split
    · split
      · exact .inl ⟨rfl, .inl ⟨_, rfl⟩⟩
      · exact .inl ⟨rfl, .inr ⟨_, rfl⟩⟩
    · rename_i hcompleted
      exact .inr ⟨fingerprint, hvalid, rfl, TreeMap.not_mem_iff.mpr hcompleted, rfl⟩

theorem submit_replayed {queuedAt : ℕ} {response : GatewayResponse}
    (h : (gateway.submit ext command queuedAt).2 = .ok (.replayed response)) :
    ∃ recorded, gateway.completed[command.idempotencyKey]? = some recorded ∧
      command.fingerprint ext gateway.limits = .ok recorded.fingerprint ∧
      response = recorded.response.asReplayed := by
  rw [submit] at h
  split at h
  · cases h
  rw [CommandRecord.new] at h
  cases hfingerprint : command.fingerprint ext gateway.limits with
  | error error =>
    rw [hfingerprint] at h
    cases h
  | ok fingerprint =>
    rw [hfingerprint] at h
    dsimp only at h
    rw [admitRecord] at h
    split at h
    · rename_i recorded hrecorded
      split at h
      · cases h
      · rename_i heq
        rw [not_not] at heq
        cases h
        exact ⟨recorded, hrecorded, by rw [heq], rfl⟩
    · -- the queue answers nothing from the record
      have hadmits := CommandQueue.admitRecord_admits gateway.queue
        ⟨command, fingerprint, queuedAt⟩ gateway.hasIdempotencyCapacity
      dsimp only at h
      rw [h] at hadmits
      cases hadmits with
      | stays entries answer_eq =>
        rcases answer_eq with heq | heq | ⟨error, heq⟩ <;> cases heq

structure Executed (ext : GatewayExternals) (config : EngineConfig) (engine engine' : CogniformEngine)
    (outcome : Exec GatewayError GatewayResponse) : Prop where
  run : CogniformEngine.Run ext.toExternals config engine'
  records : engine'.world.world.idempotencyRecords.size ≤
    engine.world.world.idempotencyRecords.size + 1
  failed : ∀ error, outcome = Exec.fail error → engine' = engine
  /-- While there is room, a result is not refused for want of it. -/
  room : engine.world.world.idempotencyRecords.size < config.world.maxIdempotencyRecords.get →
    ∀ limit, outcome ≠ Exec.fail (.engine (.worldApply (.idempotencyCapacityExceeded limit)))

theorem Executed.same {engine : CogniformEngine} {outcome : Exec GatewayError GatewayResponse}
    (h : CogniformEngine.Run ext.toExternals config engine)
    (houtcome : Exec.FailsWith (fun error => ∀ e, error ≠ .engine e) outcome) :
    Executed ext config engine engine outcome :=
  ⟨h, Nat.le_succ _, fun _ _ => rfl, fun _ _ hfail => houtcome _ hfail _ rfl⟩

theorem Executed.applyPatch {engine : CogniformEngine} {patch : ScenePatch}
    {respond : ApplyReceipt → GatewayResponse}
    (h : CogniformEngine.Run ext.toExternals config engine)
    (hreturns : Exec.Returns
      ((engine.applyPatch ext.toExternals patch clock).2.mapError GatewayError.engine
        |>.map respond)) :
    Executed ext config engine (engine.applyPatch ext.toExternals patch clock).1
      ((engine.applyPatch ext.toExternals patch clock).2.mapError .engine |>.map respond) := by
  have hcall := hreturns.of_map.of_mapError
  refine ⟨h.applyPatch patch clock hcall, h.inStep.applyPatch_records hcall,
    fun error hfail => ?_, fun hroom limit hfail => ?_⟩
  · obtain ⟨e, he, -⟩ := Exec.mapError_eq_fail.mp (Exec.map_eq_fail.mp hfail)
    exact h.inStep.applyPatch_fail he
  · obtain ⟨e, he, heq⟩ := Exec.mapError_eq_fail.mp (Exec.map_eq_fail.mp hfail)
    cases heq
    exact h.inStep.applyPatch_room limit hroom he

theorem compile_failsWith (gateway : LocalGateway) (imagination : ImaginationEnvelope) :
    Exec.FailsWith (fun error => ∀ e, error ≠ .engine e) (gateway.compile imagination) := by
  refine .bind (fun error hfail e heq => ?_) fun snapshot _ => fun error hfail e heq => ?_
  · obtain ⟨_, -, herror⟩ := Exec.mapError_eq_fail.mp hfail
    rw [heq] at herror
    cases herror
  · obtain ⟨_, -, herror⟩ := Exec.mapError_eq_fail.mp hfail
    rw [heq] at herror
    cases herror

theorem execute_executed (h : CogniformEngine.Run ext.toExternals config gateway.engine)
    (hreturns : (gateway.execute ext command clock).2.Returns) :
    Executed ext config gateway.engine (gateway.execute ext command clock).1
      (gateway.execute ext command clock).2 := by
  cases command with
  | patch patch => exact .applyPatch h hreturns
  | imagination imagination =>
    simp only [execute] at hreturns ⊢
    cases hcompile : gateway.compile imagination with
    | error abort =>
      refine .same h fun error hfail => ?_
      exact gateway.compile_failsWith imagination error (hcompile.trans (by cases hfail; rfl))
    | ok compilation =>
      rw [hcompile] at hreturns
      dsimp only at hreturns ⊢
      cases hpatch : compilation.patch with
      | none => exact .same h (.ok _)
      | some patch =>
        rw [hpatch] at hreturns
        exact .applyPatch h hreturns

theorem processNext_cases (ext : GatewayExternals) (gateway : LocalGateway) (clock : ApplyClock) :
    (gateway.queue.entries = [] ∧ gateway.processNext ext clock = (gateway, .ok none)) ∨
    ∃ record rest, gateway.queue.entries = record :: rest ∧
      ((∃ abort, (gateway.execute ext record.command clock).2 = .error abort ∧
        gateway.processNext ext clock =
          ({ gateway with
              engine := (gateway.execute ext record.command clock).1
              queue := { gateway.queue with entries := rest } }, .error abort)) ∨
      ∃ response, (gateway.execute ext record.command clock).2 = .ok response ∧
        gateway.processNext ext clock =
          ({ gateway with
              engine := (gateway.execute ext record.command clock).1
              queue := { gateway.queue with entries := rest }
              completed := gateway.completed.insert record.idempotencyKey
                ⟨record.fingerprint, response⟩ }, .ok (some response))) := by
  rw [processNext]
  split
  · rename_i hempty
    exact .inl ⟨hempty, rfl⟩
  · rename_i record rest hentries
    refine .inr ⟨record, rest, hentries, ?_⟩
    dsimp only
    split
    · rename_i abort hexecute
      exact .inl ⟨abort, hexecute, rfl⟩
    · rename_i response hexecute
      exact .inr ⟨response, hexecute, rfl⟩

structure Valid (ext : GatewayExternals) (config : EngineConfig) (gatewayConfig : GatewayConfig)
    (gateway : LocalGateway) : Prop where
  engine : CogniformEngine.Run ext.toExternals config gateway.engine
  capacity : gateway.queue.capacity = gatewayConfig.commandCapacity.get
  idempotency : gateway.idempotencyCapacity = gatewayConfig.idempotencyCapacity.get
  keys : (gateway.queue.entries.map CommandRecord.idempotencyKey).Nodup
  fresh : ∀ record ∈ gateway.queue.entries, record.idempotencyKey ∉ gateway.completed
  supersession : (gateway.queue.entries.filterMap CommandRecord.supersessionKey).Nodup
  depth : gateway.queue.entries.length ≤ gatewayConfig.commandCapacity.get
  budget : gateway.completed.size + gateway.queue.entries.length ≤
    gatewayConfig.idempotencyCapacity.get
  /-- What may still be completed fits what the world may still retain. -/
  retained : gateway.engine.world.world.idempotencyRecords.size +
      gatewayConfig.idempotencyCapacity.get ≤
    config.world.maxIdempotencyRecords.get + gateway.completed.size

namespace Valid

variable {gatewayConfig : GatewayConfig}

theorem new {engine : CogniformEngine} {compiler : Compiler}
    (hengine : CogniformEngine.Run ext.toExternals config engine)
    (h : LocalGateway.new engine gatewayConfig compiler = .ok gateway) :
    Valid ext config gatewayConfig gateway := by
  have hreachable := hengine.inStep.follows.reachable
  have hpos := gatewayConfig.idempotencyCapacity.pos
  have hmax := config.world.maxIdempotencyRecords.lt
  rw [LocalGateway.new, GatewayConfig.validate] at h
  split at h
  · cases h
  rename_i hvalid
  split at hvalid
  · cases hvalid
  split at hvalid
  · cases hvalid
  split at hvalid
  · cases hvalid
  rename_i hroom
  cases h
  refine ⟨hengine, rfl, rfl, .nil, by simp [CommandQueue.new], .nil, Nat.zero_le _, ?_, ?_⟩
  · simp [CommandQueue.new]
  · rw [hreachable.config_eq, count] at hroom
    dsimp only
    omega

theorem hasIdempotencyCapacity_iff (h : Valid ext config gatewayConfig gateway) :
    gateway.hasIdempotencyCapacity = true ↔
      gateway.completed.size + gateway.queue.entries.length <
        gatewayConfig.idempotencyCapacity.get := by
  have hbudget := h.budget
  have hlt := gatewayConfig.idempotencyCapacity.lt
  rw [hasIdempotencyCapacity, CommandQueue.depth, count, count, decide_eq_true_iff, h.idempotency,
    Nat.min_eq_left (by omega), Nat.min_eq_left (by omega), Nat.mod_eq_of_lt (by omega)]

theorem admitted {record : CommandRecord} {queue : CommandQueue}
    {answer : Except GatewayError GatewayAdmission} (h : Valid ext config gatewayConfig gateway)
    (hfresh : record.idempotencyKey ∉ gateway.completed)
    (hcapacity : queue.capacity = gateway.queue.capacity)
    (hadmits : gateway.queue.Admits record gateway.hasIdempotencyCapacity queue answer) :
    Valid ext config gatewayConfig { gateway with queue := queue } := by
  have hcompleted : ∀ other ∈ queue.entries, other.idempotencyKey ∉ gateway.completed := by
    intro other hother
    rcases hadmits.mem hother with hold | rfl
    · exact h.fresh other hold
    · exact hfresh
  cases hadmits with
  | stays entries =>
    refine ⟨h.engine, hcapacity.trans h.capacity, h.idempotency, ?_, hcompleted, ?_, ?_, ?_,
      h.retained⟩
    all_goals
      dsimp only
      rw [entries]
    exacts [h.keys, h.supersession, h.depth, h.budget]
  | queued fresh unsuperseding room capacity entries =>
    have hroom := h.hasIdempotencyCapacity_iff.mp capacity
    have hdepth : gateway.queue.entries.length < gatewayConfig.commandCapacity.get := by
      have hlt := gatewayConfig.commandCapacity.lt
      rw [CommandQueue.depth, count, h.capacity] at room
      omega
    refine ⟨h.engine, hcapacity.trans h.capacity, h.idempotency, ?_, hcompleted, ?_, ?_, ?_,
      h.retained⟩
    all_goals
      dsimp only
      rw [entries]
    · rw [List.map_append]
      refine List.nodup_append.mpr ⟨h.keys, List.nodup_singleton _, fun key hkey other hother => ?_⟩
      obtain ⟨existing, hexisting, rfl⟩ := List.mem_map.mp hkey
      rw [List.mem_singleton.mp hother]
      exact fresh existing hexisting
    · rw [List.filterMap_append]
      refine List.nodup_append.mpr ⟨h.supersession, ?_, fun key hkey other hother => ?_⟩
      · cases hkey : record.supersessionKey with
        | none => simp [hkey]
        | some key => simp [hkey]
      · obtain ⟨existing, hexisting, hold⟩ := List.mem_filterMap.mp hkey
        obtain ⟨new, hnew, hother⟩ := List.mem_filterMap.mp hother
        rw [List.mem_singleton.mp hnew] at hother
        rintro rfl
        exact unsuperseding existing hexisting key hother hold
    · rw [List.length_append]
      exact hdepth
    · rw [List.length_append]
      exact hroom
  | @superseded before after old key fresh split old_key new_key entries =>
    have hkeys := h.keys
    have hsupersession := h.supersession
    have hlength : (before ++ record :: after).length = gateway.queue.entries.length := by
      simp [split]
    rw [split, List.map_append, List.map_cons, List.nodup_middle, List.nodup_cons] at hkeys
    rw [split, List.filterMap_append, List.filterMap_cons_some old_key] at hsupersession
    refine ⟨h.engine, hcapacity.trans h.capacity, h.idempotency, ?_, hcompleted, ?_, ?_, ?_,
      h.retained⟩
    all_goals
      dsimp only
      rw [entries]
    · rw [List.map_append, List.map_cons, List.nodup_middle, List.nodup_cons]
      refine ⟨fun hmem => ?_, hkeys.2⟩
      rw [← List.map_append] at hmem
      obtain ⟨existing, hexisting, heq⟩ := List.mem_map.mp hmem
      refine fresh existing ?_ heq
      rw [split]
      simp only [List.mem_append, List.mem_cons] at hexisting ⊢
      exact hexisting.imp_right .inr
    · rwa [List.filterMap_append, List.filterMap_cons_some new_key]
    · rw [hlength]
      exact h.depth
    · rw [hlength]
      exact h.budget

theorem submit (h : Valid ext config gatewayConfig gateway) (command : GatewayCommand)
    (queuedAt : ℕ) : Valid ext config gatewayConfig (gateway.submit ext command queuedAt).1 := by
  rcases submit_cases ext gateway command queuedAt with ⟨heq, -⟩ | ⟨fingerprint, -, -, hfresh, heq⟩
  · rwa [heq]
  · rw [heq]
    have hadmits := CommandQueue.admitRecord_admits gateway.queue ⟨command, fingerprint, queuedAt⟩
      gateway.hasIdempotencyCapacity
    refine h.admitted ?_ (CommandQueue.admitRecord_capacity ..) hadmits
    exact hfresh

theorem popped (h : Valid ext config gatewayConfig gateway) {record : CommandRecord}
    {rest : List CommandRecord} (hentries : gateway.queue.entries = record :: rest)
    {engine : CogniformEngine} (hengine : CogniformEngine.Run ext.toExternals config engine)
    {completed : Std.ExtTreeMap IdempotencyKey CompletedRecord}
    (hfresh : ∀ record ∈ rest, record.idempotencyKey ∉ completed)
    (hsize : completed.size ≤ gateway.completed.size + 1)
    (hretained : engine.world.world.idempotencyRecords.size + gateway.completed.size ≤
      gateway.engine.world.world.idempotencyRecords.size + completed.size) :
    Valid ext config gatewayConfig
      { gateway with
        engine := engine
        queue := { gateway.queue with entries := rest }
        completed := completed } := by
  have hkeys := h.keys
  have hsupersession := h.supersession
  have hdepth := h.depth
  have hbudget := h.budget
  have hold := h.retained
  rw [hentries, List.map_cons, List.nodup_cons] at hkeys
  rw [hentries] at hsupersession
  rw [hentries, List.length_cons] at hdepth hbudget
  exact ⟨hengine, h.capacity, h.idempotency, hkeys.2, hfresh,
    hsupersession.sublist ((List.sublist_cons_self record rest).filterMap _),
    (Nat.le_succ _).trans hdepth, by dsimp only; omega, by dsimp only; omega⟩

theorem processNext (h : Valid ext config gatewayConfig gateway)
    (hreturns : (gateway.processNext ext clock).2.Returns) :
    Valid ext config gatewayConfig (gateway.processNext ext clock).1 := by
  rcases processNext_cases ext gateway clock with ⟨-, heq⟩ |
    ⟨record, rest, hentries, ⟨abort, hexecute, heq⟩ | ⟨response, hexecute, heq⟩⟩
  · rwa [heq]
  · -- the command is dropped, and the engine is as it was
    rw [heq] at hreturns ⊢
    obtain ⟨_, hok⟩ | ⟨error, hfail⟩ := hreturns
    · cases hok
    cases hfail
    have hexecuted := execute_executed h.engine (by rw [hexecute]; exact .fail error)
    have hsame := hexecuted.failed error hexecute
    refine h.popped hentries hexecuted.run (fun other hother => ?_) (Nat.le_succ _) ?_
    · exact h.fresh other (by rw [hentries]; exact List.mem_cons_of_mem _ hother)
    · rw [hsame]
  · -- its key moves from the queue to the record
    have hkeys := h.keys
    have hfresh := h.fresh record (by rw [hentries]; exact List.mem_cons_self)
    have hexecuted := execute_executed h.engine (by rw [hexecute]; exact .ok response)
    have hrecords := hexecuted.records
    have hsize := TreeMap.size_insert_of_not_mem hfresh
      (⟨record.fingerprint, response⟩ : CompletedRecord)
    rw [hentries, List.map_cons, List.nodup_cons] at hkeys
    rw [heq]
    refine h.popped hentries hexecuted.run (fun other hother => ?_) hsize.le ?_
    · rw [TreeMap.mem_insert]
      rintro (heq | hmem)
      · exact hkeys.1 (List.mem_map.mpr ⟨other, hother, heq⟩)
      · exact h.fresh other (by rw [hentries]; exact List.mem_cons_of_mem _ hother) hmem
    · rw [hsize]
      omega

theorem submitFrame (h : Valid ext config gatewayConfig gateway) {frameId : FrameId}
    {renderer : HeadlessRenderer}
    (hsubmit : gateway.engine.renderer.submit = .ok (frameId, renderer)) :
    Valid ext config gatewayConfig
      { gateway with engine := { gateway.engine with renderer := renderer } } :=
  ⟨h.engine.submit hsubmit, h.capacity, h.idempotency, h.keys, h.fresh, h.supersession, h.depth,
    h.budget, h.retained⟩

end Valid

end LocalGateway

end Cogniform
