import Cogniform.Engine.Gateway

/-!
# Delivery

An observer who sees the commands that are submitted and the answers to all calls keeps a `Ledger`:
who is in line, who was popped, who was replaced, and what was completed with which response. Over
whole runs the ledger tells the state of the gateway.
-/

namespace Cogniform

open AuthoritativeWorld (ApplyClock samplePatch)
open CogniformEngine (sampleEngine run_sampleEngine)
open Observation (meshPatch)

/-! ### The ledger -/

structure Ledger where
  line : Line GatewayCommand
  completions : List (GatewayCommand × GatewayResponse)

namespace Ledger

def empty : Ledger := ⟨.empty, []⟩

def submitted (ledger : Ledger) (command : GatewayCommand) :
    Except GatewayError GatewayAdmission → Ledger
  | .ok (.queued _) => { ledger with line := ledger.line.join command }
  | .ok (.superseded _ superseded) =>
    { ledger with
      line := ledger.line.replace (fun waiting => waiting.idempotencyKey = superseded) command }
  | _ => ledger

def processed (ledger : Ledger) : Exec GatewayError (Option GatewayResponse) → Ledger
  | .ok none => ledger
  | .ok (some response) =>
    ⟨ledger.line.serve,
      ledger.completions ++ (ledger.line.waiting.take 1).map fun ticket => (ticket.item, response)⟩
  | .error _ => { ledger with line := ledger.line.serve }

end Ledger

/-- The gateways that runs lead to, with the ledger of the calls that have returned. The renderer
may submit frames in between. -/
inductive LocalGateway.Run (ext : GatewayExternals) (config : EngineConfig)
    (gatewayConfig : GatewayConfig) : LocalGateway → Ledger → Prop where
  | new {engine : CogniformEngine} {compiler : Compiler} {gateway : LocalGateway}
      (hengine : CogniformEngine.Run ext.toExternals config engine)
      (h : LocalGateway.new engine gatewayConfig compiler = .ok gateway) :
      Run ext config gatewayConfig gateway .empty
  | submitPatch {gateway : LocalGateway} {ledger : Ledger}
      (h : Run ext config gatewayConfig gateway ledger) (patch : ScenePatch) (queuedAt : ℕ) :
      Run ext config gatewayConfig (gateway.submitPatch ext patch queuedAt).1
        (ledger.submitted (.patch patch) (gateway.submitPatch ext patch queuedAt).2)
  | submitImagination {gateway : LocalGateway} {ledger : Ledger}
      (h : Run ext config gatewayConfig gateway ledger) (imagination : ImaginationEnvelope)
      (queuedAt : ℕ) :
      Run ext config gatewayConfig (gateway.submitImagination ext imagination queuedAt).1
        (ledger.submitted (.imagination imagination)
          (gateway.submitImagination ext imagination queuedAt).2)
  | processNext {gateway : LocalGateway} {ledger : Ledger}
      (h : Run ext config gatewayConfig gateway ledger) (clock : ApplyClock)
      (hreturns : (gateway.processNext ext clock).2.Returns) :
      Run ext config gatewayConfig (gateway.processNext ext clock).1
        (ledger.processed (gateway.processNext ext clock).2)
  | submitFrame {gateway : LocalGateway} {ledger : Ledger}
      (h : Run ext config gatewayConfig gateway ledger) {frameId : FrameId}
      {renderer : HeadlessRenderer}
      (hsubmit : gateway.engine.renderer.submit = .ok (frameId, renderer)) :
      Run ext config gatewayConfig
        { gateway with engine := { gateway.engine with renderer := renderer } } ledger

namespace LocalGateway

variable {ext : GatewayExternals} {config : EngineConfig} {gatewayConfig : GatewayConfig}
  {gateway : LocalGateway} {ledger : Ledger}

theorem Run.valid (h : Run ext config gatewayConfig gateway ledger) :
    Valid ext config gatewayConfig gateway := by
  induction h with
  | new hengine h => exact .new hengine h
  | submitPatch h patch queuedAt ih => exact ih.submit _ _
  | submitImagination h imagination queuedAt ih => exact ih.submit _ _
  | processNext h clock hreturns ih => exact ih.processNext hreturns
  | submitFrame h hsubmit ih => exact ih.submitFrame hsubmit

theorem Valid.processNext_room (h : Valid ext config gatewayConfig gateway) (clock : ApplyClock)
    (limit : ℕ) : (gateway.processNext ext clock).2 ≠
      Exec.fail (.engine (.worldApply (.idempotencyCapacityExceeded limit))) := by
  intro hfail
  rcases processNext_cases ext gateway clock with ⟨-, heq⟩ |
    ⟨record, rest, hentries, ⟨abort, hexecute, heq⟩ | ⟨response, hexecute, heq⟩⟩
  · rw [heq] at hfail
    cases hfail
  · rw [heq] at hfail
    cases hfail
    have hbudget := h.budget
    have hretained := h.retained
    rw [hentries, List.length_cons] at hbudget
    exact (execute_executed h.engine (by rw [hexecute]; exact .fail _)).room (by omega) limit hexecute
  · rw [heq] at hfail
    cases hfail

/-- **The invariant of queue and record**: queued keys are distinct and not completed, a
supersession key is queued at most once, and queue and keys are within their capacities. So what
`process_next` asserts once it has popped a command holds, and the world has room for its result. -/
theorem run_invariants (ext : GatewayExternals) (config : EngineConfig)
    (gatewayConfig : GatewayConfig) (gateway : LocalGateway) (ledger : Ledger)
    (hrun : Run ext config gatewayConfig gateway ledger) :
    (gateway.queue.entries.map CommandRecord.idempotencyKey).Nodup ∧
    (∀ record ∈ gateway.queue.entries, record.idempotencyKey ∉ gateway.completed) ∧
    (gateway.queue.entries.filterMap CommandRecord.supersessionKey).Nodup ∧
    gateway.queue.depth ≤ gatewayConfig.commandCapacity.get ∧
    gateway.completed.size + gateway.queue.depth ≤ gatewayConfig.idempotencyCapacity.get ∧
    (∀ record rest, gateway.queue.entries = record :: rest →
      count gateway.completed.size + count rest.length < gateway.idempotencyCapacity) ∧
    ∀ clock limit, (gateway.processNext ext clock).2 ≠
      Exec.fail (.engine (.worldApply (.idempotencyCapacityExceeded limit))) := by
  have h := hrun.valid
  have hdepth := h.depth
  have hbudget := h.budget
  refine ⟨h.keys, h.fresh, h.supersession, ?_, ?_, fun record rest hentries => ?_,
    h.processNext_room⟩
  · rw [CommandQueue.depth, count]
    omega
  · rw [CommandQueue.depth, count]
    omega
  · rw [hentries, List.length_cons] at hbudget
    rw [h.idempotency, count, count]
    omega

def pairExternals (first second : ScenePatch) : GatewayExternals where
  sha256 bytes := .ofFn fun i => bytes.reverse.getD i 0
  patchJson := ⟨fun patch =>
    if patch = first then some [0x31] else if patch = second then some [0x32] else none,
    fun _ => .error ⟨.data, 1, 1⟩⟩
  imaginationJson := ⟨fun _ => none, fun _ => .error ⟨.data, 1, 1⟩⟩

def sampleExternals : GatewayExternals := pairExternals meshPatch samplePatch

def freshGateway : LocalGateway :=
  ⟨sampleEngine, fun _ scene => Exec.fail (.sceneRevisionMismatch .initial scene.revision),
    .new GatewayConfig.default.commandCapacity, ∅, 1024, .default⟩

def queuedGateway : LocalGateway := (freshGateway.submitPatch sampleExternals meshPatch 0).1

theorem run_queuedGateway : ∃ ledger, Run sampleExternals (.new 64 64) .default queuedGateway ledger :=
  ⟨_, .submitPatch (.new (run_sampleEngine _) (show LocalGateway.new sampleEngine .default
    freshGateway.compiler = .ok freshGateway from rfl)) meshPatch 0⟩

theorem run_invariants_queued :
    queuedGateway.queue.depth = 1 ∧ queuedGateway.queue.depth ≤ 64 ∧
      ∀ clock limit, (queuedGateway.processNext sampleExternals clock).2 ≠
        Exec.fail (.engine (.worldApply (.idempotencyCapacityExceeded limit))) := by
  obtain ⟨ledger, hrun⟩ := run_queuedGateway
  obtain ⟨-, -, -, hdepth, -, -, hroom⟩ := run_invariants _ _ _ _ ledger hrun
  exact ⟨by decide +kernel, hdepth, hroom⟩

end LocalGateway

def Supersedes (old new : GatewayCommand) : Prop :=
  ∃ key, old.supersessionKey = some key ∧ new.supersessionKey = some key

def Recorded (ext : GatewayExternals) (gateway : LocalGateway)
    (completion : GatewayCommand × GatewayResponse) : Prop :=
  completion.1.validate gateway.limits = .ok () ∧
    ∃ fingerprint, completion.1.fingerprint ext gateway.limits = .ok fingerprint ∧
      gateway.completed[completion.1.idempotencyKey]? = some ⟨fingerprint, completion.2⟩

structure Kept (ext : GatewayExternals) (gateway : LocalGateway) (ledger : Ledger) : Prop where
  orderly : ledger.line.Orderly Supersedes
  waiting : ledger.line.waiting.map Ticket.item =
    gateway.queue.entries.map CommandRecord.command
  /-- Queued commands are valid and carry their own fingerprint. -/
  sound : ∀ record ∈ gateway.queue.entries, record.command.validate gateway.limits = .ok () ∧
    record.command.fingerprint ext gateway.limits = .ok record.fingerprint
  once : (ledger.completions.map fun completion => completion.1.idempotencyKey).Nodup
  recorded : ∀ completion ∈ ledger.completions, Recorded ext gateway completion

namespace Kept

variable {ext : GatewayExternals} {config : EngineConfig} {gatewayConfig : GatewayConfig}
  {gateway : LocalGateway} {ledger : Ledger}

theorem new {engine : CogniformEngine} {compiler : Compiler}
    (h : LocalGateway.new engine gatewayConfig compiler = .ok gateway) :
    Kept ext gateway .empty := by
  rw [LocalGateway.new] at h
  split at h
  · cases h
  · cases h
    exact ⟨.empty _, rfl, by simp [CommandQueue.new], .nil, by simp [Ledger.empty]⟩

theorem admitted {record : CommandRecord} {queue : CommandQueue} {has : Bool}
    {answer : Except GatewayError GatewayAdmission} (h : Kept ext gateway ledger)
    (hkeys : (gateway.queue.entries.map CommandRecord.idempotencyKey).Nodup)
    (hvalid : record.command.validate gateway.limits = .ok ())
    (hfingerprint : record.command.fingerprint ext gateway.limits = .ok record.fingerprint)
    (hadmits : gateway.queue.Admits record has queue answer) :
    Kept ext { gateway with queue := queue } (ledger.submitted record.command answer) := by
  have hsound : ∀ other ∈ queue.entries, other.command.validate gateway.limits = .ok () ∧
      other.command.fingerprint ext gateway.limits = .ok other.fingerprint := by
    intro other hother
    rcases hadmits.mem hother with hold | rfl
    · exact h.sound other hold
    · exact ⟨hvalid, hfingerprint⟩
  cases hadmits with
  | stays entries answer_eq =>
    have hledger : ledger.submitted record.command answer = ledger := by
      rcases answer_eq with rfl | rfl | ⟨error, rfl⟩ <;> rfl
    rw [hledger]
    exact ⟨h.orderly, by rw [h.waiting, entries], hsound, h.once, h.recorded⟩
  | queued fresh unsuperseding room capacity entries =>
    refine ⟨h.orderly.join _, ?_, hsound, h.once, h.recorded⟩
    dsimp only
    rw [entries, List.map_append, ← h.waiting]
    simp [Ledger.submitted, Line.join]
  | @superseded before after old key fresh split old_key new_key entries =>
    -- the ticket with the superseded key is that of the record replaced
    have hold : old ∈ gateway.queue.entries := by
      rw [split]
      simp
    have hunique : ∀ other ∈ gateway.queue.entries,
        other.idempotencyKey = old.idempotencyKey → other = old :=
      fun other hother heq => List.inj_on_of_nodup_map hkeys hother hold heq
    have hbefore : ∀ command ∈ before.map CommandRecord.command,
        decide (command.idempotencyKey = old.idempotencyKey) = false := by
      intro command hcommand
      obtain ⟨other, hother, rfl⟩ := List.mem_map.mp hcommand
      rw [decide_eq_false_iff_not]
      intro heq
      rw [split, List.map_append, List.map_cons, List.nodup_middle, List.nodup_cons] at hkeys
      exact hkeys.1 (List.mem_append_left _ (List.mem_map.mpr ⟨other, hother, heq⟩))
    have hsupersedes : ∀ ticket ∈ ledger.line.waiting,
        decide (ticket.item.idempotencyKey = old.idempotencyKey) = true →
          Supersedes ticket.item record.command := by
      intro ticket hticket hkey
      have hmem : ticket.item ∈ gateway.queue.entries.map CommandRecord.command := by
        rw [← h.waiting]
        exact List.mem_map_of_mem hticket
      obtain ⟨other, hother, heq⟩ := List.mem_map.mp hmem
      have hsame := hunique other hother (by rw [← of_decide_eq_true hkey, ← heq]; rfl)
      rw [← heq, hsame]
      exact ⟨key, old_key, new_key⟩
    have hfound : ∃ ticket ∈ ledger.line.waiting,
        decide (ticket.item.idempotencyKey = old.idempotencyKey) = true := by
      have hmem : old.command ∈ ledger.line.waiting.map Ticket.item := by
        rw [h.waiting]
        exact List.mem_map_of_mem hold
      obtain ⟨ticket, hticket, heq⟩ := List.mem_map.mp hmem
      exact ⟨ticket, hticket, by rw [heq]; exact decide_eq_true rfl⟩
    have horderly := h.orderly.replace (fun waiting => waiting.idempotencyKey = old.idempotencyKey)
      record.command hfound hsupersedes
    refine ⟨horderly, ?_, hsound, h.once, h.recorded⟩
    dsimp only
    rw [entries, List.map_append, List.map_cons]
    refine Line.map_item_replace record.command ?_ (decide_eq_true rfl) hbefore
    rw [h.waiting, split, List.map_append, List.map_cons]

theorem submit (h : Kept ext gateway ledger)
    (hkeys : (gateway.queue.entries.map CommandRecord.idempotencyKey).Nodup)
    (command : GatewayCommand) (queuedAt : ℕ) :
    Kept ext (gateway.submit ext command queuedAt).1
      (ledger.submitted command (gateway.submit ext command queuedAt).2) := by
  rcases LocalGateway.submit_cases ext gateway command queuedAt with
    ⟨hsame, ⟨error, hanswer⟩ | ⟨response, hanswer⟩⟩ | ⟨fingerprint, hvalid, hfingerprint, -, heq⟩
  · rwa [hsame, hanswer]
  · rwa [hsame, hanswer]
  · rw [heq]
    exact h.admitted hkeys hvalid hfingerprint (CommandQueue.admitRecord_admits ..)

theorem processNext (h : Kept ext gateway ledger)
    (hfresh : ∀ record ∈ gateway.queue.entries, record.idempotencyKey ∉ gateway.completed)
    (clock : ApplyClock) :
    Kept ext (gateway.processNext ext clock).1
      (ledger.processed (gateway.processNext ext clock).2) := by
  rcases LocalGateway.processNext_cases ext gateway clock with ⟨-, heq⟩ |
    ⟨record, rest, hentries, ⟨abort, -, heq⟩ | ⟨response, -, heq⟩⟩
  · rw [heq]
    exact h
  · rw [heq]
    refine ⟨h.orderly.serve, ?_, fun other hother => ?_, h.once, h.recorded⟩
    · rw [Ledger.processed, Line.map_item_serve, h.waiting, hentries]
      rfl
    · exact h.sound other (by rw [hentries]; exact List.mem_cons_of_mem _ hother)
  · have hrecord : record ∈ gateway.queue.entries := by
      rw [hentries]
      exact List.mem_cons_self
    have hcompletions : (ledger.processed (.ok (some response))).completions =
        ledger.completions ++ [(record.command, response)] := by
      have hfront := h.waiting
      rw [hentries] at hfront
      rw [Ledger.processed]
      cases hwaiting : ledger.line.waiting with
      | nil =>
        rw [hwaiting] at hfront
        cases hfront
      | cons ticket waiting =>
        rw [hwaiting] at hfront
        have hitem : ticket.item = record.command := (List.cons.inj hfront).1
        rw [← hitem]
        rfl
    have hother : ∀ completion ∈ ledger.completions,
        completion.1.idempotencyKey ≠ record.idempotencyKey := by
      intro completion hcompletion heq
      obtain ⟨-, _, -, hget⟩ := h.recorded completion hcompletion
      rw [heq] at hget
      exact hfresh record hrecord (TreeMap.mem_of_get hget)
    rw [heq]
    refine ⟨h.orderly.serve, ?_, fun other hother => ?_, ?_, ?_⟩
    · rw [Ledger.processed, Line.map_item_serve, h.waiting, hentries]
      rfl
    · exact h.sound other (by rw [hentries]; exact List.mem_cons_of_mem _ hother)
    · rw [hcompletions, List.map_append]
      refine List.nodup_append.mpr ⟨h.once, List.nodup_singleton _, fun key hkey new hnew => ?_⟩
      obtain ⟨completion, hcompletion, rfl⟩ := List.mem_map.mp hkey
      rw [List.mem_singleton.mp hnew]
      exact hother completion hcompletion
    · rw [hcompletions]
      intro completion hcompletion
      rcases List.mem_append.mp hcompletion with hcompletion | hcompletion
      · obtain ⟨hvalid, fingerprint, hfingerprint, hget⟩ := h.recorded completion hcompletion
        refine ⟨hvalid, fingerprint, hfingerprint, ?_⟩
        dsimp only
        rw [TreeMap.getElem?_insert, if_neg (hother completion hcompletion)]
        exact hget
      · rw [List.mem_singleton.mp hcompletion]
        obtain ⟨hvalid, hfingerprint⟩ := h.sound record hrecord
        refine ⟨hvalid, record.fingerprint, hfingerprint, ?_⟩
        dsimp only
        rw [TreeMap.getElem?_insert]
        exact if_pos rfl

end Kept

namespace LocalGateway

variable {ext : GatewayExternals} {config : EngineConfig} {gatewayConfig : GatewayConfig}
  {gateway : LocalGateway} {ledger : Ledger}

theorem Run.kept (h : Run ext config gatewayConfig gateway ledger) : Kept ext gateway ledger := by
  induction h with
  | new hengine h => exact .new h
  | submitPatch h patch queuedAt ih => exact ih.submit h.valid.keys _ _
  | submitImagination h imagination queuedAt ih => exact ih.submit h.valid.keys _ _
  | processNext h clock hreturns ih => exact ih.processNext h.valid.fresh clock
  | submitFrame h hsubmit ih => exact ⟨ih.orderly, ih.waiting, ih.sound, ih.once, ih.recorded⟩

/-! ### Completed keys -/

theorem submit_invalid {command : GatewayCommand} {error : ValidationError}
    (h : command.validate gateway.limits = .error error) (queuedAt : ℕ) :
    gateway.submit ext command queuedAt = (gateway, .error (.invalidCommand error)) := by
  rw [submit, h]

theorem submit_unencodable {command : GatewayCommand} {error : CodecError}
    (hvalid : command.validate gateway.limits = .ok ())
    (h : command.toCanonicalJson ext gateway.limits = .error error) (queuedAt : ℕ) :
    gateway.submit ext command queuedAt = (gateway, .error (.invalidCommandEncoding error)) := by
  rw [submit, hvalid, CommandRecord.new, GatewayCommand.fingerprint, h]

theorem submit_completed {command : GatewayCommand} {fingerprint : Digest}
    {recorded : CompletedRecord} (hvalid : command.validate gateway.limits = .ok ())
    (hfingerprint : command.fingerprint ext gateway.limits = .ok fingerprint)
    (hget : gateway.completed[command.idempotencyKey]? = some recorded) (queuedAt : ℕ) :
    gateway.submit ext command queuedAt =
      (gateway, if recorded.fingerprint = fingerprint then .ok (.replayed recorded.response.asReplayed)
        else .error (.idempotencyConflict command.idempotencyKey)) := by
  have hrecord : gateway.completed[(⟨command, fingerprint, queuedAt⟩ :
      CommandRecord).idempotencyKey]? = some recorded := hget
  rw [submit, hvalid, CommandRecord.new, hfingerprint]
  dsimp only
  rw [admitRecord, hrecord]
  dsimp only
  by_cases heq : recorded.fingerprint = fingerprint
  · rw [if_neg (not_not.mpr heq), if_pos heq]
  · rw [if_pos heq, if_neg heq]
    rfl

structure AnswersAgain (ext : GatewayExternals) (gateway : LocalGateway) (command : GatewayCommand)
    (response : GatewayResponse) : Prop where
  replayed : ∀ queuedAt, gateway.submit ext command queuedAt =
    (gateway, .ok (.replayed response.asReplayed))
  invalid : ∀ other error queuedAt, other.idempotencyKey = command.idempotencyKey →
    other.validate gateway.limits = .error error →
    gateway.submit ext other queuedAt = (gateway, .error (.invalidCommand error))
  /-- Another command that cannot be encoded is refused as such. -/
  unencodable : ∀ other error queuedAt, other.idempotencyKey = command.idempotencyKey →
    other.validate gateway.limits = .ok () →
    other.toCanonicalJson ext gateway.limits = .error error →
    gateway.submit ext other queuedAt = (gateway, .error (.invalidCommandEncoding error))
  /-- Any other command under that key is in conflict, unless SHA-256 collides on the two. -/
  conflict : ∀ other encoded recorded queuedAt, other.idempotencyKey = command.idempotencyKey →
    other ≠ command → other.validate gateway.limits = .ok () →
    other.toCanonicalJson ext gateway.limits = .ok encoded →
    command.toCanonicalJson ext gateway.limits = .ok recorded →
    (ext.sha256 (other.fingerprintInput encoded) = ext.sha256 (command.fingerprintInput recorded) →
      other.fingerprintInput encoded = command.fingerprintInput recorded) →
    gateway.submit ext other queuedAt =
      (gateway, .error (.idempotencyConflict other.idempotencyKey))

theorem AnswersAgain.of_recorded (hpatch : ext.patchJson.Injective)
    (himagination : ext.imaginationJson.Injective) {completion : GatewayCommand × GatewayResponse}
    (h : Recorded ext gateway completion) :
    AnswersAgain ext gateway completion.1 completion.2 := by
  obtain ⟨hvalid, fingerprint, hfingerprint, hget⟩ := h
  refine ⟨fun queuedAt => ?_, fun other error queuedAt _ h => submit_invalid h queuedAt,
    fun other error queuedAt _ hvalid h => submit_unencodable hvalid h queuedAt,
    fun other encoded recorded queuedAt hkey hne hother hencoded hrecorded hsha => ?_⟩
  · rw [submit_completed hvalid hfingerprint hget, if_pos rfl]
  · rw [GatewayCommand.fingerprint, hrecorded] at hfingerprint
    cases hfingerprint
    rw [← hkey] at hget
    have hotherFingerprint : other.fingerprint ext gateway.limits =
        .ok (ext.sha256 (other.fingerprintInput encoded)) := by
      rw [GatewayCommand.fingerprint, hencoded]
    rw [submit_completed hother hotherFingerprint hget, if_neg]
    intro heq
    exact hne (GatewayCommand.eq_of_fingerprintInput hpatch himagination hencoded hrecorded
      (hsha heq.symm))

/-- **Delivery.** Every command taken in is queued, popped, or replaced by a later one with its
supersession key, exactly one of these; one that is not replaceable is never discarded. Places are
popped in the order they were opened, and a replacement takes its predecessor's. A key is completed
at most once; then the command gets its response again, and anything else under the key is refused,
with the gateway unchanged. -/
theorem run_delivers (ext : GatewayExternals) (config : EngineConfig)
    (gatewayConfig : GatewayConfig) (gateway : LocalGateway) (ledger : Ledger)
    (hpatch : ext.patchJson.Injective) (himagination : ext.imaginationJson.Injective)
    (hrun : Run ext config gatewayConfig gateway ledger) :
    gateway.queue.entries.map CommandRecord.command = ledger.line.waiting.map Ticket.item ∧
    (ledger.line.tickets.map Ticket.number).Perm (List.range ledger.line.entered.length) ∧
    (∀ ticket ∈ ledger.line.tickets, ledger.line.entered[ticket.number]? = some ticket.item) ∧
    (∀ pair ∈ ledger.line.replaced, pair.2 ∈ ledger.line.tickets ∧
      pair.1.number < pair.2.number ∧ pair.1.slot = pair.2.slot ∧
      ∃ key, pair.1.item.delivery = .latestWins key ∧ pair.2.item.delivery = .latestWins key) ∧
    (∀ ticket ∈ ledger.line.tickets,
      ticket.item.delivery = .mustApply ∨ ticket.item.delivery = .bestEffort →
      ticket ∈ ledger.line.served ++ ledger.line.waiting) ∧
    ((ledger.line.served ++ ledger.line.waiting).map Ticket.slot).Pairwise (· < ·) ∧
    (∀ ticket ∈ ledger.line.tickets, ticket.slot = ticket.number ∨
      ∃ old, (old, ticket) ∈ ledger.line.replaced) ∧
    (ledger.completions.map fun completion => completion.1.idempotencyKey).Nodup ∧
    ∀ completion ∈ ledger.completions, AnswersAgain ext gateway completion.1 completion.2 := by
  have h := hrun.kept
  have hreplaced : ∀ pair ∈ ledger.line.replaced, pair.2 ∈ ledger.line.tickets ∧
      pair.1.number < pair.2.number ∧ pair.1.slot = pair.2.slot ∧
      ∃ key, pair.1.item.delivery = .latestWins key ∧ pair.2.item.delivery = .latestWins key := by
    intro pair hpair
    obtain ⟨hentered, hnumber, hslot, key, hold, hnew⟩ := h.orderly.replaced pair hpair
    exact ⟨hentered, hnumber, hslot, key, GatewayCommand.supersessionKey_eq_some.mp hold,
      GatewayCommand.supersessionKey_eq_some.mp hnew⟩
  refine ⟨h.waiting.symm, h.orderly.accounted, h.orderly.item, hreplaced,
    fun ticket hticket hdelivery => ?_, h.orderly.ordered, h.orderly.origin, h.once,
    fun completion hcompletion => .of_recorded hpatch himagination (h.recorded _ hcompletion)⟩
  rcases List.mem_append.mp hticket with hplace | hgone
  · exact hplace
  · obtain ⟨pair, hpair, rfl⟩ := List.mem_map.mp hgone
    obtain ⟨-, -, -, key, hold, -⟩ := hreplaced pair hpair
    rw [hold] at hdelivery
    rcases hdelivery with hdelivery | hdelivery <;> cases hdelivery

def processedGateway : LocalGateway := (queuedGateway.processNext sampleExternals ⟨0, 0⟩).1

def processedLedger : Ledger :=
  (Ledger.empty.submitted (.patch meshPatch)
    (freshGateway.submitPatch sampleExternals meshPatch 0).2).processed
      (queuedGateway.processNext sampleExternals ⟨0, 0⟩).2

theorem run_processedGateway :
    Run sampleExternals (.new 64 64) .default processedGateway processedLedger :=
  .processNext (.submitPatch (.new (run_sampleEngine _) (show LocalGateway.new sampleEngine .default
    freshGateway.compiler = .ok freshGateway from rfl)) meshPatch 0) ⟨0, 0⟩
    (.of_isSome (by decide +kernel))

theorem sampleExternals_patchJson : sampleExternals.patchJson.Injective := by
  intro left right bytes hleft hright
  simp only [sampleExternals, pairExternals] at hleft hright
  grind

theorem run_delivers_processed :
    processedLedger.completions.map Prod.fst = [.patch meshPatch] ∧
      (∃ response, processedGateway.submitPatch sampleExternals meshPatch 1 =
        (processedGateway, .ok (.replayed response))) ∧
      processedGateway.submitPatch sampleExternals samplePatch 1 =
        (processedGateway, .error (.idempotencyConflict meshPatch.idempotencyKey)) := by
  have hcompletions : processedLedger.completions.map Prod.fst = [.patch meshPatch] := by
    decide +kernel
  obtain ⟨-, -, -, -, -, -, -, -, hanswers⟩ := run_delivers sampleExternals (.new 64 64) .default
    processedGateway processedLedger sampleExternals_patchJson (fun _ _ _ h => by cases h) run_processedGateway
  refine ⟨hcompletions, ?_⟩
  obtain ⟨⟨command, response⟩, hmem, hcommand⟩ :=
    List.mem_map.mp (hcompletions ▸ List.mem_singleton_self (GatewayCommand.patch meshPatch))
  cases hcommand
  have h : AnswersAgain sampleExternals processedGateway (.patch meshPatch) response :=
    hanswers _ hmem
  refine ⟨⟨_, h.replayed 1⟩,
    h.conflict (.patch samplePatch) [0x32, 10] [0x31, 10] 1 rfl ?_ ?_ ?_ ?_ ?_⟩
  all_goals decide +kernel

def emptyPatch : ScenePatch := { meshPatch with operations := [] }

theorem completed_key_invalid_command :
    ∃ completion ∈ processedLedger.completions,
      (GatewayCommand.patch emptyPatch).idempotencyKey = completion.1.idempotencyKey ∧
      GatewayCommand.patch emptyPatch ≠ completion.1 ∧
      Run sampleExternals (.new 64 64) .default processedGateway processedLedger ∧
      processedGateway.submitPatch sampleExternals emptyPatch 1 =
        (processedGateway, .error (.invalidCommand ⟨.emptyPatch, "operations"⟩)) := by
  have hcompletions : processedLedger.completions.map Prod.fst = [.patch meshPatch] := by
    decide +kernel
  obtain ⟨⟨command, response⟩, hmem, hcommand⟩ :=
    List.mem_map.mp (hcompletions ▸ List.mem_singleton_self (GatewayCommand.patch meshPatch))
  cases hcommand
  have hne : GatewayCommand.patch emptyPatch ≠ .patch meshPatch := by decide +kernel
  exact ⟨_, hmem, rfl, hne, run_processedGateway, submit_invalid (by decide +kernel) 1⟩

end LocalGateway

end Cogniform
