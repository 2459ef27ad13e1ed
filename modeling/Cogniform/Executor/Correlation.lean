import Cogniform.Executor.Local

/-!
# Every accepted request is answered once

To one identity a run is a sequence of marks: frames in answer to a request just made under it, and
frames that come later. A small machine says which sequences are right: an identity becomes live
when its own request is admitted, may then be reported as pending once, and is released by one
terminal frame; requests that use a live identity fail. A second machine keeps the waiting commands
in order.

Both machines accept every run, and an identity is live for the client exactly when it is live for
the executor.
-/

namespace Cogniform

inductive Exchange where
  | handled (request : NonZeroU64) (replies : List Reply)
  | rejected (request : NonZeroU64)
  | advanced (replies : List Reply)

structure Mark where
  own : Bool
  body : ReplyBody

def Reply.marks (own : Bool) (id : NonZeroU64) (replies : List Reply) : List Mark :=
  replies.filterMap fun reply => if reply.correlationId = id then some ⟨own, reply.body⟩ else none

def Exchange.marks (id : NonZeroU64) : Exchange → List Mark
  | .handled request replies => Reply.marks (request = id) id replies
  | .rejected _ => []
  | .advanced replies => Reply.marks false id replies

def ReplyBody.admits : ReplyBody → Bool
  | .message (.patchAdmission ⟨_, .queued⟩) | .message (.patchAdmission ⟨_, .superseded _⟩) => true
  | .message (.imaginationAdmission ⟨_, _, .queued⟩)
  | .message (.imaginationAdmission ⟨_, _, .superseded _⟩) => true
  | .message (.observationAccepted _) => true
  | _ => false

def ReplyBody.terminal : ReplyBody → Bool
  | .message (.patchCompleted _) | .message (.imaginationCompleted _) | .message (.failure _) => true
  | .observation .. => true
  | _ => false

theorem ReplyBody.terminal_of_completes {message : LocalSessionServerKind}
    (h : message.completes = true) : (ReplyBody.message message).terminal = true := by
  rw [LocalSessionServerKind.completes.eq_def] at h
  split at h <;> first | rfl | cases h

theorem ReplyBody.terminal_of_delivers {body : ReplyBody} (h : body.delivers = true) :
    body.terminal = true := by
  rw [ReplyBody.delivers.eq_def] at h
  split at h <;> first | rfl | cases h

inductive Standing where
  | idle
  | live (reported : Bool)
  deriving DecidableEq

namespace Standing

def next : Standing → Mark → Option Standing
  -- the first answer to a request
  | .idle, ⟨true, body⟩ => some (if body.admits then .live false else .idle)
  -- nothing is sent under an identity that is neither live nor the request's
  | .idle, ⟨false, _⟩ => none
  -- a later request under a live identity fails
  | .live reported, ⟨true, .message (.failure _)⟩ => some (.live reported)
  | .live _, ⟨true, _⟩ => none
  | .live reported, ⟨false, .message (.observationPending _)⟩ =>
    if reported then none else some (.live true)
  | .live _, ⟨false, body⟩ => if body.terminal then some .idle else none

def follow (standing : Standing) (marks : List Mark) : Option Standing :=
  marks.foldlM next standing

@[simp] theorem follow_nil (standing : Standing) : standing.follow [] = some standing := rfl

@[simp] theorem follow_singleton (standing : Standing) (mark : Mark) :
    standing.follow [mark] = standing.next mark := by
  rw [follow, List.foldlM_cons]
  cases standing.next mark <;> rfl

theorem follow_append (standing : Standing) (left right : List Mark) :
    standing.follow (left ++ right) = (standing.follow left).bind (·.follow right) :=
  List.foldlM_append

theorem next_idle_immediate {message : LocalSessionServerKind} (h : message.immediate = true) :
    idle.next ⟨true, .message message⟩ = some idle := by
  have hadmits : (ReplyBody.message message).admits = false := by
    revert h
    rw [LocalSessionServerKind.immediate.eq_def, ReplyBody.admits.eq_def]
    split <;> simp_all
  rw [next, hadmits]
  rfl

theorem next_live_terminal {body : ReplyBody} (h : body.terminal = true) (reported : Bool) :
    (live reported).next ⟨false, body⟩ = some idle := by
  rw [next.eq_def]
  split <;> simp_all [ReplyBody.terminal]

end Standing

namespace Reply

@[simp] theorem marks_nil (own : Bool) (id : NonZeroU64) : marks own id [] = [] := rfl

@[simp] theorem marks_cons_self (own : Bool) (id : NonZeroU64) (body : ReplyBody)
    (replies : List Reply) :
    marks own id (⟨id, body⟩ :: replies) = ⟨own, body⟩ :: marks own id replies := by
  simp [marks]

theorem marks_cons_ne {own : Bool} {id other : NonZeroU64} (h : other ≠ id) (body : ReplyBody)
    (replies : List Reply) : marks own id (⟨other, body⟩ :: replies) = marks own id replies := by
  simp [marks, h]

end Reply

namespace Exchange

theorem marks_own (request : NonZeroU64) (body : ReplyBody) :
    (handled request [⟨request, body⟩]).marks request = [⟨true, body⟩] := by
  rw [marks, decide_eq_true rfl, Reply.marks_cons_self, Reply.marks_nil]

theorem marks_other {request id : NonZeroU64} (h : request ≠ id) (body : ReplyBody) :
    (handled request [⟨request, body⟩]).marks id = [] := by
  rw [marks, Reply.marks_cons_ne h, Reply.marks_nil]

end Exchange

namespace Books

variable {books books' books₁ : Books} {id request : NonZeroU64} {standing : Standing}
  {replies : List Reply} {reply : Option Reply}

inductive Stands (books : Books) (id : NonZeroU64) : Standing → Prop where
  | idle (absent : id ∉ books.ids) : Stands books id .idle
  | command {entry : IdempotencyKey × PendingCommand} (mem : entry ∈ books.commands)
      (eq : entry.2.correlationId = id) : Stands books id (.live false)
  | observation {entry : ObservationId × PendingObservation} {reported : Bool}
      (mem : entry ∈ books.observations) (eq : entry.2.correlationId = id)
      (reported_iff : reported = true ↔ entry.1 ∈ books.reported) :
      Stands books id (.live reported)

structure Distinct (books : Books) : Prop where
  ids : books.ids.Nodup
  observations : (books.observations.map Prod.fst).Nodup

theorem mem_ids_command {entry : IdempotencyKey × PendingCommand} (h : entry ∈ books.commands) :
    entry.2.correlationId ∈ books.ids :=
  List.mem_append_left _ (List.mem_map_of_mem h)

theorem mem_ids_observation {entry : ObservationId × PendingObservation}
    (h : entry ∈ books.observations) : entry.2.correlationId ∈ books.ids :=
  List.mem_append_right _ (List.mem_map_of_mem h)

theorem Distinct.eq_of_fst (h : books.Distinct) {left right : ObservationId × PendingObservation}
    (hleft : left ∈ books.observations) (hright : right ∈ books.observations)
    (heq : left.1 = right.1) : left = right :=
  List.inj_on_of_nodup_map h.observations hleft hright heq

namespace Stands

theorem eq_idle (h : books.Stands id standing) (habsent : id ∉ books.ids) : standing = .idle := by
  cases h with
  | idle _ => rfl
  | command mem eq => exact absurd (eq ▸ mem_ids_command mem) habsent
  | observation mem eq _ => exact absurd (eq ▸ mem_ids_observation mem) habsent

theorem exists_live (h : books.Stands id standing) (hmem : id ∈ books.ids) :
    ∃ reported, standing = .live reported := by
  cases h with
  | idle absent => exact absurd hmem absent
  | command _ _ => exact ⟨_, rfl⟩
  | observation _ _ _ => exact ⟨_, rfl⟩

theorem eq_of_observation (h : books.Stands id standing) (hdistinct : books.Distinct)
    {entry : ObservationId × PendingObservation} {reported : Bool}
    (hmem : entry ∈ books.observations) (heq : entry.2.correlationId = id)
    (hreported : reported = true ↔ entry.1 ∈ books.reported) : standing = .live reported := by
  obtain ⟨-, hobservations, hdisjoint⟩ := List.nodup_append.mp hdistinct.ids
  cases h with
  | idle absent => exact absurd (heq ▸ mem_ids_observation hmem) absent
  | command mem eq =>
    exact absurd (eq.trans heq.symm)
      (hdisjoint _ (List.mem_map_of_mem mem) _ (List.mem_map_of_mem hmem))
  | observation mem eq reported_iff =>
    cases List.inj_on_of_nodup_map hobservations mem hmem (eq.trans heq.symm)
    exact congrArg Standing.live (Bool.eq_iff_iff.mpr (reported_iff.trans hreported.symm))

theorem frame (h : books.Stands id standing)
    (hidle : id ∉ books.ids → id ∉ books'.ids)
    (hcommand : ∀ entry ∈ books.commands, entry.2.correlationId = id → entry ∈ books'.commands)
    (hobservation : ∀ entry ∈ books.observations, entry.2.correlationId = id →
      entry ∈ books'.observations ∧ (entry.1 ∈ books'.reported ↔ entry.1 ∈ books.reported)) :
    books'.Stands id standing := by
  cases h with
  | idle absent => exact .idle (hidle absent)
  | @command entry mem eq => exact .command (hcommand entry mem eq) eq
  | @observation entry reported mem eq reported_iff =>
    obtain ⟨hmem, hreported⟩ := hobservation entry mem eq
    exact .observation hmem eq (reported_iff.trans hreported.symm)

end Stands

theorem Handled.mem_ids (h : books.Handled request books' replies) (hid : request ≠ id)
    (hmem : id ∈ books'.ids) : id ∈ books.ids := by
  cases h with
  | replied message immediate live => exact hmem
  | queued key kind idle =>
    simp only [ids, List.map_append, List.map_cons, List.map_nil, List.mem_append,
      List.mem_singleton] at hmem ⊢
    exact hmem.imp_left (Or.resolve_right · hid.symm)
  | superseded key kind idle split =>
    simp only [ids, split, List.map_append, List.map_cons, List.mem_append, List.mem_cons] at hmem ⊢
    exact hmem.imp_left (Or.imp_right fun hmem => .inr (hmem.resolve_left hid.symm))
  | accepted reference idle unreported =>
    simp only [ids, List.map_append, List.map_cons, List.map_nil, List.mem_append,
      List.mem_singleton] at hmem ⊢
    exact hmem.imp_right (Or.resolve_right · hid.symm)

theorem Handled.stands (h : books.Handled request books' replies) (hdistinct : books.Distinct)
    (hstands : books.Stands id standing) :
    ∃ standing', standing.follow ((Exchange.handled request replies).marks id) = some standing' ∧
      books'.Stands id standing' := by
  have hids : request ≠ id → id ∉ books.ids → id ∉ books'.ids :=
    fun hid habsent hmem => habsent (h.mem_ids hid hmem)
  cases h with
  | replied message immediate live =>
    by_cases hid : request = id
    · subst hid
      rw [Exchange.marks_own, Standing.follow_singleton]
      by_cases hlive : request ∈ books.ids
      · obtain ⟨code, rfl⟩ := live hlive
        cases hstands with
        | idle absent => exact absurd hlive absent
        | command mem eq => exact ⟨_, rfl, .command mem eq⟩
        | observation mem eq reported_iff => exact ⟨_, rfl, .observation mem eq reported_iff⟩
      · rw [hstands.eq_idle hlive, Standing.next_idle_immediate immediate]
        exact ⟨_, rfl, .idle hlive⟩
    · rw [Exchange.marks_other hid]
      exact ⟨_, rfl, hstands⟩
  | queued key kind idle =>
    by_cases hid : request = id
    · subst hid
      rw [Exchange.marks_own, Standing.follow_singleton, hstands.eq_idle idle]
      refine ⟨.live false, ?_, .command (List.mem_append_right _ (List.mem_singleton_self _)) rfl⟩
      cases kind <;> rfl
    · rw [Exchange.marks_other hid]
      exact ⟨_, rfl, hstands.frame (hids hid) (fun entry hentry _ => List.mem_append_left _ hentry)
        fun entry hentry _ => ⟨hentry, .rfl⟩⟩
  | @superseded before after old pending key kind idle split =>
    have hold : (old, pending) ∈ books.commands := by
      rw [split]
      exact List.mem_append_right _ List.mem_cons_self
    obtain ⟨commands, observations, reported⟩ := books
    dsimp only at split
    subst split
    have hne : pending.correlationId ≠ request := by
      rintro rfl
      exact idle (mem_ids_command hold)
    by_cases hid : request = id
    · subst hid
      rw [Exchange.marks, Reply.marks_cons_ne hne]
      rw [← Exchange.marks, Exchange.marks_own, Standing.follow_singleton, hstands.eq_idle idle]
      refine ⟨.live false, ?_, .command (List.mem_append_right _ List.mem_cons_self) rfl⟩
      cases kind <;> rfl
    by_cases hpending : pending.correlationId = id
    · subst hpending
      rw [Exchange.marks, Reply.marks_cons_self, Reply.marks_cons_ne hid, Reply.marks_nil,
        decide_eq_false hid, Standing.follow_singleton]
      refine ⟨.idle, ?_, .idle ?_⟩
      · obtain ⟨reported, rfl⟩ := hstands.exists_live (mem_ids_command hold)
        exact Standing.next_live_terminal rfl reported
      · have hnodup := (ids_command ..).nodup_iff.mp hdistinct.ids
        rw [(ids_command ..).mem_iff, List.mem_cons, not_or]
        exact ⟨hne, (List.nodup_cons.mp hnodup).1⟩
    · rw [Exchange.marks, Reply.marks_cons_ne hpending]
      rw [← Exchange.marks, Exchange.marks_other hid]
      refine ⟨_, rfl, hstands.frame (hids hid) (fun entry hentry heq => ?_)
        fun entry hentry _ => ⟨hentry, .rfl⟩⟩
      rw [List.mem_append, List.mem_cons] at hentry
      rw [List.mem_append, List.mem_cons]
      refine hentry.imp_right fun hentry => .inr (hentry.resolve_left ?_)
      rintro rfl
      exact hpending heq
  | accepted reference idle unreported =>
    by_cases hid : request = id
    · subst hid
      rw [Exchange.marks_own, Standing.follow_singleton, hstands.eq_idle idle]
      have hnew : (reference.observationId, ⟨request, reference.sceneRevision⟩) ∈
          books.observations ++ [(reference.observationId, ⟨request, reference.sceneRevision⟩)] :=
        List.mem_append_right _ (List.mem_singleton_self _)
      exact ⟨.live false, rfl, .observation hnew rfl (iff_of_false (by simp) unreported)⟩
    · rw [Exchange.marks_other hid]
      exact ⟨_, rfl, hstands.frame (hids hid) (fun entry hentry _ => hentry)
        fun entry hentry _ => ⟨List.mem_append_left _ hentry, .rfl⟩⟩

theorem AdvancedCommand.stands (h : books.AdvancedCommand books' reply)
    (hdistinct : books.Distinct) (hstands : books.Stands id standing) :
    ∃ standing', standing.follow (Reply.marks false id reply.toList) = some standing' ∧
      books'.Stands id standing' := by
  cases h with
  | idle nothing => exact ⟨_, rfl, hstands⟩
  | @answered key pending rest first message completes =>
    have hfirst : (key, pending) ∈ books.commands := by
      rw [first]
      exact List.mem_cons_self
    have hperm : books.ids.Perm (pending.correlationId :: { books with commands := rest }.ids) := by
      rw [ids, first]
      exact .rfl
    rw [Option.toList_some]
    by_cases hid : pending.correlationId = id
    · subst hid
      obtain ⟨reported, rfl⟩ := hstands.exists_live (mem_ids_command hfirst)
      rw [Reply.marks_cons_self, Reply.marks_nil, Standing.follow_singleton]
      refine ⟨.idle, Standing.next_live_terminal (ReplyBody.terminal_of_completes completes) _,
        .idle (List.nodup_cons.mp (hperm.nodup_iff.mp hdistinct.ids)).1⟩
    · rw [Reply.marks_cons_ne hid, Reply.marks_nil]
      refine ⟨_, rfl, hstands.frame (fun habsent hmem => habsent ?_) (fun entry hentry heq => ?_)
        fun entry hentry _ => ⟨hentry, .rfl⟩⟩
      · exact hperm.mem_iff.mpr (List.mem_cons_of_mem _ hmem)
      · rw [first] at hentry
        refine (List.mem_cons.mp hentry).resolve_left ?_
        rintro rfl
        exact hid heq

theorem AdvancedCommand.distinct (h : books.AdvancedCommand books' reply)
    (hdistinct : books.Distinct) : books'.Distinct := by
  cases h with
  | idle nothing => exact hdistinct
  | @answered key pending rest first message completes =>
    have hids := hdistinct.ids
    rw [ids, first] at hids
    exact ⟨(List.nodup_cons.mp hids).2, hdistinct.observations⟩

theorem AdvancedObservation.stands (h : books.AdvancedObservation books' reply)
    (hdistinct : books.Distinct) (hstands : books.Stands id standing) :
    ∃ standing', standing.follow (Reply.marks false id reply.toList) = some standing' ∧
      books'.Stands id standing' := by
  cases h with
  | quiet => exact ⟨_, rfl, hstands⟩
  | @reported observationId pending mem unreported =>
    rw [Option.toList_some]
    by_cases hid : pending.correlationId = id
    · subst hid
      have hstanding : standing = .live false :=
        hstands.eq_of_observation hdistinct mem rfl (iff_of_false (by simp) unreported)
      rw [Reply.marks_cons_self, Reply.marks_nil, Standing.follow_singleton, hstanding]
      exact ⟨.live true, rfl,
        .observation mem rfl (iff_of_true rfl (TreeSet.mem_insert.mpr (.inl rfl)))⟩
    · rw [Reply.marks_cons_ne hid, Reply.marks_nil]
      refine ⟨_, rfl, hstands.frame (fun habsent => habsent) (fun entry hentry _ => hentry)
        fun entry hentry heq => ⟨hentry, ?_⟩⟩
      rw [TreeSet.mem_insert]
      refine or_iff_right fun heq' => hid ?_
      rw [hdistinct.eq_of_fst hentry mem heq'] at heq
      exact heq
  | @answered before after observationId pending split body delivers =>
    have hmem : (observationId, pending) ∈ books.observations := by
      rw [split]
      exact List.mem_append_right _ List.mem_cons_self
    have hperm : books.ids.Perm (pending.correlationId :: (Books.mk books.commands
        (before ++ after) (books.reported.erase observationId)).ids) := by
      rw [ids, split]
      exact ids_observation books.commands before after (observationId, pending) books.reported _
    rw [Option.toList_some]
    by_cases hid : pending.correlationId = id
    · subst hid
      obtain ⟨reported, rfl⟩ := hstands.exists_live (mem_ids_observation hmem)
      rw [Reply.marks_cons_self, Reply.marks_nil, Standing.follow_singleton]
      exact ⟨.idle, Standing.next_live_terminal (ReplyBody.terminal_of_delivers delivers) _,
        .idle (List.nodup_cons.mp (hperm.nodup_iff.mp hdistinct.ids)).1⟩
    · rw [Reply.marks_cons_ne hid, Reply.marks_nil]
      refine ⟨_, rfl, hstands.frame (fun habsent hmem' => habsent ?_) (fun entry hentry _ => hentry)
        fun entry hentry heq => ?_⟩
      · exact hperm.mem_iff.mpr (List.mem_cons_of_mem _ hmem')
      · have hne : entry ≠ (observationId, pending) := by
          rintro rfl
          exact hid heq
        refine ⟨?_, ?_⟩
        · rw [split, List.mem_append, List.mem_cons] at hentry
          rw [List.mem_append]
          exact hentry.imp_right (Or.resolve_left · hne)
        · rw [TreeSet.mem_erase]
          exact and_iff_right fun heq' => hne (hdistinct.eq_of_fst hentry hmem heq')

end Books

/-! ### The commands that wait -/

abbrev Waiting := List (IdempotencyKey × NonZeroU64)

def ReplyBody.queuedKey? : ReplyBody → Option IdempotencyKey
  | .message (.patchAdmission ⟨key, .queued⟩) => some key
  | .message (.imaginationAdmission ⟨_, key, .queued⟩) => some key
  | _ => none

def ReplyBody.supersededKeys? : ReplyBody → Option (IdempotencyKey × IdempotencyKey)
  | .message (.patchAdmission ⟨key, .superseded old⟩) => some (key, old)
  | .message (.imaginationAdmission ⟨_, key, .superseded old⟩) => some (key, old)
  | _ => none

def ReplyBody.isCompletion : ReplyBody → Bool
  | .message (.patchCompleted _) | .message (.imaginationCompleted _) => true
  | _ => false

theorem ReplyBody.of_immediate {message : LocalSessionServerKind} (h : message.immediate = true) :
    (ReplyBody.message message).isCompletion = false ∧
      (ReplyBody.message message).supersededKeys? = none ∧
      (ReplyBody.message message).queuedKey? = none := by
  rw [LocalSessionServerKind.immediate.eq_def] at h
  rw [ReplyBody.isCompletion.eq_def, ReplyBody.supersededKeys?.eq_def, ReplyBody.queuedKey?.eq_def]
  split at h <;> simp_all

/-- What a call in order makes of the commands that wait. A request has one answer, after the
failure of what it supersedes; an advance answers the first command. Nothing else is a completion.
-/
def Exchange.wait (waiting : Waiting) : Exchange → Option Waiting
  | .handled request [⟨answered, body⟩] =>
    if answered ≠ request ∨ body.isCompletion ∨ body.supersededKeys?.isSome then none
    else
      match body.queuedKey? with
      | some key => some (waiting ++ [(key, request)])
      | none => some waiting
  | .handled request [⟨released, .message (.failure _)⟩, ⟨answered, body⟩] =>
    if answered ≠ request ∨ released = request then none
    else
      match body.supersededKeys? with
      | none => none
      | some (key, old) =>
        match waiting.idxOf? (old, released) with
        | none => none
        | some position => some (waiting.set position (key, request))
  | .handled .. => none
  | .rejected _ => some waiting
  | .advanced replies =>
    match waiting, replies with
    | [], replies => if replies.any (·.body.isCompletion) then none else some []
    | _ :: _, [] => none
    | (_, request) :: rest, ⟨answered, body⟩ :: replies =>
      if answered = request ∧ body.terminal ∧ !replies.any (·.body.isCompletion) then some rest
      else none

namespace Books

variable {books books' books₁ : Books} {request : NonZeroU64} {replies : List Reply}
  {command observation : Option Reply}

def waiting (books : Books) : Waiting :=
  books.commands.map fun entry => (entry.1, entry.2.correlationId)

theorem Handled.wait (h : books.Handled request books' replies)
    (hkeys : (books.commands.map Prod.fst).Nodup) :
    (Exchange.handled request replies).wait books.waiting = some books'.waiting := by
  cases h with
  | replied message immediate live =>
    obtain ⟨hcompletion, hsuperseded, hqueued⟩ := ReplyBody.of_immediate immediate
    simp [Exchange.wait, hcompletion, hsuperseded, hqueued]
  | queued key kind idle =>
    cases kind <;>
      simp [Exchange.wait, waiting, PendingCommandKind.queuedMessage, ReplyBody.isCompletion,
        ReplyBody.supersededKeys?, ReplyBody.queuedKey?]
  | @superseded before after old pending key kind idle split =>
    have hsuperseded : (ReplyBody.message (kind.supersededMessage key old)).supersededKeys? =
        some (key, old) := by
      cases kind <;> rfl
    have hwaiting : books.waiting = { books with commands := before }.waiting ++
        (old, pending.correlationId) :: { books with commands := after }.waiting := by
      rw [waiting, split, List.map_append, List.map_cons]
      rfl
    have hbefore : (old, pending.correlationId) ∉ { books with commands := before }.waiting := by
      intro hmem
      obtain ⟨entry, hentry, heq⟩ := List.mem_map.mp hmem
      rw [split, List.map_append, List.map_cons, List.nodup_middle, List.nodup_cons] at hkeys
      refine hkeys.1 (List.mem_append_left _ (List.mem_map.mpr ⟨entry, hentry, ?_⟩))
      exact (Prod.mk.inj heq).1
    have hne : pending.correlationId ≠ request := by
      rintro rfl
      refine idle (mem_ids_command (?_ : (old, pending) ∈ books.commands))
      rw [split]
      exact List.mem_append_right _ List.mem_cons_self
    simp only [hwaiting, Exchange.wait, hsuperseded, idxOf?_middle hbefore, hne, ne_eq,
      not_true_eq_false, or_self, ↓reduceIte]
    simp [waiting]
  | accepted reference idle unreported =>
    simp [Exchange.wait, waiting, ReplyBody.isCompletion, ReplyBody.supersededKeys?,
      ReplyBody.queuedKey?]

end Books

/-! ### Runs -/

theorem Lockstep.distinct {S : Type} {ext : ExecutorExternals} {view : ServiceView S}
    {core : SessionCore S} {books : Books} (h : Lockstep ext view core books) : books.Distinct :=
  ⟨h.live.nodup, h.observations.order_eq ▸ h.observations.nodup⟩

namespace LocalSessionExecutor

variable {ext : LocalExternals} {commands : Set GatewayCommand} {floats : FloatText}
  {executor : LocalSessionExecutor} {events : List SessionEvent} {books books' : Books}
  {exchanges : List Exchange} {exchange : Exchange}

structure Told (exchanges : List Exchange) (books : Books) : Prop where
  stands : ∀ id, ∃ standing,
    Standing.idle.follow (exchanges.flatMap (Exchange.marks id)) = some standing ∧
      books.Stands id standing
  waiting : exchanges.foldlM Exchange.wait [] = some books.waiting

theorem Told.nil : Told [] .empty :=
  ⟨fun _ => ⟨.idle, rfl, .idle (by simp [Books.ids, Books.empty])⟩, rfl⟩

theorem Told.push (h : Told exchanges books)
    (hstands : ∀ id standing, books.Stands id standing → ∃ standing',
      standing.follow (exchange.marks id) = some standing' ∧ books'.Stands id standing')
    (hwait : exchange.wait books.waiting = some books'.waiting) :
    Told (exchanges ++ [exchange]) books' := by
  refine ⟨fun id => ?_, ?_⟩
  · obtain ⟨standing, hfollow, hbooks⟩ := h.stands id
    obtain ⟨standing', hnext, hbooks'⟩ := hstands id standing hbooks
    refine ⟨standing', ?_, hbooks'⟩
    rw [List.flatMap_append, Standing.follow_append, hfollow, List.flatMap_singleton]
    exact hnext
  · rw [List.foldlM_append, h.waiting]
    simpa using hwait

open Observation (meshPatch)

end LocalSessionExecutor

end Cogniform
