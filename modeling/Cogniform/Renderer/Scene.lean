import Cogniform.Lib.Allocation
import Cogniform.Lib.Exec
import Cogniform.Protocol.Render

/-!
# The extracted scene of a renderer

A renderer keeps the records it has received and gives each of them a compact identity. A packet is
consumed as a whole: it has to continue the generation and the revision of the scene, fit its
capacity and find compact identities for the new records, and only then anything is written.
-/

namespace Cogniform

abbrev RenderEntityId := NonZeroU32

structure SceneUpdateSummary where
  sceneRevision : SceneRevision
  generation : NonZeroU64
  upserts : ℕ
  removals : ℕ
  deriving DecidableEq

inductive SceneUpdateError where
  | generationMismatch (expected supplied : ℕ)
  | generationExhausted
  | baseRevisionMismatch (current supplied : SceneRevision)
  | entityCapacityExceeded (limit : ℕ)
  | compactIdentityExhausted
  deriving DecidableEq

structure RenderScene where
  revision : SceneRevision
  generation : UInt64
  entities : RenderMap
  compactIds : Std.ExtTreeMap StableEntityId RenderEntityId
  freeCompactIds : Std.ExtTreeSet RenderEntityId
  nextCompactId : Option NonZeroU32
  maxEntities : NonZeroU32

/-- `value.checked_add(1).and_then(NonZeroU32::new)`. -/
def nextNonZeroU32 (value : NonZeroU32) : Option NonZeroU32 :=
  if h : value.get + 1 < 2 ^ 32 then some ⟨value.get + 1, Nat.succ_pos _, h⟩ else none

/-- `u32::saturating_add(1)`. -/
def satSucc32 (n : ℕ) : ℕ := min (n + 1) (2 ^ 32 - 1)

namespace RenderScene

def new (maxEntities : NonZeroU32) : RenderScene where
  revision := .initial
  generation := 0
  entities := ∅
  compactIds := ∅
  freeCompactIds := ∅
  nextCompactId := some (.lit 1)
  maxEntities := maxEntities

variable (scene : RenderScene)

def projectOne (projectedCount : ℕ) : RenderChange → ℕ
  | .upsert entity =>
    if entity.entityId ∈ scene.entities then projectedCount else satAdd projectedCount 1
  | .remove entityId => if entityId ∈ scene.entities then projectedCount - 1 else projectedCount

def projectedCount (changes : List RenderChange) : ℕ :=
  changes.foldl scene.projectOne scene.entities.size

def releaseOne (freeCompactIds : Std.ExtTreeSet RenderEntityId) :
    RenderChange → Std.ExtTreeSet RenderEntityId
  | .upsert _ => freeCompactIds
  | .remove entityId =>
    match scene.compactIds[entityId]? with
    | some compactId => freeCompactIds.insert compactId
    | none => freeCompactIds

structure Assignment where
  assigned : Std.ExtTreeMap StableEntityId RenderEntityId
  freeCompactIds : Std.ExtTreeSet RenderEntityId
  next : Option NonZeroU32

def assignOne (assignment : Assignment) : RenderChange → Exec SceneUpdateError Assignment
  | .remove _ => .ok assignment
  | .upsert entity =>
    if entity.entityId ∈ scene.entities then .ok assignment
    else
      match assignment.freeCompactIds.toList.head? with
      | some compactId =>
        .ok { assignment with
          assigned := assignment.assigned.insert entity.entityId compactId
          freeCompactIds := assignment.freeCompactIds.erase compactId }
      | none => do
        let value ← Exec.okOr .compactIdentityExhausted assignment.next
        .ok { assignment with
          assigned := assignment.assigned.insert entity.entityId value
          next := nextNonZeroU32 value }

def assign (changes : List RenderChange) : Exec SceneUpdateError Assignment :=
  changes.foldlM scene.assignOne
    ⟨∅, changes.foldl scene.releaseOne scene.freeCompactIds, scene.nextCompactId⟩

structure Writing where
  assigned : Std.ExtTreeMap StableEntityId RenderEntityId
  compactIds : Std.ExtTreeMap StableEntityId RenderEntityId
  entities : RenderMap
  upserts : ℕ
  removals : ℕ

def Writing.next (writing : Writing) : RenderChange → Writing
  | .upsert entity =>
    { assigned := writing.assigned.erase entity.entityId
      compactIds := match writing.assigned[entity.entityId]? with
        | some compactId => writing.compactIds.insert entity.entityId compactId
        | none => writing.compactIds
      entities := writing.entities.insert entity.entityId entity
      upserts := satSucc32 writing.upserts
      removals := writing.removals }
  | .remove entityId =>
    { writing with
      entities := writing.entities.erase entityId
      compactIds := writing.compactIds.erase entityId
      removals := satSucc32 writing.removals }

def written (extraction : RenderExtraction) (assignment : Assignment) :
    RenderScene × SceneUpdateSummary :=
  let writing := extraction.changes.foldl Writing.next
    ⟨assignment.assigned, scene.compactIds, scene.entities, 0, 0⟩
  ({ scene with
    entities := writing.entities
    compactIds := writing.compactIds
    nextCompactId := assignment.next
    freeCompactIds := assignment.freeCompactIds
    revision := extraction.sceneRevision
    generation := extraction.generation.toUInt64 },
   ⟨extraction.sceneRevision, extraction.generation, writing.upserts, writing.removals⟩)

def prepareUpdate (extraction : RenderExtraction) : Exec SceneUpdateError Assignment := do
  let expected ← Exec.okOr .generationExhausted (checkedSucc scene.generation)
  if extraction.generation.get ≠ expected.toNat then
    Exec.fail (.generationMismatch expected.toNat extraction.generation.get)
  else if extraction.baseRevision ≠ scene.revision then
    Exec.fail (.baseRevisionMismatch scene.revision extraction.baseRevision)
  else if scene.maxEntities.get < scene.projectedCount extraction.changes then
    Exec.fail (.entityCapacityExceeded scene.maxEntities.get)
  else scene.assign extraction.changes

def apply (extraction : RenderExtraction) :
    RenderScene × Exec SceneUpdateError SceneUpdateSummary :=
  match scene.prepareUpdate extraction with
  | .error abort => (scene, .error abort)
  | .ok assignment =>
    ((scene.written extraction assignment).1, .ok (scene.written extraction assignment).2)

section Counting

variable {scene}

def isNew (scene : RenderScene) : RenderChange → Bool
  | .upsert entity => entity.entityId ∉ scene.entities
  | .remove _ => false

def isGone (scene : RenderScene) : RenderChange → Bool
  | .upsert _ => false
  | .remove entityId => entityId ∈ scene.entities

theorem projectOne_cases (scene : RenderScene) (start : ℕ) (change : RenderChange) :
    (scene.isNew change = false ∧ scene.isGone change = false ∧
      scene.projectOne start change = start) ∨
    (scene.isNew change = true ∧ scene.isGone change = false ∧
      scene.projectOne start change = satAdd start 1) ∨
    (scene.isNew change = false ∧ scene.isGone change = true ∧
      scene.projectOne start change = start - 1) := by
  cases change with
  | upsert entity =>
    by_cases hmem : entity.entityId ∈ scene.entities <;> simp [projectOne, isNew, isGone, hmem]
  | remove entityId =>
    by_cases hmem : entityId ∈ scene.entities <;> simp [projectOne, isNew, isGone, hmem]

theorem le_foldl_projectOne (scene : RenderScene) (changes : List RenderChange) :
    ∀ start, min (start + changes.countP scene.isNew) (2 ^ 64 - 1) ≤
      changes.foldl scene.projectOne start + changes.countP scene.isGone := by
  induction changes with
  | nil => simp
  | cons change changes ih =>
    intro start
    have hrest := ih (scene.projectOne start change)
    rw [List.countP_cons, List.countP_cons, List.foldl_cons]
    rcases scene.projectOne_cases start change with ⟨hnew, hgone, heq⟩ |
      ⟨hnew, hgone, heq⟩ | ⟨hnew, hgone, heq⟩
    all_goals
      rw [heq] at hrest ⊢
      simp only [hnew, hgone, if_true, Bool.false_eq_true, if_false, satAdd] at hrest ⊢
      omega

theorem foldl_projectOne_le (scene : RenderScene) (changes : List RenderChange) :
    ∀ start, changes.countP scene.isGone ≤ start → changes.countP scene.isGone < 2 ^ 64 →
      changes.foldl scene.projectOne start + changes.countP scene.isGone ≤
        start + changes.countP scene.isNew := by
  induction changes with
  | nil => simp
  | cons change changes ih =>
    intro start
    have hrest := ih (scene.projectOne start change)
    rw [List.countP_cons, List.countP_cons, List.foldl_cons]
    rcases scene.projectOne_cases start change with ⟨hnew, hgone, heq⟩ |
      ⟨hnew, hgone, heq⟩ | ⟨hnew, hgone, heq⟩
    all_goals
      rw [heq] at hrest ⊢
      simp only [hnew, hgone, if_true, Bool.false_eq_true, if_false, satAdd] at hrest ⊢
      omega

end Counting

/-! ### Compact identities -/

section Identities

variable {scene}

def nextValue : Option NonZeroU32 → ℕ
  | some value => value.get
  | none => 2 ^ 32

theorem nextValue_nextNonZeroU32 (value : NonZeroU32) :
    nextValue (nextNonZeroU32 value) = value.get + 1 := by
  have hlt := value.lt
  rw [nextNonZeroU32]
  split
  · rfl
  · rw [nextValue]
    omega

/-- Records and compact identities belong together: every record has one, the issued ones are in use
or free, and none exceeds the capacity. -/
structure Valid (scene : RenderScene) : Prop where
  keys : ∀ id : StableEntityId, id ∈ scene.compactIds ↔ id ∈ scene.entities
  allocated : Allocated NonZero.get scene.compactIds scene.freeCompactIds
    (nextValue scene.nextCompactId)
  bounded : nextValue scene.nextCompactId ≤ scene.maxEntities.get + 1

theorem size_add_free {used : Std.ExtTreeMap StableEntityId RenderEntityId}
    {free : Std.ExtTreeSet RenderEntityId} {next : Option NonZeroU32}
    (h : Allocated NonZero.get used free (nextValue next)) :
    used.size + free.size + 1 = nextValue next := by
  have hbound : 0 < nextValue next ∧ nextValue next ≤ 2 ^ 32 := by
    cases next with
    | none => exact ⟨by rw [nextValue]; decide, le_rfl⟩
    | some value => exact ⟨value.pos, value.lt.le⟩
  exact h.size_eq NonZero.get_injective NonZero.pos
    (fun n hpos hlt => ⟨⟨n, hpos, by omega⟩, rfl⟩) hbound.1

theorem valid_new (maxEntities : NonZeroU32) : (new maxEntities).Valid where
  keys id := by simp [new]
  allocated := .empty NonZero.pos
  bounded := Nat.succ_le_succ maxEntities.pos.le

theorem Valid.size_eq (h : scene.Valid) : scene.entities.size = scene.compactIds.size :=
  TreeMap.size_eq_of_mem_iff fun id => (h.keys id).symm

theorem Valid.size_le (h : scene.Valid) : scene.entities.size ≤ scene.maxEntities.get := by
  have hsize := size_add_free h.allocated
  have hbounded := h.bounded
  rw [h.size_eq]
  omega

def releaseKey (used : Std.ExtTreeMap StableEntityId RenderEntityId) :
    RenderChange → Std.ExtTreeMap StableEntityId RenderEntityId
  | .upsert _ => used
  | .remove entityId => used.erase entityId

theorem getElem?_releaseKeys {changes : List RenderChange} (id : StableEntityId) :
    ∀ used : Std.ExtTreeMap StableEntityId RenderEntityId,
      (changes.foldl releaseKey used)[id]? =
        if .remove id ∈ changes then none else used[id]? := by
  induction changes with
  | nil => simp
  | cons change changes ih =>
    intro used
    rw [List.foldl_cons, ih]
    cases change with
    | upsert entity => simp [releaseKey]
    | remove entityId =>
      by_cases hid : id = entityId
      · subst hid
        simp [releaseKey]
      · rw [releaseKey, TreeMap.getElem?_erase, if_neg hid]
        simp [hid]

theorem release_spec (hkeys : ∀ id : StableEntityId, id ∈ scene.compactIds ↔ id ∈ scene.entities)
    {changes : List RenderChange} {next : ℕ} :
    ∀ {used : Std.ExtTreeMap StableEntityId RenderEntityId} {free : Std.ExtTreeSet RenderEntityId},
      (changes.map RenderChange.entityId).Nodup →
      (∀ change ∈ changes, used[change.entityId]? = scene.compactIds[change.entityId]?) →
      Allocated NonZero.get used free next →
      Allocated NonZero.get (changes.foldl releaseKey used) (changes.foldl scene.releaseOne free)
        next ∧
      (changes.foldl releaseKey used).size + changes.countP scene.isGone = used.size := by
  induction changes with
  | nil => exact fun _ _ h => ⟨h, rfl⟩
  | cons change changes ih =>
    intro used free hnodup hsame h
    rw [List.map_cons, List.nodup_cons] at hnodup
    have hrest : ∀ other ∈ changes, used[other.entityId]? = scene.compactIds[other.entityId]? :=
      fun other hother => hsame other (List.mem_cons_of_mem _ hother)
    rw [List.foldl_cons, List.foldl_cons, List.countP_cons]
    cases change with
    | upsert entity => exact ih hnodup.2 hrest h
    | remove entityId =>
      have hlookup : used[entityId]? = scene.compactIds[entityId]? :=
        hsame (.remove entityId) (by simp)
      have herase : ∀ other ∈ changes,
          (used.erase entityId)[other.entityId]? = scene.compactIds[other.entityId]? := by
        intro other hother
        rw [TreeMap.getElem?_erase, if_neg, hrest other hother]
        intro heq
        exact hnodup.1 (List.mem_map.mpr ⟨other, hother, heq⟩)
      simp only [releaseKey, releaseOne, isGone, ← hkeys]
      cases hcompact : scene.compactIds[entityId]? with
      | none =>
        rw [hcompact] at hlookup
        have hnot := TreeMap.not_mem_iff.mpr hlookup
        rw [TreeMap.erase_of_not_mem hnot] at herase ⊢
        have hspec := ih hnodup.2 herase h
        simpa [TreeMap.not_mem_iff.mpr hcompact] using hspec
      | some compactId =>
        rw [hcompact] at hlookup
        have hspec := ih hnodup.2 herase (h.release hlookup)
        have hsize := TreeMap.size_erase_of_mem (TreeMap.mem_of_get hlookup)
        refine ⟨hspec.1, ?_⟩
        simp only [TreeMap.mem_of_get hcompact, decide_true, if_true]
        omega

/-- The identities that are kept, and those that have been assigned, are the ones in use; there is
room for the records that are still to come. -/
structure Assigning (scene : RenderScene) (kept : Std.ExtTreeMap StableEntityId RenderEntityId)
    (rest : List RenderChange) (assignment : Assignment) : Prop where
  allocated : Allocated NonZero.get (kept ∪ assignment.assigned) assignment.freeCompactIds
    (nextValue assignment.next)
  fits : (kept ∪ assignment.assigned).size + rest.countP scene.isNew ≤ scene.maxEntities.get
  bounded : nextValue assignment.next ≤ scene.maxEntities.get + 1
  fresh : ∀ change ∈ rest, change.entityId ∉ assignment.assigned

theorem union_insert (kept assigned : Std.ExtTreeMap StableEntityId RenderEntityId)
    (id : StableEntityId) (compactId : RenderEntityId) :
    kept ∪ assigned.insert id compactId = (kept ∪ assigned).insert id compactId := by
  refine Std.ExtTreeMap.ext_getElem? fun other => ?_
  rw [Std.ExtTreeMap.getElem?_union, TreeMap.getElem?_insert, TreeMap.getElem?_insert,
    Std.ExtTreeMap.getElem?_union]
  split
  · rfl
  · rfl

variable {kept : Std.ExtTreeMap StableEntityId RenderEntityId} {assignment : Assignment}
  {change : RenderChange} {rest : List RenderChange}

/-- **One assignment** succeeds: when nothing is free, the counter is at most the number of records
there will be. -/
theorem Assigning.step (hkept : ∀ id ∈ kept, id ∈ scene.entities)
    (hnodup : ((change :: rest).map RenderChange.entityId).Nodup)
    (h : Assigning scene kept (change :: rest) assignment) :
    ∃ assignment', scene.assignOne assignment change = .ok assignment' ∧
      Assigning scene kept rest assignment' ∧
      ∀ id : StableEntityId, id ∈ assignment'.assigned ↔
        id ∈ assignment.assigned ∨ scene.isNew change = true ∧ id = change.entityId := by
  rw [List.map_cons, List.nodup_cons] at hnodup
  have hfits := h.fits
  rw [List.countP_cons] at hfits
  by_cases hnew : scene.isNew change = true
  · cases change with
    | remove entityId => cases hnew
    | upsert entity =>
      have hnot : entity.entityId ∉ scene.entities := by simpa [isNew] using hnew
      have hunused : entity.entityId ∉ kept ∪ assignment.assigned := by
        rw [Std.ExtTreeMap.mem_union_iff, not_or]
        exact ⟨fun hid => hnot (hkept _ hid), h.fresh (.upsert entity) (by simp)⟩
      have hmore : ∀ compactId : RenderEntityId,
          (∀ other ∈ rest, other.entityId ∉ assignment.assigned.insert entity.entityId compactId) ∧
          ∀ id : StableEntityId, id ∈ assignment.assigned.insert entity.entityId compactId ↔
            id ∈ assignment.assigned ∨ scene.isNew (.upsert entity) = true ∧
              id = RenderChange.entityId (.upsert entity) := by
        refine fun compactId => ⟨fun other hother => ?_, fun id => ?_⟩
        · rw [TreeMap.mem_insert, not_or]
          exact ⟨fun heq => hnodup.1 (List.mem_map.mpr ⟨other, hother, heq⟩),
            h.fresh other (by simp [hother])⟩
        · rw [TreeMap.mem_insert, hnew, eq_self, true_and, or_comm]
          rfl
      rw [assignOne, if_neg hnot]
      rw [if_pos hnew] at hfits
      cases hmin : assignment.freeCompactIds.toList.head? with
      | some compactId =>
        have hfree : compactId ∈ assignment.freeCompactIds :=
          Std.ExtTreeSet.mem_toList.mp (List.mem_of_head? hmin)
        refine ⟨_, rfl, ⟨?_, ?_, h.bounded, (hmore compactId).1⟩, (hmore compactId).2⟩
        · rw [union_insert]
          exact h.allocated.reuse hfree hunused
        · rw [union_insert, TreeMap.size_insert_of_not_mem hunused]
          omega
      | none =>
        have hempty : assignment.freeCompactIds.size = 0 := by
          rw [← Std.ExtTreeSet.length_toList, List.head?_eq_none_iff.mp hmin]
          rfl
        have hsize := size_add_free h.allocated
        have hcapacity := scene.maxEntities.lt
        cases hnext : assignment.next with
        | none =>
          rw [hnext, nextValue] at hsize
          omega
        | some value =>
          rw [hnext, nextValue] at hsize
          simp only [Exec.okOr_some, Exec.ok_bind]
          refine ⟨_, rfl, ⟨?_, ?_, ?_, (hmore value).1⟩, (hmore value).2⟩
          · rw [union_insert, nextValue_nextNonZeroU32]
            have hallocated := h.allocated
            rw [hnext] at hallocated
            exact hallocated.issue NonZero.get_injective rfl hunused
          · rw [union_insert, TreeMap.size_insert_of_not_mem hunused]
            omega
          · rw [nextValue_nextNonZeroU32]
            omega
  · have hsame : scene.assignOne assignment change = .ok assignment := by
      cases change with
      | remove entityId => rfl
      | upsert entity =>
        have hmem : entity.entityId ∈ scene.entities := by simpa [isNew] using hnew
        rw [assignOne, if_pos hmem]
    rw [if_neg hnew] at hfits
    exact ⟨assignment, hsame, ⟨h.allocated, hfits, h.bounded,
      fun other hother => h.fresh other (by simp [hother])⟩, by simp [hnew]⟩

theorem Assigning.run (hkept : ∀ id ∈ kept, id ∈ scene.entities) :
    ∀ {assignment : Assignment}, (rest.map RenderChange.entityId).Nodup →
      Assigning scene kept rest assignment →
      ∃ assignment', rest.foldlM scene.assignOne assignment = .ok assignment' ∧
        Assigning scene kept [] assignment' ∧
        ∀ id : StableEntityId, id ∈ assignment'.assigned ↔ id ∈ assignment.assigned ∨
          ∃ change ∈ rest, scene.isNew change = true ∧ id = change.entityId := by
  induction rest with
  | nil => exact fun _ h => ⟨_, rfl, h, by simp⟩
  | cons change rest ih =>
    intro assignment hnodup h
    obtain ⟨middle, hmiddle, hassigning, hmem⟩ := h.step hkept hnodup
    obtain ⟨assignment', hrest, hdone, hmem'⟩ := ih (List.nodup_cons.mp hnodup).2 hassigning
    refine ⟨assignment', ?_, hdone, fun id => ?_⟩
    · rw [List.foldlM_cons, hmiddle, Exec.ok_bind, hrest]
    · rw [hmem', hmem]
      simp [or_assoc]

end Identities

/-! ### Writing -/

section Write

variable {scene} {changes : List RenderChange}

theorem entities_writing (changes : List RenderChange) :
    ∀ writing : Writing, (changes.foldl Writing.next writing).entities =
      changes.foldl RenderChange.consume writing.entities := by
  induction changes with
  | nil => exact fun _ => rfl
  | cons change changes ih =>
    intro writing
    rw [List.foldl_cons, List.foldl_cons, ih]
    cases change <;> rfl

theorem getElem?_compactIds_writing (hnodup : (changes.map RenderChange.entityId).Nodup)
    (id : StableEntityId) :
    ∀ writing : Writing, (changes.foldl Writing.next writing).compactIds[id]? =
      if .remove id ∈ changes then none
      else if id ∈ changes.map RenderChange.entityId then
        writing.assigned[id]?.or writing.compactIds[id]?
      else writing.compactIds[id]? := by
  induction changes with
  | nil => simp
  | cons change changes ih =>
    intro writing
    rw [List.map_cons, List.nodup_cons] at hnodup
    rw [List.foldl_cons, ih hnodup.2]
    by_cases hid : id = change.entityId
    · have hnot : id ∉ changes.map RenderChange.entityId := hid ▸ hnodup.1
      have hremove : RenderChange.remove id ∉ changes := fun hmem =>
        hnot (List.mem_map.mpr ⟨_, hmem, rfl⟩)
      rw [if_neg hremove, if_neg hnot]
      cases change with
      | remove entityId =>
        cases hid
        simp [Writing.next]
      | upsert entity =>
        cases hid
        rw [RenderChange.entityId_upsert] at hremove ⊢
        simp only [Writing.next]
        cases hassigned : writing.assigned[entity.entityId]? with
        | none => simp [hremove]
        | some compactId => simp [hremove]
    · have hsame : (writing.next change).assigned[id]? = writing.assigned[id]? ∧
          (writing.next change).compactIds[id]? = writing.compactIds[id]? := by
        cases change with
        | remove entityId =>
          have hid' : id ≠ entityId := hid
          exact ⟨rfl, by simp only [Writing.next, TreeMap.getElem?_erase, if_neg hid']⟩
        | upsert entity =>
          have hid' : id ≠ entity.entityId := hid
          simp only [Writing.next]
          refine ⟨by rw [TreeMap.getElem?_erase, if_neg hid'], ?_⟩
          cases writing.assigned[entity.entityId]? with
          | none => rfl
          | some compactId => simp only [TreeMap.getElem?_insert, if_neg hid']
      have hcons : (RenderChange.remove id ∈ change :: changes ↔ RenderChange.remove id ∈ changes) ∧
          (id ∈ change.entityId :: changes.map RenderChange.entityId ↔
            id ∈ changes.map RenderChange.entityId) := by
        refine ⟨⟨fun hmem => ?_, List.mem_cons_of_mem _⟩, by simp [hid]⟩
        rcases List.mem_cons.mp hmem with rfl | hmem
        · exact absurd rfl hid
        · exact hmem
      rw [hsame.1, hsame.2, if_congr hcons.1 rfl rfl, List.map_cons, if_congr hcons.2 rfl rfl]

theorem mem_consume (hnodup : (changes.map RenderChange.entityId).Nodup) (id : StableEntityId) :
    ∀ records : RenderMap, id ∈ changes.foldl RenderChange.consume records ↔
      (∃ entity, .upsert entity ∈ changes ∧ entity.entityId = id) ∨
        id ∈ records ∧ id ∉ changes.map RenderChange.entityId := by
  induction changes with
  | nil => simp
  | cons change changes ih =>
    intro records
    rw [List.map_cons, List.nodup_cons] at hnodup
    rw [List.foldl_cons, ih hnodup.2]
    cases change with
    | upsert entity =>
      simp only [RenderChange.consume, TreeMap.mem_insert, List.map_cons, List.mem_cons,
        RenderChange.entityId_upsert, not_or, RenderChange.upsert.injEq]
      constructor
      · rintro (⟨other, hother, rfl⟩ | ⟨rfl | hid, hout⟩)
        · exact .inl ⟨other, .inr hother, rfl⟩
        · exact .inl ⟨entity, .inl rfl, rfl⟩
        · by_cases heq : id = entity.entityId
          · exact .inl ⟨entity, .inl rfl, heq.symm⟩
          · exact .inr ⟨hid, heq, hout⟩
      · rintro (⟨other, rfl | hother, rfl⟩ | ⟨hid, hne, hout⟩)
        · exact .inr ⟨.inl rfl, hnodup.1⟩
        · exact .inl ⟨other, hother, rfl⟩
        · exact .inr ⟨.inr hid, hout⟩
    | remove entityId =>
      simp only [RenderChange.consume, TreeMap.mem_erase, List.map_cons, List.mem_cons,
        RenderChange.entityId_remove, not_or, reduceCtorEq, false_or, and_assoc]
      exact or_congr_right and_left_comm

theorem size_consume :
    ∀ {records : RenderMap}, (changes.map RenderChange.entityId).Nodup →
      (∀ change ∈ changes, change.entityId ∈ records ↔ change.entityId ∈ scene.entities) →
      (changes.foldl RenderChange.consume records).size + changes.countP scene.isGone =
        records.size + changes.countP scene.isNew := by
  induction changes with
  | nil => simp
  | cons change changes ih =>
    intro records hnodup hsame
    rw [List.map_cons, List.nodup_cons] at hnodup
    have hhead := hsame change (by simp)
    have hrest : ∀ other ∈ changes, other.entityId ∈ change.consume records ↔
        other.entityId ∈ scene.entities := by
      intro other hother
      have hne : other.entityId ≠ change.entityId := fun heq =>
        hnodup.1 (List.mem_map.mpr ⟨other, hother, heq⟩)
      rw [TreeMap.mem_iff, getElem?_consume, if_neg hne, ← TreeMap.mem_iff]
      exact hsame other (by simp [hother])
    have hspec := ih hnodup.2 hrest
    rw [List.foldl_cons, List.countP_cons, List.countP_cons]
    cases change with
    | upsert entity =>
      rw [RenderChange.entityId_upsert] at hhead
      simp only [RenderChange.consume] at hspec ⊢
      by_cases hmem : entity.entityId ∈ scene.entities
      · rw [TreeMap.size_insert_of_mem (hhead.mpr hmem)] at hspec
        simp only [isNew, isGone, hmem]
        simp
        omega
      · rw [TreeMap.size_insert_of_not_mem (fun h => hmem (hhead.mp h))] at hspec
        simp only [isNew, isGone, hmem]
        simp
        omega
    | remove entityId =>
      rw [RenderChange.entityId_remove] at hhead
      simp only [RenderChange.consume] at hspec ⊢
      by_cases hmem : entityId ∈ scene.entities
      · have hsize := TreeMap.size_erase_of_mem (hhead.mpr hmem)
        simp only [isNew, isGone, hmem]
        simp
        omega
      · rw [TreeMap.erase_of_not_mem (fun h => hmem (hhead.mp h))] at hspec ⊢
        simp only [isNew, isGone, hmem]
        simpa using hspec

theorem not_remove_of_upsert (hnodup : (changes.map RenderChange.entityId).Nodup)
    {entity : RenderEntity} (hupsert : .upsert entity ∈ changes) :
    RenderChange.remove entity.entityId ∉ changes := by
  intro hremove
  have := List.inj_on_of_nodup_map hnodup hupsert hremove rfl
  cases this

theorem exists_upsert_of_isNew {change : RenderChange} (hchange : change ∈ changes)
    (hnew : scene.isNew change = true) :
    ∃ entity, .upsert entity ∈ changes ∧ entity.entityId = change.entityId ∧
      change.entityId ∉ scene.entities := by
  cases change with
  | remove entityId => cases hnew
  | upsert entity => exact ⟨entity, hchange, rfl, by simpa [isNew] using hnew⟩

section

variable {extraction : RenderExtraction} {assignment : Assignment}
  (hnodup : (extraction.changes.map RenderChange.entityId).Nodup)
  (hassigned : ∀ id : StableEntityId, id ∈ assignment.assigned ↔
    ∃ change ∈ extraction.changes, scene.isNew change = true ∧ id = change.entityId)

include hnodup hassigned

theorem compactIds_written : (scene.written extraction assignment).1.compactIds =
    extraction.changes.foldl releaseKey scene.compactIds ∪ assignment.assigned := by
  have hnew : ∀ id ∈ assignment.assigned, ∃ entity, .upsert entity ∈ extraction.changes ∧
      entity.entityId = id := by
    intro id hid
    obtain ⟨change, hchange, hisNew, rfl⟩ := (hassigned id).mp hid
    obtain ⟨entity, hentity, hentityId, -⟩ := exists_upsert_of_isNew hchange hisNew
    exact ⟨entity, hentity, hentityId⟩
  refine Std.ExtTreeMap.ext_getElem? fun id => ?_
  refine (getElem?_compactIds_writing hnodup id _).trans ?_
  rw [Std.ExtTreeMap.getElem?_union, getElem?_releaseKeys]
  by_cases hremove : RenderChange.remove id ∈ extraction.changes
  · have hnone : assignment.assigned[id]? = none := by
      refine TreeMap.not_mem_iff.mp fun hid => ?_
      obtain ⟨entity, hentity, rfl⟩ := hnew id hid
      exact not_remove_of_upsert hnodup hentity hremove
    rw [if_pos hremove, if_pos hremove, hnone, Option.or_none]
  · rw [if_neg hremove, if_neg hremove]
    split
    · rfl
    · rename_i hid
      have hnone : assignment.assigned[id]? = none := by
        refine TreeMap.not_mem_iff.mp fun hmem => ?_
        obtain ⟨entity, hentity, rfl⟩ := hnew id hmem
        exact hid (List.mem_map.mpr ⟨_, hentity, rfl⟩)
      rw [hnone, Option.none_or]

theorem compactId_kept {id : StableEntityId} (hid : id ∈ scene.entities)
    (hstays : .remove id ∉ extraction.changes) :
    (scene.written extraction assignment).1.compactIds[id]? = scene.compactIds[id]? := by
  have hnone : assignment.assigned[id]? = none := by
    refine TreeMap.not_mem_iff.mp fun hmem => ?_
    obtain ⟨change, hchange, hisNew, rfl⟩ := (hassigned id).mp hmem
    obtain ⟨-, -, -, hnot⟩ := exists_upsert_of_isNew hchange hisNew
    exact hnot hid
  rw [compactIds_written hnodup hassigned, Std.ExtTreeMap.getElem?_union, getElem?_releaseKeys,
    if_neg hstays, hnone, Option.none_or]

theorem valid_written (h : scene.Valid)
    (hassigning : Assigning scene (extraction.changes.foldl releaseKey scene.compactIds) []
      assignment) : (scene.written extraction assignment).1.Valid := by
  have hcompact := compactIds_written hnodup hassigned
  refine ⟨fun id => ?_, by rw [hcompact]; exact hassigning.allocated, hassigning.bounded⟩
  have hentities : (scene.written extraction assignment).1.entities =
      extraction.changes.foldl RenderChange.consume scene.entities := entities_writing _ _
  have hkept : id ∈ extraction.changes.foldl releaseKey scene.compactIds ↔
      id ∈ scene.entities ∧ RenderChange.remove id ∉ extraction.changes := by
    rw [TreeMap.mem_iff, getElem?_releaseKeys, ← h.keys, TreeMap.mem_iff]
    split <;> simp [*]
  rw [hcompact, hentities, mem_consume hnodup, Std.ExtTreeMap.mem_union_iff, hkept]
  constructor
  · rintro (⟨hid, hnot⟩ | hid)
    · by_cases hchanged : id ∈ extraction.changes.map RenderChange.entityId
      · obtain ⟨change, hchange, rfl⟩ := List.mem_map.mp hchanged
        cases change with
        | upsert entity => exact .inl ⟨entity, hchange, rfl⟩
        | remove entityId => exact absurd hchange hnot
      · exact .inr ⟨hid, hchanged⟩
    · obtain ⟨change, hchange, hisNew, rfl⟩ := (hassigned id).mp hid
      obtain ⟨entity, hentity, hentityId, -⟩ := exists_upsert_of_isNew hchange hisNew
      exact .inl ⟨entity, hentity, hentityId⟩
  · rintro (⟨entity, hentity, rfl⟩ | ⟨hid, hchanged⟩)
    · by_cases hmem : entity.entityId ∈ scene.entities
      · exact .inl ⟨hmem, not_remove_of_upsert hnodup hentity⟩
      · exact .inr ((hassigned _).mpr ⟨_, hentity, by simp [isNew, hmem], rfl⟩)
    · exact .inl ⟨hid, fun hremove => hchanged (List.mem_map.mpr ⟨_, hremove, rfl⟩)⟩

end

end Write

/-! ### Consuming a packet -/

variable {scene} {extraction : RenderExtraction}

theorem nodup_entityIds (extraction : RenderExtraction) :
    (extraction.changes.map RenderChange.entityId).Nodup := by
  rw [List.Nodup, List.pairwise_map]
  exact extraction.ordered.imp fun hlt heq => absurd (congrArg OpaqueId.get heq) hlt.ne

theorem countP_isGone_le (h : scene.Valid) (extraction : RenderExtraction) :
    extraction.changes.countP scene.isGone ≤ scene.entities.size := by
  have hspec := (release_spec h.keys (nodup_entityIds extraction) (fun _ _ => rfl) h.allocated).2
  rw [h.size_eq]
  omega

/-- **Compact identities suffice.** Within the capacity every new record gets one, and the others
keep theirs. -/
theorem assign_ok (h : scene.Valid)
    (hfits : scene.projectedCount extraction.changes ≤ scene.maxEntities.get) :
    ∃ assignment, scene.assign extraction.changes = .ok assignment ∧
      (scene.written extraction assignment).1.Valid ∧
      ∀ id ∈ scene.entities, .remove id ∉ extraction.changes →
        (scene.written extraction assignment).1.compactIds[id]? = scene.compactIds[id]? := by
  have hnodup := nodup_entityIds extraction
  obtain ⟨hallocated, hsize⟩ := release_spec h.keys hnodup (fun _ _ => rfl) h.allocated
  have hkept : ∀ id ∈ extraction.changes.foldl releaseKey scene.compactIds,
      id ∈ scene.entities := by
    intro id hid
    obtain ⟨compactId, hcompact⟩ := TreeMap.mem_iff.mp hid
    rw [getElem?_releaseKeys] at hcompact
    split at hcompact
    · cases hcompact
    · exact (h.keys id).mp (TreeMap.mem_of_get hcompact)
  have hunion : extraction.changes.foldl releaseKey scene.compactIds ∪ ∅ =
      extraction.changes.foldl releaseKey scene.compactIds :=
    Std.ExtTreeMap.ext_getElem? fun id => by rw [Std.ExtTreeMap.getElem?_union]; simp
  have hroom : (extraction.changes.foldl releaseKey scene.compactIds).size +
      extraction.changes.countP scene.isNew ≤ scene.maxEntities.get := by
    have hlower := scene.le_foldl_projectOne extraction.changes scene.entities.size
    have hcapacity := scene.maxEntities.lt
    have hgone := countP_isGone_le h extraction
    have hlive := h.size_le
    rw [← h.size_eq] at hsize
    rw [projectedCount] at hfits
    omega
  have hstart : Assigning scene (extraction.changes.foldl releaseKey scene.compactIds)
      extraction.changes ⟨∅, extraction.changes.foldl scene.releaseOne scene.freeCompactIds,
        scene.nextCompactId⟩ :=
    ⟨by rw [hunion]; exact hallocated, by rw [hunion]; exact hroom, h.bounded, by simp⟩
  obtain ⟨assignment, hassign, hassigning, hassigned⟩ := hstart.run hkept hnodup
  have hassigned : ∀ id : StableEntityId, id ∈ assignment.assigned ↔
      ∃ change ∈ extraction.changes, scene.isNew change = true ∧ id = change.entityId := by
    intro id
    rw [hassigned]
    simp
  exact ⟨assignment, hassign, valid_written hnodup hassigned h hassigning,
    fun id => compactId_kept hnodup hassigned⟩

theorem projectedCount_le (h : scene.Valid)
    (hfits : (extraction.consume scene.entities).size ≤ scene.maxEntities.get) :
    scene.projectedCount extraction.changes ≤ scene.maxEntities.get := by
  have hgone := countP_isGone_le h extraction
  have hlive := h.size_le
  have hcapacity := scene.maxEntities.lt
  have hupper := scene.foldl_projectOne_le extraction.changes scene.entities.size hgone
    (by omega)
  have hsize := @size_consume scene _ _ (nodup_entityIds extraction) fun _ _ => Iff.rfl
  rw [RenderExtraction.consume] at hfits
  rw [projectedCount]
  omega

theorem apply_eq (h : scene.Valid)
    (hgeneration : extraction.generation.get = scene.generation.toNat + 1)
    (hbase : extraction.baseRevision = scene.revision)
    (hfits : (extraction.consume scene.entities).size ≤ scene.maxEntities.get) :
    ∃ scene' summary, scene.apply extraction = (scene', .ok summary) ∧ scene'.Valid ∧
      scene'.entities = extraction.consume scene.entities ∧
      scene'.revision = extraction.sceneRevision ∧
      scene'.generation = extraction.generation.toUInt64 ∧
      scene'.maxEntities = scene.maxEntities := by
  have hprojected := projectedCount_le h hfits
  obtain ⟨assignment, hassign, hvalid, -⟩ := assign_ok h hprojected
  have hnext : checkedSucc scene.generation = some extraction.generation.toUInt64 := by
    rw [checkedSucc_eq_some, NonZero.toNat_toUInt64, hgeneration]
  have hprepare : scene.prepareUpdate extraction = .ok assignment := by
    rw [prepareUpdate, hnext, Exec.okOr_some, Exec.ok_bind, NonZero.toNat_toUInt64,
      if_neg (not_not.mpr rfl), if_neg (not_not.mpr hbase), if_neg (Nat.not_lt.mpr hprojected),
      hassign]
  refine ⟨_, _, by rw [apply, hprepare], hvalid, ?_, rfl, rfl, rfl⟩
  exact entities_writing _ _

theorem not_remove_of_mem_consume {id : StableEntityId}
    (hid : id ∈ extraction.consume scene.entities) : .remove id ∉ extraction.changes := by
  rcases (mem_consume (nodup_entityIds extraction) id _).mp hid with ⟨entity, hentity, rfl⟩ | hid
  · exact not_remove_of_upsert (nodup_entityIds extraction) hentity
  · exact fun hremove => hid.2 (List.mem_map.mpr ⟨_, hremove, rfl⟩)

/-- **What a call of `apply` does.** It changes nothing, and not for want of a compact identity; or it
leaves a valid scene, in which the records that stayed keep their compact identities. -/
theorem apply_cases (h : scene.Valid) (extraction : RenderExtraction) :
    (∃ abort, abort ≠ .error .compactIdentityExhausted ∧
      scene.apply extraction = (scene, .error abort)) ∨
    ∃ scene' summary, scene.apply extraction = (scene', .ok summary) ∧ scene'.Valid ∧
      scene'.maxEntities = scene.maxEntities ∧
      ∀ id ∈ scene.entities, id ∈ scene'.entities →
        scene'.compactIds[id]? = scene.compactIds[id]? := by
  rw [apply, prepareUpdate]
  cases checkedSucc scene.generation with
  | none => exact .inl ⟨_, by simp, rfl⟩
  | some expected =>
    rw [Exec.okOr_some, Exec.ok_bind]
    by_cases hgeneration : extraction.generation.get ≠ expected.toNat
    · rw [if_pos hgeneration]
      exact .inl ⟨_, by simp, rfl⟩
    by_cases hbase : extraction.baseRevision ≠ scene.revision
    · rw [if_neg hgeneration, if_pos hbase]
      exact .inl ⟨_, by simp, rfl⟩
    by_cases hfits : scene.maxEntities.get < scene.projectedCount extraction.changes
    · rw [if_neg hgeneration, if_neg hbase, if_pos hfits]
      exact .inl ⟨_, by simp, rfl⟩
    obtain ⟨assignment, hassign, hvalid, hkept⟩ := assign_ok h (Nat.not_lt.mp hfits)
    rw [if_neg hgeneration, if_neg hbase, if_neg hfits, hassign]
    refine .inr ⟨_, _, rfl, hvalid, rfl, fun id hid hstays => hkept id hid ?_⟩
    have hentities : (scene.written extraction assignment).1.entities =
        extraction.consume scene.entities := entities_writing _ _
    rw [hentities] at hstays
    exact not_remove_of_mem_consume hstays

def applyAll (scene : RenderScene) (extractions : List RenderExtraction) : RenderScene :=
  extractions.foldl (fun scene extraction => (scene.apply extraction).1) scene

theorem Valid.apply (h : scene.Valid) (extraction : RenderExtraction) :
    (scene.apply extraction).1.Valid ∧
      (scene.apply extraction).1.maxEntities = scene.maxEntities ∧
      ∀ id ∈ scene.entities, id ∈ (scene.apply extraction).1.entities →
        (scene.apply extraction).1.compactIds[id]? = scene.compactIds[id]? := by
  rcases apply_cases h extraction with ⟨abort, -, heq⟩ | ⟨scene', summary, heq, hspec⟩
  · rw [heq]
    exact ⟨h, rfl, fun _ _ _ => rfl⟩
  · rw [heq]
    exact hspec

theorem Valid.applyAll (extractions : List RenderExtraction) :
    ∀ {scene : RenderScene}, scene.Valid → (scene.applyAll extractions).Valid ∧
      (scene.applyAll extractions).maxEntities = scene.maxEntities := by
  induction extractions with
  | nil => exact fun h => ⟨h, rfl⟩
  | cons extraction extractions ih =>
    intro scene h
    obtain ⟨hvalid, hcapacity, -⟩ := h.apply extraction
    obtain ⟨hvalid', hcapacity'⟩ := ih hvalid
    exact ⟨hvalid', hcapacity'.trans hcapacity⟩

theorem Valid.compactId_applyAll {id : StableEntityId} (extractions : List RenderExtraction) :
    ∀ {scene : RenderScene}, scene.Valid →
      (∀ n, id ∈ (scene.applyAll (extractions.take n)).entities) →
      (scene.applyAll extractions).compactIds[id]? = scene.compactIds[id]? := by
  induction extractions with
  | nil => exact fun _ _ => rfl
  | cons extraction extractions ih =>
    intro scene h hstays
    obtain ⟨hvalid, -, hkept⟩ := h.apply extraction
    exact (ih hvalid fun n => hstays (n + 1)).trans (hkept id (hstays 0) (hstays 1))

/-- **Compact identities.** After any packets the identities in use are those of the records,
distinct and not free, and with the free ones they are those below the counter; none is ever
lacking. A record keeps its identity as long as it stays, and a refused packet changes nothing. -/
theorem compactIds_sound (maxEntities : NonZeroU32) (extractions : List RenderExtraction) :
    let scene := (new maxEntities).applyAll extractions
    (∀ id : StableEntityId, id ∈ scene.compactIds ↔ id ∈ scene.entities) ∧
    (∀ (a b : StableEntityId) (compactId : RenderEntityId), scene.compactIds[a]? = some compactId →
      scene.compactIds[b]? = some compactId → a = b) ∧
    (∀ (id : StableEntityId) (compactId : RenderEntityId),
      scene.compactIds[id]? = some compactId → compactId ∉ scene.freeCompactIds) ∧
    (∀ compactId : RenderEntityId, (compactId ∈ scene.freeCompactIds ∨
      ∃ id : StableEntityId, scene.compactIds[id]? = some compactId) ↔
        compactId.get < nextValue scene.nextCompactId) ∧
    nextValue scene.nextCompactId ≤ maxEntities.get + 1 ∧
    (∀ extraction, (scene.apply extraction).2 ≠ .error (.error .compactIdentityExhausted) ∧
      ∀ abort, (scene.apply extraction).2 = .error abort → (scene.apply extraction).1 = scene) ∧
    ∀ (id : StableEntityId) (more : List RenderExtraction),
      (∀ n, id ∈ (scene.applyAll (more.take n)).entities) →
        (scene.applyAll more).compactIds[id]? = scene.compactIds[id]? := by
  intro scene
  obtain ⟨hvalid, hcapacity⟩ := (valid_new maxEntities).applyAll extractions
  have hbounded : nextValue scene.nextCompactId ≤ maxEntities.get + 1 := by
    rw [← show scene.maxEntities = maxEntities from hcapacity]
    exact hvalid.bounded
  refine ⟨hvalid.keys, hvalid.allocated.injective, hvalid.allocated.disjoint,
    hvalid.allocated.issued, hbounded, fun extraction => ?_,
    fun id more => hvalid.compactId_applyAll more⟩
  rcases apply_cases hvalid extraction with ⟨abort, hcause, heq⟩ | ⟨scene', summary, heq, -⟩
  · rw [show scene.apply extraction = (scene, .error abort) from heq]
    exact ⟨fun h => hcause (Except.error.inj h), fun _ _ => rfl⟩
  · rw [show scene.apply extraction = (scene', .ok summary) from heq]
    exact ⟨by simp, by simp⟩

end RenderScene

end Cogniform
