import Cogniform.World.Apply

/-!
# The sequential scene

What a patch means: its operations, executed one after another on a map of entities and a map of
parent edges. The store side of commit follows this model operation by operation: where the
sequential execution goes through, commit neither panics nor differs from it.
-/

namespace Cogniform

structure Scene where
  entities : Std.ExtTreeMap StableEntityId Components
  parents : ParentMap

inductive Obstacle where
  | entityAlreadyExists (entityId : StableEntityId)
  | entityCapacityExceeded (entityId : StableEntityId)
  | entityNotFound (entityId : StableEntityId)
  | componentNotFound (entityId : StableEntityId) (component : ComponentKind)
  deriving DecidableEq

namespace Scene

def step (maxEntities : ℕ) (scene : Scene) : SceneOperation → Except Obstacle Scene
  | .create entityId components =>
    if entityId ∈ scene.entities then .error (.entityAlreadyExists entityId)
    else if maxEntities < scene.entities.size + 1 then .error (.entityCapacityExceeded entityId)
    else .ok { scene with entities := scene.entities.insert entityId (.ofValues components) }
  | .delete entityId =>
    if entityId ∉ scene.entities then .error (.entityNotFound entityId)
    else .ok ⟨scene.entities.erase entityId, scene.parents.erase entityId⟩
  | .setComponent entityId component =>
    match scene.entities[entityId]? with
    | none => .error (.entityNotFound entityId)
    | some components =>
      .ok { scene with entities := scene.entities.insert entityId (components.set component) }
  | .removeComponent entityId component =>
    match scene.entities[entityId]? with
    | none => .error (.entityNotFound entityId)
    | some components =>
      if components.has component then
        .ok { scene with entities := scene.entities.insert entityId (components.remove component) }
      else .error (.componentNotFound entityId component)
  | .reparent entityId none =>
    if entityId ∉ scene.entities then .error (.entityNotFound entityId)
    else .ok { scene with parents := scene.parents.erase entityId }
  | .reparent entityId (some parentId) =>
    if entityId ∉ scene.entities then .error (.entityNotFound entityId)
    else if parentId ∉ scene.entities then .error (.entityNotFound parentId)
    else .ok { scene with parents := scene.parents.insert entityId parentId }

def run (maxEntities : ℕ) (scene : Scene) (operations : List SceneOperation) :
    Except Obstacle Scene :=
  operations.foldlM (step maxEntities) scene

end Scene

def sceneEntities (storage : Arena StoredRecord) (index : Std.ExtTreeMap StableEntityId ℕ) :
    Std.ExtTreeMap StableEntityId Components :=
  index.filterMap fun _ handle => (storage.get? handle).map StoredRecord.components

namespace AuthoritativeWorld

def scene (world : AuthoritativeWorld) : Scene where
  entities := sceneEntities world.storage world.stableIndex
  parents := world.parents

end AuthoritativeWorld

section Store

variable {storage storage' : Arena StoredRecord} {index : Std.ExtTreeMap StableEntityId ℕ}
  {id other : StableEntityId} {handle : ℕ}

theorem getElem?_sceneEntities :
    (sceneEntities storage index)[id]? =
      index[id]?.bind fun handle => (storage.get? handle).map StoredRecord.components := by
  rw [sceneEntities, Std.ExtTreeMap.getElem?_filterMap']

theorem Indexed.getElem?_eq_none_iff (h : Indexed storage index) :
    (sceneEntities storage index)[id]? = none ↔ index[id]? = none := by
  rw [getElem?_sceneEntities]
  cases hindex : index[id]? with
  | none => simp
  | some handle =>
    obtain ⟨record, hrecord, -⟩ := h.marked id handle hindex
    simp [hrecord]

theorem Indexed.mem_sceneEntities (h : Indexed storage index) :
    id ∈ sceneEntities storage index ↔ id ∈ index := by
  rw [← not_iff_not, TreeMap.not_mem_iff, TreeMap.not_mem_iff, h.getElem?_eq_none_iff]

theorem Indexed.exists_record (h : Indexed storage index) {components : Components}
    (hid : (sceneEntities storage index)[id]? = some components) :
    ∃ handle, index[id]? = some handle ∧
      storage.get? handle = some ⟨some id, components⟩ := by
  rw [getElem?_sceneEntities] at hid
  obtain ⟨handle, hindex, hcomponents⟩ := Option.bind_eq_some_iff.mp hid
  obtain ⟨record, hrecord, hmarker⟩ := h.marked id handle hindex
  rw [hrecord] at hcomponents
  obtain ⟨marker, stored⟩ := record
  cases hmarker
  cases hcomponents
  exact ⟨handle, hindex, hrecord⟩

theorem Indexed.handle_inj (h : Indexed storage index)
    (hid : index[id]? = some handle) (hother : index[other]? = some handle) : id = other := by
  obtain ⟨record, hrecord, hmarker⟩ := h.marked id handle hid
  obtain ⟨record', hrecord', hmarker'⟩ := h.marked other handle hother
  rw [hrecord, Option.some.injEq] at hrecord'
  rw [← hrecord', hmarker, Option.some.injEq] at hmarker'
  exact hmarker'

theorem Indexed.size_sceneEntities (h : Indexed storage index) :
    (sceneEntities storage index).size = index.size :=
  TreeMap.size_eq_of_mem_iff fun _ => h.mem_sceneEntities

theorem Indexed.empty : Indexed .empty ∅ where
  len_eq := by simp
  marked id handle h := by simp at h
  indexed handle record h := by simp at h

theorem Indexed.spawn (h : Indexed storage index) (hid : id ∉ index) (components : Components) :
    Indexed (storage.spawn ⟨some id, components⟩).2 (index.insert id storage.next) ∧
      sceneEntities (storage.spawn ⟨some id, components⟩).2 (index.insert id storage.next) =
        (sceneEntities storage index).insert id components := by
  have hold : ∀ {other : StableEntityId} {handle : ℕ}, index[other]? = some handle →
      other ≠ id ∧ handle ≠ storage.next := by
    intro other handle hother
    obtain ⟨record, hrecord, -⟩ := h.marked other handle hother
    refine ⟨?_, (Arena.get?_lt hrecord).ne⟩
    rintro rfl
    exact hid (TreeMap.mem_of_get hother)
  refine ⟨⟨?_, fun other handle hother => ?_, fun handle record hrecord => ?_⟩, ?_⟩
  · rw [Arena.len_spawn, h.len_eq, TreeMap.size_insert_of_not_mem hid]
  · rw [TreeMap.getElem?_insert] at hother
    rw [Arena.get?_spawn]
    split at hother
    · rename_i heq
      cases hother
      exact ⟨⟨some id, components⟩, if_pos rfl, by rw [heq]⟩
    · obtain ⟨record, hrecord, hmarker⟩ := h.marked other handle hother
      exact ⟨record, by rw [if_neg (hold hother).2, hrecord], hmarker⟩
  · rw [Arena.get?_spawn] at hrecord
    split at hrecord
    · rename_i hhandle
      cases hrecord
      exact ⟨id, rfl, by rw [hhandle, TreeMap.getElem?_insert, if_pos rfl]⟩
    · obtain ⟨other, hmarker, hother⟩ := h.indexed handle record hrecord
      exact ⟨other, hmarker, by rw [TreeMap.getElem?_insert, if_neg (hold hother).1, hother]⟩
  · refine Std.ExtTreeMap.ext_getElem? fun other => ?_
    rw [getElem?_sceneEntities, TreeMap.getElem?_insert, TreeMap.getElem?_insert,
      getElem?_sceneEntities]
    split
    · simp [Arena.get?_spawn]
    · cases hother : index[other]? with
      | none => rfl
      | some handle => simp [Arena.get?_spawn, (hold hother).2]

theorem Indexed.handle_ne (h : Indexed storage index) (hid : index[id]? = some handle)
    {handle' : ℕ} (hne : other ≠ id) (hother : index[other]? = some handle') :
    handle' ≠ handle := by
  rintro rfl
  exact hne (h.handle_inj hother hid)

theorem Indexed.despawn (h : Indexed storage index) (hid : index[id]? = some handle)
    (hdespawn : storage.despawn handle = some storage') :
    Indexed storage' (index.erase id) ∧
      sceneEntities storage' (index.erase id) = (sceneEntities storage index).erase id := by
  obtain ⟨-, hlen, hget⟩ := Arena.despawn_eq_some hdespawn
  refine ⟨⟨?_, fun other handle' hother => ?_, fun handle' record hrecord => ?_⟩, ?_⟩
  · have hsize := TreeMap.size_erase_of_mem (TreeMap.mem_of_get hid)
    have := h.len_eq
    omega
  · rw [TreeMap.getElem?_erase] at hother
    split at hother
    · cases hother
    · rename_i hne
      obtain ⟨record, hrecord, hmarker⟩ := h.marked other handle' hother
      exact ⟨record, by rw [hget, if_neg (h.handle_ne hid hne hother), hrecord], hmarker⟩
  · rw [hget] at hrecord
    split at hrecord
    · cases hrecord
    · rename_i hne
      obtain ⟨other, hmarker, hother⟩ := h.indexed handle' record hrecord
      have hdiff : other ≠ id := by
        rintro rfl
        rw [hid, Option.some.injEq] at hother
        exact hne hother.symm
      exact ⟨other, hmarker, by rw [TreeMap.getElem?_erase, if_neg hdiff, hother]⟩
  · refine Std.ExtTreeMap.ext_getElem? fun other => ?_
    rw [getElem?_sceneEntities, TreeMap.getElem?_erase, TreeMap.getElem?_erase,
      getElem?_sceneEntities]
    split
    · rfl
    · rename_i hne
      cases hother : index[other]? with
      | none => rfl
      | some handle' => simp [hget, h.handle_ne hid hne hother]

theorem Indexed.update (h : Indexed storage index) (hid : index[id]? = some handle)
    {change : StoredRecord → Option StoredRecord} {components components' : Components}
    (hrecord : storage.get? handle = some ⟨some id, components⟩)
    (hchange : change ⟨some id, components⟩ = some ⟨some id, components'⟩) :
    ∃ storage', storage.update handle change = some storage' ∧ Indexed storage' index ∧
      sceneEntities storage' index = (sceneEntities storage index).insert id components' := by
  obtain ⟨storage', hupdate⟩ := Option.isSome_iff_exists.mp (Arena.update_isSome hrecord hchange)
  obtain ⟨record, record', hrecord', hchange', hlen, hget⟩ := Arena.update_eq_some hupdate
  rw [hrecord, Option.some.injEq] at hrecord'
  rw [← hrecord', hchange, Option.some.injEq] at hchange'
  subst hchange'
  refine ⟨storage', hupdate,
    ⟨by rw [hlen, h.len_eq], fun other handle' hother => ?_, fun handle' record hrec => ?_⟩, ?_⟩
  · rw [hget]
    rcases eq_or_ne other id with rfl | hne
    · rw [hid, Option.some.injEq] at hother
      exact ⟨⟨some other, components'⟩, by rw [if_pos hother.symm], rfl⟩
    · obtain ⟨record, hrec, hmarker⟩ := h.marked other handle' hother
      exact ⟨record, by rw [if_neg (h.handle_ne hid hne hother), hrec], hmarker⟩
  · rw [hget] at hrec
    split at hrec
    · rename_i hhandle
      cases hrec
      exact ⟨id, rfl, by rw [hhandle, hid]⟩
    · exact h.indexed handle' record hrec
  · refine Std.ExtTreeMap.ext_getElem? fun other => ?_
    rw [getElem?_sceneEntities, TreeMap.getElem?_insert, getElem?_sceneEntities]
    split
    · rename_i heq
      cases heq
      simp [hid, hget]
    · rename_i hne
      cases hother : index[other]? with
      | none => rfl
      | some handle' => simp [hget, h.handle_ne hid hne hother]

end Store

section Commit

variable {ε : Type} {maxEntities : ℕ} {scene scene' : Scene} {world : AuthoritativeWorld}

theorem commitOperation_spec {operation : SceneOperation}
    (h : Indexed world.storage world.stableIndex)
    (hscene : sceneEntities world.storage world.stableIndex = scene.entities)
    (hstep : scene.step maxEntities operation = .ok scene') :
    ∃ storage index,
      (world.commitOperation operation : Exec ε AuthoritativeWorld) =
        .ok { world with storage := storage, stableIndex := index } ∧
      Indexed storage index ∧ sceneEntities storage index = scene'.entities := by
  cases operation with
  | create id components =>
    rw [Scene.step] at hstep
    split at hstep
    · cases hstep
    · rename_i hfresh
      split at hstep
      · cases hstep
      · cases hstep
        rw [← hscene, h.mem_sceneEntities] at hfresh
        obtain ⟨hindexed, hentities⟩ := h.spawn hfresh (.ofValues components)
        refine ⟨_, _, ?_, hindexed, by rw [hentities, hscene]⟩
        simp [AuthoritativeWorld.commitOperation, hfresh]
  | delete id =>
    rw [Scene.step] at hstep
    split at hstep
    · cases hstep
    · rename_i hlive
      cases hstep
      rw [not_not, ← hscene, h.mem_sceneEntities] at hlive
      obtain ⟨handle, hhandle⟩ := TreeMap.mem_iff.mp hlive
      obtain ⟨record, hrecord, -⟩ := h.marked id handle hhandle
      obtain ⟨storage, hdespawn⟩ := Option.isSome_iff_exists.mp (Arena.despawn_isSome hrecord)
      obtain ⟨hindexed, hentities⟩ := h.despawn hhandle hdespawn
      refine ⟨_, _, ?_, hindexed, by rw [hentities, hscene]⟩
      simp [AuthoritativeWorld.commitOperation, hhandle, hdespawn]
  | setComponent id component =>
    rw [Scene.step] at hstep
    split at hstep
    · cases hstep
    · rename_i components hid
      cases hstep
      rw [← hscene] at hid
      obtain ⟨handle, hhandle, hrecord⟩ := h.exists_record hid
      have hchange : StoredRecord.insertOne component ⟨some id, components⟩ =
        some ⟨some id, components.set component⟩ := rfl
      obtain ⟨storage, hupdate, hindexed, hentities⟩ := h.update hhandle hrecord hchange
      refine ⟨storage, _, ?_, hindexed, by rw [hentities, hscene]⟩
      simp [AuthoritativeWorld.commitOperation, hhandle, hupdate]
  | removeComponent id component =>
    rw [Scene.step] at hstep
    split at hstep
    · cases hstep
    · rename_i components hid
      split at hstep
      · rename_i hhas
        cases hstep
        rw [← hscene] at hid
        obtain ⟨handle, hhandle, hrecord⟩ := h.exists_record hid
        have hchange : StoredRecord.removeOne component ⟨some id, components⟩ =
          some ⟨some id, components.remove component⟩ := if_pos hhas
        obtain ⟨storage, hupdate, hindexed, hentities⟩ := h.update hhandle hrecord hchange
        refine ⟨storage, _, ?_, hindexed, by rw [hentities, hscene]⟩
        simp [AuthoritativeWorld.commitOperation, hhandle, hupdate]
      · cases hstep
  | reparent id parent =>
    have hentities : scene'.entities = scene.entities := by
      cases parent with
      | none =>
        rw [Scene.step] at hstep
        split at hstep
        · cases hstep
        · cases hstep; rfl
      | some parent =>
        rw [Scene.step] at hstep
        split at hstep
        · cases hstep
        · split at hstep
          · cases hstep
          · cases hstep; rfl
    exact ⟨_, _, rfl, h, by rw [hentities, hscene]⟩

/-- **Commit carries out the sequential execution.** It reaches none of its panics, touches only
the store and the index, and leaves the entities the execution leaves. -/
theorem commitOperations_spec {operations : List SceneOperation} :
    ∀ {world : AuthoritativeWorld} {scene : Scene}, Indexed world.storage world.stableIndex →
      sceneEntities world.storage world.stableIndex = scene.entities →
      scene.run maxEntities operations = .ok scene' →
        ∃ storage index,
          (operations.foldlM AuthoritativeWorld.commitOperation world :
              Exec ε AuthoritativeWorld) =
            .ok { world with storage := storage, stableIndex := index } ∧
          Indexed storage index ∧ sceneEntities storage index = scene'.entities := by
  induction operations with
  | nil =>
    intro world scene h hscene hrun
    cases hrun
    exact ⟨_, _, rfl, h, hscene⟩
  | cons operation operations ih =>
    intro world scene h hscene hrun
    rw [Scene.run, List.foldlM_cons] at hrun
    cases hstep : scene.step maxEntities operation with
    | error obstacle => rw [hstep] at hrun; cases hrun
    | ok middle =>
      rw [hstep] at hrun
      obtain ⟨storage, index, hcommit, hindexed, hentities⟩ := commitOperation_spec h hscene hstep
      rw [List.foldlM_cons, hcommit, Exec.ok_bind]
      exact ih hindexed hentities hrun

end Commit

end Cogniform
