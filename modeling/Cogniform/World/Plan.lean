import Cogniform.World.Simulation

/-!
# What a plan does

Once every operation has passed, preflight checks the final hierarchy and recomputes transforms. The
facts commit rests on are collected in `Planned`, about the plan, the scene before the patch and the
scene it leads to.
-/

namespace Cogniform

abbrev TransformMap := Std.ExtTreeMap StableEntityId WorldTransform

/-- The transform is what `from_local` and `compose` make of the local transform and of the parent's
cached transform, up to the generation stamped on it. -/
def Derived (cache : StableEntityId → Option WorldTransform) (transform : Option LocalTransform)
    (parent : Option StableEntityId) (t : WorldTransform) : Prop :=
  ∃ base, WorldTransform.fromLocal transform t.generation = some base ∧
    match parent with
    | none => t = base
    | some parentId =>
      ∃ above, cache parentId = some above ∧ above.compose base t.generation = some t

theorem Derived.isFinite {cache : StableEntityId → Option WorldTransform}
    {transform : Option LocalTransform} {parent : Option StableEntityId} {t : WorldTransform}
    (h : Derived cache transform parent t) : t.matrix.isFinite = true := by
  obtain ⟨base, hbase, ht⟩ := h
  cases parent with
  | none =>
    rw [ht]
    exact WorldTransform.fromLocal_isFinite hbase
  | some parentId =>
    obtain ⟨above, -, hcompose⟩ := ht
    exact WorldTransform.compose_isFinite hcompose

theorem Derived.congr {cache cache' : StableEntityId → Option WorldTransform}
    {transform : Option LocalTransform} {parent : Option StableEntityId} {t : WorldTransform}
    (h : Derived cache transform parent t)
    (hcache : ∀ parentId, parent = some parentId → cache' parentId = cache parentId) :
    Derived cache' transform parent t := by
  obtain ⟨base, hbase, ht⟩ := h
  refine ⟨base, hbase, ?_⟩
  cases parent with
  | none => exact ht
  | some parentId =>
    obtain ⟨above, habove, hcompose⟩ := ht
    exact ⟨above, (hcache parentId rfl).trans habove, hcompose⟩

namespace AuthoritativeWorld

variable {world : AuthoritativeWorld}

section Updates

variable {parents : ParentMap} {generation : UInt64} {updates updates' : TransformMap}
  {localOverrides : Std.ExtTreeMap StableEntityId (Option LocalTransform)}

def lookup (world : AuthoritativeWorld) (updates : TransformMap) (entityId : StableEntityId) :
    Option WorldTransform :=
  updates[entityId]?.or world.worldTransforms[entityId]?

theorem updateTransform_ok {entityId : StableEntityId}
    (h : world.updateTransform parents localOverrides generation updates entityId = .ok updates') :
    ∃ t, updates' = updates.insert entityId t ∧ t.generation = generation ∧
      Derived (world.lookup updates) (world.effectiveLocalTransform localOverrides entityId)
        parents[entityId]? t := by
  rw [updateTransform] at h
  obtain ⟨base, hbase, h⟩ := Exec.bind_eq_ok.mp h
  obtain ⟨t, ht, h⟩ := Exec.bind_eq_ok.mp h
  rw [Exec.okOr_eq_ok] at hbase
  cases h
  rw [composeWorldTransform] at ht
  cases hparent : parents[entityId]? with
  | none =>
    rw [hparent] at ht
    cases ht
    have hgeneration := WorldTransform.fromLocal_generation hbase
    exact ⟨base, rfl, hgeneration, base, by rw [hgeneration]; exact hbase, rfl⟩
  | some parentId =>
    rw [hparent] at ht
    simp only at ht
    split at ht
    · cases ht
    · rename_i above habove
      rw [Exec.okOr_eq_ok] at ht
      have hgeneration := WorldTransform.compose_generation ht
      refine ⟨t, rfl, hgeneration, base, by rw [hgeneration]; exact hbase, above, habove, ?_⟩
      rw [hgeneration]
      exact ht

/-- What recomputation keeps: the updates are those of the entities done so far, and each is derived
from what lookups now return. -/
structure Recomputed (world : AuthoritativeWorld) (parents : ParentMap)
    (localOverrides : Std.ExtTreeMap StableEntityId (Option LocalTransform)) (generation : UInt64)
    (done : List StableEntityId) (updates : TransformMap) : Prop where
  mem_iff : ∀ id, id ∈ updates ↔ id ∈ done
  derived : ∀ id t, updates[id]? = some t → t.generation = generation ∧
    Derived (world.lookup updates) (world.effectiveLocalTransform localOverrides id) parents[id]? t

theorem updateTransforms_spec {rest : List StableEntityId} :
    ∀ {done : List StableEntityId} {updates : TransformMap}, (done ++ rest).Nodup →
      (∀ before y after p, done ++ rest = before ++ y :: after → parents[y]? = some p →
        p ∈ done ++ rest → p ∈ before) →
      Recomputed world parents localOverrides generation done updates →
      rest.foldlM (world.updateTransform parents localOverrides generation) updates =
        .ok updates' →
      Recomputed world parents localOverrides generation (done ++ rest) updates' := by
  induction rest with
  | nil =>
    intro done updates _ _ h hok
    cases hok
    rwa [List.append_nil]
  | cons x rest ih =>
    intro done updates hnodup horder h hok
    rw [List.foldlM_cons] at hok
    obtain ⟨middle, hmiddle, hok⟩ := Exec.bind_eq_ok.mp hok
    obtain ⟨t, rfl, hgeneration, hderived⟩ := updateTransform_ok hmiddle
    have hsplit : done ++ x :: rest = (done ++ [x]) ++ rest := by simp
    have hfresh : x ∉ done := fun hmem =>
      (List.nodup_append.mp hnodup).2.2 x hmem x (List.mem_cons_self ..) rfl
    -- a parent that is still to come would have to precede its child
    have hparent : ∀ id p : StableEntityId, id ∈ done ++ [x] → parents[id]? = some p → p ≠ x := by
      rintro id p hid hp rfl
      obtain ⟨before, after, hbefore⟩ := List.append_of_mem hid
      have hmem := horder before id (after ++ rest) p (by rw [hsplit, hbefore]; simp) hp (by simp)
      rcases List.eq_nil_or_concat after with rfl | ⟨after, z, rfl⟩
      · obtain ⟨rfl, -⟩ := List.append_inj' hbefore rfl
        exact hfresh hmem
      · have hbefore' : done ++ [p] = (before ++ id :: after) ++ [z] := by simpa using hbefore
        obtain ⟨rfl, -⟩ := List.append_inj' hbefore' rfl
        exact hfresh (List.mem_append_left _ hmem)
    have hlookup : ∀ p, p ≠ x → world.lookup (updates.insert x t) p = world.lookup updates p := by
      intro p hp
      rw [lookup, TreeMap.getElem?_insert, if_neg hp, lookup]
    rw [hsplit] at hnodup horder ⊢
    refine ih hnodup horder ⟨fun id => ?_, fun id t' ht' => ?_⟩ hok
    · rw [TreeMap.mem_insert, h.mem_iff, List.mem_append, List.mem_singleton, or_comm]
    · rw [TreeMap.getElem?_insert] at ht'
      split at ht'
      · rename_i heq
        subst heq
        cases ht'
        exact ⟨hgeneration, hderived.congr fun p hp =>
          hlookup p (hparent id p (by simp) hp)⟩
      · obtain ⟨hgeneration', hderived'⟩ := h.derived id t' ht'
        have hid : id ∈ done ++ [x] :=
          List.mem_append_left _ ((h.mem_iff id).mp (TreeMap.mem_of_get ht'))
        exact ⟨hgeneration', hderived'.congr fun p hp => hlookup p (hparent id p hid hp)⟩

end Updates

/-! ### The final hierarchy -/

theorem mem_list_insertEdge {children : ChildMap} {child parent x y : StableEntityId} :
    y ∈ (children.insertEdge child parent).list x ↔
      (y = child ∧ x = parent) ∨ y ∈ children.list x := by
  rw [ChildMap.list, ChildMap.insertEdge, TreeMap.getElem?_insert, ChildMap.list]
  by_cases hx : x = parent
  · subst hx
    cases h : children[x]? <;> simp [@eq_comm _ y child]
  · simp [hx]

theorem mem_list_foldl_insertEdge {edges : List (StableEntityId × StableEntityId)} :
    ∀ {children : ChildMap} {x y : StableEntityId},
      y ∈ (edges.foldl (fun children edge => children.insertEdge edge.1 edge.2) children).list x ↔
        (y, x) ∈ edges ∨ y ∈ children.list x := by
  induction edges with
  | nil => simp
  | cons edge edges ih =>
    intro children x y
    obtain ⟨child, parent⟩ := edge
    rw [List.foldl_cons, ih, mem_list_insertEdge, List.mem_cons, Prod.mk.injEq]
    tauto

theorem reciprocal_rebuildChildren (parents : ParentMap) :
    Reciprocal parents parents.rebuildChildren := by
  intro x y
  rw [ParentMap.rebuildChildren, mem_list_foldl_insertEdge,
    Std.ExtTreeMap.mem_toList_iff_getElem?_eq_some]
  simp [ChildMap.list]

/-- **Dirty closure.** Over an acyclic forest whose children map mirrors the parents, the traversal
ends with the dirty entities and their descendants, each once, and an affected parent stands before
its children. -/
theorem affectedEntities_exact {parents : ParentMap} {children : ChildMap}
    (hacyclic : parents.Acyclic) (hrecip : Reciprocal parents children) (dirtyRoots : EntitySet) :
    ∃ ordered, affectedEntities parents children dirtyRoots = some ordered ∧ ordered.Nodup ∧
      (∀ x, x ∈ ordered ↔ Affected parents dirtyRoots x) ∧
      ∀ x y, parents[y]? = some x → x ∈ ordered →
        y ∈ ordered ∧ ordered.idxOf x < ordered.idxOf y := by
  obtain ⟨ordered, hordered, hnodup, hmem, hbefore⟩ :=
    @affectedEntities_spec parents children dirtyRoots hacyclic hrecip
  refine ⟨ordered, hordered, hnodup, hmem, fun x y hparent hx => ?_⟩
  have hy : y ∈ ordered := (hmem y).mpr (((hmem x).mp hx).child hparent)
  obtain ⟨before, after, hsplit⟩ := List.append_of_mem hy
  have hearlier := hbefore before y after x hsplit hparent hx
  rw [hsplit, List.nodup_append] at hnodup
  have hlater : y ∉ before := fun hmem => hnodup.2.2 y hmem y (by simp) rfl
  refine ⟨hy, ?_⟩
  rw [hsplit, List.idxOf_append_of_mem hearlier, List.idxOf_append_of_notMem hlater]
  exact Nat.lt_add_right _ (List.idxOf_lt_length_of_mem hearlier)

def lineParents : ParentMap :=
  (∅ : ParentMap).insert (.lit 2) (.lit 3) |>.insert (.lit 1) (.lit 2)

theorem affectedEntities_line :
    ∃ ordered, affectedEntities lineParents lineParents.rebuildChildren
        {.lit 1, .lit 3} = some ordered ∧ ordered.Nodup ∧
      (∀ x, x ∈ ordered ↔ Affected lineParents {.lit 1, .lit 3} x) ∧
      ∀ x y, lineParents[y]? = some x → x ∈ ordered →
        y ∈ ordered ∧ ordered.idxOf x < ordered.idxOf y := by
  have hany : (hierarchyDepths {.lit 1, .lit 2, .lit 3} lineParents 3).toOption.any
      fun _ => true := by decide +kernel
  obtain ⟨depths, hdepths, -⟩ := Exec.exists_ok_of_any hany
  exact affectedEntities_exact (acyclic_of_hierarchyDepths hdepths)
    (reciprocal_rebuildChildren lineParents) _

theorem mem_foldl_liveness {id : StableEntityId} {entries : List (StableEntityId × EntityState)} :
    ∀ {ids : EntitySet}, (entries.map Prod.fst).Nodup →
      (id ∈ entries.foldl (fun liveIds entry =>
          if entry.2.live then liveIds.insert entry.1 else liveIds.erase entry.1) ids ↔
        (∃ entity, (id, entity) ∈ entries ∧ entity.live = true) ∨
          (id ∉ entries.map Prod.fst ∧ id ∈ ids)) := by
  induction entries with
  | nil => simp
  | cons entry entries ih =>
    intro ids hnodup
    obtain ⟨key, entity⟩ := entry
    rw [List.map_cons, List.nodup_cons] at hnodup
    have hkey : ∀ entity, (key, entity) ∉ entries := fun entity hmem =>
      hnodup.1 (List.mem_map.mpr ⟨_, hmem, rfl⟩)
    rw [List.foldl_cons, ih hnodup.2]
    rcases eq_or_ne id key with rfl | hne
    · cases hlive : entity.live <;> simp [hlive, hkey, hnodup.1]
    · cases hlive : entity.live <;> simp [hne, hne.symm]

theorem mem_overlayLiveIds {state : PreflightState} {scene : Scene}
    (h : Simulates world state scene) (hworld : world.Consistent) (id : StableEntityId) :
    id ∈ world.overlayLiveIds state.overlay ↔ id ∈ scene.entities := by
  have hnodup : (state.overlay.toList.map Prod.fst).Nodup := by
    rw [Std.ExtTreeMap.map_fst_toList_eq_keys]
    exact Std.ExtTreeMap.nodup_keys
  rw [overlayLiveIds, mem_foldl_liveness hnodup, Std.ExtTreeMap.map_fst_toList_eq_keys,
    Std.ExtTreeMap.mem_keys]
  simp only [Std.ExtTreeMap.mem_toList_iff_getElem?_eq_some]
  obtain ⟨entity, hentity, hdescribes⟩ := h.overlay id
  rw [overlayState] at hentity
  have hlive : id ∈ scene.entities ↔ entity.live = true := by
    rw [TreeMap.mem_iff]
    cases hscene : scene.entities[id]? with
    | none =>
      rw [hscene] at hdescribes
      simp [show entity.live = false from hdescribes]
    | some components =>
      rw [hscene] at hdescribes
      simp [hdescribes.1]
  rw [hlive]
  cases hoverlay : state.overlay[id]? with
  | some named =>
    rw [hoverlay] at hentity
    cases hentity
    simp [TreeMap.mem_of_get hoverlay]
  | none =>
    rw [hoverlay] at hentity
    obtain ⟨stored, hstored, hstoredDescribes⟩ := hworld.storedEntityState id
    have heq : stored = entity := by
      rw [hstored] at hentity
      exact Except.ok.inj hentity
    subst heq
    have hmem : id ∈ world.liveIds ↔ ∃ components, world.scene.entities[id]? = some components := by
      rw [mem_liveIds, ← hworld.toIndexed.mem_sceneEntities]
      exact TreeMap.mem_iff
    rw [hmem]
    cases hscene : world.scene.entities[id]? with
    | none =>
      rw [hscene] at hstoredDescribes
      simp [show stored.live = false from hstoredDescribes]
    | some components =>
      rw [hscene] at hstoredDescribes
      simp [hstoredDescribes.1, TreeMap.not_mem_iff.mpr hoverlay]

structure Planned (world : AuthoritativeWorld) (scene : Scene) (plan : CommitPlan) : Prop where
  parents : plan.parents.getD world.parents = scene.parents
  reciprocal : Reciprocal scene.parents (plan.children.getD world.children)
  topology : ∀ liveIds : EntitySet, (∀ id, id ∈ liveIds ↔ id ∈ scene.entities) →
    ∃ depths, hierarchyDepths liveIds scene.parents world.config.maxHierarchyDepth.get = .ok depths
  /-- Updated entities are live, and their transforms are derived from what is cached after the
  commit. -/
  derived : ∀ (id : StableEntityId) (t : WorldTransform), plan.transformUpdates[id]? = some t →
    t.generation = plan.transformGeneration ∧
      ∃ components : Components, scene.entities[id]? = some components ∧
      Derived (world.lookup plan.transformUpdates) components.localTransform scene.parents[id]? t
  /-- A live entity that is not updated has kept its local transform and its parent, and its parent
  is not updated either. -/
  kept : ∀ (id : StableEntityId) (components : Components),
    scene.entities[id]? = some components → id ∉ plan.transformUpdates →
    (∃ old : Components, world.scene.entities[id]? = some old ∧
      old.localTransform = components.localTransform) ∧
      scene.parents[id]? = world.parents[id]? ∧
        ∀ p, scene.parents[id]? = some p → p ∉ plan.transformUpdates
  /-- An entity outside the render set is not updated and looks the same to a renderer. -/
  unseen : ∀ id ∉ plan.renderChangedIds, id ∉ plan.transformUpdates ∧
    scene.entities[id]?.map Components.render = world.scene.entities[id]?.map Components.render
  pending : (world.pendingRenderChanges ∪ plan.renderChangedIds).size ≤
    world.config.maxPendingRenderChanges.get

section Complete

variable {state : PreflightState} {scene : Scene}

theorem checkHierarchy_ok {rebuilt : Option ChildMap} (hworld : world.Consistent)
    (h : Simulates world state scene) (ht : Tracks world.scene state scene)
    (hok : world.checkHierarchy state = .ok rebuilt) :
    Reciprocal scene.parents (rebuilt.getD world.children) ∧
      ∀ liveIds : EntitySet, (∀ id, id ∈ liveIds ↔ id ∈ scene.entities) → ∃ depths,
        hierarchyDepths liveIds scene.parents world.config.maxHierarchyDepth.get = .ok depths := by
  rw [checkHierarchy] at hok
  split at hok
  · obtain ⟨depths, hdepths, hok⟩ := Exec.bind_eq_ok.mp hok
    cases hok
    rw [h.parents] at hdepths ⊢
    refine ⟨reciprocal_rebuildChildren scene.parents, fun liveIds hlive => ⟨depths, ?_⟩⟩
    have heq : liveIds = world.overlayLiveIds state.overlay := Std.ExtTreeSet.ext_mem fun id => by
      rw [hlive, mem_overlayLiveIds h hworld]
    rw [heq]
    exact hdepths
  · rename_i hflag
    cases hok
    obtain ⟨hparents, hmem⟩ := ht.hierarchy (Bool.eq_false_iff.mpr hflag)
    rw [hparents]
    refine ⟨hworld.reciprocal, fun liveIds hlive => ?_⟩
    have heq : liveIds = world.liveIds := Std.ExtTreeSet.ext_mem fun id => by
      rw [hlive, hmem, mem_liveIds]
      exact hworld.toIndexed.mem_sceneEntities
    rw [heq]
    exact hworld.topology

theorem planTransformUpdates_ok {parents : ParentMap} {children : ChildMap}
    {overrides : Std.ExtTreeMap StableEntityId (Option LocalTransform)} {dirtyRoots : EntitySet}
    {updates : TransformMap} {generation : UInt64}
    (hacyclic : parents.Acyclic) (hrecip : Reciprocal parents children)
    (hok : world.planTransformUpdates parents children overrides dirtyRoots =
      .ok (updates, generation)) :
    (∀ id, id ∈ updates ↔ Affected parents dirtyRoots id) ∧
      (∀ id t, updates[id]? = some t → t.generation = generation ∧
        Derived (world.lookup updates) (world.effectiveLocalTransform overrides id)
          parents[id]? t) ∧
      ((∀ id, id ∉ updates) → generation = world.transformGeneration) ∧
      ∀ id ∈ updates, checkedSucc world.transformGeneration = some generation := by
  obtain ⟨ordered, hordered, hnodup, hmem, horder⟩ :=
    affectedEntities_spec hacyclic hrecip
  rw [planTransformUpdates, hordered] at hok
  obtain ⟨_, hgeneration, hok⟩ := Exec.bind_eq_ok.mp hok
  obtain ⟨_, hfold, hok⟩ := Exec.bind_eq_ok.mp hok
  cases hok
  have hempty : Recomputed world parents overrides generation [] ∅ :=
    ⟨fun id => by simp, fun id t ht => by simp at ht⟩
  have hspec : Recomputed world parents overrides generation ([] ++ ordered) updates :=
    updateTransforms_spec hnodup horder hempty hfold
  refine ⟨fun id => (hspec.mem_iff id).trans (hmem id), hspec.derived, fun hnone => ?_,
    fun id hid => ?_⟩
  · have hnil : ordered = [] := List.eq_nil_iff_forall_not_mem.mpr fun id hid =>
      hnone id ((hspec.mem_iff id).mpr hid)
    rw [nextTransformGeneration, hnil] at hgeneration
    exact (Except.ok.inj hgeneration).symm
  · have hne : ¬ ordered.isEmpty = true := fun hnil =>
      List.ne_nil_of_mem ((hspec.mem_iff id).mp hid) (List.isEmpty_iff.mp hnil)
    rw [nextTransformGeneration, if_neg hne, Exec.okOr_eq_ok] at hgeneration
    exact hgeneration

theorem completePreflight_ok {plan : CommitPlan} {newRevision : SceneRevision}
    (hworld : world.Consistent) (h : Simulates world state scene)
    (ht : Tracks world.scene state scene)
    (hok : world.completePreflight state newRevision = .ok plan) :
    plan.operations = state.operations ∧ plan.previousRevision = world.revision ∧
      plan.newRevision = newRevision ∧ Planned world scene plan := by
  rw [completePreflight] at hok
  obtain ⟨rebuilt, hrebuilt, hok⟩ := Exec.bind_eq_ok.mp hok
  obtain ⟨⟨updates, generation⟩, hupdates, hok⟩ := Exec.bind_eq_ok.mp hok
  obtain ⟨hrecip, htopology⟩ := checkHierarchy_ok hworld h ht hrebuilt
  obtain ⟨depths, hdepths⟩ := htopology _ (mem_overlayLiveIds h hworld)
  have hedges := (hierarchyDepths_sound hdepths).1
  rw [h.parents] at hupdates
  obtain ⟨hmem, hderived, -⟩ :=
    planTransformUpdates_ok (acyclic_of_hierarchyDepths hdepths) hrecip hupdates
  have hlive : ∀ id ∈ updates, id ∈ scene.entities := by
    intro id hid
    obtain ⟨r, hr, rfl | habove⟩ := (hmem id).mp hid
    · exact ht.dirty_live _ hr
    · obtain ⟨p, hp, -⟩ := Relation.TransGen.head'_iff.mp habove
      exact ht.child_live _ _ hp
  simp only at hok
  split at hok
  · cases hok
  · rename_i hpending
    cases hok
    refine ⟨rfl, rfl, rfl, ?_, hrecip, htopology, fun id t hid => ?_, fun id components hid hnot => ?_,
      fun id hid => ?_, Nat.not_lt.mp hpending⟩
    · cases hparents : state.parents with
      | borrowed parents =>
        rw [← h.parents, hparents]
        exact (ht.borrowed parents hparents).symm
      | owned parents => rw [← h.parents, hparents]; rfl
    · obtain ⟨hgeneration, hd⟩ := hderived id t hid
      obtain ⟨components, hcomponents⟩ :=
        TreeMap.mem_iff.mp (hlive id (TreeMap.mem_of_get hid))
      rw [h.transforms id components hcomponents] at hd
      exact ⟨hgeneration, components, hcomponents, hd⟩
    · have hclean : id ∉ state.dirtyRoots := fun hdirty =>
        hnot ((hmem id).mpr ⟨id, hdirty, .inl rfl⟩)
      obtain ⟨hold, hparent⟩ := ht.clean id components hid hclean
      exact ⟨hold, hparent, fun p hp hupdated =>
        hnot ((hmem id).mpr (((hmem p).mp hupdated).child hp))⟩
    · have hsplit : id ∉ state.renderChangedIds ∧ id ∉ updates := by
        simpa [Std.ExtTreeSet.mem_insertMany_list, Std.ExtTreeMap.mem_keys] using hid
      exact ⟨hsplit.2, ht.unseen id hsplit.1⟩

/-- **Accepted patches.** The sequential execution of the operations goes through, and the plan
leads to its final scene. -/
theorem preflight_ok {patch : ScenePatch} {plan : CommitPlan} {newRevision : SceneRevision}
    (hworld : world.Consistent)
    (hvalid : ∀ operation ∈ patch.operations, operation.validate = .ok ())
    (hok : world.preflight patch newRevision = .ok plan) :
    ∃ scene, world.scene.run world.config.maxEntities.get patch.operations = .ok scene ∧
      plan.operations = patch.operations ∧ plan.previousRevision = world.revision ∧
        plan.newRevision = newRevision ∧ Planned world scene plan := by
  rw [preflight] at hok
  split at hok
  · cases hok
  · obtain ⟨state, hstate, hok⟩ := Exec.bind_eq_ok.mp hok
    obtain ⟨scene, hrun, hoperations, h, ht⟩ := preflightOperations_ok hvalid
      (initialPreflight_simulates hworld) (initialPreflight_tracks hworld) hstate
    obtain ⟨hplanned, hprevious, hnew, hplan⟩ := completePreflight_ok hworld h ht hok
    exact ⟨scene, hrun, by rw [hplanned, hoperations]; rfl, hprevious, hnew, hplan⟩

end Complete

end AuthoritativeWorld

section Errors

open Exec

structure OfWholeState (error : WorldApplyError) : Prop where
  unpositioned : error.operationIndex? = none
  retained : ∀ limit, error ≠ .idempotencyCapacityExceeded limit

theorem assignPathDepths_failsWith (maxDepth : ℕ) (path : List StableEntityId) :
    ∀ depths depth, FailsWith OfWholeState (assignPathDepths maxDepth depths depth path) := by
  induction path with
  | nil => exact fun depths _ => .ok depths
  | cons entityId path ih =>
    intro depths depth
    rw [assignPathDepths]
    split
    · split
      · exact .fail ⟨rfl, by simp⟩
      · exact ih _ _
    · exact .fail ⟨rfl, by simp⟩

theorem measurePath_failsWith (parents : ParentMap) (maxDepth : ℕ) (depths : DepthMap) (fuel : ℕ) :
    ∀ path visiting current,
      FailsWith OfWholeState (measurePath parents maxDepth depths fuel path visiting current) := by
  induction fuel with
  | zero => exact fun _ _ _ => .diverge
  | succ fuel ih =>
    intro path visiting current
    rw [measurePath]
    split
    · exact assignPathDepths_failsWith _ _ _ _
    · split
      · exact .fail ⟨rfl, by simp⟩
      · split
        · exact ih _ _ _
        · exact assignPathDepths_failsWith _ _ _ _

theorem hierarchyDepths_failsWith (liveIds : EntitySet) (parents : ParentMap) (maxDepth : ℕ) :
    FailsWith OfWholeState (hierarchyDepths liveIds parents maxDepth) := by
  rw [hierarchyDepths]
  split
  · exact .fail ⟨rfl, by simp⟩
  · refine .foldlM (fun depths start => ?_) _ _
    rw [measureEntity]
    split
    · exact .ok depths
    · exact measurePath_failsWith _ _ _ _ _ _ _

namespace AuthoritativeWorld

variable (world : AuthoritativeWorld)

structure Bounding (P : WorldApplyError → Prop) : Prop where
  transform : ∀ entityId, P (.transformOverflow entityId)
  invariant : ∀ violation, P (.invariantViolation violation)
  generation : P .transformGenerationOverflow
  pending : ∀ limit, P (.renderExtractionCapacityExceeded limit)

variable {P : WorldApplyError → Prop}

theorem updateTransform_failsWith (hP : Bounding P) (parents : ParentMap)
    (overrides : Std.ExtTreeMap StableEntityId (Option LocalTransform)) (generation : UInt64)
    (updates : TransformMap) (entityId : StableEntityId) :
    FailsWith P (world.updateTransform parents overrides generation updates entityId) := by
  rw [updateTransform]
  refine .bind (.okOr (hP.transform _) _) fun transform _ => .bind ?_ fun _ _ => .ok _
  rw [composeWorldTransform]
  split
  · exact .ok transform
  · split
    · exact .fail (hP.invariant _)
    · exact .okOr (hP.transform _) _

theorem completePreflight_failsWith_of_hierarchy (hP : Bounding P) {state : PreflightState}
    (hhierarchy : FailsWith P (hierarchyDepths (world.overlayLiveIds state.overlay)
      state.parents.get world.config.maxHierarchyDepth.get)) (newRevision : SceneRevision) :
    FailsWith P (world.completePreflight state newRevision) := by
  rw [completePreflight]
  refine .bind ?_ fun rebuilt _ => .bind ?_ fun updates _ => ?_
  · rw [checkHierarchy]
    split
    · exact .bind hhierarchy fun _ _ => .ok _
    · exact .ok none
  · rw [planTransformUpdates]
    split
    · exact .diverge
    · refine .bind ?_ fun generation _ =>
        .bind (.foldlM (world.updateTransform_failsWith hP _ _ generation) _ _) fun _ _ => .ok _
      rw [nextTransformGeneration]
      split
      · exact .ok _
      · exact .okOr hP.generation _
  · simp only
    split
    · exact .fail (hP.pending _)
    · exact .ok _

theorem completePreflight_failsWith (state : PreflightState) (newRevision : SceneRevision) :
    FailsWith OfWholeState (world.completePreflight state newRevision) :=
  world.completePreflight_failsWith_of_hierarchy
    ⟨fun _ => ⟨rfl, by simp⟩, fun _ => ⟨rfl, by simp⟩, ⟨rfl, by simp⟩, fun _ => ⟨rfl, by simp⟩⟩
    (hierarchyDepths_failsWith _ _ _) newRevision

end AuthoritativeWorld

end Errors

end Cogniform
