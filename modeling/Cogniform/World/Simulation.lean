import Cogniform.World.Scene

/-!
# Preflight simulates the sequential execution

`Simulates` relates preflight's overlay to the scene reached so far, and every operation keeps it or
is refused exactly where the sequential execution is stuck, for the same reason. `Tracks` is the
other half of the bookkeeping, relative to the scene before the patch: what is outside the dirty set
and the render set has not changed.
-/

namespace Cogniform

def Obstacle.rejection (limit operationIndex : ℕ) : Obstacle → WorldApplyError
  | .entityAlreadyExists entityId => .entityAlreadyExists operationIndex entityId
  | .entityCapacityExceeded entityId => .entityCapacityExceeded operationIndex entityId limit
  | .entityNotFound entityId => .entityNotFound operationIndex entityId
  | .componentNotFound entityId component => .componentNotFound operationIndex entityId component

def EntityState.Describes (entity : EntityState) : Option Components → Prop
  | none => entity.live = false
  | some components =>
    entity.live = true ∧ ∀ kind, entity.components.contains kind = components.has kind

structure Simulates (world : AuthoritativeWorld) (state : PreflightState) (scene : Scene) :
    Prop where
  overlay : ∀ id, ∃ entity, world.overlayState state.overlay id = .ok entity ∧
    entity.Describes scene.entities[id]?
  parents : state.parents.get = scene.parents
  liveEntities : state.liveEntities = scene.entities.size
  transforms : ∀ id components, scene.entities[id]? = some components →
    world.effectiveLocalTransform state.localOverrides id = components.localTransform

/-- The sets of changed entities cover what changed since `before`. -/
structure Tracks (before : Scene) (state : PreflightState) (scene : Scene) : Prop where
  dirty_live : ∀ id ∈ state.dirtyRoots, id ∈ scene.entities
  /-- A live entity that is not dirty has kept its local transform and its parent. -/
  clean : ∀ id components, scene.entities[id]? = some components → id ∉ state.dirtyRoots →
    (∃ old, before.entities[id]? = some old ∧ old.localTransform = components.localTransform) ∧
      scene.parents[id]? = before.parents[id]?
  /-- An entity outside the render set looks the same to a renderer. -/
  unseen : ∀ id ∉ state.renderChangedIds,
    scene.entities[id]?.map Components.render = before.entities[id]?.map Components.render
  hierarchy : state.hierarchyChanged = false →
    scene.parents = before.parents ∧ ∀ id, id ∈ scene.entities ↔ id ∈ before.entities
  borrowed : ∀ parents, state.parents = .borrowed parents → parents = before.parents
  child_live : ∀ child parent : _, scene.parents[child]? = some parent → child ∈ scene.entities

/-- Preflighting an operation mirrors its execution: the next overlay for the next scene, or the
error that belongs to the obstacle. -/
def Mirrors (world : AuthoritativeWorld) (before : Scene) (state : PreflightState) (scene : Scene)
    (operation : SceneOperation) (operationIndex : ℕ)
    (outcome : Exec WorldApplyError PreflightState) : Prop :=
  match scene.step world.config.maxEntities.get operation with
  | .error obstacle =>
    outcome = Exec.fail (obstacle.rejection world.config.maxEntities.get operationIndex)
  | .ok scene' =>
    ∃ state', outcome = .ok state' ∧ state'.operations = state.operations ∧
      Simulates world state' scene' ∧ Tracks before state' scene'

namespace AuthoritativeWorld

variable {world : AuthoritativeWorld}

theorem overlayState_insert (overlay : Std.ExtTreeMap StableEntityId EntityState)
    (id other : StableEntityId) (entity : EntityState) :
    world.overlayState (overlay.insert id entity) other =
      if other = id then .ok entity else world.overlayState overlay other := by
  rw [overlayState, TreeMap.getElem?_insert]
  by_cases h : other = id
  · rw [if_pos h, if_pos h]
  · rw [if_neg h, if_neg h, overlayState]

theorem effectiveLocalTransform_insert
    (overrides : Std.ExtTreeMap StableEntityId (Option LocalTransform))
    (id other : StableEntityId) (value : Option LocalTransform) :
    world.effectiveLocalTransform (overrides.insert id value) other =
      if other = id then value else world.effectiveLocalTransform overrides other := by
  rw [effectiveLocalTransform, TreeMap.getElem?_insert]
  by_cases h : other = id
  · rw [if_pos h, if_pos h]
  · rw [if_neg h, if_neg h, effectiveLocalTransform]

theorem effectiveLocalTransform_erase
    (overrides : Std.ExtTreeMap StableEntityId (Option LocalTransform))
    {id other : StableEntityId} (hne : other ≠ id) :
    world.effectiveLocalTransform (overrides.erase id) other =
      world.effectiveLocalTransform overrides other := by
  rw [effectiveLocalTransform, TreeMap.getElem?_erase, if_neg hne, effectiveLocalTransform]

theorem describes_insert {overlay : Std.ExtTreeMap StableEntityId EntityState}
    {entities entities' : Std.ExtTreeMap StableEntityId Components}
    (h : ∀ id, ∃ entity, world.overlayState overlay id = .ok entity ∧
      entity.Describes entities[id]?)
    {id : StableEntityId} {entity : EntityState} {value : Option Components}
    (hentity : entity.Describes value)
    (hentities : ∀ other, entities'[other]? = if other = id then value else entities[other]?) :
    ∀ other, ∃ entity', world.overlayState (overlay.insert id entity) other = .ok entity' ∧
      entity'.Describes entities'[other]? := by
  intro other
  rw [overlayState_insert, hentities]
  split
  · exact ⟨entity, rfl, hentity⟩
  · exact h other

theorem transforms_insert {overrides : Std.ExtTreeMap StableEntityId (Option LocalTransform)}
    {entities entities' : Std.ExtTreeMap StableEntityId Components}
    (h : ∀ (id : StableEntityId) (components : Components), entities[id]? = some components →
      world.effectiveLocalTransform overrides id = components.localTransform)
    {id : StableEntityId} {components' : Components}
    (hentities : ∀ other, entities'[other]? =
      if other = id then some components' else entities[other]?) :
    ∀ (other : StableEntityId) (components : Components), entities'[other]? = some components →
      world.effectiveLocalTransform (overrides.insert id components'.localTransform) other =
        components.localTransform := by
  intro other components hother
  rw [hentities] at hother
  rw [effectiveLocalTransform_insert]
  split at hother
  · rename_i heq
    cases hother
    rw [if_pos heq]
  · rename_i hne
    rw [if_neg hne]
    exact h other components hother

variable {state : PreflightState} {scene before : Scene}

theorem preflightCreate_spec (h : Simulates world state scene) (ht : Tracks before state scene)
    (entityId : StableEntityId) (components : List ComponentValue) (operationIndex : ℕ)
    (hkinds : (components.map ComponentValue.kind).Nodup) :
    Mirrors world before state scene (.create entityId components) operationIndex
      (world.preflightCreate state entityId components operationIndex) := by
  obtain ⟨entity, hentity, hdescribes⟩ := h.overlay entityId
  have hlimit := world.config.maxEntities.lt
  rw [preflightCreate, hentity, Exec.ok_bind, Mirrors, Scene.step]
  by_cases hmem : entityId ∈ scene.entities
  · obtain ⟨old, hold⟩ := TreeMap.mem_iff.mp hmem
    rw [hold] at hdescribes
    simp [hmem, hdescribes.1, Obstacle.rejection]
  · rw [TreeMap.not_mem_iff.mp hmem] at hdescribes
    have hlive : entity.live = false := hdescribes
    by_cases hcapacity : world.config.maxEntities.get < scene.entities.size + 1
    · simp [hmem, hlive, h.liveEntities, hcapacity, Obstacle.rejection]
    · have hbound : ¬ 2 ^ 32 ≤ scene.entities.size + 1 := by omega
      simp only [hmem, hlive, h.liveEntities, hcapacity, hbound, Bool.false_eq_true, if_false,
        or_self]
      refine ⟨_, rfl, rfl, ⟨?_, h.parents, ?_, ?_⟩, ⟨?_, ?_, ?_, ?_, ?_, ?_⟩⟩
      · refine describes_insert h.overlay ?_ fun other => TreeMap.getElem?_insert ..
        exact ⟨rfl, fun kind => ComponentMask.contains_fromValues components kind⟩
      · exact (TreeMap.size_insert_of_not_mem hmem _).symm
      · rw [← Components.localTransform_ofValues hkinds]
        exact transforms_insert h.transforms fun other => TreeMap.getElem?_insert ..
      · grind [TreeSet.mem_insert, TreeMap.mem_insert, ht.dirty_live]
      · grind [TreeSet.mem_insert, TreeMap.getElem?_insert, ht.clean]
      · grind [TreeSet.mem_insert, TreeMap.getElem?_insert, ht.unseen]
      · simp
      · exact ht.borrowed
      · grind [TreeMap.mem_insert, ht.child_live]

theorem preflightDelete_spec (h : Simulates world state scene) (ht : Tracks before state scene)
    (entityId : StableEntityId) (operationIndex : ℕ) :
    Mirrors world before state scene (.delete entityId) operationIndex
      (world.preflightDelete state entityId operationIndex) := by
  obtain ⟨entity, hentity, hdescribes⟩ := h.overlay entityId
  rw [preflightDelete, hentity, Exec.ok_bind, Mirrors, Scene.step]
  by_cases hmem : entityId ∈ scene.entities
  · obtain ⟨old, hold⟩ := TreeMap.mem_iff.mp hmem
    rw [hold] at hdescribes
    have hsize := TreeMap.size_erase_of_mem hmem
    have hpos : scene.entities.size ≠ 0 := by omega
    simp only [hmem, hdescribes.1, h.liveEntities, hpos, not_true_eq_false, if_false,
      Bool.not_true, Bool.false_eq_true]
    refine ⟨_, rfl, rfl, ⟨?_, ?_, ?_, ?_⟩, ⟨?_, ?_, ?_, ?_, ?_, ?_⟩⟩
    · have hmissing : EntityState.missing.Describes none := rfl
      exact describes_insert h.overlay hmissing fun other => TreeMap.getElem?_erase ..
    · show Cow.get (ite _ _ _) = _
      rw [h.parents]
      split
      · rw [Cow.get_modify, h.parents]
      · rename_i hroot
        rw [h.parents, TreeMap.erase_of_not_mem hroot]
    · show scene.entities.size - 1 = (scene.entities.erase entityId).size
      omega
    · intro other components hother
      rw [TreeMap.getElem?_erase] at hother
      split at hother
      · cases hother
      · rename_i hne
        rw [effectiveLocalTransform_erase _ hne]
        exact h.transforms other components hother
    · grind [TreeSet.mem_erase, TreeMap.mem_erase, ht.dirty_live]
    · grind [TreeSet.mem_erase, TreeMap.getElem?_erase, ht.clean]
    · grind [TreeSet.mem_insert, TreeMap.getElem?_erase, ht.unseen]
    · simp
    · intro parents hparents
      simp only at hparents
      split at hparents
      · cases hparents
      · exact ht.borrowed parents hparents
    · grind [TreeMap.mem_erase, TreeMap.getElem?_erase, ht.child_live]
  · rw [TreeMap.not_mem_iff.mp hmem] at hdescribes
    have hlive : entity.live = false := hdescribes
    simp [hmem, hlive, Obstacle.rejection]

section Replace

variable {state' : PreflightState} {entityId : StableEntityId} {entity : EntityState}
  {components components' : Components}

theorem simulates_replace (h : Simulates world state scene)
    (hold : scene.entities[entityId]? = some components)
    (hoverlay : state'.overlay = state.overlay.insert entityId entity)
    (hdescribes : entity.Describes (some components')) (hparents : state'.parents = state.parents)
    (hlive : state'.liveEntities = state.liveEntities)
    (htransforms : ∀ other, world.effectiveLocalTransform state'.localOverrides other =
      if other = entityId then components'.localTransform
      else world.effectiveLocalTransform state.localOverrides other) :
    Simulates world state'
      { scene with entities := scene.entities.insert entityId components' } := by
  refine ⟨?_, by rw [hparents, h.parents], ?_, fun other stored hstored => ?_⟩
  · rw [hoverlay]
    exact describes_insert h.overlay hdescribes fun other => TreeMap.getElem?_insert ..
  · rw [hlive, h.liveEntities, TreeMap.size_insert_of_mem (TreeMap.mem_of_get hold)]
  · rw [htransforms]
    rw [TreeMap.getElem?_insert] at hstored
    split at hstored
    · rename_i heq
      cases hstored
      rw [if_pos heq]
    · rename_i hne
      rw [if_neg hne]
      exact h.transforms other stored hstored

theorem tracks_replace (ht : Tracks before state scene)
    (hold : scene.entities[entityId]? = some components)
    (hparents : state'.parents = state.parents)
    (hhierarchy : state'.hierarchyChanged = state.hierarchyChanged)
    (hdirty : ∀ id, id ∈ state'.dirtyRoots → id ∈ state.dirtyRoots ∨ id = entityId)
    (hdirty' : ∀ id ∈ state.dirtyRoots, id ∈ state'.dirtyRoots)
    (hclean : entityId ∉ state'.dirtyRoots →
      components'.localTransform = components.localTransform)
    (hrender : ∀ id ∈ state.renderChangedIds, id ∈ state'.renderChangedIds)
    (hunseen : entityId ∉ state'.renderChangedIds → components'.render = components.render) :
    Tracks before state'
      { scene with entities := scene.entities.insert entityId components' } := by
  have hmem : ∀ id, id ∈ scene.entities.insert entityId components' ↔ id ∈ scene.entities := by
    intro id
    rw [TreeMap.mem_insert]
    exact ⟨fun h => h.elim (fun h => h ▸ TreeMap.mem_of_get hold) fun h => h, .inr⟩
  refine ⟨fun id hid => ?_, fun id stored hstored hid => ?_, fun id hid => ?_, fun hflag => ?_,
    by rw [hparents]; exact ht.borrowed, fun child parent hchild => ?_⟩
  · rw [hmem]
    rcases hdirty id hid with hid | rfl
    exacts [ht.dirty_live id hid, TreeMap.mem_of_get hold]
  · rw [TreeMap.getElem?_insert] at hstored
    split at hstored
    · rename_i heq
      subst heq
      cases hstored
      obtain ⟨⟨old, hbefore, htransform⟩, hparent⟩ :=
        ht.clean id components hold fun h => hid (hdirty' id h)
      exact ⟨⟨old, hbefore, htransform.trans (hclean hid).symm⟩, hparent⟩
    · exact ht.clean id stored hstored fun h => hid (hdirty' id h)
  · rw [TreeMap.getElem?_insert]
    have hkept := ht.unseen id fun h => hid (hrender id h)
    split
    · rename_i heq
      subst heq
      rw [← hkept, hold, Option.map_some, Option.map_some, hunseen hid]
    · exact hkept
  · rw [hhierarchy] at hflag
    exact ⟨(ht.hierarchy hflag).1, fun id => (hmem id).trans ((ht.hierarchy hflag).2 id)⟩
  · exact (hmem child).mpr (ht.child_live child parent hchild)

end Replace

theorem overrideTransform_of_kind_ne {component : ComponentValue} (entityId : StableEntityId)
    (hkind : component.kind ≠ .localTransform) :
    world.overrideTransform state entityId component = state := by
  cases component <;> first | rfl | exact absurd rfl hkind

theorem preflightSet_spec (h : Simulates world state scene) (ht : Tracks before state scene)
    (entityId : StableEntityId) (component : ComponentValue) (operationIndex : ℕ) :
    Mirrors world before state scene (.setComponent entityId component) operationIndex
      (world.preflightSet state entityId component operationIndex) := by
  obtain ⟨entity, hentity, hdescribes⟩ := h.overlay entityId
  rw [preflightSet, hentity, Exec.ok_bind, Mirrors, Scene.step]
  cases hold : scene.entities[entityId]? with
  | none =>
    rw [hold] at hdescribes
    have hlive : entity.live = false := hdescribes
    simp [hlive, Obstacle.rejection]
  | some components =>
    rw [hold] at hdescribes
    have heffective := h.transforms entityId components hold
    have hset : EntityState.Describes
        { entity with components := entity.components.insert component.kind }
        (some (components.set component)) := by
      refine ⟨hdescribes.1, fun kind => ?_⟩
      rw [ComponentMask.contains_insert, Components.has_set, hdescribes.2]
    rw [if_neg (by simp [hdescribes.1])]
    refine ⟨_, rfl, ?_⟩
    by_cases hkind : component.kind = .localTransform
    · -- the transform is overridden, and dirty unless it has the value already
      cases component with
      | localTransform value =>
        refine ⟨rfl, simulates_replace h hold rfl hset rfl rfl fun other => ?_,
          tracks_replace ht hold rfl rfl ?_ ?_ ?_ ?_ ?_⟩
        · exact effectiveLocalTransform_insert ..
        all_goals
          simp only [overrideTransform]
          grind [TreeSet.mem_insert, Components.set, ComponentValue.kind]
      | _ => cases hkind
    · have htransform : (components.set component).localTransform = components.localTransform :=
        Components.localTransform_set hkind
      rw [overrideTransform_of_kind_ne entityId hkind]
      refine ⟨rfl, simulates_replace h hold rfl hset rfl rfl fun other => ?_,
        tracks_replace ht hold rfl rfl (fun _ => .inl) (fun _ h => h) (fun _ => htransform) ?_ ?_⟩
      · rw [htransform, ← heffective]
        split <;> simp_all
      · grind [TreeSet.mem_insert]
      · grind [TreeSet.mem_insert, Components.render_set_name]

theorem preflightRemove_spec (h : Simulates world state scene) (ht : Tracks before state scene)
    (entityId : StableEntityId) (component : ComponentKind) (operationIndex : ℕ) :
    Mirrors world before state scene (.removeComponent entityId component) operationIndex
      (world.preflightRemove state entityId component operationIndex) := by
  obtain ⟨entity, hentity, hdescribes⟩ := h.overlay entityId
  rw [preflightRemove, hentity, Exec.ok_bind, Mirrors, Scene.step]
  cases hold : scene.entities[entityId]? with
  | none =>
    rw [hold] at hdescribes
    have hlive : entity.live = false := hdescribes
    simp [hlive, Obstacle.rejection]
  | some components =>
    rw [hold] at hdescribes
    have heffective := h.transforms entityId components hold
    by_cases hhas : components.has component = true
    · have hremove : EntityState.Describes
          { entity with components := entity.components.remove component }
          (some (components.remove component)) := by
        refine ⟨hdescribes.1, fun kind => ?_⟩
        rw [ComponentMask.contains_remove, Components.has_remove, hdescribes.2]
      rw [if_neg (by simp [hdescribes.1]), if_neg (by simp [hdescribes.2, hhas])]
      simp only [hhas, if_true]
      refine ⟨_, rfl, rfl, simulates_replace h hold rfl hremove rfl rfl fun other => ?_,
        tracks_replace ht hold rfl rfl ?_ ?_ ?_ ?_ ?_⟩
      · by_cases hkind : component = .localTransform
        · subst hkind
          exact effectiveLocalTransform_insert ..
        · rw [Components.localTransform_remove hkind, ← heffective]
          simp only [hkind, if_false]
          split <;> simp_all
      · grind [TreeSet.mem_insert]
      · grind [TreeSet.mem_insert]
      · grind [TreeSet.mem_insert, Components.localTransform_remove]
      · grind [TreeSet.mem_insert]
      · grind [TreeSet.mem_insert, Components.render_remove_name]
    · rw [if_neg (by simp [hdescribes.1]), if_pos (by simp [hdescribes.2, hhas])]
      simp [hhas, Obstacle.rejection]

theorem getElem?_setParent (parents : ParentMap) (entityId other : StableEntityId)
    (parentId : Option StableEntityId) :
    (parents.setParent entityId parentId)[other]? =
      if other = entityId then parentId else parents[other]? := by
  cases parentId with
  | none => exact TreeMap.getElem?_erase ..
  | some parentId => exact TreeMap.getElem?_insert ..

theorem setParent_of_eq {parents : ParentMap} {entityId : StableEntityId}
    {parentId : Option StableEntityId} (h : parents[entityId]? = parentId) :
    parents.setParent entityId parentId = parents := by
  cases parentId with
  | none => exact TreeMap.erase_of_not_mem (TreeMap.not_mem_iff.mpr h)
  | some parentId => exact TreeMap.insert_of_get h

theorem writeParent_spec (h : Simulates world state scene) (ht : Tracks before state scene)
    {entityId : StableEntityId} (hmem : entityId ∈ scene.entities)
    (parentId : Option StableEntityId) :
    (writeParent state entityId parentId).operations = state.operations ∧
      Simulates world (writeParent state entityId parentId)
        { scene with parents := scene.parents.setParent entityId parentId } ∧
      Tracks before (writeParent state entityId parentId)
        { scene with parents := scene.parents.setParent entityId parentId } := by
  have hparent := getElem?_setParent scene.parents entityId
  rw [writeParent, h.parents]
  split
  · refine ⟨rfl, ⟨h.overlay, by rw [Cow.get_modify, h.parents], h.liveEntities, h.transforms⟩,
      ⟨?_, ?_, ht.unseen, by simp, fun _ h => (by cases h), ?_⟩⟩
    · grind [TreeSet.mem_insert, ht.dirty_live]
    · grind [TreeSet.mem_insert, ht.clean]
    · grind [ht.child_live]
  · rename_i hsame
    rw [setParent_of_eq (not_not.mp hsame)]
    exact ⟨rfl, h, ht⟩

theorem preflightReparent_spec (h : Simulates world state scene) (ht : Tracks before state scene)
    (entityId : StableEntityId) (parentId : Option StableEntityId) (operationIndex : ℕ) :
    Mirrors world before state scene (.reparent entityId parentId) operationIndex
      (world.preflightReparent state entityId parentId operationIndex) := by
  obtain ⟨entity, hentity, hdescribes⟩ := h.overlay entityId
  rw [preflightReparent, hentity, Exec.ok_bind, Mirrors]
  by_cases hmem : entityId ∈ scene.entities
  · obtain ⟨components, hold⟩ := TreeMap.mem_iff.mp hmem
    rw [hold] at hdescribes
    rw [if_neg (by simp [hdescribes.1])]
    have hspec := writeParent_spec h ht hmem parentId
    cases parentId with
    | none =>
      simp only [Scene.step, hmem, not_true_eq_false, if_false]
      exact ⟨_, rfl, hspec⟩
    | some parentId =>
      obtain ⟨parent, hparent, hdescribes'⟩ := h.overlay parentId
      by_cases hpmem : parentId ∈ scene.entities
      · obtain ⟨components', hpold⟩ := TreeMap.mem_iff.mp hpmem
        rw [hpold] at hdescribes'
        simp only [Scene.step, hmem, hpmem, not_true_eq_false, if_false, checkParent, hparent,
          Exec.ok_bind, hdescribes'.1, Bool.not_true, Bool.false_eq_true]
        exact ⟨_, rfl, hspec⟩
      · rw [TreeMap.not_mem_iff.mp hpmem] at hdescribes'
        have hlive : parent.live = false := hdescribes'
        simp [Scene.step, hmem, hpmem, checkParent, hparent, hlive, Obstacle.rejection, Exec.fail]
  · rw [TreeMap.not_mem_iff.mp hmem] at hdescribes
    have hlive : entity.live = false := hdescribes
    cases parentId <;> simp [Scene.step, hmem, hlive, Obstacle.rejection]

theorem preflightOperation_spec (h : Simulates world state scene) (ht : Tracks before state scene)
    {operation : SceneOperation} (hvalid : operation.validate = .ok ()) (operationIndex : ℕ) :
    Mirrors world before state scene operation operationIndex
      (world.preflightOperation state operation operationIndex) := by
  cases operation with
  | create entityId components =>
    exact preflightCreate_spec h ht entityId components operationIndex
      (SceneOperation.validateComponents_ok hvalid).1
  | delete entityId => exact preflightDelete_spec h ht entityId operationIndex
  | setComponent entityId component =>
    exact preflightSet_spec h ht entityId component operationIndex
  | removeComponent entityId component =>
    exact preflightRemove_spec h ht entityId component operationIndex
  | reparent entityId parentId => exact preflightReparent_spec h ht entityId parentId operationIndex

variable {state' : PreflightState} {operations : List SceneOperation} {position : ℕ}

theorem push_spec (h : Simulates world state scene) (ht : Tracks before state scene)
    (operations : List SceneOperation) :
    Simulates world { state with operations := operations } scene ∧
      Tracks before { state with operations := operations } scene :=
  ⟨⟨h.overlay, h.parents, h.liveEntities, h.transforms⟩,
    ⟨ht.dirty_live, ht.clean, ht.unseen, ht.hierarchy, ht.borrowed, ht.child_live⟩⟩

/-- **Accepted operations.** The sequential execution goes through, and the final overlay stands
for the scene it reaches. -/
theorem preflightOperations_ok (hvalid : ∀ operation ∈ operations, operation.validate = .ok ()) :
    ∀ {state : PreflightState} {scene : Scene} {position : ℕ}, Simulates world state scene →
      Tracks before state scene →
      world.preflightOperations operations position state = .ok state' →
        ∃ scene', scene.run world.config.maxEntities.get operations = .ok scene' ∧
          state'.operations = state.operations ++ operations ∧ Simulates world state' scene' ∧
            Tracks before state' scene' := by
  induction operations with
  | nil =>
    intro state scene position h ht hok
    cases hok
    exact ⟨scene, rfl, by simp, h, ht⟩
  | cons operation operations ih =>
    intro state scene position h ht hok
    rw [preflightOperations] at hok
    split at hok
    · cases hok
    · obtain ⟨middle, hmiddle, hok⟩ := Exec.bind_eq_ok.mp hok
      have hmirrors := preflightOperation_spec h ht (hvalid operation (by simp)) position
      rw [Mirrors, hmiddle] at hmirrors
      cases hstep : scene.step world.config.maxEntities.get operation with
      | error obstacle => rw [hstep] at hmirrors; cases hmirrors
      | ok scene₁ =>
        rw [hstep] at hmirrors
        obtain ⟨_, heq, hoperations, h₁, ht₁⟩ := hmirrors
        cases heq
        obtain ⟨hpush, htpush⟩ := push_spec h₁ ht₁ (middle.operations ++ [operation])
        obtain ⟨scene', hrun, hfinal, h', ht'⟩ :=
          ih (fun op hop => hvalid op (List.mem_cons_of_mem _ hop)) hpush htpush hok
        refine ⟨scene', ?_, ?_, h', ht'⟩
        · rw [Scene.run, List.foldlM_cons, hstep]
          exact hrun
        · rw [hfinal, hoperations, List.append_assoc, List.singleton_append]

/-- **Refused operations.** The error names the first operation at which the sequential execution
is stuck. -/
theorem preflightOperations_error {error : WorldApplyError}
    (hvalid : ∀ operation ∈ operations, operation.validate = .ok ()) :
    ∀ {state : PreflightState} {scene : Scene} {position : ℕ}, Simulates world state scene →
      Tracks before state scene →
      world.preflightOperations operations position state = Exec.fail error →
        ∃ done operation rest scene' obstacle, operations = done ++ operation :: rest ∧
          scene.run world.config.maxEntities.get done = .ok scene' ∧
          scene'.step world.config.maxEntities.get operation = .error obstacle ∧
          error = obstacle.rejection world.config.maxEntities.get (position + done.length) := by
  induction operations with
  | nil => intro state scene position _ _ herror; cases herror
  | cons operation operations ih =>
    intro state scene position h ht herror
    rw [preflightOperations] at herror
    split at herror
    · cases herror
    · have hmirrors := preflightOperation_spec h ht (hvalid operation (by simp)) position
      rw [Mirrors] at hmirrors
      cases hstep : scene.step world.config.maxEntities.get operation with
      | error obstacle =>
        rw [hstep] at hmirrors
        rw [hmirrors] at herror
        cases herror
        exact ⟨[], operation, operations, scene, obstacle, rfl, rfl, hstep, rfl⟩
      | ok scene₁ =>
        rw [hstep] at hmirrors
        obtain ⟨middle, heq, -, h₁, ht₁⟩ := hmirrors
        rw [heq, Exec.ok_bind] at herror
        obtain ⟨hpush, htpush⟩ := push_spec h₁ ht₁ (middle.operations ++ [operation])
        obtain ⟨done, stuck, rest, scene', obstacle, rfl, hrun, hstuck, rfl⟩ :=
          ih (fun op hop => hvalid op (List.mem_cons_of_mem _ hop)) hpush htpush herror
        refine ⟨operation :: done, stuck, rest, scene', obstacle, rfl, ?_, hstuck, ?_⟩
        · rw [Scene.run, List.foldlM_cons, hstep]
          exact hrun
        · rw [List.length_cons, Nat.add_right_comm, Nat.add_assoc]

theorem Consistent.storedEntityState (h : world.Consistent) (id : StableEntityId) :
    ∃ entity, world.storedEntityState id = .ok entity ∧
      entity.Describes world.scene.entities[id]? := by
  have hget : world.scene.entities[id]? = _ := getElem?_sceneEntities
  rw [AuthoritativeWorld.storedEntityState, hget]
  cases hindex : world.stableIndex[id]? with
  | none => exact ⟨.missing, rfl, rfl⟩
  | some handle =>
    obtain ⟨record, hrecord, hmarker⟩ := h.marked id handle hindex
    refine ⟨⟨true, .ofComponents record.components⟩, by simp [hrecord, hmarker], ?_⟩
    simp only [Option.bind_some, hrecord, Option.map_some]
    exact ⟨rfl, ComponentMask.contains_ofComponents record.components⟩

theorem initialPreflight_simulates (h : world.Consistent) :
    Simulates world world.initialPreflight world.scene := by
  refine ⟨fun id => ?_, rfl, h.toIndexed.size_sceneEntities.symm, fun id components hid => ?_⟩
  · obtain ⟨entity, hentity, hdescribes⟩ := h.storedEntityState id
    exact ⟨entity, by simpa [overlayState, initialPreflight] using hentity, hdescribes⟩
  · obtain ⟨handle, hindex, hrecord⟩ := h.toIndexed.exists_record hid
    simp [effectiveLocalTransform, initialPreflight, record?, hindex, hrecord]

theorem initialPreflight_tracks (h : world.Consistent) :
    Tracks world.scene world.initialPreflight world.scene where
  dirty_live id hid := by simp [initialPreflight] at hid
  clean id components hid _ := ⟨⟨components, hid, rfl⟩, rfl⟩
  unseen _ _ := rfl
  hierarchy _ := ⟨rfl, fun _ => Iff.rfl⟩
  borrowed parents hparents := by cases hparents; rfl
  child_live child parent hchild := h.toIndexed.mem_sceneEntities.mpr (h.edges hchild).1

end AuthoritativeWorld

end Cogniform
