import Cogniform.World.Invariant

/-!
# The transform cache

A patch recomputes only what its dirty set reaches. That this is enough is one invariant: the cached
transform of every live entity is `Derived` from its local transform and its parent's cached
transform. One that is not recomputed has kept both, so both sides of its equation are the old ones.
-/

namespace Cogniform

namespace WorldTransform

theorem fromLocal_matrix_eq (transform : Option LocalTransform) (generation other : UInt64) :
    (fromLocal transform generation).map WorldTransform.matrix =
      (fromLocal transform other).map WorldTransform.matrix := by
  cases transform with
  | none => rfl
  | some transform => rw [fromLocal, fromLocal, Option.map_map, Option.map_map]; rfl

theorem compose_matrix_eq (parent : WorldTransform) {transform other : WorldTransform}
    (h : transform.matrix = other.matrix) (generation otherGeneration : UInt64) :
    (parent.compose transform generation).map WorldTransform.matrix =
      (parent.compose other otherGeneration).map WorldTransform.matrix := by
  rw [compose, compose, h, Option.map_map, Option.map_map]
  rfl

end WorldTransform

namespace AuthoritativeWorld

variable {world : AuthoritativeWorld}

def cachedTransform (world : AuthoritativeWorld) (entityId : StableEntityId) :
    Option WorldTransform :=
  world.worldTransforms[entityId]?

def CacheDerived (world : AuthoritativeWorld) : Prop :=
  ∀ (id : StableEntityId) (components : Components) (t : WorldTransform),
    world.scene.entities[id]? = some components → world.cachedTransform id = some t →
      Derived world.cachedTransform components.localTransform world.parents[id]? t

theorem Planned.parent_live {scene : Scene} {plan : CommitPlan} (h : Planned world scene plan)
    {child parent : StableEntityId} (hedge : scene.parents[child]? = some parent) :
    parent ∈ scene.entities := by
  have hkeys : ∀ id, id ∈ Std.ExtTreeSet.ofList scene.entities.keys ↔ id ∈ scene.entities := by
    intro id
    rw [Std.ExtTreeSet.mem_ofList, List.contains_iff_mem, Std.ExtTreeMap.mem_keys]
  obtain ⟨depths, hdepths⟩ := h.topology _ hkeys
  exact (hkeys parent).mp ((hierarchyDepths_sound hdepths).1 child parent hedge).2

theorem Accepted.cacheDerived {patch : ScenePatch} {plan : CommitPlan}
    {newRevision : SceneRevision} {count : NonZeroU32} {scene : Scene}
    {storage : Arena StoredRecord} {index : Std.ExtTreeMap StableEntityId ℕ}
    (hcache : world.CacheDerived)
    (h : Accepted world patch plan newRevision count scene storage index)
    (receipt : ApplyReceipt) :
    ((world.committed plan storage index).record patch receipt).CacheDerived := by
  have hplan := h.planned
  intro id components t hid ht
  change (world.committed plan storage index).scene.entities[id]? = some components at hid
  rw [scene_committed hplan h.entities] at hid
  have hlookup : ∀ {other : StableEntityId}, other ∈ scene.entities →
      (world.committed plan storage index).worldTransforms[other]? =
        world.lookup plan.transformUpdates other :=
    lookup_committed h.indexed h.entities
  change (world.committed plan storage index).worldTransforms[id]? = some t at ht
  rw [hlookup (TreeMap.mem_of_get hid)] at ht
  change Derived _ _ (world.committed plan storage index).parents[id]? t
  rw [show (world.committed plan storage index).parents = scene.parents from hplan.parents]
  by_cases hupdated : id ∈ plan.transformUpdates
  · obtain ⟨t', ht'⟩ := TreeMap.mem_iff.mp hupdated
    rw [lookup, ht', Option.some_or, Option.some.injEq] at ht
    subst ht
    obtain ⟨-, components', hcomponents', hderived⟩ := hplan.derived id t' ht'
    rw [hid, Option.some.injEq] at hcomponents'
    subst hcomponents'
    exact hderived.congr fun p hp => hlookup (hplan.parent_live hp)
  · rw [lookup, TreeMap.not_mem_iff.mp hupdated, Option.none_or] at ht
    obtain ⟨⟨old, hold, hlocal⟩, hparent, hparentKept⟩ := hplan.kept id components hid hupdated
    have hderived := hcache id old t hold ht
    rw [hlocal, ← hparent] at hderived
    refine hderived.congr fun p hp => ?_
    refine (hlookup (hplan.parent_live hp)).trans ?_
    rw [lookup, TreeMap.not_mem_iff.mp (hparentKept p hp), Option.none_or, cachedTransform]

theorem Reachable.cacheDerived {config : WorldConfig} (h : Reachable config world) :
    world.CacheDerived :=
  h.invariant
    (fun id components t hid _ => by
      rw [show (AuthoritativeWorld.new config).scene.entities = ∅ from rfl] at hid
      simp at hid)
    (fun _ hcache haccepted _ _ => haccepted.cacheDerived hcache _)
    (fun _ hcache _ => hcache)

/-- **The incremental cache equals full recomputation.** The cached matrix of a live entity is that
of its local transform, multiplied under a parent by the parent's cached matrix. The generations
passed to the matrix functions do not matter. -/
theorem cache_eq_recomputation {config : WorldConfig} (h : Reachable config world)
    (id : StableEntityId) (components : Components)
    (hlive : world.scene.entities[id]? = some components) :
    ∃ t, world.worldTransforms[id]? = some t ∧
      match world.parents[id]? with
      | none => ∀ generation,
        (WorldTransform.fromLocal components.localTransform generation).map
          WorldTransform.matrix = some t.matrix
      | some parentId => ∃ above, world.worldTransforms[parentId]? = some above ∧
        ∀ generation, ∃ base,
          WorldTransform.fromLocal components.localTransform generation = some base ∧
          (above.compose base generation).map WorldTransform.matrix = some t.matrix := by
  have hworld := h.consistent
  have hcached : id ∈ world.worldTransforms :=
    (hworld.cached id).mpr (hworld.toIndexed.mem_sceneEntities.mp (TreeMap.mem_of_get hlive))
  obtain ⟨t, ht⟩ := TreeMap.mem_iff.mp hcached
  obtain ⟨base, hbase, hderived⟩ := h.cacheDerived id components t hlive ht
  refine ⟨t, ht, ?_⟩
  cases hparent : world.parents[id]? with
  | none =>
    rw [hparent] at hderived
    intro generation
    rw [WorldTransform.fromLocal_matrix_eq _ generation t.generation, hbase, hderived]
    rfl
  | some parentId =>
    rw [hparent] at hderived
    obtain ⟨above, habove, hcompose⟩ := hderived
    refine ⟨above, habove, fun generation => ?_⟩
    have hmatrix := WorldTransform.fromLocal_matrix_eq components.localTransform generation
      t.generation
    rw [hbase, Option.map_some, Option.map_eq_some_iff] at hmatrix
    obtain ⟨base', hbase', heq⟩ := hmatrix
    refine ⟨base', hbase', ?_⟩
    rw [WorldTransform.compose_matrix_eq above heq generation t.generation, hcompose]
    rfl

theorem cache_eq_recomputation_sample :
    ∃ t above, sampleWorld.worldTransforms[(⟨2, by decide, by decide⟩ : StableEntityId)]? = some t ∧
      sampleWorld.worldTransforms[(⟨1, by decide, by decide⟩ : StableEntityId)]? = some above ∧
      ∃ base, WorldTransform.fromLocal none 0 = some base ∧
        (above.compose base 0).map WorldTransform.matrix = some t.matrix := by
  have hlive : sampleWorld.scene.entities[(⟨2, by decide, by decide⟩ : StableEntityId)]? =
      some Components.empty := by decide +kernel
  have hparent : sampleWorld.parents[(⟨2, by decide, by decide⟩ : StableEntityId)]? =
      some ⟨1, by decide, by decide⟩ := by decide +kernel
  obtain ⟨t, ht, hrest⟩ := cache_eq_recomputation reachable_sampleWorld _ _ hlive
  rw [hparent] at hrest
  obtain ⟨above, habove, hbase⟩ := hrest
  exact ⟨t, above, ht, habove, hbase 0⟩

end AuthoritativeWorld

end Cogniform
