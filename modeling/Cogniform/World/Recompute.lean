import Cogniform.World.Invariant

/-!
# Which transforms a patch recomputes

Nothing is recomputed without cause, and the cause is stated on the sequential execution. An
operation *disturbs* an entity when it creates it, changes or removes its local transform, or
changes its parent, as they are at that point. Preflight's dirty set is, after every operation,
exactly the set of live entities that have been disturbed so far.
-/

namespace Cogniform

/-- The operation, carried out in this scene, creates the entity or changes its local transform or
its parent. A removal counts as a change. -/
def SceneOperation.Disturbs (scene : Scene) (entityId : StableEntityId) : SceneOperation → Prop
  | .create target _ => target = entityId
  | .delete _ => False
  | .setComponent target component => target = entityId ∧ ∃ value,
      component = .localTransform value ∧
        (scene.entities[target]?.bind Components.localTransform) ≠ some value
  | .removeComponent target kind => target = entityId ∧ kind = .localTransform
  | .reparent target parentId => target = entityId ∧ scene.parents[target]? ≠ parentId

namespace Scene

def Disturbed (maxEntities : ℕ) (scene : Scene) (operations : List SceneOperation)
    (entityId : StableEntityId) : Prop :=
  ∃ done operation rest middle, operations = done ++ operation :: rest ∧
    scene.run maxEntities done = .ok middle ∧ operation.Disturbs middle entityId

variable {maxEntities : ℕ} {scene middle scene' : Scene} {operation : SceneOperation}
  {done : List SceneOperation} {id : StableEntityId}

theorem not_disturbed_nil : ¬ scene.Disturbed maxEntities [] id := by
  rintro ⟨done, operation, rest, middle, hsplit, -⟩
  exact List.append_ne_nil_of_right_ne_nil done (List.cons_ne_nil _ _) hsplit.symm

theorem disturbed_concat (hrun : scene.run maxEntities done = .ok middle) :
    scene.Disturbed maxEntities (done ++ [operation]) id ↔
      scene.Disturbed maxEntities done id ∨ operation.Disturbs middle id := by
  constructor
  · rintro ⟨earlier, disturbing, rest, reached, hsplit, hreached, hdisturbs⟩
    rcases List.eq_nil_or_concat rest with rfl | ⟨rest, last, rfl⟩
    · obtain ⟨rfl, heq⟩ := List.append_inj' hsplit rfl
      obtain rfl : operation = disturbing := List.singleton_inj.mp heq
      obtain rfl : reached = middle := Except.ok.inj (hreached.symm.trans hrun)
      exact .inr hdisturbs
    · have hsplit' : done ++ [operation] = (earlier ++ disturbing :: rest) ++ [last] := by
        simpa using hsplit
      obtain ⟨rfl, -⟩ := List.append_inj' hsplit' rfl
      exact .inl ⟨earlier, disturbing, rest, reached, rfl, hreached, hdisturbs⟩
  · rintro (⟨earlier, disturbing, rest, reached, rfl, hreached, hdisturbs⟩ | hdisturbs)
    · exact ⟨earlier, disturbing, rest ++ [operation], reached, by simp, hreached, hdisturbs⟩
    · exact ⟨done, operation, [], middle, rfl, hrun, hdisturbs⟩

theorem run_concat (hrun : scene.run maxEntities done = .ok middle) :
    scene.run maxEntities (done ++ [operation]) = middle.step maxEntities operation := by
  rw [run, List.foldlM_append]
  change (scene.run maxEntities done >>= _) = _
  rw [hrun]
  exact bind_pure (middle.step maxEntities operation)

theorem mem_step (h : scene.step maxEntities operation = .ok scene') (id : StableEntityId) :
    id ∈ scene'.entities ↔
      operation.Disturbs scene id ∨ (id ∈ scene.entities ∧ operation ≠ .delete id) := by
  cases operation with
  | create target components =>
    rw [step] at h
    split at h
    · cases h
    split at h
    · cases h
    cases h
    simp [SceneOperation.Disturbs]
  | delete target =>
    rw [step] at h
    split at h
    · cases h
    cases h
    simp [SceneOperation.Disturbs, and_comm]
  | setComponent target component =>
    rw [step] at h
    split at h
    · cases h
    rename_i components hget
    cases h
    have hmem : target ∈ scene.entities := TreeMap.mem_of_get hget
    grind [SceneOperation.Disturbs, TreeMap.mem_insert]
  | removeComponent target kind =>
    rw [step] at h
    split at h
    · cases h
    rename_i components hget
    split at h
    · cases h
      have hmem : target ∈ scene.entities := TreeMap.mem_of_get hget
      grind [SceneOperation.Disturbs, TreeMap.mem_insert]
    · cases h
  | reparent target parentId =>
    cases parentId with
    | none =>
      rw [step] at h
      split at h
      · cases h
      cases h
      grind [SceneOperation.Disturbs]
    | some parentId =>
      rw [step] at h
      split at h
      · cases h
      split at h
      · cases h
      cases h
      grind [SceneOperation.Disturbs]

end Scene

namespace AuthoritativeWorld

variable {world : AuthoritativeWorld} {state state' : PreflightState} {scene : Scene}

theorem mem_dirtyRoots_preflightOperation (h : Simulates world state scene)
    {operation : SceneOperation} {operationIndex : ℕ}
    (hok : world.preflightOperation state operation operationIndex = .ok state')
    (id : StableEntityId) :
    id ∈ state'.dirtyRoots ↔
      operation.Disturbs scene id ∨ (id ∈ state.dirtyRoots ∧ operation ≠ .delete id) := by
  cases operation with
  | create entityId components =>
    rw [preflightOperation, preflightCreate] at hok
    obtain ⟨entity, -, hok⟩ := Exec.bind_eq_ok.mp hok
    split at hok
    · cases hok
    split at hok
    · cases hok
    cases hok
    simp [SceneOperation.Disturbs]
  | delete entityId =>
    rw [preflightOperation, preflightDelete] at hok
    obtain ⟨entity, -, hok⟩ := Exec.bind_eq_ok.mp hok
    split at hok
    · cases hok
    split at hok
    · cases hok
    cases hok
    simp [SceneOperation.Disturbs, and_comm]
  | setComponent entityId component =>
    rw [preflightOperation, preflightSet] at hok
    obtain ⟨entity, hentity, hok⟩ := Exec.bind_eq_ok.mp hok
    split at hok
    · cases hok
    rename_i hlive
    cases hok
    obtain ⟨entity', hentity', hdescribes⟩ := h.overlay entityId
    obtain rfl : entity = entity' := Except.ok.inj (hentity.symm.trans hentity')
    cases hget : scene.entities[entityId]? with
    | none =>
      rw [hget] at hdescribes
      exact absurd (congrArg not hdescribes) hlive
    | some components =>
      have heffective := h.transforms entityId components hget
      cases component with
      | localTransform value =>
        simp only [overrideTransform, heffective, SceneOperation.Disturbs, hget]
        split <;> grind [TreeSet.mem_insert]
      | _ => simp [overrideTransform, SceneOperation.Disturbs]
  | removeComponent entityId component =>
    rw [preflightOperation, preflightRemove] at hok
    obtain ⟨entity, -, hok⟩ := Exec.bind_eq_ok.mp hok
    split at hok
    · cases hok
    split at hok
    · cases hok
    cases hok
    by_cases hkind : component = .localTransform <;> simp [SceneOperation.Disturbs, hkind]
  | reparent entityId parentId =>
    rw [preflightOperation, preflightReparent] at hok
    obtain ⟨entity, -, hok⟩ := Exec.bind_eq_ok.mp hok
    split at hok
    · cases hok
    obtain ⟨_, -, hok⟩ := Exec.bind_eq_ok.mp hok
    cases hok
    rw [writeParent, h.parents]
    split <;> simp_all [SceneOperation.Disturbs]

variable {before : Scene} {operations : List SceneOperation}

/-- **The dirty set.** After every operation it is the set of live entities disturbed so far. -/
theorem mem_dirtyRoots_iff (hvalid : ∀ operation ∈ operations, operation.validate = .ok ()) :
    ∀ {state : PreflightState} {scene : Scene} {position : ℕ} {done : List SceneOperation},
      Simulates world state scene → Tracks before state scene →
      before.run world.config.maxEntities.get done = .ok scene →
      (∀ id, id ∈ state.dirtyRoots ↔ id ∈ scene.entities ∧
        before.Disturbed world.config.maxEntities.get done id) →
      world.preflightOperations operations position state = .ok state' →
      ∀ scene', before.run world.config.maxEntities.get (done ++ operations) = .ok scene' →
        ∀ id, id ∈ state'.dirtyRoots ↔ id ∈ scene'.entities ∧
          before.Disturbed world.config.maxEntities.get (done ++ operations) id := by
  induction operations with
  | nil =>
    intro state scene position done _ _ hrun hdirty hok scene' hrun' id
    cases hok
    rw [List.append_nil] at hrun' ⊢
    obtain rfl : scene = scene' := Except.ok.inj (hrun.symm.trans hrun')
    exact hdirty id
  | cons operation operations ih =>
    intro state scene position done h ht hrun hdirty hok scene' hrun' id
    rw [preflightOperations] at hok
    split at hok
    · cases hok
    obtain ⟨middle, hmiddle, hok⟩ := Exec.bind_eq_ok.mp hok
    have hmirrors := preflightOperation_spec h ht (hvalid operation (by simp)) position
    rw [Mirrors, hmiddle] at hmirrors
    cases hstep : scene.step world.config.maxEntities.get operation with
    | error obstacle => rw [hstep] at hmirrors; cases hmirrors
    | ok scene₁ =>
      rw [hstep] at hmirrors
      obtain ⟨_, heq, -, h₁, ht₁⟩ := hmirrors
      cases heq
      obtain ⟨hpush, htpush⟩ := push_spec h₁ ht₁ (middle.operations ++ [operation])
      have hsplit : done ++ operation :: operations = (done ++ [operation]) ++ operations := by simp
      rw [hsplit] at hrun' ⊢
      refine ih (fun op hop => hvalid op (List.mem_cons_of_mem _ hop)) hpush htpush
        ((Scene.run_concat hrun).trans hstep) (fun other => ?_) hok scene' hrun' id
      change other ∈ middle.dirtyRoots ↔ _
      rw [mem_dirtyRoots_preflightOperation h hmiddle, hdirty, Scene.mem_step hstep,
        Scene.disturbed_concat hrun]
      tauto

theorem completePreflight_recomputes {plan : CommitPlan} {newRevision : SceneRevision}
    (hworld : world.Consistent) (h : Simulates world state scene)
    (ht : Tracks world.scene state scene)
    (hok : world.completePreflight state newRevision = .ok plan) :
    (∀ id, id ∈ plan.transformUpdates ↔ Affected scene.parents state.dirtyRoots id) ∧
      ((∀ id, id ∉ plan.transformUpdates) → plan.transformGeneration = world.transformGeneration) ∧
      ∀ id ∈ plan.transformUpdates,
        checkedSucc world.transformGeneration = some plan.transformGeneration := by
  rw [completePreflight] at hok
  obtain ⟨rebuilt, hrebuilt, hok⟩ := Exec.bind_eq_ok.mp hok
  obtain ⟨⟨updates, generation⟩, hupdates, hok⟩ := Exec.bind_eq_ok.mp hok
  obtain ⟨hrecip, htopology⟩ := checkHierarchy_ok hworld h ht hrebuilt
  obtain ⟨depths, hdepths⟩ := htopology _ (mem_overlayLiveIds h hworld)
  rw [h.parents] at hupdates
  obtain ⟨hmem, -, hgeneration⟩ :=
    planTransformUpdates_ok (acyclic_of_hierarchyDepths hdepths) hrecip hupdates
  simp only at hok
  split at hok
  · cases hok
  · cases hok
    exact ⟨hmem, hgeneration⟩

section Accepted

variable {patch : ScenePatch} {plan : CommitPlan} {newRevision : SceneRevision}
  {operationCount : NonZeroU32} {storage : Arena StoredRecord}
  {index : Std.ExtTreeMap StableEntityId ℕ}

/-- **What an accepted patch recomputes.** The entities that were disturbed, and those below them
in the resulting hierarchy; one generation is stamped on all of them, and used up only if there are
any. -/
theorem Accepted.recomputes (hworld : world.Consistent)
    (h : Accepted world patch plan newRevision operationCount scene storage index) :
    (∀ id, id ∈ plan.transformUpdates ↔
      ∃ a, (a = id ∨ Forest.Above scene.parents.parent id a) ∧ a ∈ scene.entities ∧
        world.scene.Disturbed world.config.maxEntities.get patch.operations a) ∧
      ((∀ id, id ∉ plan.transformUpdates) → plan.transformGeneration = world.transformGeneration) ∧
      ∀ id ∈ plan.transformUpdates,
        checkedSucc world.transformGeneration = some plan.transformGeneration := by
  have hpreflight := h.preflight
  have hvalid := (ScenePatch.valid_of_validate h.valid).operations_valid
  rw [AuthoritativeWorld.preflight] at hpreflight
  split at hpreflight
  · cases hpreflight
  obtain ⟨state, hstate, hcomplete⟩ := Exec.bind_eq_ok.mp hpreflight
  have hsimulates := initialPreflight_simulates hworld
  have htracks := initialPreflight_tracks hworld
  obtain ⟨reached, hrun, -, hsimulates', htracks'⟩ :=
    preflightOperations_ok hvalid hsimulates htracks hstate
  obtain rfl : reached = scene := Except.ok.inj (hrun.symm.trans h.run)
  have hstart : world.scene.run world.config.maxEntities.get [] = .ok world.scene := rfl
  have hdirty := mem_dirtyRoots_iff hvalid hsimulates htracks hstart
    (fun id => by simp [initialPreflight, Scene.not_disturbed_nil]) hstate reached h.run
  rw [List.nil_append] at hdirty
  obtain ⟨hmem, hgeneration⟩ := completePreflight_recomputes hworld hsimulates' htracks' hcomplete
  refine ⟨fun id => (hmem id).trans ?_, hgeneration⟩
  constructor
  · rintro ⟨root, hroot, habove⟩
    exact ⟨root, habove.imp_left Eq.symm, (hdirty root).mp hroot⟩
  · rintro ⟨root, habove, hroot⟩
    exact ⟨root, (hdirty root).mpr hroot, habove.imp_left Eq.symm⟩

end Accepted

/-- **Transform recomputation is minimal and uniformly stamped.** An accepted patch leaves the
cached transform of a live entity as it was, unless it or an ancestor in the resulting hierarchy was
disturbed. What it recomputes gets the next generation, which is used up only then. -/
theorem applyPatch_recomputes {config : WorldConfig} (h : Reachable config world)
    {patch : ScenePatch} {plan : CommitPlan} {newRevision : SceneRevision}
    {operationCount : NonZeroU32}
    (haccept : world.admitPatch patch = .ok (.commit plan newRevision operationCount))
    (frame : FrameId) (clock : ApplyClock) :
    ∃ world' receipt, world.applyPatch patch frame clock = (world', .ok receipt) ∧
      (∀ id, id ∈ world.stableIndex → id ∈ world'.stableIndex →
        (∀ a, a = id ∨ Forest.Above world'.parents.parent id a →
          ¬ world.scene.Disturbed world.config.maxEntities.get patch.operations a) →
        world'.worldTransforms[id]? = world.worldTransforms[id]?) ∧
      (∀ id, id ∈ world'.stableIndex → id ∉ plan.transformUpdates →
        world'.worldTransforms[id]? = world.worldTransforms[id]?) ∧
      (∀ id ∈ plan.transformUpdates, ∃ t, world'.worldTransforms[id]? = some t ∧
        t.generation = world'.transformGeneration ∧
        t.generation.toNat = world.transformGeneration.toNat + 1) ∧
      ((∀ id, id ∉ plan.transformUpdates) →
        world'.transformGeneration = world.transformGeneration) := by
  have hworld := h.consistent
  rcases applyPatch_cases hworld patch frame clock with ⟨_, hplan, -⟩ | ⟨_, hplan, -⟩ |
    ⟨plan', _, _, scene, storage, index, hplan, haccepted, heq⟩
  · rw [hplan] at haccept
    cases haccept
  · rw [hplan] at haccept
    cases haccept
  rw [hplan] at haccept
  cases haccept
  obtain ⟨hmem, hnone, hsome⟩ := haccepted.recomputes hworld
  have hlive : ∀ id, id ∈ index ↔ id ∈ scene.entities := fun id => by
    rw [← haccepted.entities, haccepted.indexed.mem_sceneEntities]
  have hcache : ∀ id ∈ index, (world.committed plan storage index).worldTransforms[id]? =
      world.lookup plan.transformUpdates id := fun id hid =>
    lookup_committed haccepted.indexed haccepted.entities ((hlive id).mp hid)
  have hkept : ∀ id ∈ index, id ∉ plan.transformUpdates →
      (world.committed plan storage index).worldTransforms[id]? = world.worldTransforms[id]? := by
    intro id hid hnot
    rw [hcache id hid, lookup, TreeMap.not_mem_iff.mp hnot, Option.none_or]
  refine ⟨_, _, heq, fun id _ hid hclean => hkept id hid fun hupdated => ?_, hkept,
    fun id hid => ?_, hnone⟩
  · obtain ⟨a, habove, -, hdisturbed⟩ := (hmem id).mp hupdated
    refine hclean a ?_ hdisturbed
    change a = id ∨ Forest.Above (plan.parents.getD world.parents).parent id a
    rw [haccepted.planned.parents]
    exact habove
  · obtain ⟨t, ht⟩ := TreeMap.mem_iff.mp hid
    obtain ⟨hgeneration, components, hcomponents, -⟩ := haccepted.planned.derived id t ht
    refine ⟨t, ?_, hgeneration, ?_⟩
    · exact (hcache id ((hlive id).mpr (TreeMap.mem_of_get hcomponents))).trans
        (by rw [lookup, ht, Option.some_or])
    · rw [hgeneration]
      exact checkedSucc_eq_some.mp (hsome id hid)

def detachPatch : ScenePatch :=
  { samplePatch with
    idempotencyKey := .lit 2
    baseRevision := ⟨1⟩
    operations := [.reparent (.lit 2) none] }

def Admission.plan? : Admission → Option CommitPlan
  | .replay _ => none
  | .commit plan _ _ => some plan

theorem applyPatch_recomputes_detach :
    ∃ world' receipt t,
      sampleWorld.applyPatch detachPatch ⟨2, by decide⟩ ⟨0, 0⟩ = (world', .ok receipt) ∧
      world'.worldTransforms[(⟨1, by decide, by decide⟩ : StableEntityId)]? =
        sampleWorld.worldTransforms[(⟨1, by decide, by decide⟩ : StableEntityId)]? ∧
      world'.worldTransforms[(⟨2, by decide, by decide⟩ : StableEntityId)]? = some t ∧
      t.generation.toNat = 2 := by
  have hplan : (sampleWorld.admitPatch detachPatch).toOption.any fun admission =>
      admission.plan?.any fun plan =>
        decide (plan.transformUpdates.keys = [(.lit 2 : StableEntityId)]) := by
    decide +kernel
  obtain ⟨admission, haccept, hcommits⟩ := Exec.exists_ok_of_any hplan
  cases admission with
  | replay receipt => cases hcommits
  | commit plan newRevision operationCount =>
    obtain ⟨world', receipt, heq, hkept, -, hstamped, -⟩ :=
      applyPatch_recomputes reachable_sampleWorld haccept ⟨2, by decide⟩ ⟨0, 0⟩
    obtain rfl : (sampleWorld.applyPatch detachPatch ⟨2, by decide⟩ ⟨0, 0⟩).1 = world' := by
      rw [heq]
    have hupdated : (⟨2, by decide, by decide⟩ : StableEntityId) ∈ plan.transformUpdates := by
      have hkeys : plan.transformUpdates.keys = [.lit 2] := of_decide_eq_true hcommits
      rw [← Std.ExtTreeMap.mem_keys, hkeys]
      exact List.mem_singleton_self _
    obtain ⟨t, ht, -, hgeneration⟩ := hstamped _ hupdated
    refine ⟨_, receipt, t, heq, hkept _ (by decide +kernel) (by decide +kernel) ?_, ht,
      hgeneration.trans (by decide +kernel)⟩
    rintro a (rfl | habove)
    · have hnil : sampleWorld.scene.run sampleWorld.config.maxEntities.get [] =
          .ok sampleWorld.scene := rfl
      rw [show detachPatch.operations = [] ++ [.reparent ⟨2, by decide, by decide⟩ none] from rfl,
        Scene.disturbed_concat hnil]
      rintro (hbefore | ⟨heq, -⟩)
      · exact Scene.not_disturbed_nil hbefore
      · exact absurd heq (by decide)
    · obtain ⟨p, hp, -⟩ := Relation.TransGen.head'_iff.mp habove
      have hroot : (sampleWorld.applyPatch detachPatch ⟨2, by decide⟩ ⟨0, 0⟩).1.parents[(⟨1,
          by decide, by decide⟩ : StableEntityId)]? = none := by decide +kernel
      cases hroot.symm.trans hp

end AuthoritativeWorld

end Cogniform
