import Cogniform.Compiler.Patch
import Cogniform.World.Depths
import Cogniform.World.Invariant

/-!
# A compiled patch fits its world

A compiled patch creates its entities first, under identities that are free, and then gives parents
to some of them, among themselves. So the only thing that can stop it on the way is the number of
entities. And since the relations it was compiled from have no cycle, neither has its hierarchy.
-/

namespace Cogniform

open Forest

namespace SceneOperation

def Grows : SceneOperation → Prop
  | .create _ _ | .reparent _ (some _) => True
  | _ => False

def createdId : SceneOperation → Option StableEntityId
  | .create entityId _ => some entityId
  | _ => none

end SceneOperation

namespace Scene

variable {maxEntities : ℕ} {scene scene' : Scene} {operation : SceneOperation}

theorem step_grows (hgrows : operation.Grows) (h : scene.step maxEntities operation = .ok scene') :
    (∀ id, id ∈ scene'.entities ↔ id ∈ scene.entities ∨ operation.createdId = some id) ∧
      ∀ x p, scene'.parents[x]? = some p →
        scene.parents[x]? = some p ∨ operation = .reparent x (some p) := by
  cases operation with
  | create entityId components =>
    rw [step, Exec.check_eq_ok, Exec.check_eq_ok] at h
    obtain ⟨-, -, h⟩ := h
    cases h
    refine ⟨fun id => ?_, fun x p hx => .inl hx⟩
    rw [TreeMap.mem_insert, SceneOperation.createdId, Option.some.injEq, or_comm, eq_comm]
  | reparent entityId parentId =>
    cases parentId with
    | none => exact hgrows.elim
    | some parentId =>
      rw [step, Exec.check_eq_ok, Exec.check_eq_ok] at h
      obtain ⟨-, -, h⟩ := h
      cases h
      refine ⟨fun id => ?_, fun x p hx => ?_⟩
      · simp [SceneOperation.createdId]
      · rw [TreeMap.getElem?_insert] at hx
        split at hx
        · rename_i heq
          cases heq
          cases hx
          exact .inr rfl
        · exact .inl hx
  | delete => exact hgrows.elim
  | setComponent => exact hgrows.elim
  | removeComponent => exact hgrows.elim

/-- **What such operations lead to.** The entities that were there and those that are created; the
parents that were there and those that are given. -/
theorem run_grows {operations : List SceneOperation} :
    ∀ {scene : Scene}, (∀ operation ∈ operations, operation.Grows) →
      scene.run maxEntities operations = .ok scene' →
      (∀ id, id ∈ scene'.entities ↔
        id ∈ scene.entities ∨ id ∈ operations.filterMap SceneOperation.createdId) ∧
      ∀ x p, scene'.parents[x]? = some p →
        scene.parents[x]? = some p ∨ .reparent x (some p) ∈ operations := by
  induction operations with
  | nil =>
    intro scene _ h
    cases h
    exact ⟨fun id => by simp, fun x p hx => .inl hx⟩
  | cons operation operations ih =>
    intro scene hgrows h
    rw [run, List.foldlM_cons] at h
    obtain ⟨middle, hstep, hrest⟩ := Exec.bind_eq_ok.mp h
    obtain ⟨hentities, hparents⟩ := step_grows (hgrows operation List.mem_cons_self) hstep
    obtain ⟨hentities', hparents'⟩ :=
      ih (fun later hlater => hgrows later (List.mem_cons_of_mem _ hlater)) hrest
    refine ⟨fun id => ?_, fun x p hx => ?_⟩
    · rw [hentities', hentities, List.mem_filterMap, List.mem_filterMap]
      simp only [List.mem_cons, exists_eq_or_imp, or_assoc]
    · rcases hparents' x p hx with hx | hlater
      · rcases hparents x p hx with hx | rfl
        exacts [.inl hx, .inr List.mem_cons_self]
      · exact .inr (List.mem_cons_of_mem _ hlater)

end Scene

/-! ### The operations of a compiled patch -/

def Adopts (keys : List SceneText) (relations : List ImaginationRelation) (final : List EntityPlan)
    (x p : StableEntityId) : Prop :=
  ∃ child ∈ final, ∃ parent ∈ final, child.entityId = x ∧ parent.entityId = p ∧
    HasParent keys relations child.key parent.key

section Complete

variable {imagination : ImaginationEnvelope} {view : CompilationSceneView}
  {base plans final : List EntityPlan} {decisions : List CompilationDecision}
  (hplanned : Planned imagination view base decisions)
  (h : Complete imagination view base plans final)

include hplanned h

theorem Complete.grows :
    ∀ operation ∈ (builtPatch imagination final).operations, operation.Grows := by
  intro operation hmem
  rcases h.mem_operations hplanned hmem with ⟨plan, -, rfl⟩ | ⟨child, -, parent, -, -, rfl⟩
  · exact trivial
  · exact trivial

theorem Complete.createdIds :
    (builtPatch imagination final).operations.filterMap SceneOperation.createdId =
      final.map EntityPlan.entityId := by
  have hcreated : (final.map createOperation).filterMap SceneOperation.createdId =
      final.map EntityPlan.entityId := by
    rw [List.filterMap_map, ← List.filterMap_eq_map]
    rfl
  have hparented : (reparents final).filterMap SceneOperation.createdId = [] := by
    rw [List.filterMap_eq_nil_iff]
    intro operation hmem
    obtain ⟨child, -, parent, -, -, rfl⟩ := (h.mem_reparents hplanned).mp hmem
    rfl
  rw [builtPatch, List.filterMap_append, hcreated, hparented, List.append_nil]

theorem Complete.fresh {plan : EntityPlan} (hplan : plan ∈ final) :
    plan.entityId ∉ view.entityIds := by
  have hmem : plan.entityId ∈ base.map EntityPlan.entityId := by
    rw [← h.ids_eq]
    exact List.mem_map_of_mem hplan
  obtain ⟨chosen, hchosen, hid⟩ := List.mem_map.mp hmem
  rw [← hid]
  exact (hplanned.plannedFrom.fresh.1 chosen hchosen).1

omit hplanned in
theorem Complete.not_transGen (key : SceneText) :
    ¬ Relation.TransGen (HasParent imagination.keys imagination.relations) key key := by
  intro hcycle
  obtain ⟨_, ⟨index, relation, haccepts, hget, rfl, -⟩, -⟩ := Relation.TransGen.head'_iff.mp hcycle
  obtain ⟨parent, honCycle⟩ := onCycle_of_above haccepts hget hcycle
  exact h.clean.not_fault hget (.hierarchy honCycle)

theorem Complete.adopts {x p : StableEntityId}
    (hmem : .reparent x (some p) ∈ (builtPatch imagination final).operations) :
    Adopts imagination.keys imagination.relations final x p := by
  rcases List.mem_append.mp hmem with hcreate | hreparent
  · obtain ⟨plan, -, hcreated⟩ := List.mem_map.mp hcreate
    cases hcreated
  · obtain ⟨child, hchild, parent, hparentMem, hparent, heq⟩ :=
      (h.mem_reparents hplanned).mp hreparent
    cases heq
    exact ⟨child, hchild, parent, hparentMem, rfl, rfl, (h.parent_iff hplanned hchild).mp hparent⟩

theorem Complete.not_transGen_adopts (x : StableEntityId) :
    ¬ Relation.TransGen (Adopts imagination.keys imagination.relations final) x x := by
  have hinj := List.inj_on_of_nodup_map (h.nodup_ids hplanned)
  have hkeys : ∀ {x y : StableEntityId},
      Relation.TransGen (Adopts imagination.keys imagination.relations final) x y →
      ∃ child ∈ final, ∃ parent ∈ final, child.entityId = x ∧ parent.entityId = y ∧
        Relation.TransGen (HasParent imagination.keys imagination.relations) child.key
          parent.key := by
    intro x y hchain
    induction hchain with
    | single hstep =>
      obtain ⟨child, hchild, parent, hparent, hx, hy, hlink⟩ := hstep
      exact ⟨child, hchild, parent, hparent, hx, hy, .single hlink⟩
    | tail _ hstep ih =>
      obtain ⟨child, hchild, middle, hmiddle, hx, hz, hlinks⟩ := ih
      obtain ⟨middle', hmiddle', parent, hparent, hz', hy, hlink⟩ := hstep
      cases hinj hmiddle hmiddle' (hz.trans hz'.symm)
      exact ⟨child, hchild, parent, hparent, hx, hy, hlinks.tail hlink⟩
  intro hcycle
  obtain ⟨child, hchild, parent, hparent, hx, hx', hlinks⟩ := hkeys hcycle
  cases hinj hchild hparent (hx.trans hx'.symm)
  exact h.not_transGen child.key hlinks

/-- **Only the number of entities stops a compiled patch.** -/
theorem Complete.capacity_of_stuck {maxEntities : ℕ} {scene scene' : Scene}
    (hview : ∀ id ∈ scene.entities, id ∈ view.entityIds) {done rest : List SceneOperation}
    {operation : SceneOperation} {obstacle : Obstacle}
    (hoperations : (builtPatch imagination final).operations = done ++ operation :: rest)
    (hrun : scene.run maxEntities done = .ok scene')
    (hstuck : scene'.step maxEntities operation = .error obstacle) :
    ∃ id, obstacle = .entityCapacityExceeded id := by
  have hgrows : ∀ earlier ∈ done, earlier.Grows := fun earlier hearlier =>
    h.grows hplanned earlier (by rw [hoperations]; exact List.mem_append_left _ hearlier)
  have hentities := (Scene.run_grows hgrows hrun).1
  have hmem : operation ∈ (builtPatch imagination final).operations := by
    rw [hoperations]
    exact List.mem_append_right _ List.mem_cons_self
  rcases h.mem_operations hplanned hmem with
    ⟨plan, hplan, rfl⟩ | ⟨child, hchild, parent, hparent, -, rfl⟩
  · -- its identity is neither in the scene nor created before
    have hnodup := h.nodup_ids hplanned
    have hcreates : (createOperation plan).createdId = some plan.entityId := rfl
    rw [← h.createdIds hplanned, hoperations, List.filterMap_append,
      List.filterMap_cons_some hcreates] at hnodup
    have hnew : plan.entityId ∉ scene'.entities := by
      rw [hentities]
      rintro (hold | hearlier)
      · exact h.fresh hplanned hplan (hview _ hold)
      · exact (List.disjoint_of_nodup_append hnodup) hearlier List.mem_cons_self
    rw [createOperation, Scene.step, if_neg hnew] at hstuck
    split at hstuck
    · cases hstuck
      exact ⟨_, rfl⟩
    · cases hstuck
  · -- everything has been created before
    have hcreated : ∀ plan ∈ final, plan.entityId ∈ scene'.entities := by
      intro plan hplan
      obtain ⟨later, rfl⟩ : ∃ later, done = final.map createOperation ++ later := by
        rcases List.append_eq_append_iff.mp hoperations with
          ⟨later, hdone, -⟩ | ⟨left, hcreate, hleft⟩
        · exact ⟨later, hdone⟩
        · cases left with
          | nil => exact ⟨[], by rw [List.append_nil, hcreate, List.append_nil]⟩
          | cons first left =>
            obtain ⟨rfl, -⟩ := List.cons.inj hleft
            have hfirst : .reparent child.entityId (some parent.entityId) ∈
                final.map createOperation := by
              rw [hcreate]
              exact List.mem_append_right _ List.mem_cons_self
            obtain ⟨_, -, hcontra⟩ := List.mem_map.mp hfirst
            cases hcontra
      rw [hentities, List.filterMap_append, List.filterMap_map]
      exact .inr (List.mem_append_left _ (List.mem_filterMap.mpr ⟨plan, hplan, rfl⟩))
    rw [Scene.step, if_neg (not_not.mpr (hcreated child hchild)),
      if_neg (not_not.mpr (hcreated parent hparent))] at hstuck
    cases hstuck

variable {world : AuthoritativeWorld} {scene : Scene}
  (hworld : world.Consistent) (hview : ∀ id, id ∈ view.entityIds ↔ id ∈ world.scene.entities)
  (hrun : world.scene.run world.config.maxEntities.get (builtPatch imagination final).operations =
    .ok scene)

include hworld hview hrun

theorem Complete.edge {x p : StableEntityId} (hx : scene.parents[x]? = some p) :
    (x ∈ world.scene.entities ∧ p ∈ world.scene.entities ∧ world.parents[x]? = some p) ∨
      x ∉ world.scene.entities ∧ p ∉ world.scene.entities ∧
        Adopts imagination.keys imagination.relations final x p := by
  rcases (Scene.run_grows (h.grows hplanned) hrun).2 x p hx with hold | hgiven
  · obtain ⟨hchild, hparent⟩ := hworld.edges hold
    exact .inl ⟨hworld.toIndexed.mem_sceneEntities.mpr hchild,
      hworld.toIndexed.mem_sceneEntities.mpr hparent, hold⟩
  · have hadopts := h.adopts hplanned hgiven
    obtain ⟨child, hchild, parent, hparent, rfl, rfl, -⟩ := id hadopts
    exact .inr ⟨fun hmem => h.fresh hplanned hchild ((hview _).mpr hmem),
      fun hmem => h.fresh hplanned hparent ((hview _).mpr hmem), hadopts⟩

theorem Complete.edge_mem {x p : StableEntityId} (hx : scene.parents[x]? = some p) :
    x ∈ scene.entities ∧ p ∈ scene.entities := by
  have hentities := (Scene.run_grows (h.grows hplanned) hrun).1
  rw [hentities, hentities, h.createdIds hplanned]
  rcases h.edge hplanned hworld hview hrun hx with ⟨hchild, hparent, -⟩ |
    ⟨-, -, child, hchild, parent, hparent, rfl, rfl, -⟩
  · exact ⟨.inl hchild, .inl hparent⟩
  · exact ⟨.inr (List.mem_map_of_mem hchild), .inr (List.mem_map_of_mem hparent)⟩

theorem Complete.not_above_self (x : StableEntityId) : ¬ Above scene.parents.parent x x := by
  intro habove
  by_cases hx : x ∈ world.scene.entities
  · obtain ⟨depths, hdepths⟩ := hworld.topology
    obtain ⟨depth, hdepth⟩ := acyclic_of_hierarchyDepths hdepths x
    refine hdepth.not_above_self (habove.closed (fun y p hy hmem => ?_) hx).2
    rcases h.edge hplanned hworld hview hrun hy with ⟨-, hp, hold⟩ | ⟨hnew, -, -⟩
    exacts [⟨hp, hold⟩, absurd hmem hnew]
  · refine h.not_transGen_adopts hplanned x
      (habove.closed (S := fun y => y ∉ world.scene.entities) (fun y p hy hmem => ?_) hx).2
    rcases h.edge hplanned hworld hview hrun hy with ⟨hold, -, -⟩ | ⟨-, hp, hadopts⟩
    exacts [absurd hold hmem, ⟨hp, hadopts⟩]

end Complete

def WorldApplyError.misfit : WorldApplyError → Bool
  | .invalidPatch _ | .baseRevisionMismatch _ _ | .entityAlreadyExists _ _ | .entityNotFound _ _
  | .componentNotFound _ _ _ | .hierarchyParentNotFound _ _ | .hierarchyCycle _ => true
  | _ => false

theorem AuthoritativeWorld.Consistent.mem_view {world : AuthoritativeWorld}
    (hworld : world.Consistent) {snapshot : WorldSnapshot}
    (hsnapshot : world.snapshot = .ok snapshot) :
    snapshot.revision = world.revision ∧ ∀ id, id ∈ (CompilationSceneView.new snapshot.revision
      (snapshot.entities.map EntitySnapshot.entityId)).entityIds ↔ id ∈ world.scene.entities := by
  obtain ⟨⟨⟩, -, heq⟩ := Exec.bind_eq_ok.mp hsnapshot
  cases heq
  refine ⟨rfl, fun id => ?_⟩
  have hids : (world.stableIndex.toList.map fun entry => (⟨entry.1, world.parents[entry.1]?,
      world.snapshotComponents entry.2⟩ : EntitySnapshot)).map EntitySnapshot.entityId =
      world.stableIndex.keys := by
    rw [List.map_map, ← Std.ExtTreeMap.map_fst_toList_eq_keys]
    rfl
  have hmem : id ∈ world.scene.entities ↔ id ∈ world.stableIndex :=
    hworld.toIndexed.mem_sceneEntities
  rw [hmem, CompilationSceneView.new, hids, Std.ExtTreeSet.mem_ofList, List.contains_iff_mem,
    Std.ExtTreeMap.mem_keys]

section Compiled

open Exec AuthoritativeWorld

variable {imagination : ImaginationEnvelope} {view : CompilationSceneView}
  {base plans final : List EntityPlan} {decisions : List CompilationDecision}
  {world : AuthoritativeWorld}

theorem Complete.preflight_misfit (hplanned : Planned imagination view base decisions)
    (h : Complete imagination view base plans final) (hworld : world.Consistent)
    (hview : ∀ id, id ∈ view.entityIds ↔ id ∈ world.scene.entities)
    (hvalid : (builtPatch imagination final).validate world.config.runtimeLimits = .ok ())
    (newRevision : SceneRevision) :
    FailsWith (fun error => error.misfit = false)
      (world.preflight (builtPatch imagination final) newRevision) := by
  have hoperations := (ScenePatch.valid_of_validate hvalid).operations_valid
  rw [AuthoritativeWorld.preflight]
  split
  · exact .fail rfl
  refine .bind (fun error herror => ?_) fun state hstate => ?_
  · obtain ⟨done, operation, rest, scene', obstacle, hsplit, hrun, hstuck, rfl⟩ :=
      preflightOperations_error hoperations (initialPreflight_simulates hworld)
        (initialPreflight_tracks hworld) herror
    obtain ⟨id, rfl⟩ := h.capacity_of_stuck hplanned (fun id => (hview id).mpr) hsplit hrun hstuck
    rfl
  · obtain ⟨scene, hrun, -, hsimulates, -⟩ :=
      preflightOperations_ok hoperations (initialPreflight_simulates hworld)
        (initialPreflight_tracks hworld) hstate
    have hbounding : Bounding fun error => error.misfit = false :=
      ⟨fun _ => rfl, fun _ => rfl, rfl, fun _ => rfl⟩
    refine world.completePreflight_failsWith_of_hierarchy hbounding (fun error herror => ?_)
      newRevision
    rw [hsimulates.parents] at herror
    cases hierarchyDepths_blames _ _ _ error herror with
    | cycle habove => exact absurd habove (h.not_above_self hplanned hworld hview hrun _)
    | edge hedge hdangling =>
      rw [mem_overlayLiveIds hsimulates hworld, mem_overlayLiveIds hsimulates hworld] at hdangling
      exact absurd (h.edge_mem hplanned hworld hview hrun hedge) hdangling
    | depth => rfl

theorem Complete.admitPatch_misfit (hplanned : Planned imagination view base decisions)
    (h : Complete imagination view base plans final) (hworld : world.Consistent)
    (hview : ∀ id, id ∈ view.entityIds ↔ id ∈ world.scene.entities)
    (hvalid : (builtPatch imagination final).validate world.config.runtimeLimits = .ok ())
    (hrevision : imagination.baseRevision = world.revision) :
    FailsWith (fun error => error.misfit = false)
      (world.admitPatch (builtPatch imagination final)) := by
  rw [admitPatch, hvalid]
  dsimp only
  split
  · split
    · exact .fail rfl
    · exact .ok _
  rw [admitNew]
  split
  · exact .fail rfl
  split
  · exact .fail rfl
  split
  · rename_i hbase
    exact absurd hrevision hbase.2
  refine .bind (.okOr ?_ _) fun newRevision _ =>
    .bind (h.preflight_misfit hplanned hworld hview hvalid newRevision) fun plan _ =>
      .bind ?_ fun _ _ => .ok _
  · rfl
  rw [operationCount]
  split
  · split
    · exact .ok _
    · exact .panic _
  · exact .panic _

namespace CompilerConfig

variable {sha256 : List UInt8 → Digest} {serde : SerdeWriter CompilationResult}
  {config : CompilerConfig} {result : CompilationResult} {patch : ScenePatch}
  {worldConfig : WorldConfig} {snapshot : WorldSnapshot}

/-- **A compiled patch fits its world.** What is compiled against the snapshot of a reachable world
is not refused as invalid, stale, for what is there or not, or for its hierarchy; only a bound can
stand in the way, whether or not the key is in use. -/
theorem compile_fits (hworld : Reachable worldConfig world)
    (hsnapshot : world.snapshot = .ok snapshot)
    (hlimits : config.runtimeLimits = worldConfig.runtimeLimits)
    (h : config.compile sha256 serde imagination (.new snapshot.revision
      (snapshot.entities.map EntitySnapshot.entityId)) = .ok result)
    (hpatch : result.patch = some patch) (frame : FrameId) (clock : ApplyClock) :
    ∀ error, (world.applyPatch patch frame clock).2 = Exec.fail error → error.misfit = false := by
  have hconsistent := hworld.consistent
  obtain ⟨hrevision, hview⟩ := hconsistent.mem_view hsnapshot
  obtain ⟨base, decisions, analysis, -, hbase, hplanned, hanalysed, hvalid, rfl⟩ := compile_eq_ok h
  rw [completed] at hpatch
  split at hpatch
  · rename_i hnil
    obtain ⟨plans, hcomplete⟩ := hanalysed.complete hnil
    cases hpatch
    have hvalid' := hvalid hnil
    rw [hlimits, ← hworld.config_eq] at hvalid'
    have hmisfit := hcomplete.admitPatch_misfit hplanned hconsistent hview hvalid'
      (hbase.trans hrevision)
    intro error herror
    rcases applyPatch_cases hconsistent (builtPatch imagination analysis.entities) frame clock with
      ⟨abort, hplan, heq⟩ | ⟨receipt, -, heq⟩ | ⟨_, _, _, _, _, _, -, -, heq⟩
    · rw [heq] at herror
      cases herror
      exact hmisfit error hplan
    · rw [heq] at herror
      cases herror
    · rw [heq] at herror
      cases herror
  · cases hpatch

theorem compile_fits_sample :
    ∃ imagination snapshot result patch, sampleWorld.snapshot = .ok snapshot ∧
      (CompilerConfig.new .default).compile (fun _ => .replicate 32 0)
        (CompilationResult.serde sampleFloats) imagination
        (.new snapshot.revision (snapshot.entities.map EntitySnapshot.entityId)) = .ok result ∧
      result.patch = some patch ∧
      ∀ error, (sampleWorld.applyPatch patch ⟨1, by decide⟩ ⟨0, 0⟩).2 = Exec.fail error →
        error.misfit = false := by
  let imagination : ImaginationEnvelope := { sampleImagination with
    transactionId := ⟨2, by decide, by decide⟩
    idempotencyKey := ⟨2, by decide, by decide⟩
    baseRevision := sampleWorld.revision
    entities := [sampleEntity ⟨"b", by decide, by decide⟩ ⟨12, by decide, by decide⟩,
      sampleEntity ⟨"a", by decide, by decide⟩ ⟨11, by decide, by decide⟩]
    relations := [.parent ⟨"b", by decide, by decide⟩ ⟨"a", by decide, by decide⟩] }
  obtain ⟨snapshot, hsnapshot, hcompile⟩ := Exec.exists_ok_of_any
    (x := sampleWorld.snapshot)
    (p := fun snapshot => ((CompilerConfig.new .default).compile (fun _ => .replicate 32 0)
      (CompilationResult.serde sampleFloats) imagination (.new snapshot.revision
        (snapshot.entities.map EntitySnapshot.entityId))).toOption.any fun result =>
          result.patch.isSome) (by decide +kernel)
  obtain ⟨result, hresult, hsome⟩ := Exec.exists_ok_of_any hcompile
  obtain ⟨patch, hpatch⟩ := Option.isSome_iff_exists.mp hsome
  exact ⟨imagination, snapshot, result, patch, hsnapshot, hresult, hpatch,
    compile_fits reachable_sampleWorld hsnapshot rfl hresult hpatch ⟨1, by decide⟩ ⟨0, 0⟩⟩

end CompilerConfig

end Compiled

end Cogniform
