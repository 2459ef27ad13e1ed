import Cogniform.Compiler.Report

/-!
# What the patch builds

A patch creates every entity and then gives children their parents. A placed entity satisfies the
equation of its relation against its anchor as that is created, however long the chain of anchors
is; the others have the transform that was asked for.
-/

namespace Cogniform

def SceneOperation.reparents (entityId : StableEntityId) : SceneOperation → Bool
  | .reparent child _ => child = entityId
  | _ => false

def EntityPlan.IsAbove (subject anchor : EntityPlan) (clearance : F32) : Prop :=
  ∃ y, placedAt anchor.transform.translation.y anchor.primitive.dimensions.y
      anchor.transform.scale.y clearance subject.primitive.dimensions.y
      subject.transform.scale.y = some y ∧
    subject.transform.translation =
      ⟨anchor.transform.translation.x, y, anchor.transform.translation.z⟩

def EntityPlan.IsRightOf (subject anchor : EntityPlan) (gap : F32) : Prop :=
  ∃ x, placedAt anchor.transform.translation.x anchor.primitive.dimensions.x
      anchor.transform.scale.x gap subject.primitive.dimensions.x
      subject.transform.scale.x = some x ∧
    subject.transform.translation =
      ⟨x, anchor.transform.translation.y, anchor.transform.translation.z⟩

def ImaginationRelation.Holds (relation : ImaginationRelation) (moves : List SceneOperation)
    (subject related : EntityPlan) : Prop :=
  match relation with
  | .parent .. => moves.filter (SceneOperation.reparents subject.entityId) =
      [.reparent subject.entityId (some related.entityId)]
  | .above _ _ clearance => subject.IsAbove related clearance.get
  | .rightOf _ _ gap => subject.IsRightOf related gap.get

structure Realises (imagination : ImaginationEnvelope) (patch : ScenePatch)
    (entities : List EntityPlan) (moves : List SceneOperation) : Prop where
  operations : patch.operations = entities.map createOperation ++ moves
  moved : ∀ operation ∈ moves, ∃ child ∈ entities, ∃ parent ∈ entities,
    .parent child.key parent.key ∈ imagination.relations ∧
      operation = .reparent child.entityId (some parent.entityId)
  /-- One entity is created for each that was imagined, with its geometry. -/
  created : List.Forall₂ (fun entity plan => plan.key = entity.key ∧
    plan.primitive = entity.primitive ∧
    plan.transform.rotation = entity.initialTransform.rotation ∧
    plan.transform.scale = entity.initialTransform.scale) imagination.sortedEntities entities
  nodup_keys : (entities.map EntityPlan.key).Nodup
  nodup_ids : (entities.map EntityPlan.entityId).Nodup
  relation : ∀ relation ∈ imagination.relations, ∃ subject ∈ entities, ∃ related ∈ entities,
    subject.key = relation.subject ∧ related.key = relation.related ∧
      relation.Holds moves subject related
  still : ∀ entity ∈ imagination.entities,
    (∀ relation ∈ imagination.relations, relation.anchorKey.isSome → relation.subject ≠ entity.key) →
    ∃ plan ∈ entities, plan.key = entity.key ∧ plan.transform = entity.initialTransform

theorem isAbove_of_placedTranslation {subject anchor : EntityPlan} {clearance : F32}
    {translation : Vec3}
    (h : placedTranslation subject anchor (.above clearance) = .ok translation) :
    (subject.moved translation).IsAbove anchor clearance := by
  simp only [placedTranslation] at h
  split at h
  · cases h
  split at h
  · cases h
  · rename_i y hy
    cases h
    exact ⟨y, hy, rfl⟩

theorem isRightOf_of_placedTranslation {subject anchor : EntityPlan} {gap : F32}
    {translation : Vec3}
    (h : placedTranslation subject anchor (.rightOf gap) = .ok translation) :
    (subject.moved translation).IsRightOf anchor gap := by
  simp only [placedTranslation] at h
  split at h
  · cases h
  split at h
  · cases h
  · rename_i x hx
    cases h
    exact ⟨x, hx, rfl⟩

section Complete

variable {imagination : ImaginationEnvelope} {scene : CompilationSceneView}
  {base plans final : List EntityPlan} {decisions : List CompilationDecision}

theorem Complete.accepts (h : Complete imagination scene base plans final) {index : ℕ}
    {relation : ImaginationRelation} (hget : imagination.relations[index]? = some relation) :
    Accepts imagination.keys imagination.relations index := by
  by_contra hrefused
  exact h.clean.not_fault hget (fault_of_not_accepts hget hrefused)

theorem Complete.get (h : Complete imagination scene base plans final) {index : ℕ}
    {plan : EntityPlan} (hsettled : Settled plans index plan) : final[index]? = some plan := by
  obtain ⟨assigned, hassigned, -⟩ := hsettled.eq_moved
  obtain ⟨plan', hget, hsettled'⟩ := h.settled index (List.getElem?_eq_some_iff.mp hassigned).1
  rw [hsettled.unique hsettled']
  exact hget

variable (hplanned : Planned imagination scene base decisions)
  (h : Complete imagination scene base plans final)

include hplanned h

theorem Complete.planOf {index : ℕ} {plan : EntityPlan} (hget : final[index]? = some plan) :
    ∃ entity assigned, PlanOf imagination plans index entity assigned ∧
      Settled plans index plan := by
  have hlt : index < plans.length := h.length_eq ▸ (List.getElem?_eq_some_iff.mp hget).1
  obtain ⟨plan', hget', hsettled⟩ := h.settled index hlt
  cases hget.symm.trans hget'
  obtain ⟨entity, hplanOf⟩ :=
    exists_planOf hplanned h.assigning (List.getElem?_eq_getElem hlt)
  exact ⟨entity, _, hplanOf, hsettled⟩

theorem Complete.exists_planOf_key {key : SceneText} (hkey : key ∈ imagination.keys) :
    ∃ index entity assigned plan, PlanOf imagination plans index entity assigned ∧
      entity.key = key ∧ Settled plans index plan ∧ final[index]? = some plan := by
  obtain ⟨entity, hmem, rfl⟩ := List.mem_map.mp hkey
  obtain ⟨index, assigned, hplanOf⟩ := exists_planOf_entity hplanned h.assigning
    (ImaginationEnvelope.mem_sortedEntities.mp hmem)
  obtain ⟨plan, hget, hsettled⟩ :=
    h.settled index (List.getElem?_eq_some_iff.mp hplanOf.get).1
  exact ⟨index, entity, assigned, plan, hplanOf, rfl, hsettled, hget⟩

theorem Complete.placed {position : ℕ} {relation : ImaginationRelation} {kind : PlacementKind}
    (hrelation : imagination.relations[position]? = some relation)
    (hkind : relation.placementKind = some kind) :
    ∃ subject ∈ final, ∃ anchor ∈ final, ∃ assigned translation,
      subject.key = relation.subject ∧ anchor.key = relation.related ∧
      placedTranslation assigned anchor kind = .ok translation ∧
      subject = assigned.moved translation := by
  have haccepts := h.accepts hrelation
  obtain ⟨hsubject, hrelated, -⟩ := (accepts_iff hrelation).mp haccepts
  obtain ⟨index, entity, assigned, subject, hplanOf, hkey, hsettled, hget⟩ :=
    h.exists_planOf_key hplanned hsubject
  obtain ⟨anchorIndex, anchorEntity, anchorAssigned, anchor, hanchorOf, hanchorKey, hanchorSettled,
    hanchorGet⟩ := h.exists_planOf_key hplanned hrelated
  have hplacement : assigned.placement = some ⟨relationPosition position, relation.related, kind⟩ :=
    (hplanOf.placement_iff hplanned h.assigning).mpr
      ⟨position, relation, haccepts, hrelation, hkey.symm, hkind, rfl, rfl⟩
  have hanchorIndex : (keyIndex plans)[relation.related]? = some anchorIndex := by
    rw [← hanchorKey]
    exact hanchorOf.keyIndex hplanned h.assigning
  obtain ⟨anchor', translation, hanchorSettled', htranslation, rfl⟩ :=
    (settled_placed_iff hplanOf.get hplacement hanchorIndex).mp hsettled
  cases hanchorSettled.unique hanchorSettled'
  obtain ⟨_, hassigned, hmoved⟩ := hanchorSettled.eq_moved
  cases hassigned.symm.trans hanchorOf.get
  refine ⟨_, List.mem_of_getElem? hget, anchor, List.mem_of_getElem? hanchorGet, assigned,
    translation, hplanOf.key.trans hkey, ?_, htranslation, rfl⟩
  rw [hmoved]
  exact hanchorOf.key.trans hanchorKey

theorem Complete.still {entity : ImaginedEntity} (hmem : entity ∈ imagination.entities)
    (hfree : ∀ relation ∈ imagination.relations,
      relation.anchorKey.isSome → relation.subject ≠ entity.key) :
    ∃ plan ∈ final, plan.key = entity.key ∧ plan.transform = entity.initialTransform := by
  obtain ⟨index, assigned, hplanOf⟩ := exists_planOf_entity hplanned h.assigning hmem
  have hplacement : assigned.placement = none := by
    by_contra hsome
    obtain ⟨placement, hplacement⟩ := Option.ne_none_iff_exists'.mp hsome
    obtain ⟨position, relation, -, hrelation, hsubject, hwritten⟩ :=
      (hplanOf.placement_iff hplanned h.assigning).mp hplacement
    have hanchor := ImaginationRelation.anchorKey_of_placement
      (ImaginationRelation.placement_eq_some.mpr hwritten)
    exact hfree relation (List.mem_of_getElem? hrelation) (by rw [hanchor.1]; rfl) hsubject
  have hget := h.get (.free hplanOf.get hplacement)
  exact ⟨assigned, List.mem_of_getElem? hget, hplanOf.key, hplanOf.transform⟩

end Complete

/-! ### Parents -/

theorem filter_filterMap_of_nodup {α β γ : Type} {f : α → Option β} {key : α → γ} {p : β → Bool}
    {items : List α} {item : α} (hnodup : (items.map key).Nodup) (hitem : item ∈ items)
    (hp : ∀ a b, f a = some b → (p b = true ↔ key a = key item)) :
    (items.filterMap f).filter p = (f item).toList := by
  obtain ⟨before, after, rfl⟩ := List.append_of_mem hitem
  rw [List.map_append, List.map_cons, List.nodup_middle, List.nodup_cons] at hnodup
  -- The other elements have other keys.
  have hother : ∀ others : List α, (∀ a ∈ others, key a ≠ key item) →
      (others.filterMap f).filter p = [] := by
    intro others hne
    rw [List.filter_eq_nil_iff]
    intro b hb
    obtain ⟨a, ha, hfa⟩ := List.mem_filterMap.mp hb
    exact fun hpb => hne a ha ((hp a b hfa).mp hpb)
  have hbefore := hother before fun a ha heq => hnodup.1
    (List.mem_append_left _ (heq ▸ List.mem_map_of_mem ha))
  have hafter := hother after fun a ha heq => hnodup.1
    (List.mem_append_right _ (heq ▸ List.mem_map_of_mem ha))
  rw [List.filterMap_append, List.filter_append, hbefore, List.nil_append]
  cases hf : f item with
  | none => rw [List.filterMap_cons_none hf, hafter]; rfl
  | some b =>
    rw [List.filterMap_cons_some hf, List.filter_cons_of_pos ((hp item b hf).mpr rfl), hafter]
    rfl

section Parents

variable {imagination : ImaginationEnvelope} {scene : CompilationSceneView}
  {base plans final : List EntityPlan} {decisions : List CompilationDecision}

variable (hplanned : Planned imagination scene base decisions)
  (h : Complete imagination scene base plans final)

include hplanned h

omit hplanned in
theorem Complete.ids_eq : final.map EntityPlan.entityId = base.map EntityPlan.entityId := by
  rw [h.map_eq fun _ _ => rfl]
  exact (map_eq_of_forall₂ h.assigning.forall₂ fun _ _ hassigned => hassigned.kept.1.symm).symm

theorem Complete.nodup_ids : (final.map EntityPlan.entityId).Nodup := by
  rw [h.ids_eq]
  exact hplanned.plannedFrom.fresh.2

theorem Complete.mem_reparents {operation : SceneOperation} :
    operation ∈ reparents final ↔ ∃ child ∈ final, ∃ parent ∈ final,
      child.parent = some parent.key ∧
        operation = .reparent child.entityId (some parent.entityId) := by
  have hkeyed := h.keyed hplanned.keyed
  simp only [reparents, List.mem_filterMap, Option.bind_eq_bind, Option.bind_eq_some_iff,
    hkeyed.find?_eq_some, Option.some.injEq]
  constructor
  · rintro ⟨child, hchild, _, hparent, parent, ⟨hmem, rfl⟩, rfl⟩
    exact ⟨child, hchild, parent, hmem, hparent, rfl⟩
  · rintro ⟨child, hchild, parent, hmem, hparent, rfl⟩
    exact ⟨child, hchild, parent.key, hparent, parent, ⟨hmem, rfl⟩, rfl⟩

theorem Complete.filter_reparents {child parent : EntityPlan} (hchild : child ∈ final)
    (hmem : parent ∈ final) (hparent : child.parent = some parent.key) :
    (reparents final).filter (SceneOperation.reparents child.entityId) =
      [.reparent child.entityId (some parent.entityId)] := by
  have hkeyed := h.keyed hplanned.keyed
  have hfind := hkeyed.find?_eq_some.mpr ⟨hmem, rfl⟩
  rw [reparents, filter_filterMap_of_nodup (h.nodup_ids hplanned) hchild]
  · simp only [hparent, Option.bind_eq_bind, Option.bind_some, hfind, Option.toList_some]
  · intro entity operation hoperation
    simp only [Option.bind_eq_bind, Option.bind_eq_some_iff, Option.some.injEq] at hoperation
    obtain ⟨_, -, candidate, -, rfl⟩ := hoperation
    exact decide_eq_true_iff

theorem Complete.adopted {child parent : SceneText}
    (hrelation : .parent child parent ∈ imagination.relations) :
    ∃ subject ∈ final, ∃ related ∈ final, subject.key = child ∧ related.key = parent ∧
      subject.parent = some related.key := by
  obtain ⟨position, hget⟩ := List.mem_iff_getElem?.mp hrelation
  have haccepts := h.accepts hget
  obtain ⟨hsubject, hrelated, -⟩ := (accepts_iff hget).mp haccepts
  rw [← hplanned.keys_eq, ← h.keys_eq] at hsubject hrelated
  obtain ⟨subject, hsubjectMem, hsubjectKey⟩ := List.mem_map.mp hsubject
  obtain ⟨related, hrelatedMem, hrelatedKey⟩ := List.mem_map.mp hrelated
  refine ⟨subject, hsubjectMem, related, hrelatedMem, hsubjectKey, hrelatedKey, ?_⟩
  rw [h.parent_iff hplanned hsubjectMem, hsubjectKey, hrelatedKey]
  exact ⟨position, _, haccepts, hget, rfl, rfl⟩

theorem Complete.realises :
    Realises imagination (builtPatch imagination final) final (reparents final) where
  operations := rfl
  moved operation hoperation := by
    obtain ⟨child, hchild, parent, hmem, hparent, rfl⟩ := (h.mem_reparents hplanned).mp hoperation
    obtain ⟨position, relation, -, hget, hsubject, htarget⟩ :=
      (h.parent_iff hplanned hchild).mp hparent
    refine ⟨child, hchild, parent, hmem, ?_, rfl⟩
    cases relation with
    | parent =>
      cases htarget
      cases hsubject
      exact List.mem_of_getElem? hget
    | above => cases htarget
    | rightOf => cases htarget
  created := by
    have hlength : final.length = imagination.sortedEntities.length := by
      rw [h.length_eq, h.assigning.length_eq, hplanned.length_eq]
    refine List.forall₂_iff_get.mpr ⟨hlength.symm, fun index hentity hfinal => ?_⟩
    obtain ⟨entity, assigned, hplanOf, hsettled⟩ :=
      h.planOf hplanned (List.getElem?_eq_getElem hfinal)
    obtain ⟨_, hassigned, hmoved⟩ := hsettled.eq_moved
    cases hassigned.symm.trans hplanOf.get
    obtain ⟨_, rfl⟩ := List.getElem?_eq_some_iff.mp hplanOf.planned
    rw [List.get_eq_getElem, List.get_eq_getElem, hmoved, EntityPlan.moved, hplanOf.transform]
    exact ⟨hplanOf.key, hplanOf.primitive, rfl, rfl⟩
  nodup_keys := h.keyed hplanned.keyed
  nodup_ids := h.nodup_ids hplanned
  relation relation hrelation := by
    obtain ⟨position, hget⟩ := List.mem_iff_getElem?.mp hrelation
    cases relation with
    | parent child parent =>
      obtain ⟨subject, hsubject, related, hrelated, hchild, hparent, hadopted⟩ :=
        h.adopted hplanned hrelation
      exact ⟨subject, hsubject, related, hrelated, hchild, hparent,
        h.filter_reparents hplanned hsubject hrelated hadopted⟩
    | above subject anchor clearance =>
      obtain ⟨subject, hsubject, anchor, hanchor, assigned, translation, hsubjectKey, hanchorKey,
        htranslation, rfl⟩ := h.placed hplanned hget rfl
      exact ⟨_, hsubject, anchor, hanchor, hsubjectKey, hanchorKey,
        isAbove_of_placedTranslation htranslation⟩
    | rightOf subject anchor gap =>
      obtain ⟨subject, hsubject, anchor, hanchor, assigned, translation, hsubjectKey, hanchorKey,
        htranslation, rfl⟩ := h.placed hplanned hget rfl
      exact ⟨_, hsubject, anchor, hanchor, hsubjectKey, hanchorKey,
        isRightOf_of_placedTranslation htranslation⟩
  still entity hmem hfree := h.still hplanned hmem hfree

end Parents

namespace CompilerConfig

variable {sha256 : List UInt8 → Digest} {serde : SerdeWriter CompilationResult}
  {config : CompilerConfig} {imagination : ImaginationEnvelope} {scene : CompilationSceneView}
  {result : CompilationResult} {patch : ScenePatch}

theorem compile_realises (h : config.compile sha256 serde imagination scene = .ok result)
    (hpatch : result.patch = some patch) :
    ∃ entities moves, Realises imagination patch entities moves := by
  obtain ⟨base, decisions, analysis, -, -, hplanned, hanalysed, -, rfl⟩ := compile_eq_ok h
  rw [completed] at hpatch
  split at hpatch
  · rename_i hnil
    obtain ⟨plans, hcomplete⟩ := hanalysed.complete hnil
    cases hpatch
    exact ⟨_, _, hcomplete.realises hplanned⟩
  · cases hpatch

theorem compile_realises_sample :
    ∃ result patch, (CompilerConfig.new .default).compile (fun _ => .replicate 32 0)
        (CompilationResult.serde sampleFloats) sampleImagination ⟨.initial, ∅⟩ = .ok result ∧
      result.patch = some patch ∧
      ∃ entities moves, Realises sampleImagination patch entities moves := by
  obtain ⟨-, -, result, patch, hresult, hpatch⟩ := sampleImagination_compiles
  exact ⟨result, patch, hresult, hpatch, compile_realises hresult hpatch⟩

end CompilerConfig

end Cogniform
