import Cogniform.Compiler.Order

/-!
# Planned entities

`PlannedFrom` says what the planning loop does, entity by entity: the identity it takes is free in
the scene and among those taken, and the decisions are at most one for the identity and one for each
default. Afterwards the plans are addressed by position, and the key index inverts reading the key.
-/

namespace Cogniform

theorem map_eq_of_forall₂ {α β γ : Type} {R : α → β → Prop} {f : α → γ} {g : β → γ}
    {left : List α} {right : List β} (h : List.Forall₂ R left right)
    (hR : ∀ a b, R a b → f a = g b) : left.map f = right.map g := by
  induction h with
  | nil => rfl
  | cons hab _ ih => rw [List.map_cons, List.map_cons, hR _ _ hab, ih]

inductive Chosen (entity : ImaginedEntity) (entityId : StableEntityId) :
    List CompilationDecision → Prop where
  | preferred : Chosen entity entityId []
  | generated : Chosen entity entityId [⟨.generatedEntityId, entity.key, none, some entityId⟩]
  | substituted :
      Chosen entity entityId [⟨.preferredEntityIdSubstituted, entity.key, none, some entityId⟩]

inductive PlannedFrom (scene : CompilationSceneView) : Std.ExtTreeSet StableEntityId →
    List ImaginedEntity → List EntityPlan → List CompilationDecision → Prop where
  | nil {usedIds : Std.ExtTreeSet StableEntityId} : PlannedFrom scene usedIds [] [] []
  | cons {usedIds : Std.ExtTreeSet StableEntityId} {entity : ImaginedEntity}
      {entities : List ImaginedEntity} {entityId : StableEntityId}
      {chosen decisions : List CompilationDecision} {plans : List EntityPlan}
      (hscene : entityId ∉ scene.entityIds) (hused : entityId ∉ usedIds)
      (hchosen : Chosen entity entityId chosen)
      (hrest : PlannedFrom scene (usedIds.insert entityId) entities plans decisions) :
      PlannedFrom scene usedIds (entity :: entities) ((planEntity entity entityId).1 :: plans)
        (chosen ++ (planEntity entity entityId).2 ++ decisions)

namespace CompilerConfig

variable {sha256 : List UInt8 → Digest} {config : CompilerConfig}
  {imagination : ImaginationEnvelope} {scene : CompilationSceneView}

theorem deriveEntityId_ok {key : SceneText} {entityIndex : ℕ}
    {usedIds : Std.ExtTreeSet StableEntityId} {entityId : StableEntityId}
    (h : config.deriveEntityId sha256 imagination scene key entityIndex usedIds = .ok entityId) :
    entityId ∉ scene.entityIds ∧ entityId ∉ usedIds := by
  rw [deriveEntityId, Exec.okOr_eq_ok] at h
  obtain ⟨attempt, -, hcandidate⟩ := List.exists_of_findSome?_eq_some h
  rw [entityIdCandidate, Option.filter_eq_some_iff] at hcandidate
  exact of_decide_eq_true hcandidate.2

theorem chooseEntityId_ok {entity : ImaginedEntity} {entityIndex : ℕ}
    {usedIds : Std.ExtTreeSet StableEntityId} {entityId : StableEntityId}
    {chosen : List CompilationDecision}
    (h : config.chooseEntityId sha256 imagination scene entity entityIndex usedIds =
      .ok (entityId, chosen)) :
    entityId ∉ scene.entityIds ∧ entityId ∉ usedIds ∧ Chosen entity entityId chosen := by
  rw [chooseEntityId] at h
  split at h
  · obtain ⟨derived, hderived, h⟩ := Exec.bind_eq_ok.mp h
    cases h
    obtain ⟨hscene, hused⟩ := deriveEntityId_ok hderived
    exact ⟨hscene, hused, .generated⟩
  · split at h
    · obtain ⟨derived, hderived, h⟩ := Exec.bind_eq_ok.mp h
      cases h
      obtain ⟨hscene, hused⟩ := deriveEntityId_ok hderived
      exact ⟨hscene, hused, .substituted⟩
    · rename_i hfree
      cases h
      exact ⟨fun hmem => hfree (.inl hmem), fun hmem => hfree (.inr hmem), .preferred⟩

theorem planFrom_ok {entities : List ImaginedEntity} :
    ∀ {index : ℕ} {usedIds : Std.ExtTreeSet StableEntityId} {plans : List EntityPlan}
      {decisions : List CompilationDecision},
      config.planFrom sha256 imagination scene index usedIds entities = .ok (plans, decisions) →
        PlannedFrom scene usedIds entities plans decisions := by
  induction entities with
  | nil =>
    intro index usedIds plans decisions h
    cases h
    exact .nil
  | cons entity entities ih =>
    intro index usedIds plans decisions h
    rw [planFrom] at h
    obtain ⟨⟨entityId, chosen⟩, hchosen, h⟩ := Exec.bind_eq_ok.mp h
    obtain ⟨⟨rest, later⟩, hrest, h⟩ := Exec.bind_eq_ok.mp h
    cases h
    obtain ⟨hscene, hused, hshape⟩ := chooseEntityId_ok hchosen
    exact .cons hscene hused hshape (ih hrest)

end CompilerConfig

namespace PlannedFrom

variable {scene : CompilationSceneView} {usedIds : Std.ExtTreeSet StableEntityId}
  {entities : List ImaginedEntity} {plans : List EntityPlan}
  {decisions : List CompilationDecision}

theorem plans_eq (h : PlannedFrom scene usedIds entities plans decisions) :
    List.Forall₂ (fun entity plan => plan = (planEntity entity plan.entityId).1) entities plans := by
  induction h with
  | nil => exact .nil
  | cons _ _ _ _ ih => exact .cons rfl ih

theorem keys (h : PlannedFrom scene usedIds entities plans decisions) :
    plans.map EntityPlan.key = entities.map ImaginedEntity.key :=
  (map_eq_of_forall₂ h.plans_eq fun _ _ hplan => (congrArg EntityPlan.key hplan).symm).symm

theorem fresh (h : PlannedFrom scene usedIds entities plans decisions) :
    (∀ plan ∈ plans, plan.entityId ∉ scene.entityIds ∧ plan.entityId ∉ usedIds) ∧
      (plans.map EntityPlan.entityId).Nodup := by
  induction h with
  | nil => simp
  | @cons usedIds entity entities entityId chosen decisions plans hscene hused _ _ ih =>
    obtain ⟨hfree, hnodup⟩ := ih
    refine ⟨fun plan hplan => ?_, ?_⟩
    · rcases List.mem_cons.mp hplan with rfl | hplan
      · exact ⟨hscene, hused⟩
      · obtain ⟨hfreeScene, hfreeUsed⟩ := hfree plan hplan
        exact ⟨hfreeScene, fun hmem => hfreeUsed (TreeSet.mem_insert.mpr (.inr hmem))⟩
    · rw [List.map_cons, List.nodup_cons]
      refine ⟨fun hmem => ?_, hnodup⟩
      obtain ⟨plan, hplan, heq⟩ := List.mem_map.mp hmem
      exact (hfree plan hplan).2 (TreeSet.mem_insert.mpr (.inl heq))

end PlannedFrom

def Keyed (plans : List EntityPlan) : Prop := (plans.map EntityPlan.key).Nodup

theorem keyIndex_congr {plans plans' : List EntityPlan}
    (h : plans.map EntityPlan.key = plans'.map EntityPlan.key) : keyIndex plans = keyIndex plans' := by
  have hkeys : ∀ plans : List EntityPlan,
      keyIndex plans = .ofList (plans.map EntityPlan.key).zipIdx := by
    intro plans
    rw [keyIndex, List.zipIdx_map]
    rfl
  rw [hkeys, hkeys, h]

namespace Keyed

variable {plans : List EntityPlan} {key : SceneText} {index : ℕ}

theorem getElem?_keyIndex (h : Keyed plans) :
    (keyIndex plans)[key]? = some index ↔ ∃ plan, plans[index]? = some plan ∧ plan.key = key :=
  TreeMap.getElem?_ofList_zipIdx h

theorem mem_keyIndex (h : Keyed plans) :
    key ∈ keyIndex plans ↔ key ∈ plans.map EntityPlan.key := by
  rw [TreeMap.mem_iff, List.mem_map]
  constructor
  · rintro ⟨index, hindex⟩
    obtain ⟨plan, hplan, hkey⟩ := h.getElem?_keyIndex.mp hindex
    exact ⟨plan, List.mem_of_getElem? hplan, hkey⟩
  · rintro ⟨plan, hplan, hkey⟩
    obtain ⟨index, hindex⟩ := List.mem_iff_getElem?.mp hplan
    exact ⟨index, h.getElem?_keyIndex.mpr ⟨plan, hindex, hkey⟩⟩

theorem find?_eq_some (h : Keyed plans) {plan : EntityPlan} :
    (plans.find? fun candidate => candidate.key = key) = some plan ↔
      plan ∈ plans ∧ plan.key = key := by
  constructor
  · intro hfind
    have hkey := List.find?_some hfind
    exact ⟨List.mem_of_find?_eq_some hfind, of_decide_eq_true hkey⟩
  · rintro ⟨hplan, hkey⟩
    cases hfind : plans.find? fun candidate => candidate.key = key with
    | none => exact absurd (decide_eq_true hkey) (List.find?_eq_none.mp hfind plan hplan)
    | some other =>
      have hother := List.find?_some hfind
      rw [List.inj_on_of_nodup_map h (List.mem_of_find?_eq_some hfind) hplan
        ((of_decide_eq_true hother).trans hkey.symm)]

end Keyed

end Cogniform
