import Cogniform.Compiler.Analysis

/-!
# What the report says

The report is said in terms of the imagination: which relations and preconditions it names, and why.
`Stands` says where an anchor stands in the end, without the order in which the compiler gets there.
Positions are 32 bits wide in the report, so the lists are assumed to be shorter than that.
-/

namespace Cogniform

/-! ### Order of the report -/

instance : Std.TransCmp UnresolvedConstraint.canonicalCmp :=
  inferInstanceAs (Std.TransCmp (compareLex (compareOn UnresolvedConstraint.relationIndex)
    (compareLex (compareOn UnresolvedConstraint.constraintIndex)
      (compareLex (compareOn fun issue => issue.code.canonicalRank)
        (compareLex (compareOn UnresolvedConstraint.entityKey)
          (compareLex (compareOn UnresolvedConstraint.relatedKey)
            (compareOn UnresolvedConstraint.entityId)))))))

theorem UnresolvedConstraintCode.canonicalRank_injective :
    Function.Injective UnresolvedConstraintCode.canonicalRank := by
  intro left right h
  cases left <;> cases right <;> first | rfl | exact absurd h (by decide)

theorem UnresolvedConstraint.eq_of_canonicalCmp (left right : UnresolvedConstraint)
    (h : left.canonicalCmp right = .eq) : left = right := by
  simp only [canonicalCmp, Ordering.then_eq_eq, Std.LawfulEqCmp.compare_eq_iff_eq] at h
  obtain ⟨hrelation, hconstraint, hrank, hentity, hrelated, hid⟩ := h
  cases left
  cases right
  simp only at hrelation hconstraint hrank hentity hrelated hid
  rw [UnresolvedConstraintCode.canonicalRank_injective hrank, hrelation, hconstraint, hentity,
    hrelated, hid]

theorem UnresolvedConstraint.ne_of_lt {left right : UnresolvedConstraint}
    (h : left.canonicalCmp right = .lt) : left ≠ right := by
  rintro rfl
  have hself : left.canonicalCmp left = .eq := Std.ReflCmp.compare_self
  cases hself.symm.trans h

theorem mem_unresolved_completed {imagination : ImaginationEnvelope}
    {scene : CompilationSceneView} {analysis : Analysis} {entry : UnresolvedConstraint} :
    entry ∈ (completed imagination scene analysis).unresolved ↔ entry ∈ analysis.unresolved := by
  rw [completed]
  split
  · rename_i hnil
    rw [hnil]
  · exact Sorting.mem_dedup_sort UnresolvedConstraint.eq_of_canonicalCmp

theorem pairwise_unresolved_completed (imagination : ImaginationEnvelope)
    (scene : CompilationSceneView) (analysis : Analysis) :
    (completed imagination scene analysis).unresolved.Pairwise
      fun left right => left.canonicalCmp right = .lt := by
  rw [completed]
  split
  · exact .nil
  · exact Sorting.pairwise_lt_dedup UnresolvedConstraint.eq_of_canonicalCmp _

theorem relationPosition_eq {index : ℕ} (h : index < 2 ^ 29) :
    relationPosition index = .ofNat index := by
  have hcount : count index = index := by
    rw [count]
    omega
  rw [relationPosition, hcount]

theorem ofNat_injOn {index index' : ℕ} (h : index < 2 ^ 29) (h' : index' < 2 ^ 29)
    (heq : UInt32.ofNat index = .ofNat index') : index = index' := by
  have hnat := congrArg UInt32.toNat heq
  rw [UInt32.toNat_ofNat', UInt32.toNat_ofNat', Nat.mod_eq_of_lt (by omega),
    Nat.mod_eq_of_lt (by omega)] at hnat
  exact hnat

def ImaginationConstraint.Violated (scene : CompilationSceneView) : ImaginationConstraint → Prop
  | .entityExists entityId => entityId ∉ scene.entityIds
  | .entityAbsent entityId => entityId ∈ scene.entityIds

theorem mem_checkSceneConstraints {imagination : ImaginationEnvelope}
    {scene : CompilationSceneView} {entry : UnresolvedConstraint} :
    entry ∈ checkSceneConstraints imagination scene ↔ ∃ index constraint,
      imagination.constraints[index]? = some constraint ∧
        checkSceneConstraint scene index constraint = some entry := by
  rw [checkSceneConstraints, List.mem_filterMap]
  constructor
  · rintro ⟨⟨constraint, index⟩, hmem, hentry⟩
    exact ⟨index, constraint, List.mem_zipIdx_iff_getElem?.mp hmem, hentry⟩
  · rintro ⟨index, constraint, hget, hentry⟩
    exact ⟨(constraint, index), List.mem_zipIdx_iff_getElem?.mpr hget, hentry⟩

theorem checkSceneConstraint_isSome {scene : CompilationSceneView} {index : ℕ}
    {constraint : ImaginationConstraint} :
    (∃ entry, checkSceneConstraint scene index constraint = some entry) ↔
      constraint.Violated scene := by
  cases constraint with
  | entityExists entityId =>
    by_cases h : entityId ∈ scene.entityIds <;>
      simp [checkSceneConstraint, ImaginationConstraint.Violated, h]
  | entityAbsent entityId =>
    by_cases h : entityId ∈ scene.entityIds <;>
      simp [checkSceneConstraint, ImaginationConstraint.Violated, h]

theorem checkSceneConstraint_position {scene : CompilationSceneView} {index : ℕ}
    {constraint : ImaginationConstraint} {entry : UnresolvedConstraint}
    (h : checkSceneConstraint scene index constraint = some entry) :
    entry.relationIndex = none ∧ entry.constraintIndex = some (relationPosition index) := by
  cases constraint with
  | entityExists entityId =>
    rw [checkSceneConstraint] at h
    split at h
    · cases h
    · cases h
      exact ⟨rfl, rfl⟩
  | entityAbsent entityId =>
    rw [checkSceneConstraint] at h
    split at h
    · cases h
      exact ⟨rfl, rfl⟩
    · cases h

namespace ImaginationEnvelope

def Faulty (imagination : ImaginationEnvelope) (index : ℕ) (relation : ImaginationRelation) :
    Prop :=
  (relation.subject ∉ imagination.keys ∨ relation.related ∉ imagination.keys) ∨
  relation.subject = relation.related ∨
  (∃ earlier other, earlier < index ∧ Accepts imagination.keys imagination.relations earlier ∧
    imagination.relations[earlier]? = some other ∧ other.subject = relation.subject) ∨
  (∃ anchor parent, Accepts imagination.keys imagination.relations index ∧
    relation.anchorKey = some anchor ∧
    HasParent imagination.keys imagination.relations anchor parent) ∨
  (∃ parent, OnCycle imagination.keys imagination.relations ImaginationRelation.parentKey index
    relation parent) ∨
  ∃ anchor, OnCycle imagination.keys imagination.relations ImaginationRelation.anchorKey index
    relation anchor

variable {imagination : ImaginationEnvelope} {index : ℕ} {relation : ImaginationRelation}

theorem faulty_iff (hget : imagination.relations[index]? = some relation) :
    imagination.Faulty index relation ↔
      ∃ code, Fault imagination.keys imagination.relations index relation code := by
  constructor
  · intro h
    by_cases haccepts : Accepts imagination.keys imagination.relations index
    · obtain ⟨hsubject, hrelated, hne, hfree⟩ := (accepts_iff hget).mp haccepts
      rcases h with (h | h) | h | ⟨earlier, other, hlt, hearlier, hother, h⟩ |
        ⟨anchor, parent, -, hanchor, hparent⟩ | ⟨parent, h⟩ | ⟨anchor, h⟩
      · exact absurd hsubject h
      · exact absurd hrelated h
      · exact absurd h hne
      · exact absurd h (hfree earlier hlt hearlier other hother)
      · exact ⟨_, .parented haccepts hanchor hparent⟩
      · exact ⟨_, .hierarchy h⟩
      · exact ⟨_, .placement h⟩
    · exact ⟨_, fault_of_not_accepts hget haccepts⟩
  · rintro ⟨code, h⟩
    cases h with
    | unknown h => exact .inl h
    | self _ _ h => exact .inr (.inl h)
    | taken _ _ _ hlt haccepts hother h =>
      exact .inr (.inr (.inl ⟨_, _, hlt, haccepts, hother, h⟩))
    | parented haccepts hanchor h =>
      exact .inr (.inr (.inr (.inl ⟨_, _, haccepts, hanchor, h⟩)))
    | hierarchy h => exact .inr (.inr (.inr (.inr (.inl ⟨_, h⟩))))
    | placement h => exact .inr (.inr (.inr (.inr (.inr ⟨_, h⟩))))

def Clean (imagination : ImaginationEnvelope) (scene : CompilationSceneView) : Prop :=
  (∀ index relation, imagination.relations[index]? = some relation →
    ¬ imagination.Faulty index relation) ∧
  ∀ constraint ∈ imagination.constraints, ¬ constraint.Violated scene

end ImaginationEnvelope

def ImaginationRelation.placementKind : ImaginationRelation → Option PlacementKind
  | .parent .. => none
  | .above _ _ clearance => some (.above clearance.get)
  | .rightOf _ _ gap => some (.rightOf gap.get)

namespace ImaginedEntity

def initialTransform (entity : ImaginedEntity) : LocalTransform :=
  entity.transform.getD identityTransform

/-- An entity that stands somewhere, as the step of a placement reads it. Any identity will do, as
the step does not read it. -/
def standing (entity : ImaginedEntity) (transform : LocalTransform) : EntityPlan :=
  { (planEntity entity (.lit 1)).1 with transform }

end ImaginedEntity

/-- Where an entity stands in the end: where it was asked to be, or where its placement puts it at an
anchor that stands. -/
inductive Stands (imagination : ImaginationEnvelope) : ImaginedEntity → LocalTransform → Prop where
  | still {entity : ImaginedEntity} (hmem : entity ∈ imagination.entities)
      (h : ∀ anchor, ¬ HasAnchor imagination.keys imagination.relations entity.key anchor) :
      Stands imagination entity entity.initialTransform
  | placed {entity anchor : ImaginedEntity} {index : ℕ} {relation : ImaginationRelation}
      {kind : PlacementKind} {transform : LocalTransform} {translation : Vec3}
      (hmem : entity ∈ imagination.entities)
      (hget : imagination.relations[index]? = some relation)
      (haccepts : Accepts imagination.keys imagination.relations index)
      (hsubject : relation.subject = entity.key) (hrelated : relation.related = anchor.key)
      (hkind : relation.placementKind = some kind) (hanchor : Stands imagination anchor transform)
      (h : placedTranslation (entity.standing entity.initialTransform) (anchor.standing transform)
        kind = .ok translation) :
      Stands imagination entity { entity.initialTransform with translation }

theorem Stands.mem {imagination : ImaginationEnvelope} {entity : ImaginedEntity}
    {transform : LocalTransform} (h : Stands imagination entity transform) :
    entity ∈ imagination.entities := by
  cases h <;> assumption

/-- The relation at a position is an accepted placement at an anchor that stands, and its own step
fails. -/
def StepFails (imagination : ImaginationEnvelope) (index : ℕ) (relation : ImaginationRelation)
    (code : UnresolvedConstraintCode) : Prop :=
  Accepts imagination.keys imagination.relations index ∧
    ∃ kind, ∃ entity ∈ imagination.entities, ∃ anchor transform,
      relation.placementKind = some kind ∧ relation.subject = entity.key ∧
      relation.related = anchor.key ∧ Stands imagination anchor transform ∧
      placedTranslation (entity.standing entity.initialTransform) (anchor.standing transform) kind =
        .error code

theorem placedTranslation_error {subject anchor : EntityPlan} {kind : PlacementKind}
    {code : UnresolvedConstraintCode} (h : placedTranslation subject anchor kind = .error code) :
    code = .unsupportedSpatialRotation ∨ code = .nonFinitePlacement := by
  simp only [placedTranslation] at h
  split at h
  · cases h
    exact .inl rfl
  · split at h <;> split at h <;> cases h <;> exact .inr rfl

theorem StepFails.code_ne {imagination : ImaginationEnvelope} {index : ℕ}
    {relation : ImaginationRelation} {code : UnresolvedConstraintCode}
    (h : StepFails imagination index relation code) :
    code ≠ .requiredEntityMissing ∧ code ≠ .requiredEntityPresent := by
  obtain ⟨-, kind, entity, -, anchor, transform, -, -, -, -, hcode⟩ := h
  rcases placedTranslation_error hcode with rfl | rfl <;> decide

/-! ### Settled plans stand -/

theorem placedTranslation_congr {subject subject' anchor anchor' : EntityPlan}
    {kind : PlacementKind} (hprimitive : subject.primitive = subject'.primitive)
    (htransform : subject.transform = subject'.transform)
    (hanchorPrimitive : anchor.primitive = anchor'.primitive)
    (hanchorTransform : anchor.transform = anchor'.transform) :
    placedTranslation subject anchor kind = placedTranslation subject' anchor' kind := by
  simp only [placedTranslation, hprimitive, htransform, hanchorPrimitive, hanchorTransform]

theorem ImaginationRelation.placement_eq_some {relation : ImaginationRelation}
    {relationIndex : UInt32} {placement : Placement} :
    relation.placement relationIndex = some placement ↔
      relation.placementKind = some placement.kind ∧ relation.related = placement.anchor ∧
        placement.relationIndex = relationIndex := by
  obtain ⟨index, anchor, kind⟩ := placement
  cases relation <;>
    simp [ImaginationRelation.placement, placementKind, related, eq_comm, and_comm, and_assoc]

structure PlanOf (imagination : ImaginationEnvelope) (plans : List EntityPlan) (index : ℕ)
    (entity : ImaginedEntity) (plan : EntityPlan) : Prop where
  planned : imagination.sortedEntities[index]? = some entity
  get : plans[index]? = some plan
  key : plan.key = entity.key
  primitive : plan.primitive = entity.primitive
  transform : plan.transform = entity.initialTransform

theorem PlanOf.mem {imagination : ImaginationEnvelope} {plans : List EntityPlan} {index : ℕ}
    {entity : ImaginedEntity} {plan : EntityPlan}
    (h : PlanOf imagination plans index entity plan) : entity ∈ imagination.entities :=
  ImaginationEnvelope.mem_sortedEntities.mp (List.mem_of_getElem? h.planned)

theorem PlanOf.primitive_settled {imagination : ImaginationEnvelope} {plans : List EntityPlan}
    {index : ℕ} {entity : ImaginedEntity} {plan plan' : EntityPlan}
    (h : PlanOf imagination plans index entity plan) (hsettled : Settled plans index plan') :
    plan'.primitive = entity.primitive := by
  obtain ⟨assigned, hassigned, hmoved⟩ := hsettled.eq_moved
  cases hassigned.symm.trans h.get
  rw [hmoved]
  exact h.primitive

section Standing

variable {imagination : ImaginationEnvelope} {scene : CompilationSceneView}
  {base plans : List EntityPlan} {decisions : List CompilationDecision} {index : ℕ}
  {plan : EntityPlan} {entity : ImaginedEntity}

variable (hplanned : Planned imagination scene base decisions)
  (hassigning : Assigning imagination.relations base imagination.relations.length plans)

include hplanned hassigning

theorem exists_planOf (hget : plans[index]? = some plan) :
    ∃ entity, PlanOf imagination plans index entity plan := by
  obtain ⟨planned, hplan, hby⟩ := hassigning.get hget
  obtain ⟨entity, hentity, heq⟩ := hplanned.get hplan
  obtain ⟨-, -, hprimitive, htransform, -⟩ := hby.kept
  refine ⟨entity, hentity, hget, ?_, ?_, ?_⟩
  · rw [hby.key, heq]
    rfl
  · rw [hprimitive, heq]
    rfl
  · rw [htransform, heq]
    rfl

theorem exists_planOf_entity (hmem : entity ∈ imagination.entities) :
    ∃ index plan, PlanOf imagination plans index entity plan := by
  rw [← ImaginationEnvelope.mem_sortedEntities] at hmem
  obtain ⟨index, hentity⟩ := List.mem_iff_getElem?.mp hmem
  have hlt : index < plans.length := by
    rw [hassigning.length_eq, hplanned.length_eq]
    exact (List.getElem?_eq_some_iff.mp hentity).1
  obtain ⟨entity', hplanOf⟩ :=
    exists_planOf hplanned hassigning (List.getElem?_eq_getElem hlt)
  cases hentity.symm.trans hplanOf.planned
  exact ⟨index, _, hplanOf⟩

theorem planOf_keyIndex {key : SceneText} (h : (keyIndex plans)[key]? = some index) :
    ∃ entity plan, PlanOf imagination plans index entity plan ∧ entity.key = key := by
  have hkeyed := (hassigning.linked_anchor hplanned.keyed hplanned.blank).keyed
  obtain ⟨plan, hget, rfl⟩ := hkeyed.getElem?_keyIndex.mp h
  obtain ⟨entity, hplanOf⟩ := exists_planOf hplanned hassigning hget
  exact ⟨entity, plan, hplanOf, hplanOf.key.symm⟩

theorem PlanOf.keyIndex (h : PlanOf imagination plans index entity plan) :
    (keyIndex plans)[entity.key]? = some index := by
  have hkeyed := (hassigning.linked_anchor hplanned.keyed hplanned.blank).keyed
  exact hkeyed.getElem?_keyIndex.mpr ⟨plan, h.get, h.key⟩

theorem PlanOf.placement_iff (h : PlanOf imagination plans index entity plan)
    {placement : Placement} :
    plan.placement = some placement ↔ ∃ position relation,
      Accepts imagination.keys imagination.relations position ∧
      imagination.relations[position]? = some relation ∧ relation.subject = entity.key ∧
      relation.placementKind = some placement.kind ∧ relation.related = placement.anchor ∧
      placement.relationIndex = relationPosition position := by
  rw [hassigning.placement_iff hplanned.blank (List.mem_of_getElem? h.get), hplanned.keys_eq, h.key]
  simp only [ImaginationRelation.placement_eq_some]

theorem Settled.stands {plan' : EntityPlan} (hsettled : Settled plans index plan') :
    ∀ {entity : ImaginedEntity} {plan : EntityPlan}, PlanOf imagination plans index entity plan →
      Stands imagination entity plan'.transform := by
  induction hsettled with
  | free hget hplacement =>
    intro entity plan hplanOf
    cases hget.symm.trans hplanOf.get
    rw [hplanOf.transform]
    refine .still hplanOf.mem ?_
    rintro anchor ⟨position, relation, haccepts, hrelation, hsubject, hanchor⟩
    obtain ⟨placement, hwritten, -⟩ :=
      ImaginationRelation.exists_placement hanchor (relationPosition position)
    have hplaced := (hplanOf.placement_iff hplanned hassigning).mpr
      ⟨position, relation, haccepts, hrelation, hsubject,
        ImaginationRelation.placement_eq_some.mp hwritten⟩
    cases hplacement.symm.trans hplaced
  | placed hget hplacement hanchor hsettled htranslation ih =>
    intro entity plan hplanOf
    cases hget.symm.trans hplanOf.get
    obtain ⟨position, relation, haccepts, hrelation, hsubject, hkind, hrelated, -⟩ :=
      (hplanOf.placement_iff hplanned hassigning).mp hplacement
    obtain ⟨anchor, anchorPlan, hanchorOf, hkey⟩ := planOf_keyIndex hplanned hassigning hanchor
    rw [EntityPlan.moved, hplanOf.transform]
    refine .placed hplanOf.mem hrelation haccepts hsubject (hrelated.trans hkey.symm) hkind
      (ih hanchorOf) (Eq.trans (placedTranslation_congr ?_ ?_ ?_ ?_) htranslation)
    · exact hplanOf.primitive.symm
    · exact hplanOf.transform.symm
    · exact (hanchorOf.primitive_settled hsettled).symm
    · rfl

theorem Stands.settled {transform : LocalTransform} (hstands : Stands imagination entity transform) :
    ∀ {index : ℕ} {plan : EntityPlan}, PlanOf imagination plans index entity plan →
      ∃ plan', Settled plans index plan' ∧ plan'.transform = transform := by
  induction hstands with
  | @still entity hmem hnone =>
    intro index plan hplanOf
    refine ⟨plan, .free hplanOf.get ?_, hplanOf.transform⟩
    by_contra hsome
    obtain ⟨placement, hplacement⟩ := Option.ne_none_iff_exists'.mp hsome
    obtain ⟨position, relation, haccepts, hrelation, hsubject, hwritten⟩ :=
      (hplanOf.placement_iff hplanned hassigning).mp hplacement
    have hanchor := ImaginationRelation.anchorKey_of_placement
      (ImaginationRelation.placement_eq_some.mpr hwritten)
    exact hnone _ ⟨position, relation, haccepts, hrelation, hsubject, hanchor.1⟩
  | @placed entity anchor position relation kind _ translation _ hrelation haccepts hsubject hrelated
      hkind hstands htranslation ih =>
    intro index plan hplanOf
    obtain ⟨anchorIndex, anchorPlan, hanchorOf⟩ :=
      exists_planOf_entity hplanned hassigning hstands.mem
    obtain ⟨anchorPlan', hsettled, htransform⟩ := ih hanchorOf
    have hplacement : plan.placement = some ⟨relationPosition position, relation.related, kind⟩ :=
      (hplanOf.placement_iff hplanned hassigning).mpr
        ⟨position, relation, haccepts, hrelation, hsubject, hkind, rfl, rfl⟩
    refine ⟨plan.moved translation, .placed hplanOf.get hplacement ?_ hsettled
      ((placedTranslation_congr ?_ ?_ ?_ ?_).trans htranslation), ?_⟩
    · rw [hrelated]
      exact hanchorOf.keyIndex hplanned hassigning
    · exact hplanOf.primitive
    · exact hplanOf.transform
    · exact hanchorOf.primitive_settled hsettled
    · exact htransform
    · rw [EntityPlan.moved, hplanOf.transform]

theorem StepFails.unsettled {position : ℕ} {relation : ImaginationRelation}
    {code : UnresolvedConstraintCode}
    (hrelation : imagination.relations[position]? = some relation)
    (h : StepFails imagination position relation code) :
    ∃ entity index plan, relation.subject = entity.key ∧
      PlanOf imagination plans index entity plan ∧
      Unsettled plans index (relation.issue position code) := by
  obtain ⟨haccepts, kind, entity, hmem, anchor, transform, hkind, hsubject, hrelated, hstands,
    hcode⟩ := h
  obtain ⟨index, plan, hplanOf⟩ := exists_planOf_entity hplanned hassigning hmem
  obtain ⟨anchorIndex, anchorPlan, hanchorOf⟩ :=
    exists_planOf_entity hplanned hassigning hstands.mem
  obtain ⟨anchorPlan', hsettled, htransform⟩ := hstands.settled hplanned hassigning hanchorOf
  have hplacement : plan.placement = some ⟨relationPosition position, relation.related, kind⟩ :=
    (hplanOf.placement_iff hplanned hassigning).mpr
      ⟨position, relation, haccepts, hrelation, hsubject, hkind, rfl, rfl⟩
  have hanchor : (keyIndex plans)[relation.related]? = some anchorIndex := by
    rw [hrelated]
    exact hanchorOf.keyIndex hplanned hassigning
  have hfails := Unsettled.fails hplanOf.get hplacement hanchor hsettled
    ((placedTranslation_congr hplanOf.primitive hplanOf.transform
      (hanchorOf.primitive_settled hsettled) htransform).trans hcode)
  rw [Placement.issue, hplanOf.key, ← hsubject] at hfails
  exact ⟨entity, index, plan, hsubject, hplanOf, hfails⟩

theorem Unsettled.stepFails {issue : UnresolvedConstraint} (h : Unsettled plans index issue) :
    ∃ position relation code, imagination.relations[position]? = some relation ∧
      StepFails imagination position relation code ∧ issue = relation.issue position code := by
  obtain ⟨index, anchorIndex, plan, anchorPlan, placement, code, hget, hplacement, hanchor,
    hsettled, hcode, rfl⟩ := h.exists_fails
  obtain ⟨entity, hplanOf⟩ := exists_planOf hplanned hassigning hget
  obtain ⟨position, relation, haccepts, hrelation, hsubject, hkind, hrelated, hposition⟩ :=
    (hplanOf.placement_iff hplanned hassigning).mp hplacement
  obtain ⟨anchor, assigned, hanchorOf, hkey⟩ := planOf_keyIndex hplanned hassigning hanchor
  refine ⟨position, relation, code, hrelation, ⟨haccepts, placement.kind, entity, hplanOf.mem,
    anchor, anchorPlan.transform, hkind, hsubject, hrelated.trans hkey.symm,
    hsettled.stands hplanned hassigning hanchorOf, ?_⟩, ?_⟩
  · refine Eq.trans (placedTranslation_congr ?_ ?_ ?_ ?_) hcode
    · exact hplanOf.primitive.symm
    · exact hplanOf.transform.symm
    · exact (hanchorOf.primitive_settled hsettled).symm
    · rfl
  · rw [Placement.issue, ImaginationRelation.issue, hposition, hplanOf.key, hsubject, hrelated]

theorem StepFails.unique {position : ℕ} {relation : ImaginationRelation}
    {code code' : UnresolvedConstraintCode}
    (hrelation : imagination.relations[position]? = some relation)
    (h : StepFails imagination position relation code)
    (h' : StepFails imagination position relation code') : code = code' := by
  obtain ⟨entity, index, plan, hsubject, hplanOf, hunsettled⟩ :=
    h.unsettled hplanned hassigning hrelation
  obtain ⟨entity', index', plan', hsubject', hplanOf', hunsettled'⟩ :=
    h'.unsettled hplanned hassigning hrelation
  have hindex := hplanOf.keyIndex hplanned hassigning
  rw [← hsubject, hsubject', hplanOf'.keyIndex hplanned hassigning] at hindex
  cases hindex
  exact congrArg UnresolvedConstraint.code (hunsettled.unique hunsettled')

end Standing

/-! ### The report -/

section Entries

variable {imagination : ImaginationEnvelope} {scene : CompilationSceneView}
  {why : ℕ → ImaginationRelation → UnresolvedConstraintCode → Prop}
  {entries : List UnresolvedConstraint}

structure Entries (imagination : ImaginationEnvelope) (scene : CompilationSceneView)
    (why : ℕ → ImaginationRelation → UnresolvedConstraintCode → Prop)
    (entries : List UnresolvedConstraint) : Prop where
  sound : ∀ entry ∈ entries, entry ∈ checkSceneConstraints imagination scene ∨
    ∃ index relation code, imagination.relations[index]? = some relation ∧
      why index relation code ∧ entry = relation.issue index code
  constraints : ∀ entry ∈ checkSceneConstraints imagination scene, entry ∈ entries
  relations : ∀ index relation code, imagination.relations[index]? = some relation →
    why index relation code → ∃ entry ∈ entries, entry.relationIndex = some (relationPosition index)
  code : ∀ index relation code, why index relation code →
    code ≠ .requiredEntityMissing ∧ code ≠ .requiredEntityPresent
  unique : ∀ index relation code code', imagination.relations[index]? = some relation →
    why index relation code → why index relation code' → code = code'

variable (hrelations : imagination.relations.length < 2 ^ 29)
  (hconstraints : imagination.constraints.length < 2 ^ 29)

include hrelations in
theorem Entries.of_relationIndex (h : Entries imagination scene why entries)
    {entry : UnresolvedConstraint} (hentry : entry ∈ entries) {position : UInt32}
    (hposition : entry.relationIndex = some position) :
    ∃ index relation code, index < 2 ^ 29 ∧ imagination.relations[index]? = some relation ∧
      why index relation code ∧ entry = relation.issue index code ∧ position = .ofNat index := by
  rcases h.sound entry hentry with hunmet | ⟨index, relation, code, hget, hwhy, rfl⟩
  · obtain ⟨index, constraint, -, hcheck⟩ := mem_checkSceneConstraints.mp hunmet
    rw [(checkSceneConstraint_position hcheck).1] at hposition
    cases hposition
  · have hlt : index < 2 ^ 29 := (List.getElem?_eq_some_iff.mp hget).1.trans hrelations
    cases hposition
    exact ⟨index, relation, code, hlt, hget, hwhy, rfl, relationPosition_eq hlt⟩

include hconstraints in
theorem Entries.of_constraintIndex (h : Entries imagination scene why entries)
    {entry : UnresolvedConstraint} (hentry : entry ∈ entries) {position : UInt32}
    (hposition : entry.constraintIndex = some position) :
    ∃ index constraint, index < 2 ^ 29 ∧ imagination.constraints[index]? = some constraint ∧
      checkSceneConstraint scene index constraint = some entry ∧ position = .ofNat index := by
  rcases h.sound entry hentry with hunmet | ⟨index, relation, code, hget, hwhy, rfl⟩
  · obtain ⟨index, constraint, hget, hcheck⟩ := mem_checkSceneConstraints.mp hunmet
    have hlt : index < 2 ^ 29 := (List.getElem?_eq_some_iff.mp hget).1.trans hconstraints
    rw [(checkSceneConstraint_position hcheck).2, relationPosition_eq hlt] at hposition
    exact ⟨index, constraint, hlt, hget, hcheck, (Option.some.inj hposition).symm⟩
  · cases hposition

variable {report : List UnresolvedConstraint} (hmem : ∀ entry, entry ∈ report ↔ entry ∈ entries)
  (hnodup : report.Nodup)

include hrelations hmem hnodup in
theorem Entries.nodup_relations (h : Entries imagination scene why entries) :
    (report.filterMap (·.relationIndex)).Nodup := by
  refine List.pairwise_filterMap.mpr (List.Pairwise.imp_of_mem ?_ hnodup)
  rintro entry entry' hentry hentry' hne position hposition _ hposition' rfl
  obtain ⟨index, relation, code, hlt, hget, hwhy, rfl, hindex⟩ :=
    h.of_relationIndex hrelations ((hmem entry).mp hentry) hposition
  obtain ⟨index', relation', code', hlt', hget', hwhy', rfl, hindex'⟩ :=
    h.of_relationIndex hrelations ((hmem entry').mp hentry') hposition'
  obtain rfl := ofNat_injOn hlt hlt' (hindex.symm.trans hindex')
  cases hget.symm.trans hget'
  exact hne (by rw [h.unique index relation code code' hget hwhy hwhy'])

include hconstraints hmem hnodup in
theorem Entries.nodup_constraints (h : Entries imagination scene why entries) :
    (report.filterMap (·.constraintIndex)).Nodup := by
  refine List.pairwise_filterMap.mpr (List.Pairwise.imp_of_mem ?_ hnodup)
  rintro entry entry' hentry hentry' hne position hposition _ hposition' rfl
  obtain ⟨index, constraint, hlt, hget, hcheck, hindex⟩ :=
    h.of_constraintIndex hconstraints ((hmem entry).mp hentry) hposition
  obtain ⟨index', constraint', hlt', hget', hcheck', hindex'⟩ :=
    h.of_constraintIndex hconstraints ((hmem entry').mp hentry') hposition'
  obtain rfl := ofNat_injOn hlt hlt' (hindex.symm.trans hindex')
  cases hget.symm.trans hget'
  exact hne (Option.some.inj (hcheck.symm.trans hcheck'))

include hrelations hmem in
theorem Entries.mem_relations (h : Entries imagination scene why entries) {index : ℕ}
    {relation : ImaginationRelation} (hget : imagination.relations[index]? = some relation) :
    UInt32.ofNat index ∈ report.filterMap (·.relationIndex) ↔ ∃ code, why index relation code := by
  have hlt : index < 2 ^ 29 := (List.getElem?_eq_some_iff.mp hget).1.trans hrelations
  rw [List.mem_filterMap]
  constructor
  · rintro ⟨entry, hentry, hposition⟩
    obtain ⟨index', relation', code, hlt', hget', hwhy, -, hindex⟩ :=
      h.of_relationIndex hrelations ((hmem entry).mp hentry) hposition
    obtain rfl := ofNat_injOn hlt hlt' hindex
    cases hget.symm.trans hget'
    exact ⟨code, hwhy⟩
  · rintro ⟨code, hwhy⟩
    obtain ⟨entry, hentry, hposition⟩ := h.relations index relation code hget hwhy
    rw [relationPosition_eq hlt] at hposition
    exact ⟨entry, (hmem entry).mpr hentry, hposition⟩

include hconstraints hmem in
theorem Entries.mem_constraints (h : Entries imagination scene why entries) {index : ℕ}
    {constraint : ImaginationConstraint}
    (hget : imagination.constraints[index]? = some constraint) :
    UInt32.ofNat index ∈ report.filterMap (·.constraintIndex) ↔ constraint.Violated scene := by
  have hlt : index < 2 ^ 29 := (List.getElem?_eq_some_iff.mp hget).1.trans hconstraints
  rw [List.mem_filterMap, ← @checkSceneConstraint_isSome scene index]
  constructor
  · rintro ⟨entry, hentry, hposition⟩
    obtain ⟨index', constraint', hlt', hget', hcheck, hindex⟩ :=
      h.of_constraintIndex hconstraints ((hmem entry).mp hentry) hposition
    obtain rfl := ofNat_injOn hlt hlt' hindex
    cases hget.symm.trans hget'
    exact ⟨entry, hcheck⟩
  · rintro ⟨entry, hcheck⟩
    have hposition := (checkSceneConstraint_position hcheck).2
    rw [relationPosition_eq hlt] at hposition
    exact ⟨entry, (hmem entry).mpr (h.constraints entry (mem_checkSceneConstraints.mpr
      ⟨index, constraint, hget, hcheck⟩)), hposition⟩

end Entries

structure ExactReport (imagination : ImaginationEnvelope) (scene : CompilationSceneView)
    (result : CompilationResult) : Prop where
  /-- A relation is reported when it is faulty or, if nothing else is unresolved, its step fails. -/
  relation : ∀ index relation, imagination.relations[index]? = some relation →
    (UInt32.ofNat index ∈ result.unresolved.filterMap (·.relationIndex) ↔
      imagination.Faulty index relation ∨
        imagination.Clean scene ∧ ∃ code, StepFails imagination index relation code)
  relations_nodup : (result.unresolved.filterMap (·.relationIndex)).Nodup
  constraint : ∀ index constraint, imagination.constraints[index]? = some constraint →
    (UInt32.ofNat index ∈ result.unresolved.filterMap (·.constraintIndex) ↔
      constraint.Violated scene)
  constraints_nodup : (result.unresolved.filterMap (·.constraintIndex)).Nodup
  entry : ∀ entry ∈ result.unresolved,
    (∃ index < imagination.relations.length, entry.relationIndex = some (.ofNat index) ∧
      entry.constraintIndex = none) ∨
    ∃ index < imagination.constraints.length, entry.constraintIndex = some (.ofNat index) ∧
      entry.relationIndex = none
  patch : result.patch.isSome ↔ result.unresolved = []

section Exact

variable {imagination : ImaginationEnvelope} {scene : CompilationSceneView}
  {base plans : List EntityPlan} {decisions : List CompilationDecision}

def Explains (imagination : ImaginationEnvelope) (scene : CompilationSceneView)
    (why : ℕ → ImaginationRelation → UnresolvedConstraintCode → Prop) : Prop :=
  ∀ index relation, imagination.relations[index]? = some relation →
    ((∃ code, why index relation code) ↔ imagination.Faulty index relation ∨
      imagination.Clean scene ∧ ∃ code, StepFails imagination index relation code)

theorem Faults.clean (h : Faults imagination.keys imagination.relations
    (checkSceneConstraints imagination scene) []) : imagination.Clean scene := by
  refine ⟨fun index relation hget hfaulty => ?_, fun constraint hconstraint hviolated => ?_⟩
  · obtain ⟨code, hfault⟩ := (ImaginationEnvelope.faulty_iff hget).mp hfaulty
    exact h.not_fault hget hfault
  · obtain ⟨index, hget⟩ := List.mem_iff_getElem?.mp hconstraint
    obtain ⟨entry, hcheck⟩ := (@checkSceneConstraint_isSome scene index constraint).mpr hviolated
    cases h.kept entry (mem_checkSceneConstraints.mpr ⟨index, constraint, hget, hcheck⟩)

theorem Faults.explains (h : Faults imagination.keys imagination.relations
    (checkSceneConstraints imagination scene) []) :
    Explains imagination scene (StepFails imagination) := by
  intro index relation hget
  constructor
  · intro hfails
    exact .inr ⟨h.clean, hfails⟩
  · rintro (hfaulty | ⟨-, hfails⟩)
    · exact absurd hfaulty (h.clean.1 index relation hget)
    · exact hfails

theorem Analysed.entries (hplanned : Planned imagination scene base decisions)
    {analysis : Analysis} (h : Analysed imagination scene base decisions analysis) :
    ∃ why, Entries imagination scene why analysis.unresolved ∧ Explains imagination scene why := by
  cases h with
  | @faulty _ entries _ hfaults hne =>
    refine ⟨Fault imagination.keys imagination.relations, ⟨hfaults.sound, hfaults.kept,
      hfaults.complete, fun index relation code hfault => hfault.code_ne,
      fun index relation code code' hget hfault hfault' => hfault.unique hget hfault'⟩,
      fun index relation hget => ?_⟩
    rw [ImaginationEnvelope.faulty_iff hget]
    constructor
    · exact .inl
    · rintro (hfault | ⟨hclean, -⟩)
      · exact hfault
      · -- There is an entry, and whatever it is for is not clean.
        obtain ⟨entry, hentry⟩ := List.exists_mem_of_ne_nil entries hne
        rcases hfaults.sound entry hentry with hunmet | ⟨index, relation, code, hget, hfault, -⟩
        · obtain ⟨index, constraint, hget, hcheck⟩ := mem_checkSceneConstraints.mp hunmet
          exact absurd (checkSceneConstraint_isSome.mp ⟨entry, hcheck⟩)
            (hclean.2 constraint (List.mem_of_getElem? hget))
        · exact absurd ((ImaginationEnvelope.faulty_iff hget).mpr ⟨code, hfault⟩)
            (hclean.1 index relation hget)
  | @placed plans final issues hassigning hfaults _ hsound hsettled =>
    refine ⟨StepFails imagination, ⟨fun issue hissue => ?_, fun entry hentry => ?_,
      fun index relation code hget hfails => ?_, fun index relation code hfails => hfails.code_ne,
      fun index relation code code' hget hfails => hfails.unique hplanned hassigning hget⟩,
      hfaults.explains⟩
    · obtain ⟨index, hunsettled⟩ := hsound issue hissue
      exact .inr (hunsettled.stepFails hplanned hassigning)
    · cases hfaults.kept entry hentry
    · obtain ⟨entity, position, plan, -, hplanOf, hunsettled⟩ :=
        hfails.unsettled hplanned hassigning hget
      rcases hsettled position (List.getElem?_eq_some_iff.mp hplanOf.get).1 with
        ⟨plan', -, hdone⟩ | ⟨issue, hissue, hunsettled'⟩
      · exact absurd hdone hunsettled.not_settled
      · exact ⟨issue, hissue, by rw [← hunsettled.unique hunsettled']; rfl⟩

theorem Entries.exactReport {why : ℕ → ImaginationRelation → UnresolvedConstraintCode → Prop}
    {entries : List UnresolvedConstraint} {result : CompilationResult}
    (h : Entries imagination scene why entries) (hwhy : Explains imagination scene why)
    (hrelations : imagination.relations.length < 2 ^ 29)
    (hconstraints : imagination.constraints.length < 2 ^ 29)
    (hmem : ∀ entry, entry ∈ result.unresolved ↔ entry ∈ entries)
    (hnodup : result.unresolved.Nodup) (hpatch : result.patch.isSome ↔ result.unresolved = []) :
    ExactReport imagination scene result where
  relation index relation hget :=
    (h.mem_relations hrelations hmem hget).trans (hwhy index relation hget)
  relations_nodup := h.nodup_relations hrelations hmem hnodup
  constraint _ _ hget := h.mem_constraints hconstraints hmem hget
  constraints_nodup := h.nodup_constraints hconstraints hmem hnodup
  entry entry hentry := by
    rcases h.sound entry ((hmem entry).mp hentry) with
      hunmet | ⟨index, relation, code, hget, -, rfl⟩
    · obtain ⟨index, constraint, hget, hcheck⟩ := mem_checkSceneConstraints.mp hunmet
      obtain ⟨hrelation, hposition⟩ := checkSceneConstraint_position hcheck
      have hlt := (List.getElem?_eq_some_iff.mp hget).1
      exact .inr ⟨index, hlt,
        by rw [hposition, relationPosition_eq (hlt.trans hconstraints)], hrelation⟩
    · have hlt := (List.getElem?_eq_some_iff.mp hget).1
      refine .inl ⟨index, hlt, ?_, rfl⟩
      rw [← relationPosition_eq (hlt.trans hrelations)]
      rfl
  patch := hpatch

theorem Analysed.exactReport (hplanned : Planned imagination scene base decisions)
    {analysis : Analysis} (h : Analysed imagination scene base decisions analysis)
    (hrelations : imagination.relations.length < 2 ^ 29)
    (hconstraints : imagination.constraints.length < 2 ^ 29) :
    ExactReport imagination scene (completed imagination scene analysis) := by
  obtain ⟨why, hentries, hwhy⟩ := h.entries hplanned
  refine hentries.exactReport hwhy hrelations hconstraints (fun entry => ?_) ?_ ?_
  · exact mem_unresolved_completed
  · exact (pairwise_unresolved_completed imagination scene analysis).imp
      UnresolvedConstraint.ne_of_lt
  · rw [completed]
    split
    · exact iff_of_true rfl rfl
    · rename_i hne
      obtain ⟨entry, hentry⟩ := List.exists_mem_of_ne_nil _ hne
      refine iff_of_false Bool.false_ne_true fun hnil => ?_
      exact List.eq_nil_iff_forall_not_mem.mp hnil entry
        ((Sorting.mem_dedup_sort UnresolvedConstraint.eq_of_canonicalCmp).mpr hentry)

end Exact

namespace CompilerConfig

variable {sha256 : List UInt8 → Digest} {serde : SerdeWriter CompilationResult}
  {config : CompilerConfig} {imagination : ImaginationEnvelope} {scene : CompilationSceneView}

/-- **The report is exact**, and compilation returns whatever the relations are. -/
theorem compile_reports_exactly (hrelations : imagination.relations.length < 2 ^ 29)
    (hconstraints : imagination.constraints.length < 2 ^ 29) :
    (config.compile sha256 serde imagination scene).Returns ∧
      ∀ result, config.compile sha256 serde imagination scene = .ok result →
        ExactReport imagination scene result := by
  refine ⟨compile_returns, fun result h => ?_⟩
  obtain ⟨base, decisions, analysis, -, -, hplanned, hanalysed, -, rfl⟩ := compile_eq_ok h
  exact hanalysed.exactReport hplanned hrelations hconstraints

theorem compile_reports_exactly_conflict :
    ∃ imagination result, (CompilerConfig.new .default).compile (fun _ => .replicate 32 0)
        (CompilationResult.serde sampleFloats) imagination ⟨.initial, ∅⟩ = .ok result ∧
      result.unresolved.length = 2 ∧ ExactReport imagination ⟨.initial, ∅⟩ result := by
  let imagination : ImaginationEnvelope := { sampleImagination with
    relations := sampleImagination.relations ++
      [.parent ⟨"c", by decide, by decide⟩ ⟨"b", by decide, by decide⟩,
        .parent ⟨"a", by decide, by decide⟩ ⟨"a", by decide, by decide⟩] }
  obtain ⟨result, hresult, hlength⟩ := Exec.exists_ok_of_any
    (x := (CompilerConfig.new .default).compile (fun _ => .replicate 32 0)
      (CompilationResult.serde sampleFloats) imagination ⟨.initial, ∅⟩)
    (p := fun result => result.unresolved.length = 2) (by decide +kernel)
  exact ⟨imagination, result, hresult, of_decide_eq_true hlength,
    (compile_reports_exactly (by decide) (by decide)).2 result hresult⟩

end CompilerConfig

end Cogniform
