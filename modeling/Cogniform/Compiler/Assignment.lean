import Cogniform.Compiler.Plans

/-!
# Assigning relations

Relations are taken in the order of the request, and the first one that a subject can take is the
one it has. `Accepts` says this without the plans, by recursion on the position. After the pass
every plan is as it was planned or holds the accepted relation of its key; the others are reported,
once each.
-/

namespace Cogniform

namespace ImaginationRelation

def subject : ImaginationRelation → SceneText
  | .parent key _ | .above key _ _ | .rightOf key _ _ => key

def related : ImaginationRelation → SceneText
  | .parent _ key | .above _ key _ | .rightOf _ key _ => key

def assign (relation : ImaginationRelation) (relationIndex : UInt32) (plan : EntityPlan) :
    EntityPlan :=
  match relation with
  | .parent _ key => { plan with parent := some key, parentRelation := some relationIndex }
  | .above _ key clearance =>
    { plan with placement := some ⟨relationIndex, key, .above clearance.get⟩ }
  | .rightOf _ key gap => { plan with placement := some ⟨relationIndex, key, .rightOf gap.get⟩ }

def refusal (relation : ImaginationRelation) (keys : List SceneText) : UnresolvedConstraintCode :=
  if relation.subject ∉ keys ∨ relation.related ∉ keys then .unknownEntityReference
  else if relation.subject = relation.related then .selfRelation
  else .conflictingRelation

@[simp] theorem key_assign (relation : ImaginationRelation) (relationIndex : UInt32)
    (plan : EntityPlan) : (relation.assign relationIndex plan).key = plan.key := by
  cases relation <;> rfl

end ImaginationRelation

def relationPosition (index : ℕ) : UInt32 := .ofNat (count index)

theorem assignRelation_eq (positions : Std.ExtTreeMap SceneText ℕ)
    (state : List EntityPlan × List UnresolvedConstraint) (relation : ImaginationRelation)
    (index : ℕ) :
    assignRelation positions state (relation, index) =
      assignTo positions (relationPosition index) relation.subject relation.related
        (relation.assign (relationPosition index)) state := by
  cases relation <;> rfl

/-! ### Acceptance -/

/-- The relation at a position is accepted: its keys are known and differ, and no earlier accepted
relation has its subject. -/
def Accepts (keys : List SceneText) (relations : List ImaginationRelation) (index : ℕ) : Prop :=
  ∃ relation, relations[index]? = some relation ∧ relation.subject ∈ keys ∧
    relation.related ∈ keys ∧ relation.subject ≠ relation.related ∧
    ∀ earlier, earlier < index → Accepts keys relations earlier →
      ∀ other, relations[earlier]? = some other → other.subject ≠ relation.subject
termination_by index

section Accepts

variable {keys : List SceneText} {relations : List ImaginationRelation} {index other : ℕ}
  {relation relation' : ImaginationRelation}

theorem accepts_iff (hget : relations[index]? = some relation) :
    Accepts keys relations index ↔ relation.subject ∈ keys ∧ relation.related ∈ keys ∧
      relation.subject ≠ relation.related ∧
      ∀ earlier, earlier < index → Accepts keys relations earlier →
        ∀ other, relations[earlier]? = some other → other.subject ≠ relation.subject := by
  rw [Accepts]
  constructor
  · rintro ⟨relation', hget', h⟩
    obtain rfl := Option.some.inj (hget.symm.trans hget')
    exact h
  · intro h
    exact ⟨relation, hget, h⟩

theorem Accepts.unique (h : Accepts keys relations index) (h' : Accepts keys relations other)
    (hget : relations[index]? = some relation) (hget' : relations[other]? = some relation')
    (hsubject : relation.subject = relation'.subject) : index = other := by
  obtain ⟨-, -, -, hearlier⟩ := (accepts_iff hget).mp h
  obtain ⟨-, -, -, hearlier'⟩ := (accepts_iff hget').mp h'
  rcases Nat.lt_trichotomy index other with hlt | heq | hgt
  · exact absurd hsubject (hearlier' index hlt h relation hget)
  · exact heq
  · exact absurd hsubject.symm (hearlier other hgt h' relation' hget')

end Accepts

/-- What assignment makes of a plan: nothing if none of the accepted relations has its key, else it
writes the one that has. -/
inductive AssignedBy (keys : List SceneText) (relations : List ImaginationRelation)
    (considered : ℕ) (plan : EntityPlan) : EntityPlan → Prop where
  | free
      (h : ∀ index < considered, Accepts keys relations index →
        ∀ relation, relations[index]? = some relation → relation.subject ≠ plan.key) :
      AssignedBy keys relations considered plan plan
  | taken {index : ℕ} {relation : ImaginationRelation} (hlt : index < considered)
      (haccepts : Accepts keys relations index) (hget : relations[index]? = some relation)
      (hsubject : relation.subject = plan.key) :
      AssignedBy keys relations considered plan (relation.assign (relationPosition index) plan)

open Classical in
noncomputable def rejection (keys : List SceneText) (relations : List ImaginationRelation)
    (index : ℕ) : Option UnresolvedConstraint :=
  if Accepts keys relations index then none
  else relations[index]?.map fun relation =>
    relationIssue (relation.refusal keys) (relationPosition index) relation.subject
      relation.related

noncomputable def rejections (keys : List SceneText) (relations : List ImaginationRelation)
    (considered : ℕ) : List UnresolvedConstraint :=
  (List.range considered).filterMap (rejection keys relations)

def EntityPlan.Blank (plan : EntityPlan) : Prop :=
  plan.parent = none ∧ plan.parentRelation = none ∧ plan.placement = none

structure Assigning (relations : List ImaginationRelation) (base : List EntityPlan)
    (considered : ℕ) (plans : List EntityPlan) : Prop where
  length_eq : plans.length = base.length
  assigned : ∀ (index : ℕ) plan, base[index]? = some plan → ∃ plan', plans[index]? = some plan' ∧
    AssignedBy (base.map EntityPlan.key) relations considered plan plan'

section Assign

variable {keys : List SceneText} {relations : List ImaginationRelation}
  {base plans : List EntityPlan} {considered : ℕ} {plan plan' : EntityPlan}
  {relation : ImaginationRelation}

theorem AssignedBy.key (h : AssignedBy keys relations considered plan plan') :
    plan'.key = plan.key := by
  cases h with
  | free => rfl
  | taken _ _ _ _ => exact ImaginationRelation.key_assign ..

theorem AssignedBy.isSome_iff (hblank : plan.Blank)
    (h : AssignedBy keys relations considered plan plan') :
    (plan'.parent.isSome ∨ plan'.placement.isSome) ↔
      ∃ index < considered, Accepts keys relations index ∧
        ∃ relation, relations[index]? = some relation ∧ relation.subject = plan.key := by
  cases h with
  | free hfree =>
    refine iff_of_false ?_ ?_
    · simp [hblank.1, hblank.2.2]
    · rintro ⟨index, hlt, haccepts, relation, hget, hsubject⟩
      exact hfree index hlt haccepts relation hget hsubject
  | @taken index relation hlt haccepts hget hsubject =>
    refine iff_of_true ?_ ⟨index, hlt, haccepts, relation, hget, hsubject⟩
    cases relation <;> simp [ImaginationRelation.assign]

theorem AssignedBy.succ (h : AssignedBy keys relations considered plan plan')
    (hother : Accepts keys relations considered → ∀ relation,
      relations[considered]? = some relation → relation.subject ≠ plan.key) :
    AssignedBy keys relations (considered + 1) plan plan' := by
  cases h with
  | free hfree =>
    refine .free fun index hlt haccepts relation hget => ?_
    rcases Nat.lt_succ_iff_lt_or_eq.mp hlt with hlt | rfl
    · exact hfree index hlt haccepts relation hget
    · exact hother haccepts relation hget
  | taken hlt haccepts hget hsubject =>
    exact .taken (Nat.lt_succ_of_lt hlt) haccepts hget hsubject

theorem rejections_succ :
    rejections keys relations (considered + 1) = rejections keys relations considered ++
      (rejection keys relations considered).toList := by
  rw [rejections, List.range_succ, List.filterMap_append, rejections]
  cases h : rejection keys relations considered <;> simp [h]

theorem Assigning.refused (h : Assigning relations base considered plans)
    (hget : relations[considered]? = some relation)
    (hrefused : ¬ Accepts (base.map EntityPlan.key) relations considered) :
    Assigning relations base (considered + 1) plans ∧
      (rejection (base.map EntityPlan.key) relations considered).toList =
        [relationIssue (relation.refusal (base.map EntityPlan.key)) (relationPosition considered)
          relation.subject relation.related] := by
  refine ⟨⟨h.length_eq, fun index plan hplan => ?_⟩, ?_⟩
  · obtain ⟨plan', hplan', hassigned⟩ := h.assigned index plan hplan
    exact ⟨plan', hplan', hassigned.succ fun haccepts => absurd haccepts hrefused⟩
  · rw [rejection, if_neg hrefused, hget]
    rfl

theorem Assigning.accepted (hkeyed : Keyed base) (h : Assigning relations base considered plans)
    (hget : relations[considered]? = some relation)
    (haccepts : Accepts (base.map EntityPlan.key) relations considered) {index : ℕ}
    (hplan : base[index]? = some plan) (hsubject : relation.subject = plan.key) :
    Assigning relations base (considered + 1)
      (plans.set index (relation.assign (relationPosition considered) plan)) := by
  refine ⟨by rw [List.length_set, h.length_eq], fun other plan' hplan' => ?_⟩
  obtain ⟨current, hcurrent, hassigned⟩ := h.assigned other plan' hplan'
  rcases eq_or_ne index other with rfl | hne
  · obtain rfl := Option.some.inj (hplan.symm.trans hplan')
    refine ⟨_, ?_, .taken (Nat.lt_succ_self _) haccepts hget hsubject⟩
    rw [List.getElem?_set_self (List.getElem?_eq_some_iff.mp hcurrent).1]
  · refine ⟨current, by rw [List.getElem?_set_ne hne]; exact hcurrent, hassigned.succ ?_⟩
    intro _ relation' hget' hsubject'
    obtain rfl := Option.some.inj (hget.symm.trans hget')
    -- Two positions with the same key.
    have hindex := hkeyed.getElem?_keyIndex.mpr ⟨plan, hplan, rfl⟩
    have hother := hkeyed.getElem?_keyIndex.mpr ⟨plan', hplan', hsubject'.symm.trans hsubject⟩
    exact hne (Option.some.inj (hindex.symm.trans hother))

theorem Assigning.step (hkeyed : Keyed base) (hblank : ∀ plan ∈ base, plan.Blank)
    (h : Assigning relations base considered plans)
    (hget : relations[considered]? = some relation) (issues : List UnresolvedConstraint) :
    ∃ plans', assignRelation (keyIndex base) (plans, issues) (relation, considered) =
        .ok (plans', issues ++ (rejection (base.map EntityPlan.key) relations considered).toList) ∧
      Assigning relations base (considered + 1) plans' := by
  rw [assignRelation_eq, assignTo]
  have hiff := @accepts_iff (base.map EntityPlan.key) _ _ _ hget
  -- The four ways to be refused have one ending.
  have hrefuse : ∀ code, relation.refusal (base.map EntityPlan.key) = code →
      ¬ Accepts (base.map EntityPlan.key) relations considered →
      ∃ plans', (Except.ok (plans, issues ++ [relationIssue code (relationPosition considered)
          relation.subject relation.related]) : Exec CompileError _) =
          .ok (plans', issues ++ (rejection (base.map EntityPlan.key) relations
            considered).toList) ∧
        Assigning relations base (considered + 1) plans' := by
    rintro code rfl hrefused
    obtain ⟨hassigning, hrejection⟩ := h.refused hget hrefused
    exact ⟨plans, by rw [hrejection], hassigning⟩
  cases hposition : (keyIndex base)[relation.subject]? with
  | none =>
    have hunknown : relation.subject ∉ base.map EntityPlan.key := fun hmem =>
      TreeMap.not_mem_iff.mpr hposition (hkeyed.mem_keyIndex.mpr hmem)
    exact hrefuse .unknownEntityReference (if_pos (.inl hunknown)) fun haccepts =>
      hunknown (hiff.mp haccepts).1
  | some index =>
    obtain ⟨plan, hplan, hkey⟩ := hkeyed.getElem?_keyIndex.mp hposition
    have hsubject : relation.subject ∈ base.map EntityPlan.key :=
      List.mem_map.mpr ⟨plan, List.mem_of_getElem? hplan, hkey⟩
    dsimp only
    split
    · rename_i hunknown
      rw [hkeyed.mem_keyIndex] at hunknown
      exact hrefuse .unknownEntityReference (if_pos (.inr hunknown)) fun haccepts =>
        hunknown (hiff.mp haccepts).2.1
    rename_i hrelated
    rw [not_not, hkeyed.mem_keyIndex] at hrelated
    have hboth : ¬ (relation.subject ∉ base.map EntityPlan.key ∨
        relation.related ∉ base.map EntityPlan.key) := by
      rintro (hnot | hnot)
      exacts [hnot hsubject, hnot hrelated]
    split
    · rename_i hself
      exact hrefuse .selfRelation (by rw [ImaginationRelation.refusal, if_neg hboth, if_pos hself])
        fun haccepts => (hiff.mp haccepts).2.2.1 hself
    rename_i hdiffer
    obtain ⟨current, hcurrent, hassigned⟩ := h.assigned index plan hplan
    have htaken := hassigned.isSome_iff (hblank plan (List.mem_of_getElem? hplan))
    rw [planAt, hcurrent, Exec.expect_some, Exec.ok_bind]
    split
    · rename_i hsome
      obtain ⟨earlier, hlt, haccepts, other, hother, hotherSubject⟩ := htaken.mp hsome
      exact hrefuse .conflictingRelation
        (by rw [ImaginationRelation.refusal, if_neg hboth, if_neg hdiffer])
        fun haccepted => (hiff.mp haccepted).2.2.2 earlier hlt haccepts other hother
          (hotherSubject.trans hkey)
    · rename_i hnone
      have haccepts : Accepts (base.map EntityPlan.key) relations considered := by
        refine hiff.mpr ⟨hsubject, hrelated, hdiffer, ?_⟩
        intro earlier hlt haccepted other hother hotherSubject
        exact hnone (htaken.mpr
          ⟨earlier, hlt, haccepted, other, hother, hotherSubject.trans hkey.symm⟩)
      have hcurrentPlan : current = plan := by
        cases hassigned with
        | free => rfl
        | taken hlt haccepted hother hotherSubject =>
          exact absurd (htaken.mpr ⟨_, hlt, haccepted, _, hother, hotherSubject⟩) hnone
      rw [hcurrentPlan]
      refine ⟨_, ?_, h.accepted hkeyed hget haccepts hplan hkey.symm⟩
      rw [rejection, if_pos haccepts, Option.toList_none, List.append_nil]

/-- **All relations.** The pass succeeds; the plans hold what was accepted, and the rest is
reported. -/
theorem assignRelations_eq (hkeyed : Keyed base) (hblank : ∀ plan ∈ base, plan.Blank)
    (unmet : List UnresolvedConstraint) :
    ∃ plans, assignRelations relations (keyIndex base) base unmet =
        .ok (plans, unmet ++ rejections (base.map EntityPlan.key) relations relations.length) ∧
      Assigning relations base relations.length plans := by
  have hrun : ∀ (rest done : List ImaginationRelation) (plans : List EntityPlan),
      relations = done ++ rest → Assigning relations base done.length plans →
      ∃ plans', (rest.zipIdx done.length).foldlM (assignRelation (keyIndex base))
          (plans, unmet ++ rejections (base.map EntityPlan.key) relations done.length) =
          .ok (plans', unmet ++ rejections (base.map EntityPlan.key) relations
            relations.length) ∧
        Assigning relations base relations.length plans' := by
    intro rest
    induction rest with
    | nil =>
      intro done plans hsplit h
      rw [List.append_nil] at hsplit
      subst hsplit
      exact ⟨plans, rfl, h⟩
    | cons relation rest ih =>
      intro done plans hsplit h
      have hget : relations[done.length]? = some relation := by
        rw [hsplit]
        simp
      obtain ⟨plans', hstep, h'⟩ := h.step hkeyed hblank hget
        (unmet ++ rejections (base.map EntityPlan.key) relations done.length)
      rw [List.append_assoc, ← rejections_succ] at hstep
      obtain ⟨final, hfinal, hassigning⟩ := ih (done ++ [relation]) plans'
        (by rw [hsplit, List.append_assoc, List.singleton_append])
        (by rw [List.length_append, List.length_singleton]; exact h')
      rw [List.length_append, List.length_singleton] at hfinal
      refine ⟨final, ?_, hassigning⟩
      rw [List.zipIdx_cons, List.foldlM_cons, hstep]
      exact hfinal
  have hstart : Assigning relations base 0 base :=
    ⟨rfl, fun index plan hplan => ⟨plan, hplan, .free fun index hlt => absurd hlt (Nat.not_lt_zero _)⟩⟩
  obtain ⟨plans, hplans, hassigning⟩ := hrun relations [] base rfl hstart
  refine ⟨plans, ?_, hassigning⟩
  have hnil : rejections (base.map EntityPlan.key) relations 0 = [] := rfl
  rw [List.length_nil, hnil, List.append_nil] at hplans
  exact hplans

theorem AssignedBy.reads_iff {β : Type} {read : EntityPlan → Option β}
    {written : ImaginationRelation → UInt32 → Option β} (hblank : read plan = none)
    (hassign : ∀ relation relationIndex,
      read (relation.assign relationIndex plan) = written relation relationIndex)
    (h : AssignedBy keys relations relations.length plan plan') {value : β} :
    read plan' = some value ↔ ∃ index relation, Accepts keys relations index ∧
      relations[index]? = some relation ∧ relation.subject = plan.key ∧
      written relation (relationPosition index) = some value := by
  cases h with
  | free hfree =>
    refine iff_of_false (by rw [hblank]; simp) ?_
    rintro ⟨index, relation, haccepts, hget, hsubject, -⟩
    exact hfree index (List.getElem?_eq_some_iff.mp hget).1 haccepts relation hget hsubject
  | @taken index relation _ haccepts hget hsubject =>
    rw [hassign]
    constructor
    · intro hwritten
      exact ⟨index, relation, haccepts, hget, hsubject, hwritten⟩
    · rintro ⟨index', relation', haccepts', hget', hsubject', hwritten⟩
      obtain rfl := haccepts.unique haccepts' hget hget' (hsubject.trans hsubject'.symm)
      cases hget.symm.trans hget'
      exact hwritten

theorem AssignedBy.kept (h : AssignedBy keys relations considered plan plan') :
    plan'.entityId = plan.entityId ∧ plan'.name = plan.name ∧ plan'.primitive = plan.primitive ∧
      plan'.transform = plan.transform ∧ plan'.material = plan.material := by
  cases h with
  | free => exact ⟨rfl, rfl, rfl, rfl, rfl⟩
  | @taken _ relation => cases relation <;> exact ⟨rfl, rfl, rfl, rfl, rfl⟩

theorem Assigning.forall₂ (h : Assigning relations base considered plans) :
    List.Forall₂ (AssignedBy (base.map EntityPlan.key) relations considered) base plans := by
  refine List.forall₂_iff_get.mpr ⟨h.length_eq.symm, fun index hbase hplans => ?_⟩
  obtain ⟨plan', hplan', hassigned⟩ := h.assigned index _ (List.getElem?_eq_getElem hbase)
  obtain ⟨_, rfl⟩ := List.getElem?_eq_some_iff.mp hplan'
  exact hassigned

theorem Assigning.keys_eq (h : Assigning relations base considered plans) :
    plans.map EntityPlan.key = base.map EntityPlan.key :=
  (map_eq_of_forall₂ h.forall₂ fun _ _ hassigned => hassigned.key.symm).symm

end Assign

end Cogniform
