import Cogniform.Compiler.Placement

/-!
# Faults of a request

What the passes before placement report, said without plans and positions. A relation is at fault
when it is not accepted, when it is a placement at an anchor that has an accepted parent, or when it
goes round a cycle of accepted relations of its kind; and it has at most one of these faults.
-/

namespace Cogniform

open Forest

namespace ImaginationRelation

def parentKey : ImaginationRelation → Option SceneText
  | .parent _ key => some key
  | .above .. | .rightOf .. => none

def anchorKey : ImaginationRelation → Option SceneText
  | .parent .. => none
  | .above _ key _ | .rightOf _ key _ => some key

def placement (relation : ImaginationRelation) (relationIndex : UInt32) : Option Placement :=
  match relation with
  | .parent .. => none
  | .above _ key clearance => some ⟨relationIndex, key, .above clearance.get⟩
  | .rightOf _ key gap => some ⟨relationIndex, key, .rightOf gap.get⟩

variable {relation : ImaginationRelation} {key : SceneText}

theorem related_of_parentKey (h : relation.parentKey = some key) : relation.related = key := by
  cases relation with
  | parent => exact Option.some.inj h
  | above => cases h
  | rightOf => cases h

theorem related_of_anchorKey (h : relation.anchorKey = some key) : relation.related = key := by
  cases relation with
  | parent => cases h
  | above => exact Option.some.inj h
  | rightOf => exact Option.some.inj h

theorem anchorKey_of_placement {relationIndex : UInt32} {placement : Placement}
    (h : relation.placement relationIndex = some placement) :
    relation.anchorKey = some placement.anchor ∧ placement.relationIndex = relationIndex := by
  cases relation with
  | parent => cases h
  | above => cases h; exact ⟨rfl, rfl⟩
  | rightOf => cases h; exact ⟨rfl, rfl⟩

theorem exists_placement (h : relation.anchorKey = some key) (relationIndex : UInt32) :
    ∃ placement, relation.placement relationIndex = some placement ∧ placement.anchor = key := by
  cases relation with
  | parent => cases h
  | above => cases h; exact ⟨_, rfl, rfl⟩
  | rightOf => cases h; exact ⟨_, rfl, rfl⟩

theorem not_both {parent : SceneText} (h : relation.anchorKey = some key)
    (h' : relation.parentKey = some parent) : False := by
  cases relation with
  | parent => cases h
  | above => cases h'
  | rightOf => cases h'

end ImaginationRelation

/-! ### Accepted relations as edges -/

section Link

variable {keys : List SceneText} {relations : List ImaginationRelation}
  {target : ImaginationRelation → Option SceneText} {index : ℕ} {relation : ImaginationRelation}
  {x y : SceneText}

def Link (keys : List SceneText) (relations : List ImaginationRelation)
    (target : ImaginationRelation → Option SceneText) (x y : SceneText) : Prop :=
  ∃ index relation, Accepts keys relations index ∧ relations[index]? = some relation ∧
    relation.subject = x ∧ target relation = some y

abbrev HasParent (keys : List SceneText) (relations : List ImaginationRelation) :
    SceneText → SceneText → Prop :=
  Link keys relations ImaginationRelation.parentKey

abbrev HasAnchor (keys : List SceneText) (relations : List ImaginationRelation) :
    SceneText → SceneText → Prop :=
  Link keys relations ImaginationRelation.anchorKey

theorem Link.eq_target (haccepts : Accepts keys relations index)
    (hget : relations[index]? = some relation) (h : Link keys relations target relation.subject y) :
    target relation = some y := by
  obtain ⟨index', relation', haccepts', hget', hsubject, htarget⟩ := h
  obtain rfl := haccepts.unique haccepts' hget hget' hsubject.symm
  cases hget.symm.trans hget'
  exact htarget

structure OnCycle (keys : List SceneText) (relations : List ImaginationRelation)
    (target : ImaginationRelation → Option SceneText) (index : ℕ)
    (relation : ImaginationRelation) (y : SceneText) : Prop where
  accepts : Accepts keys relations index
  leads : target relation = some y
  back : Relation.ReflTransGen (Link keys relations target) y relation.subject

theorem OnCycle.above (hget : relations[index]? = some relation)
    (h : OnCycle keys relations target index relation y) :
    Relation.TransGen (Link keys relations target) relation.subject relation.subject :=
  .head' ⟨index, relation, h.accepts, hget, rfl, h.leads⟩ h.back

theorem onCycle_of_above (haccepts : Accepts keys relations index)
    (hget : relations[index]? = some relation)
    (h : Relation.TransGen (Link keys relations target) relation.subject relation.subject) :
    ∃ y, OnCycle keys relations target index relation y := by
  obtain ⟨y, hlink, hback⟩ := Relation.TransGen.head'_iff.mp h
  exact ⟨y, haccepts, hlink.eq_target haccepts hget, hback⟩

inductive Fault (keys : List SceneText) (relations : List ImaginationRelation) (index : ℕ)
    (relation : ImaginationRelation) : UnresolvedConstraintCode → Prop where
  | unknown (h : relation.subject ∉ keys ∨ relation.related ∉ keys) :
      Fault keys relations index relation .unknownEntityReference
  | self (hsubject : relation.subject ∈ keys) (hrelated : relation.related ∈ keys)
      (h : relation.subject = relation.related) : Fault keys relations index relation .selfRelation
  | taken (hsubject : relation.subject ∈ keys) (hrelated : relation.related ∈ keys)
      (hne : relation.subject ≠ relation.related) {earlier : ℕ} {other : ImaginationRelation}
      (hlt : earlier < index) (haccepts : Accepts keys relations earlier)
      (hget : relations[earlier]? = some other) (h : other.subject = relation.subject) :
      Fault keys relations index relation .conflictingRelation
  | parented {anchor parent : SceneText} (haccepts : Accepts keys relations index)
      (hanchor : relation.anchorKey = some anchor) (h : HasParent keys relations anchor parent) :
      Fault keys relations index relation .conflictingRelation
  | hierarchy {parent : SceneText}
      (h : OnCycle keys relations ImaginationRelation.parentKey index relation parent) :
      Fault keys relations index relation .hierarchyCycle
  | placement {anchor : SceneText}
      (h : OnCycle keys relations ImaginationRelation.anchorKey index relation anchor) :
      Fault keys relations index relation .placementCycle

theorem fault_of_not_accepts (hget : relations[index]? = some relation)
    (h : ¬ Accepts keys relations index) :
    Fault keys relations index relation (relation.refusal keys) := by
  rw [accepts_iff hget] at h
  rw [ImaginationRelation.refusal]
  split
  · rename_i hunknown
    exact .unknown hunknown
  rename_i hknown
  rw [not_or, not_not, not_not] at hknown
  split
  · rename_i hself
    exact .self hknown.1 hknown.2 hself
  rename_i hne
  by_contra hfault
  refine h ⟨hknown.1, hknown.2, hne, fun earlier hlt haccepts other hother hsubject => ?_⟩
  exact hfault (.taken hknown.1 hknown.2 hne hlt haccepts hother hsubject)

theorem Fault.eq_refusal {code : UnresolvedConstraintCode}
    (h : Fault keys relations index relation code) (hrefused : ¬ Accepts keys relations index) :
    code = relation.refusal keys := by
  rw [ImaginationRelation.refusal]
  cases h with
  | unknown hunknown => rw [if_pos hunknown]
  | self hsubject hrelated hself =>
    rw [if_neg (by rintro (h | h); exacts [h hsubject, h hrelated]), if_pos hself]
  | taken hsubject hrelated hne =>
    rw [if_neg (by rintro (h | h); exacts [h hsubject, h hrelated]), if_neg hne]
  | parented haccepts => exact absurd haccepts hrefused
  | hierarchy hcycle => exact absurd hcycle.accepts hrefused
  | placement hcycle => exact absurd hcycle.accepts hrefused

theorem Fault.code_ne {code : UnresolvedConstraintCode}
    (h : Fault keys relations index relation code) :
    code ≠ .requiredEntityMissing ∧ code ≠ .requiredEntityPresent := by
  cases h <;> decide

theorem Fault.of_accepts {code : UnresolvedConstraintCode}
    (hget : relations[index]? = some relation) (h : Fault keys relations index relation code)
    (haccepts : Accepts keys relations index) :
    (∃ anchor parent, relation.anchorKey = some anchor ∧ HasParent keys relations anchor parent ∧
        code = .conflictingRelation) ∨
      (∃ parent, OnCycle keys relations ImaginationRelation.parentKey index relation parent ∧
        code = .hierarchyCycle) ∨
      ∃ anchor, OnCycle keys relations ImaginationRelation.anchorKey index relation anchor ∧
        code = .placementCycle := by
  obtain ⟨hsubject, hrelated, hne, hfree⟩ := (accepts_iff hget).mp haccepts
  cases h with
  | unknown hunknown =>
    rcases hunknown with hunknown | hunknown
    exacts [absurd hsubject hunknown, absurd hrelated hunknown]
  | self _ _ hself => exact absurd hself hne
  | taken _ _ _ hlt hearlier hother hsame => exact absurd hsame (hfree _ hlt hearlier _ hother)
  | parented _ hanchor hparent => exact .inl ⟨_, _, hanchor, hparent, rfl⟩
  | hierarchy hcycle => exact .inr (.inl ⟨_, hcycle, rfl⟩)
  | placement hcycle => exact .inr (.inr ⟨_, hcycle, rfl⟩)

theorem OnCycle.not_hasParent {anchor parent : SceneText}
    (hget : relations[index]? = some relation)
    (h : OnCycle keys relations ImaginationRelation.anchorKey index relation anchor) :
    ¬ HasParent keys relations anchor parent := by
  rintro ⟨index', relation', haccepts', hget', hsubject', hparent⟩
  have hne : relation.subject ≠ anchor := by
    rw [← ImaginationRelation.related_of_anchorKey h.leads]
    exact ((accepts_iff hget).mp h.accepts).2.2.1
  -- The cycle goes on from the anchor by its accepted relation, which gives it the parent.
  rcases Relation.ReflTransGen.cases_head h.back with heq | ⟨next, hlink, -⟩
  · exact hne heq.symm
  · rw [← hsubject'] at hlink
    exact ImaginationRelation.not_both (hlink.eq_target haccepts' hget') hparent

theorem Fault.unique {code code' : UnresolvedConstraintCode}
    (hget : relations[index]? = some relation) (h : Fault keys relations index relation code)
    (h' : Fault keys relations index relation code') : code = code' := by
  by_cases haccepts : Accepts keys relations index
  · rcases h.of_accepts hget haccepts with ⟨anchor, parent, hanchor, hparent, rfl⟩ |
        ⟨parent, hcycle, rfl⟩ | ⟨anchor, hcycle, rfl⟩ <;>
      rcases h'.of_accepts hget haccepts with ⟨anchor', parent', hanchor', hparent', rfl⟩ |
        ⟨parent', hcycle', rfl⟩ | ⟨anchor', hcycle', rfl⟩
    · rfl
    · exact (ImaginationRelation.not_both hanchor hcycle'.leads).elim
    · cases hanchor.symm.trans hcycle'.leads
      exact absurd hparent (hcycle'.not_hasParent hget)
    · exact (ImaginationRelation.not_both hanchor' hcycle.leads).elim
    · rfl
    · exact (ImaginationRelation.not_both hcycle'.leads hcycle.leads).elim
    · cases hanchor'.symm.trans hcycle.leads
      exact absurd hparent' (hcycle.not_hasParent hget)
    · exact (ImaginationRelation.not_both hcycle.leads hcycle'.leads).elim
    · rfl
  · exact (h.eq_refusal haccepts).trans (h'.eq_refusal haccepts).symm

end Link

/-! ### Plans and keys -/

structure Linked (keys : List SceneText) (relations : List ImaginationRelation)
    (plans : List EntityPlan) (next : EntityPlan → Option (SceneText × UInt32))
    (target : ImaginationRelation → Option SceneText) : Prop where
  keys_eq : plans.map EntityPlan.key = keys
  keyed : Keyed plans
  related : ∀ relation y, target relation = some y → relation.related = y
  points : ∀ plan ∈ plans, ∀ y r, next plan = some (y, r) ↔
    ∃ index relation, Accepts keys relations index ∧ relations[index]? = some relation ∧
      relation.subject = plan.key ∧ target relation = some y ∧ r = relationPosition index

section Linked

variable {keys : List SceneText} {relations : List ImaginationRelation}
  {plans : List EntityPlan} {next : EntityPlan → Option (SceneText × UInt32)}
  {target : ImaginationRelation → Option SceneText} {index : ℕ} {plan : EntityPlan}
  {x y : SceneText}

theorem Linked.pointsInside (h : Linked keys relations plans next target) :
    PointsInside plans next := by
  intro plan hplan related relation hnext
  obtain ⟨index, accepted, haccepts, hget, -, htarget, -⟩ :=
    (h.points plan hplan related relation).mp hnext
  rw [h.keys_eq, ← h.related accepted related htarget]
  exact ((accepts_iff hget).mp haccepts).2.1

theorem Linked.exists_get (h : Linked keys relations plans next target) (hx : x ∈ keys) :
    ∃ (index : ℕ) (plan : EntityPlan), plans[index]? = some plan ∧ plan.key = x := by
  rw [← h.keys_eq] at hx
  obtain ⟨plan, hplan, hkey⟩ := List.mem_map.mp hx
  obtain ⟨index, hget⟩ := List.mem_iff_getElem?.mp hplan
  exact ⟨index, plan, hget, hkey⟩

theorem Linked.index_unique (h : Linked keys relations plans next target) {index' : ℕ}
    {plan' : EntityPlan} (hget : plans[index]? = some plan) (hget' : plans[index']? = some plan')
    (hkey : plan.key = plan'.key) : index = index' := by
  have hindex := h.keyed.getElem?_keyIndex.mpr ⟨plan, hget, hkey⟩
  have hindex' := h.keyed.getElem?_keyIndex.mpr ⟨plan', hget', rfl⟩
  exact Option.some.inj (hindex.symm.trans hindex')

theorem Linked.follow_iff (h : Linked keys relations plans next target) {index' : ℕ}
    {plan' : EntityPlan} (hget : plans[index]? = some plan) (hget' : plans[index']? = some plan') :
    follow plans next index = some index' ↔ Link keys relations target plan.key plan'.key := by
  rw [follow_eq_some h.keyed]
  constructor
  · rintro ⟨_, related, r, _, hplan, hnext, hplan', hkey⟩
    cases hget.symm.trans hplan
    cases hget'.symm.trans hplan'
    obtain ⟨position, relation, haccepts, hrelation, hsubject, htarget, -⟩ :=
      (h.points plan (List.mem_of_getElem? hget) related r).mp hnext
    exact ⟨position, relation, haccepts, hrelation, hsubject, hkey ▸ htarget⟩
  · rintro ⟨position, relation, haccepts, hrelation, hsubject, htarget⟩
    exact ⟨plan, plan'.key, relationPosition position, plan', hget,
      (h.points plan (List.mem_of_getElem? hget) _ _).mpr
        ⟨position, relation, haccepts, hrelation, hsubject, htarget, rfl⟩, hget', rfl⟩

theorem Linked.transGen_of_above (h : Linked keys relations plans next target) {index' : ℕ}
    (habove : Above (follow plans next) index index') :
    ∀ {plan plan' : EntityPlan}, plans[index]? = some plan → plans[index']? = some plan' →
      Relation.TransGen (Link keys relations target) plan.key plan'.key := by
  induction habove with
  | single hstep =>
    intro plan plan' hget hget'
    exact .single ((h.follow_iff hget hget').mp hstep)
  | @tail middle index' _ hstep ih =>
    intro plan plan' hget hget'
    obtain ⟨_, _, _, _, hmiddle, -⟩ := (follow_eq_some h.keyed).mp hstep
    exact .tail (ih hget hmiddle) ((h.follow_iff hmiddle hget').mp hstep)

theorem Linked.above_of_transGen (h : Linked keys relations plans next target)
    (hlinks : Relation.TransGen (Link keys relations target) x y) (hget : plans[index]? = some plan)
    (hkey : plan.key = x) :
    ∃ (index' : ℕ) (plan' : EntityPlan), plans[index']? = some plan' ∧ plan'.key = y ∧
      Above (follow plans next) index index' := by
  have hstep : ∀ {position : ℕ} {current : EntityPlan} {z : SceneText},
      plans[position]? = some current → Link keys relations target current.key z →
      ∃ (index' : ℕ) (plan' : EntityPlan), plans[index']? = some plan' ∧ plan'.key = z ∧
        follow plans next position = some index' := by
    intro position current z hcurrent hlink
    have hz : z ∈ keys := by
      obtain ⟨_, relation, haccepts, hrelation, -, htarget⟩ := hlink
      rw [← h.related relation z htarget]
      exact ((accepts_iff hrelation).mp haccepts).2.1
    obtain ⟨index', plan', hget', rfl⟩ := h.exists_get hz
    exact ⟨index', plan', hget', rfl, (h.follow_iff hcurrent hget').mpr hlink⟩
  subst hkey
  induction hlinks with
  | single hlink =>
    obtain ⟨index', plan', hget', hkey, hfollow⟩ := hstep hget hlink
    exact ⟨index', plan', hget', hkey, .single hfollow⟩
  | tail _ hlink ih =>
    obtain ⟨middle, current, hcurrent, rfl, habove⟩ := ih
    obtain ⟨index', plan', hget', hkey, hfollow⟩ := hstep hcurrent hlink
    exact ⟨index', plan', hget', hkey, .tail habove hfollow⟩

theorem Linked.above_self_iff (h : Linked keys relations plans next target)
    (hget : plans[index]? = some plan) :
    Above (follow plans next) index index ↔
      Relation.TransGen (Link keys relations target) plan.key plan.key := by
  constructor
  · intro habove
    exact h.transGen_of_above habove hget hget
  · intro hlinks
    obtain ⟨index', plan', hget', hkey, habove⟩ := h.above_of_transGen hlinks hget rfl
    obtain rfl := h.index_unique hget' hget hkey
    exact habove

theorem Linked.onCycle (h : Linked keys relations plans next target) {related : SceneText}
    {r : UInt32} (hcyclic : Cyclic plans next index plan related r) :
    ∃ position relation, relations[position]? = some relation ∧
      OnCycle keys relations target position relation related ∧ relation.subject = plan.key ∧
      relation.related = related ∧ r = relationPosition position := by
  obtain ⟨position, relation, haccepts, hrelation, hsubject, htarget, hr⟩ :=
    (h.points plan (List.mem_of_getElem? hcyclic.get) related r).mp hcyclic.points
  have hlinks := (h.above_self_iff hcyclic.get).mp hcyclic.back
  rw [← hsubject] at hlinks
  obtain ⟨y, honCycle⟩ := onCycle_of_above haccepts hrelation hlinks
  cases honCycle.leads.symm.trans htarget
  exact ⟨position, relation, hrelation, honCycle, hsubject, h.related relation _ htarget, hr⟩

theorem Linked.exists_cyclic (h : Linked keys relations plans next target) {position : ℕ}
    {relation : ImaginationRelation} (hrelation : relations[position]? = some relation)
    (honCycle : OnCycle keys relations target position relation y) :
    ∃ index plan, Cyclic plans next index plan y (relationPosition position) := by
  obtain ⟨hsubject, -⟩ := (accepts_iff hrelation).mp honCycle.accepts
  obtain ⟨index, plan, hget, hkey⟩ := h.exists_get hsubject
  have hlinks := honCycle.above hrelation
  rw [← hkey] at hlinks
  refine ⟨index, plan, hget, ?_, (h.above_self_iff hget).mpr hlinks⟩
  exact (h.points plan (List.mem_of_getElem? hget) y _).mpr
    ⟨position, relation, honCycle.accepts, hrelation, hkey.symm, honCycle.leads, rfl⟩

def ImaginationRelation.issue (relation : ImaginationRelation) (index : ℕ)
    (code : UnresolvedConstraintCode) : UnresolvedConstraint :=
  relationIssue code (relationPosition index) relation.subject relation.related

theorem Linked.markRelationCycles_spec (h : Linked keys relations plans next target)
    (code : UnresolvedConstraintCode) :
    ∃ issues, markRelationCycles (keyIndex plans) plans next code = .ok issues ∧
      (∀ entry ∈ issues, ∃ position relation y, relations[position]? = some relation ∧
        OnCycle keys relations target position relation y ∧
        entry = relation.issue position code) ∧
      ∀ position relation y, relations[position]? = some relation →
        OnCycle keys relations target position relation y →
          ∃ entry ∈ issues, entry.relationIndex = some (relationPosition position) := by
  obtain ⟨issues, hissues, -, hsound, hcomplete⟩ :=
    Cogniform.markRelationCycles_spec h.keyed h.pointsInside code
  refine ⟨issues, hissues, fun entry hentry => ?_, fun position relation y hget honCycle => ?_⟩
  · obtain ⟨index, plan, related, r, hcyclic, rfl⟩ := hsound entry hentry
    obtain ⟨position, relation, hget, honCycle, hsubject, hrelated, rfl⟩ := h.onCycle hcyclic
    exact ⟨position, relation, related, hget, honCycle, by
      rw [ImaginationRelation.issue, hsubject, hrelated]⟩
  · obtain ⟨index, plan, hcyclic⟩ := h.exists_cyclic hget honCycle
    exact List.mem_map.mp (hcomplete index plan y _ hcyclic)

end Linked

/-! ### The passes -/

section Passes

variable {relations : List ImaginationRelation} {base plans : List EntityPlan}

theorem Assigning.get {considered index : ℕ} {plan' : EntityPlan}
    (h : Assigning relations base considered plans) (hget : plans[index]? = some plan') :
    ∃ plan, base[index]? = some plan ∧
      AssignedBy (base.map EntityPlan.key) relations considered plan plan' := by
  have hlt : index < base.length := h.length_eq ▸ (List.getElem?_eq_some_iff.mp hget).1
  obtain ⟨assigned, hassigned, hby⟩ := h.assigned index _ (List.getElem?_eq_getElem hlt)
  cases hassigned.symm.trans hget
  exact ⟨_, List.getElem?_eq_getElem hlt, hby⟩

theorem Assigning.reads_iff {β : Type} {read : EntityPlan → Option β}
    {written : ImaginationRelation → UInt32 → Option β}
    (hblank : ∀ plan ∈ base, read plan = none)
    (hassign : ∀ plan ∈ base, ∀ relation relationIndex,
      read (relation.assign relationIndex plan) = written relation relationIndex)
    (h : Assigning relations base relations.length plans) {plan : EntityPlan} (hplan : plan ∈ plans)
    {value : β} :
    read plan = some value ↔ ∃ index relation,
      Accepts (base.map EntityPlan.key) relations index ∧ relations[index]? = some relation ∧
      relation.subject = plan.key ∧ written relation (relationPosition index) = some value := by
  obtain ⟨index, hget⟩ := List.mem_iff_getElem?.mp hplan
  obtain ⟨planned, hplanned, hby⟩ := h.get hget
  have hmem := List.mem_of_getElem? hplanned
  rw [hby.reads_iff (hblank planned hmem) (hassign planned hmem), hby.key]

theorem EntityPlan.Blank.parent_assign {plan : EntityPlan} (hblank : plan.Blank)
    (relation : ImaginationRelation) {relationIndex : UInt32} :
    (relation.assign relationIndex plan).parent = relation.parentKey := by
  cases relation with
  | parent => rfl
  | above => exact hblank.1
  | rightOf => exact hblank.1

theorem EntityPlan.Blank.placement_assign {plan : EntityPlan} (hblank : plan.Blank)
    (relation : ImaginationRelation) (relationIndex : UInt32) :
    (relation.assign relationIndex plan).placement = relation.placement relationIndex := by
  cases relation with
  | parent => exact hblank.2.2
  | above => rfl
  | rightOf => rfl

variable (hkeyed : Keyed base) (hblank : ∀ plan ∈ base, plan.Blank)
  (h : Assigning relations base relations.length plans)

include hblank h in
theorem Assigning.parent_iff {plan : EntityPlan} (hplan : plan ∈ plans) {parent : SceneText} :
    plan.parent = some parent ↔
      HasParent (base.map EntityPlan.key) relations plan.key parent := by
  have hassign : ∀ plan ∈ base, ∀ (relation : ImaginationRelation) (relationIndex : UInt32),
      (relation.assign relationIndex plan).parent = relation.parentKey := fun plan hmem relation _ =>
    (hblank plan hmem).parent_assign relation
  exact h.reads_iff (fun plan hmem => (hblank plan hmem).1) hassign hplan

include hblank h in
theorem Assigning.placement_iff {plan : EntityPlan} (hplan : plan ∈ plans) {placement : Placement} :
    plan.placement = some placement ↔ ∃ index relation,
      Accepts (base.map EntityPlan.key) relations index ∧ relations[index]? = some relation ∧
      relation.subject = plan.key ∧
      relation.placement (relationPosition index) = some placement := by
  have hassign : ∀ plan ∈ base, ∀ (relation : ImaginationRelation) (relationIndex : UInt32),
      (relation.assign relationIndex plan).placement = relation.placement relationIndex :=
    fun plan hmem => (hblank plan hmem).placement_assign
  exact h.reads_iff (fun plan hmem => (hblank plan hmem).2.2) hassign hplan

include hkeyed h in
theorem Assigning.linked {next : EntityPlan → Option (SceneText × UInt32)}
    {target : ImaginationRelation → Option SceneText}
    (hrelated : ∀ relation y, target relation = some y → relation.related = y)
    (hnone : ∀ plan ∈ base, next plan = none)
    (hassign : ∀ plan ∈ base, ∀ relation relationIndex,
      next (relation.assign relationIndex plan) =
        (target relation).map fun key => (key, relationIndex)) :
    Linked (base.map EntityPlan.key) relations plans next target := by
  refine ⟨h.keys_eq, by rw [Keyed, h.keys_eq]; exact hkeyed, hrelated, fun plan hplan y r => ?_⟩
  rw [h.reads_iff hnone hassign hplan]
  constructor
  · rintro ⟨index, relation, haccepts, hget, hsubject, hwritten⟩
    obtain ⟨key, htarget, heq⟩ := Option.map_eq_some_iff.mp hwritten
    cases heq
    exact ⟨index, relation, haccepts, hget, hsubject, htarget, rfl⟩
  · rintro ⟨index, relation, haccepts, hget, hsubject, htarget, rfl⟩
    exact ⟨index, relation, haccepts, hget, hsubject, by rw [htarget]; rfl⟩

include hkeyed hblank h in
theorem Assigning.linked_parent :
    Linked (base.map EntityPlan.key) relations plans EntityPlan.nextParent
      ImaginationRelation.parentKey := by
  refine h.linked hkeyed (fun _ _ => ImaginationRelation.related_of_parentKey)
    (fun plan hmem => ?_) fun plan hmem relation relationIndex => ?_
  · rw [EntityPlan.nextParent, (hblank plan hmem).1]
    rfl
  · rw [EntityPlan.nextParent, (hblank plan hmem).parent_assign]
    cases relation <;> rfl

include hkeyed hblank h in
theorem Assigning.linked_anchor :
    Linked (base.map EntityPlan.key) relations plans EntityPlan.nextAnchor
      ImaginationRelation.anchorKey := by
  refine h.linked hkeyed (fun _ _ => ImaginationRelation.related_of_anchorKey)
    (fun plan hmem => ?_) fun plan hmem relation relationIndex => ?_
  · rw [EntityPlan.nextAnchor, (hblank plan hmem).2.2]
    rfl
  · rw [EntityPlan.nextAnchor, (hblank plan hmem).placement_assign]
    cases relation <;> rfl

include hkeyed hblank h in
theorem Assigning.mem_parented {entry : UnresolvedConstraint} :
    entry ∈ plans.filterMap (parentedAnchor plans) ↔ ∃ index relation anchor parent,
      relations[index]? = some relation ∧ Accepts (base.map EntityPlan.key) relations index ∧
      relation.anchorKey = some anchor ∧
      HasParent (base.map EntityPlan.key) relations anchor parent ∧
      entry = relation.issue index .conflictingRelation := by
  have hlinked := h.linked_anchor hkeyed hblank
  rw [List.mem_filterMap]
  constructor
  · rintro ⟨plan, hplan, hentry⟩
    rw [parentedAnchor, Option.bind_eq_bind, Option.bind_eq_some_iff] at hentry
    obtain ⟨placement, hplacement, hentry⟩ := hentry
    rw [Option.bind_eq_bind, Option.bind_eq_some_iff] at hentry
    obtain ⟨anchor, hanchor, hentry⟩ := hentry
    obtain ⟨hmem, hkey⟩ := hlinked.keyed.find?_eq_some.mp hanchor
    split at hentry
    · rename_i hsome
      obtain ⟨parent, hparent⟩ := Option.isSome_iff_exists.mp hsome
      rw [h.parent_iff hblank hmem, hkey] at hparent
      obtain ⟨index, relation, haccepts, hget, hsubject, hwritten⟩ :=
        (h.placement_iff hblank hplan).mp hplacement
      obtain ⟨hanchorKey, hposition⟩ := ImaginationRelation.anchorKey_of_placement hwritten
      refine ⟨index, relation, placement.anchor, parent, hget, haccepts, hanchorKey, hparent, ?_⟩
      cases hentry
      rw [ImaginationRelation.issue, hposition, hsubject,
        ImaginationRelation.related_of_anchorKey hanchorKey]
    · cases hentry
  · rintro ⟨index, relation, anchor, parent, hget, haccepts, hanchorKey, hparent, rfl⟩
    obtain ⟨hsubject, hrelated, -⟩ := (accepts_iff hget).mp haccepts
    obtain ⟨_, plan, hplan, hkey⟩ := hlinked.exists_get hsubject
    obtain ⟨_, anchorPlan, hanchorPlan, hanchorKey'⟩ := hlinked.exists_get hrelated
    rw [ImaginationRelation.related_of_anchorKey hanchorKey] at hanchorKey'
    obtain ⟨placement, hwritten, rfl⟩ :=
      ImaginationRelation.exists_placement hanchorKey (relationPosition index)
    have hplacement := (h.placement_iff hblank (List.mem_of_getElem? hplan)).mpr
      ⟨index, relation, haccepts, hget, hkey.symm, hwritten⟩
    rw [← hanchorKey', ← h.parent_iff hblank (List.mem_of_getElem? hanchorPlan)] at hparent
    have hfind := hlinked.keyed.find?_eq_some.mpr ⟨List.mem_of_getElem? hanchorPlan, hanchorKey'⟩
    refine ⟨plan, List.mem_of_getElem? hplan, ?_⟩
    simp only [parentedAnchor, hplacement, Option.bind_eq_bind, Option.bind_some, hfind, hparent,
      Option.isSome_some, if_true]
    rw [ImaginationRelation.issue, hkey, ImaginationRelation.related_of_anchorKey hanchorKey,
      (ImaginationRelation.anchorKey_of_placement hwritten).2]

structure Faults (keys : List SceneText) (relations : List ImaginationRelation)
    (unmet entries : List UnresolvedConstraint) : Prop where
  kept : ∀ entry ∈ unmet, entry ∈ entries
  sound : ∀ entry ∈ entries, entry ∈ unmet ∨ ∃ index relation code,
    relations[index]? = some relation ∧ Fault keys relations index relation code ∧
      entry = relation.issue index code
  complete : ∀ index relation code, relations[index]? = some relation →
    Fault keys relations index relation code →
      ∃ entry ∈ entries, entry.relationIndex = some (relationPosition index)

theorem mem_rejections {keys : List SceneText} {entry : UnresolvedConstraint} :
    entry ∈ rejections keys relations relations.length ↔ ∃ index relation,
      relations[index]? = some relation ∧ ¬ Accepts keys relations index ∧
        entry = relation.issue index (relation.refusal keys) := by
  rw [rejections, List.mem_filterMap]
  constructor
  · rintro ⟨index, -, hentry⟩
    rw [rejection] at hentry
    split at hentry
    · cases hentry
    · rename_i hrefused
      obtain ⟨relation, hget, rfl⟩ := Option.map_eq_some_iff.mp hentry
      exact ⟨index, relation, hget, hrefused, rfl⟩
  · rintro ⟨index, relation, hget, hrefused, rfl⟩
    refine ⟨index, List.mem_range.mpr (List.getElem?_eq_some_iff.mp hget).1, ?_⟩
    rw [rejection, if_neg hrefused, hget]
    rfl

include hkeyed hblank h in
theorem Assigning.faults (unmet : List UnresolvedConstraint) :
    ∃ parented cyclic, rejectParentedPlacementAnchors (keyIndex base) plans = .ok parented ∧
      markCycles (keyIndex base) plans = .ok cyclic ∧
      Faults (base.map EntityPlan.key) relations unmet
        (unmet ++ rejections (base.map EntityPlan.key) relations relations.length ++ parented ++
          cyclic) := by
  have hparent := h.linked_parent hkeyed hblank
  have hanchor := h.linked_anchor hkeyed hblank
  have hindex : keyIndex base = keyIndex plans := keyIndex_congr h.keys_eq.symm
  obtain ⟨hierarchy, hhierarchy, hhierarchySound, hhierarchyComplete⟩ :=
    hparent.markRelationCycles_spec .hierarchyCycle
  obtain ⟨placements, hplacements, hplacementsSound, hplacementsComplete⟩ :=
    hanchor.markRelationCycles_spec .placementCycle
  rw [hindex]
  refine ⟨_, hierarchy ++ placements,
    rejectParentedPlacementAnchors_eq hanchor.keyed hanchor.pointsInside, ?_, ?_, ?_, ?_⟩
  · rw [markCycles, hhierarchy, Exec.ok_bind, hplacements]
    rfl
  · intro entry hentry
    simp only [List.mem_append]
    exact .inl (.inl (.inl hentry))
  · intro entry hentry
    simp only [List.mem_append] at hentry
    rcases hentry with ((hentry | hentry) | hentry) | hentry | hentry
    · exact .inl hentry
    · obtain ⟨index, relation, hget, hrefused, rfl⟩ := mem_rejections.mp hentry
      exact .inr ⟨index, relation, _, hget, fault_of_not_accepts hget hrefused, rfl⟩
    · obtain ⟨index, relation, anchor, parent, hget, haccepts, hanchorKey, hhas, rfl⟩ :=
        (h.mem_parented hkeyed hblank).mp hentry
      exact .inr ⟨index, relation, _, hget, .parented haccepts hanchorKey hhas, rfl⟩
    · obtain ⟨index, relation, y, hget, honCycle, rfl⟩ := hhierarchySound entry hentry
      exact .inr ⟨index, relation, _, hget, .hierarchy honCycle, rfl⟩
    · obtain ⟨index, relation, y, hget, honCycle, rfl⟩ := hplacementsSound entry hentry
      exact .inr ⟨index, relation, _, hget, .placement honCycle, rfl⟩
  · intro index relation code hget hfault
    simp only [List.mem_append]
    by_cases haccepts : Accepts (base.map EntityPlan.key) relations index
    · rcases hfault.of_accepts hget haccepts with ⟨anchor, parent, hanchorKey, hhas, -⟩ |
        ⟨parent, honCycle, -⟩ | ⟨anchor, honCycle, -⟩
      · exact ⟨_, .inl (.inr ((h.mem_parented hkeyed hblank).mpr
          ⟨index, relation, anchor, parent, hget, haccepts, hanchorKey, hhas, rfl⟩)), rfl⟩
      · obtain ⟨entry, hentry, hposition⟩ := hhierarchyComplete index relation parent hget honCycle
        exact ⟨entry, .inr (.inl hentry), hposition⟩
      · obtain ⟨entry, hentry, hposition⟩ :=
          hplacementsComplete index relation anchor hget honCycle
        exact ⟨entry, .inr (.inr hentry), hposition⟩
    · exact ⟨_, .inl (.inl (.inr (mem_rejections.mpr
        ⟨index, relation, hget, haccepts, rfl⟩))), rfl⟩

end Passes

end Cogniform
