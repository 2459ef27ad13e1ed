import Cogniform.Compiler.Assignment
import Cogniform.Lib.Walk

/-!
# Anchors with a parent, and cycles

Two passes look at the assigned plans without changing them. The first reports placements at an
anchor that has a parent; the second follows parents, then anchors, from every plan and reports the
relations that go round a cycle, once each. Every key that is followed is the key of a plan.
-/

namespace Cogniform

section Follow

variable {plans : List EntityPlan} {next : EntityPlan → Option (SceneText × UInt32)}

def follow (plans : List EntityPlan) (next : EntityPlan → Option (SceneText × UInt32))
    (index : ℕ) : Option ℕ := do
  let plan ← plans[index]?
  let (related, _) ← next plan
  (keyIndex plans)[related]?

def PointsInside (plans : List EntityPlan) (next : EntityPlan → Option (SceneText × UInt32)) :
    Prop :=
  ∀ plan ∈ plans, ∀ related relation, next plan = some (related, relation) →
    related ∈ plans.map EntityPlan.key

theorem follow_eq_some {index target : ℕ} (hkeyed : Keyed plans) :
    follow plans next index = some target ↔
      ∃ plan related relation plan', plans[index]? = some plan ∧
        next plan = some (related, relation) ∧ plans[target]? = some plan' ∧
        plan'.key = related := by
  simp only [follow, Option.bind_eq_bind, Option.bind_eq_some_iff, Prod.exists,
    hkeyed.getElem?_keyIndex]
  constructor
  · rintro ⟨plan, hplan, related, relation, hnext, plan', hplan', hkey⟩
    exact ⟨plan, related, relation, plan', hplan, hnext, hplan', hkey⟩
  · rintro ⟨plan, related, relation, plan', hplan, hnext, hplan', hkey⟩
    exact ⟨plan, hplan, related, relation, hnext, plan', hplan', hkey⟩

theorem follow_lt {index target : ℕ} (hkeyed : Keyed plans)
    (h : follow plans next index = some target) : target < plans.length := by
  obtain ⟨_, _, _, _, -, -, htarget, -⟩ := (follow_eq_some hkeyed).mp h
  exact (List.getElem?_eq_some_iff.mp htarget).1

theorem lt_of_follow {index target : ℕ} (h : follow plans next index = some target) :
    index < plans.length := by
  rw [follow, Option.bind_eq_bind, Option.bind_eq_some_iff] at h
  obtain ⟨plan, hplan, -⟩ := h
  exact (List.getElem?_eq_some_iff.mp hplan).1

theorem walkCycle_eq (hkeyed : Keyed plans) (hinside : PointsInside plans next) {fuel : ℕ} :
    ∀ {path : List ℕ} {current : ℕ}, current < plans.length →
      walkCycle (keyIndex plans) plans next fuel path current =
        match Walk.cycleFrom (follow plans next) fuel path current with
        | none => .error .diverge
        | some cycle => .ok cycle := by
  induction fuel with
  | zero =>
    intro path current _
    rfl
  | succ fuel ih =>
    intro path current hlt
    rw [walkCycle, Walk.cycleFrom]
    cases hpath : path.idxOf? current with
    | some start => rfl
    | none =>
      obtain ⟨plan, hplan⟩ : ∃ plan, plans[current]? = some plan :=
        ⟨_, List.getElem?_eq_getElem hlt⟩
      simp only [planAt, hplan, Exec.expect_some, Exec.ok_bind]
      cases hnext : next plan with
      | none =>
        have hfollow : follow plans next current = none := by simp [follow, hplan, hnext]
        simp only [hfollow]
      | some pointed =>
        obtain ⟨related, relation⟩ := pointed
        obtain ⟨target, htarget⟩ := TreeMap.mem_iff.mp (hkeyed.mem_keyIndex.mpr
          (hinside plan (List.mem_of_getElem? hplan) related relation hnext))
        have hfollow : follow plans next current = some target := by
          simp [follow, hplan, hnext, htarget]
        simp only [hfollow, positionOf, htarget, Exec.expect_some, Exec.ok_bind]
        exact ih (follow_lt hkeyed hfollow)

def parentedAnchor (plans : List EntityPlan) (plan : EntityPlan) : Option UnresolvedConstraint := do
  let placement ← plan.placement
  let anchor ← plans.find? fun candidate => candidate.key = placement.anchor
  if anchor.parent.isSome then
    some (relationIssue .conflictingRelation placement.relationIndex plan.key placement.anchor)
  else none

theorem rejectParentedPlacementAnchors_eq (hkeyed : Keyed plans)
    (hinside : PointsInside plans EntityPlan.nextAnchor) :
    rejectParentedPlacementAnchors (keyIndex plans) plans =
      .ok (plans.filterMap (parentedAnchor plans)) := by
  have hplan : ∀ plan ∈ plans, rejectParentedAnchor (keyIndex plans) plans plan =
      .ok (parentedAnchor plans plan).toList := by
    intro plan hplan
    rw [rejectParentedAnchor, parentedAnchor]
    cases hplacement : plan.placement with
    | none => rfl
    | some placement =>
      have hknown : placement.anchor ∈ plans.map EntityPlan.key :=
        hinside plan hplan placement.anchor placement.relationIndex
          (by rw [EntityPlan.nextAnchor, hplacement]; rfl)
      obtain ⟨index, hindex⟩ := TreeMap.mem_iff.mp (hkeyed.mem_keyIndex.mpr hknown)
      obtain ⟨anchor, hanchor, hkey⟩ := hkeyed.getElem?_keyIndex.mp hindex
      have hfind := hkeyed.find?_eq_some.mpr ⟨List.mem_of_getElem? hanchor, hkey⟩
      simp only [positionOf, planAt, hindex, hanchor, Exec.expect_some, Exec.ok_bind,
        Option.bind_eq_bind, Option.bind_some, hfind]
      split <;> rfl
  have hmap : plans.mapM (rejectParentedAnchor (keyIndex plans) plans) =
      .ok (plans.map fun plan => (parentedAnchor plans plan).toList) := by
    rw [Exec.mapM_eq_ok, List.forall₂_map_right_iff, List.forall₂_same]
    exact hplan
  rw [rejectParentedPlacementAnchors, hmap, Exec.ok_bind, ← List.flatMap_def,
    ← List.filterMap_eq_flatMap_toList]

variable {code : UnresolvedConstraintCode}

structure Cyclic (plans : List EntityPlan) (next : EntityPlan → Option (SceneText × UInt32))
    (index : ℕ) (plan : EntityPlan) (related : SceneText) (relation : UInt32) : Prop where
  get : plans[index]? = some plan
  points : next plan = some (related, relation)
  back : Forest.Above (follow plans next) index index

structure Reported (plans : List EntityPlan) (next : EntityPlan → Option (SceneText × UInt32))
    (code : UnresolvedConstraintCode)
    (state : Std.ExtTreeSet UInt32 × List UnresolvedConstraint) : Prop where
  mem_iff : ∀ relation, relation ∈ state.1 ↔ some relation ∈ state.2.map (·.relationIndex)
  nodup : (state.2.map (·.relationIndex)).Nodup
  cyclic : ∀ issue ∈ state.2, ∃ index plan related relation,
    Cyclic plans next index plan related relation ∧
      issue = relationIssue code relation plan.key related

theorem Reported.step {state : Std.ExtTreeSet UInt32 × List UnresolvedConstraint} {index : ℕ}
    {plan : EntityPlan} {related : SceneText} {relation : UInt32}
    (h : Reported plans next code state) (hcyclic : Cyclic plans next index plan related relation) :
    ∃ state', reportCycle plans next code state index = .ok state' ∧
      Reported plans next code state' ∧ relation ∈ state'.1 ∧ ∀ r ∈ state.1, r ∈ state'.1 := by
  rw [reportCycle, planAt, hcyclic.get, Exec.expect_some, Exec.ok_bind, hcyclic.points]
  dsimp only
  split
  · rename_i hmem
    exact ⟨state, rfl, h, hmem, fun _ => id⟩
  · rename_i hnew
    refine ⟨_, rfl, ⟨fun r => ?_, ?_, fun issue hissue => ?_⟩, TreeSet.mem_insert.mpr (.inl rfl),
      fun r hr => TreeSet.mem_insert.mpr (.inr hr)⟩
    · rw [TreeSet.mem_insert, h.mem_iff, List.map_append, List.mem_append, or_comm]
      simp [relationIssue]
    · rw [List.map_append, List.nodup_append]
      refine ⟨h.nodup, List.nodup_singleton _, ?_⟩
      rintro a ha b hb rfl
      obtain rfl := List.mem_singleton.mp hb
      exact hnew ((h.mem_iff relation).mpr ha)
    · rcases List.mem_append.mp hissue with hissue | hissue
      · exact h.cyclic issue hissue
      · obtain rfl := List.mem_singleton.mp hissue
        exact ⟨index, plan, related, relation, hcyclic, rfl⟩

theorem exists_cyclic (hkeyed : Keyed plans) {index : ℕ}
    (h : Forest.Above (follow plans next) index index) :
    ∃ plan related relation, Cyclic plans next index plan related relation := by
  obtain ⟨target, htarget, -⟩ := Relation.TransGen.head'_iff.mp h
  obtain ⟨plan, related, relation, -, hplan, hnext, -⟩ := (follow_eq_some hkeyed).mp htarget
  exact ⟨plan, related, relation, hplan, hnext, h⟩

theorem Reported.cycle (hkeyed : Keyed plans) {cycle : List ℕ} :
    ∀ {state : Std.ExtTreeSet UInt32 × List UnresolvedConstraint}, Reported plans next code state →
      (∀ index ∈ cycle, Forest.Above (follow plans next) index index) →
      ∃ state', cycle.foldlM (reportCycle plans next code) state = .ok state' ∧
        Reported plans next code state' ∧ (∀ r ∈ state.1, r ∈ state'.1) ∧
        ∀ index ∈ cycle, ∀ plan related relation,
          Cyclic plans next index plan related relation → relation ∈ state'.1 := by
  induction cycle with
  | nil =>
    intro state h _
    exact ⟨state, rfl, h, fun _ => id, fun index hindex => absurd hindex List.not_mem_nil⟩
  | cons first rest ih =>
    intro state h hcycle
    obtain ⟨hfirst, hrest⟩ := List.forall_mem_cons.mp hcycle
    obtain ⟨plan, related, relation, hcyclic⟩ := exists_cyclic hkeyed hfirst
    obtain ⟨middle, hmiddle, hreported, hmem, hkept⟩ := h.step hcyclic
    obtain ⟨state', hstate', hreported', hkept', hall⟩ := ih hreported hrest
    refine ⟨state', ?_, hreported', fun r hr => hkept' r (hkept r hr), fun index hindex => ?_⟩
    · rw [List.foldlM_cons, hmiddle]
      exact hstate'
    · rcases List.mem_cons.mp hindex with rfl | hindex
      · intro plan' related' relation' hcyclic'
        have hplan := Option.some.inj (hcyclic.get.symm.trans hcyclic'.get)
        subst hplan
        have hnext := Option.some.inj (hcyclic.points.symm.trans hcyclic'.points)
        cases hnext
        exact hkept' relation hmem
      · exact hall index hindex

/-- **One kind of cycles.** The pass succeeds. It reports relations that go round a cycle, no
relation twice, and every relation that does. -/
theorem markRelationCycles_spec (hkeyed : Keyed plans) (hinside : PointsInside plans next)
    (code : UnresolvedConstraintCode) :
    ∃ issues, markRelationCycles (keyIndex plans) plans next code = .ok issues ∧
      (issues.map (·.relationIndex)).Nodup ∧
      (∀ issue ∈ issues, ∃ index plan related relation,
        Cyclic plans next index plan related relation ∧
          issue = relationIssue code relation plan.key related) ∧
      ∀ index plan related relation, Cyclic plans next index plan related relation →
        some relation ∈ issues.map (·.relationIndex) := by
  have hrun : ∀ starts : List ℕ, (∀ start ∈ starts, start < plans.length) →
      ∀ {state : Std.ExtTreeSet UInt32 × List UnresolvedConstraint},
        Reported plans next code state →
        ∃ state', starts.foldlM (fun state start => do
            let cycle ← walkCycle (keyIndex plans) plans next (plans.length + 1) [] start
            cycle.foldlM (reportCycle plans next code) state) state =
            (.ok state' : Exec CompileError _) ∧
          Reported plans next code state' ∧ (∀ r ∈ state.1, r ∈ state'.1) ∧
          ∀ start ∈ starts, ∀ plan related relation,
            Cyclic plans next start plan related relation → relation ∈ state'.1 := by
    intro starts
    induction starts with
    | nil =>
      intro _ state h
      exact ⟨state, rfl, h, fun _ => id, fun start hstart => absurd hstart List.not_mem_nil⟩
    | cons start starts ih =>
      intro hlt state h
      obtain ⟨hstart, hstarts⟩ := List.forall_mem_cons.mp hlt
      have hrange : ∀ x ∈ List.range plans.length, ∀ y, follow plans next x = some y →
          y ∈ List.range plans.length := fun _ _ target htarget =>
        List.mem_range.mpr (follow_lt hkeyed htarget)
      obtain ⟨cycle, hcycle⟩ : ∃ cycle,
          Walk.cycleFrom (follow plans next) (plans.length + 1) [] start = some cycle :=
        Walk.exists_cycleFrom hrange List.nodup_nil (fun y hy => absurd hy List.not_mem_nil)
          (List.mem_range.mpr hstart) (by simp)
      have hmem := Walk.mem_cycleFrom (List.isChain_singleton start) hcycle
      obtain ⟨middle, hmiddle, hreported, hkept, hall⟩ :=
        h.cycle hkeyed fun index hindex => ((hmem index).mp hindex).1
      obtain ⟨state', hstate', hreported', hkept', hall'⟩ := ih hstarts hreported
      refine ⟨state', ?_, hreported', fun r hr => hkept' r (hkept r hr), fun other hother => ?_⟩
      · rw [List.foldlM_cons, walkCycle_eq hkeyed hinside hstart, hcycle]
        simp only [Exec.ok_bind, hmiddle]
        exact hstate'
      · rcases List.mem_cons.mp hother with rfl | hother
        · intro plan related relation hcyclic
          refine hkept' relation (hall other ?_ plan related relation hcyclic)
          exact (hmem other).mpr ⟨hcyclic.back, .refl⟩
        · exact hall' other hother
  have hempty : Reported plans next code (∅, []) :=
    ⟨fun relation => by simp, List.nodup_nil, fun issue hissue => absurd hissue List.not_mem_nil⟩
  obtain ⟨state, hstate, hreported, -, hall⟩ :=
    hrun (List.range plans.length) (fun start hstart => List.mem_range.mp hstart) hempty
  refine ⟨state.2, ?_, hreported.nodup, hreported.cyclic, ?_⟩
  · rw [markRelationCycles, hstate]
    rfl
  · intro index plan related relation hcyclic
    rw [← hreported.mem_iff]
    exact hall index (List.mem_range.mpr (List.getElem?_eq_some_iff.mp hcyclic.get).1) plan related
      relation hcyclic

end Follow

end Cogniform
