import Cogniform.Compiler.Cycles

/-!
# Resolving placements

Placements are resolved by a recursion that writes into the plans as it goes, entered from every
position in the order of the keys. What it computes does not depend on that order. `Settled` gives
the final plan of a position from the assigned plans alone, and `Unsettled` what is reported about
it.
-/

namespace Cogniform

open Forest

def EntityPlan.moved (plan : EntityPlan) (translation : Vec3) : EntityPlan :=
  { plan with transform := { plan.transform with translation } }

def Placement.issue (placement : Placement) (plan : EntityPlan) (code : UnresolvedConstraintCode) :
    UnresolvedConstraint :=
  relationIssue code placement.relationIndex plan.key placement.anchor

inductive Settled (plans : List EntityPlan) : ℕ → EntityPlan → Prop where
  | free {index : ℕ} {plan : EntityPlan} (hget : plans[index]? = some plan)
      (hplacement : plan.placement = none) : Settled plans index plan
  | placed {index anchorIndex : ℕ} {plan anchor : EntityPlan} {placement : Placement}
      {translation : Vec3} (hget : plans[index]? = some plan)
      (hplacement : plan.placement = some placement)
      (hanchor : (keyIndex plans)[placement.anchor]? = some anchorIndex)
      (hsettled : Settled plans anchorIndex anchor)
      (htranslation : placedTranslation plan anchor placement.kind = .ok translation) :
      Settled plans index (plan.moved translation)

inductive Unsettled (plans : List EntityPlan) : ℕ → UnresolvedConstraint → Prop where
  | fails {index anchorIndex : ℕ} {plan anchor : EntityPlan} {placement : Placement}
      {code : UnresolvedConstraintCode} (hget : plans[index]? = some plan)
      (hplacement : plan.placement = some placement)
      (hanchor : (keyIndex plans)[placement.anchor]? = some anchorIndex)
      (hsettled : Settled plans anchorIndex anchor)
      (hcode : placedTranslation plan anchor placement.kind = .error code) :
      Unsettled plans index (placement.issue plan code)
  | follows {index anchorIndex : ℕ} {plan : EntityPlan} {placement : Placement}
      {issue : UnresolvedConstraint} (hget : plans[index]? = some plan)
      (hplacement : plan.placement = some placement)
      (hanchor : (keyIndex plans)[placement.anchor]? = some anchorIndex)
      (hunsettled : Unsettled plans anchorIndex issue) : Unsettled plans index issue

section Outcome

variable {plans : List EntityPlan} {index : ℕ} {plan other : EntityPlan}
  {issue : UnresolvedConstraint}

theorem settled_free_iff (hget : plans[index]? = some plan) (hplacement : plan.placement = none) :
    Settled plans index other ↔ other = plan := by
  constructor
  · intro h
    cases h with
    | free hget' _ => exact Option.some.inj (hget'.symm.trans hget)
    | placed hget' hplacement' _ _ _ =>
      cases hget.symm.trans hget'
      cases hplacement.symm.trans hplacement'
  · rintro rfl
    exact .free hget hplacement

theorem settled_placed_iff {placement : Placement} {anchorIndex : ℕ}
    (hget : plans[index]? = some plan) (hplacement : plan.placement = some placement)
    (hanchor : (keyIndex plans)[placement.anchor]? = some anchorIndex) :
    Settled plans index other ↔ ∃ anchor translation, Settled plans anchorIndex anchor ∧
      placedTranslation plan anchor placement.kind = .ok translation ∧
      other = plan.moved translation := by
  constructor
  · intro h
    cases h with
    | free hget' hplacement' =>
      cases hget.symm.trans hget'
      cases hplacement.symm.trans hplacement'
    | placed hget' hplacement' hanchor' hsettled htranslation =>
      cases hget.symm.trans hget'
      cases hplacement.symm.trans hplacement'
      cases hanchor.symm.trans hanchor'
      exact ⟨_, _, hsettled, htranslation, rfl⟩
  · rintro ⟨anchor, translation, hsettled, htranslation, rfl⟩
    exact .placed hget hplacement hanchor hsettled htranslation

theorem Settled.unique (h : Settled plans index plan) (h' : Settled plans index other) :
    plan = other := by
  induction h generalizing other with
  | free hget hplacement => exact ((settled_free_iff hget hplacement).mp h').symm
  | placed hget hplacement hanchor _ htranslation ih =>
    obtain ⟨anchor, translation, hsettled, htranslation', rfl⟩ :=
      (settled_placed_iff hget hplacement hanchor).mp h'
    rw [ih hsettled] at htranslation
    cases htranslation.symm.trans htranslation'
    rfl

theorem Settled.eq_moved (h : Settled plans index plan) :
    ∃ assigned, plans[index]? = some assigned ∧
      plan = assigned.moved plan.transform.translation := by
  cases h with
  | free hget _ => exact ⟨_, hget, rfl⟩
  | placed hget _ _ _ _ => exact ⟨_, hget, rfl⟩

theorem Unsettled.not_settled (h : Unsettled plans index issue) : ¬ Settled plans index plan := by
  induction h generalizing plan with
  | fails hget hplacement hanchor hsettled hcode =>
    intro h'
    obtain ⟨anchor, translation, hsettled', htranslation, rfl⟩ :=
      (settled_placed_iff hget hplacement hanchor).mp h'
    rw [hsettled.unique hsettled', htranslation] at hcode
    cases hcode
  | follows hget hplacement hanchor _ ih =>
    intro h'
    obtain ⟨anchor, translation, hsettled, -⟩ :=
      (settled_placed_iff hget hplacement hanchor).mp h'
    exact ih hsettled

theorem Unsettled.unique (h : Unsettled plans index issue) {issue' : UnresolvedConstraint}
    (h' : Unsettled plans index issue') : issue = issue' := by
  induction h with
  | fails hget hplacement hanchor hsettled hcode =>
    cases h' with
    | fails hget' hplacement' hanchor' hsettled' hcode' =>
      cases hget.symm.trans hget'
      cases hplacement.symm.trans hplacement'
      cases hanchor.symm.trans hanchor'
      rw [hsettled.unique hsettled'] at hcode
      cases hcode.symm.trans hcode'
      rfl
    | follows hget' hplacement' hanchor' hunsettled' =>
      cases hget.symm.trans hget'
      cases hplacement.symm.trans hplacement'
      cases hanchor.symm.trans hanchor'
      exact absurd hsettled hunsettled'.not_settled
  | follows hget hplacement hanchor hunsettled ih =>
    cases h' with
    | fails hget' hplacement' hanchor' hsettled' hcode' =>
      cases hget.symm.trans hget'
      cases hplacement.symm.trans hplacement'
      cases hanchor.symm.trans hanchor'
      exact absurd hsettled' hunsettled.not_settled
    | follows hget' hplacement' hanchor' hunsettled' =>
      cases hget.symm.trans hget'
      cases hplacement.symm.trans hplacement'
      cases hanchor.symm.trans hanchor'
      exact ih hunsettled'

theorem Unsettled.exists_fails (h : Unsettled plans index issue) :
    ∃ (index anchorIndex : ℕ) (plan anchor : EntityPlan) (placement : Placement)
      (code : UnresolvedConstraintCode), plans[index]? = some plan ∧
      plan.placement = some placement ∧
      (keyIndex plans)[placement.anchor]? = some anchorIndex ∧
      Settled plans anchorIndex anchor ∧
      placedTranslation plan anchor placement.kind = .error code ∧
      issue = placement.issue plan code := by
  induction h with
  | fails hget hplacement hanchor hsettled hcode =>
    exact ⟨_, _, _, _, _, _, hget, hplacement, hanchor, hsettled, hcode, rfl⟩
  | follows _ _ _ _ ih => exact ih

end Outcome

/-! ### The recursion -/

structure Placing.Holds (plans : List EntityPlan) (state : Placing) : Prop where
  length_resolved : state.resolved.length = plans.length
  length_entities : state.entities.length = plans.length
  settled : ∀ index : ℕ, state.resolved[index]? = some true →
    ∃ plan, state.entities[index]? = some plan ∧ Settled plans index plan
  pending : ∀ index : ℕ, state.resolved[index]? = some false →
    state.entities[index]? = plans[index]?

section Recursion

variable {plans : List EntityPlan} {index : ℕ} {plan : EntityPlan} {state : Placing}

theorem Placing.Holds.resolve (h : state.Holds plans) (hlt : index < plans.length)
    (hsettled : Settled plans index plan) :
    Placing.Holds plans ⟨state.entities.set index plan, state.resolved.set index true⟩ := by
  refine ⟨by rw [List.length_set, h.length_resolved], by rw [List.length_set, h.length_entities],
    fun other hother => ?_, fun other hother => ?_⟩
  · rcases eq_or_ne index other with rfl | hne
    · exact ⟨plan, List.getElem?_set_self (h.length_entities ▸ hlt), hsettled⟩
    · rw [List.getElem?_set_ne hne] at hother ⊢
      exact h.settled other hother
  · rcases eq_or_ne index other with rfl | hne
    · rw [List.getElem?_set_self (h.length_resolved ▸ hlt)] at hother
      cases hother
    · rw [List.getElem?_set_ne hne] at hother ⊢
      exact h.pending other hother

/-- What one call of the recursion does to the plans: it marks positions, and only those that the
start leads to. -/
structure Placing.Advances (plans : List EntityPlan) (index : ℕ) (state state' : Placing) :
    Prop where
  holds : state'.Holds plans
  kept : ∀ other : ℕ, state.resolved[other]? = some true → state'.resolved[other]? = some true
  /-- Positions that the start does not lead to are left alone. -/
  frame : ∀ other, other ≠ index → ¬ Above (follow plans EntityPlan.nextAnchor) index other →
    state'.resolved[other]? = state.resolved[other]?

inductive Placing.Ends (plans : List EntityPlan) (index : ℕ) (state' : Placing) :
    Exec UnresolvedConstraint Unit → Prop where
  | resolved (h : state'.resolved[index]? = some true) : Placing.Ends plans index state' (.ok ())
  | unsettled {issue : UnresolvedConstraint} (h : Unsettled plans index issue) :
      Placing.Ends plans index state' (Exec.fail issue)

theorem Placing.Advances.refl (h : state.Holds plans) : Placing.Advances plans index state state :=
  ⟨h, fun _ => id, fun _ _ _ => rfl⟩

theorem Placing.Advances.of_anchor {anchorIndex : ℕ} {state' : Placing}
    (h : Placing.Advances plans anchorIndex state state')
    (hfollow : follow plans EntityPlan.nextAnchor index = some anchorIndex) :
    Placing.Advances plans index state state' := by
  refine ⟨h.holds, h.kept, fun other _ habove => ?_⟩
  refine h.frame other ?_ fun hanchor => habove (.head hfollow hanchor)
  rintro rfl
  exact habove (.single hfollow)

theorem Placing.Advances.resolve {state' : Placing}
    (h : Placing.Advances plans index state state') (hlt : index < plans.length)
    (hsettled : Settled plans index plan) :
    Placing.Advances plans index state
      ⟨state'.entities.set index plan, state'.resolved.set index true⟩ := by
  refine ⟨h.holds.resolve hlt hsettled, fun other hother => ?_, fun other hne habove => ?_⟩
  · rcases eq_or_ne index other with rfl | hne
    · exact List.getElem?_set_self (h.holds.length_resolved ▸ hlt)
    · rw [List.getElem?_set_ne hne]
      exact h.kept other hother
  · rw [List.getElem?_set_ne hne.symm]
    exact h.frame other hne habove

theorem Placing.Advances.free (h : state.Holds plans) (hlt : index < plans.length)
    (hget : state.entities[index]? = some plan) (hsettled : Settled plans index plan) :
    Placing.Advances plans index state { state with resolved := state.resolved.set index true } := by
  have hset : state.entities.set index plan = state.entities := by
    obtain ⟨hindex, rfl⟩ := List.getElem?_eq_some_iff.mp hget
    exact List.set_getElem_self hindex
  have hresolve := (Placing.Advances.refl h).resolve hlt hsettled
  rw [hset] at hresolve
  exact hresolve

theorem resolvePlacement_resolved {positions : Std.ExtTreeMap SceneText ℕ} {fuel : ℕ}
    (h : state.resolved[index]? = some true) :
    resolvePlacement positions (fuel + 1) index state = (state, .ok ()) := by
  rw [resolvePlacement, h]

theorem placement_of_follow_none (hkeyed : Keyed plans)
    (hinside : PointsInside plans EntityPlan.nextAnchor) (hget : plans[index]? = some plan)
    (h : follow plans EntityPlan.nextAnchor index = none) : plan.placement = none := by
  by_contra hsome
  obtain ⟨placement, hplacement⟩ := Option.ne_none_iff_exists'.mp hsome
  have hnext : plan.nextAnchor = some (placement.anchor, placement.relationIndex) := by
    rw [EntityPlan.nextAnchor, hplacement]
    rfl
  obtain ⟨anchorIndex, hanchor⟩ := TreeMap.mem_iff.mp (hkeyed.mem_keyIndex.mpr
    (hinside plan (List.mem_of_getElem? hget) _ _ hnext))
  simp [follow, hget, hnext, hanchor] at h

theorem placement_of_follow_some {anchorIndex : ℕ}
    (h : follow plans EntityPlan.nextAnchor index = some anchorIndex) :
    ∃ plan placement, plans[index]? = some plan ∧ plan.placement = some placement ∧
      (keyIndex plans)[placement.anchor]? = some anchorIndex := by
  simp only [follow, EntityPlan.nextAnchor, Option.bind_eq_bind, Option.bind_eq_some_iff,
    Option.map_eq_some_iff] at h
  obtain ⟨plan, hplan, -, ⟨placement, hplacement, rfl⟩, hanchor⟩ := h
  exact ⟨plan, placement, hplan, hplacement, hanchor⟩

/-- **One call.** With fuel for the chain of anchors the recursion ends, and says of the start what
there is to say. -/
theorem resolvePlacement_spec (hkeyed : Keyed plans)
    (hinside : PointsInside plans EntityPlan.nextAnchor) {depth : ℕ}
    (hdepth : HasDepth (follow plans EntityPlan.nextAnchor) index depth) :
    ∀ {fuel : ℕ} {state : Placing}, depth < fuel → index < plans.length → state.Holds plans →
      ∃ state' outcome, resolvePlacement (keyIndex plans) fuel index state = (state', outcome) ∧
        Placing.Advances plans index state state' ∧ Placing.Ends plans index state' outcome := by
  induction hdepth with
  | @root index hroot =>
    intro fuel state hfuel hlt h
    obtain ⟨fuel, rfl⟩ := Nat.exists_eq_add_of_lt hfuel
    rw [Nat.zero_add]
    obtain ⟨resolved, hresolved⟩ : ∃ resolved, state.resolved[index]? = some resolved :=
      ⟨_, List.getElem?_eq_getElem (h.length_resolved ▸ hlt)⟩
    cases resolved with
    | true => exact ⟨state, _, resolvePlacement_resolved hresolved, .refl h, .resolved hresolved⟩
    | false =>
      have hget : plans[index]? = some plans[index] := List.getElem?_eq_getElem hlt
      have hplacement := placement_of_follow_none hkeyed hinside hget hroot
      have hentity := (h.pending index hresolved).trans hget
      refine ⟨_, _, ?_, .free h hlt hentity (.free hget hplacement), .resolved ?_⟩
      · rw [resolvePlacement, hresolved, hentity]
        simp only [hplacement]
      · exact List.getElem?_set_self (h.length_resolved ▸ hlt)
  | @step index anchorIndex depth hfollow hanchorDepth ih =>
    intro fuel state hfuel hlt h
    obtain ⟨fuel, rfl⟩ : ∃ n, fuel = n + 1 := ⟨fuel - 1, by omega⟩
    obtain ⟨resolved, hresolved⟩ : ∃ resolved, state.resolved[index]? = some resolved :=
      ⟨_, List.getElem?_eq_getElem (h.length_resolved ▸ hlt)⟩
    cases resolved with
    | true => exact ⟨state, _, resolvePlacement_resolved hresolved, .refl h, .resolved hresolved⟩
    | false =>
      obtain ⟨plan, placement, hget, hplacement, hanchor⟩ := placement_of_follow_some hfollow
      have hentity := (h.pending index hresolved).trans hget
      obtain ⟨state', outcome, hcall, hadvances, hends⟩ :=
        ih (Nat.lt_of_succ_lt_succ hfuel) (follow_lt hkeyed hfollow) h
      have hacyclic : ¬ Above (follow plans EntityPlan.nextAnchor) index index :=
        (HasDepth.step hfollow hanchorDepth).not_above_self
      -- The anchor does not lead back, so the subject was left alone meanwhile.
      have hpending : state'.resolved[index]? = some false := by
        refine (hadvances.frame index ?_ fun habove => hacyclic (.head hfollow habove)).trans
          hresolved
        rintro rfl
        exact hacyclic (.single hfollow)
      have hentity' := (hadvances.holds.pending index hpending).trans hget
      have hframe := hadvances.of_anchor hfollow
      rw [resolvePlacement, hresolved, hentity]
      simp only [hplacement, hanchor, hcall]
      cases hends with
      | unsettled hunsettled =>
        exact ⟨state', _, rfl, hframe, .unsettled (.follows hget hplacement hanchor hunsettled)⟩
      | resolved hdone =>
        obtain ⟨anchor, hanchorGet, hsettled⟩ := hadvances.holds.settled anchorIndex hdone
        simp only [hentity', hanchorGet]
        cases htranslation : placedTranslation plan anchor placement.kind with
        | error code =>
          exact ⟨state', _, rfl, hframe,
            .unsettled (.fails hget hplacement hanchor hsettled htranslation)⟩
        | ok translation =>
          refine ⟨_, _, rfl, hframe.resolve hlt
            (.placed hget hplacement hanchor hsettled htranslation), .resolved ?_⟩
          exact List.getElem?_set_self (hadvances.holds.length_resolved ▸ hlt)

structure Placing.Done (plans : List EntityPlan) (visited : List ℕ) (state : Placing)
    (issues : List UnresolvedConstraint) : Prop where
  holds : state.Holds plans
  sound : ∀ issue ∈ issues, ∃ index, Unsettled plans index issue
  visited : ∀ index ∈ visited, state.resolved[index]? = some true ∨
    ∃ issue ∈ issues, Unsettled plans index issue

theorem Placing.Done.run (hkeyed : Keyed plans)
    (hinside : PointsInside plans EntityPlan.nextAnchor) {fuel : ℕ} {rest : List ℕ}
    (hrest : ∀ index ∈ rest, index < plans.length ∧
      ∃ depth < fuel, HasDepth (follow plans EntityPlan.nextAnchor) index depth) :
    ∀ {visited : List ℕ} {state : Placing} {issues : List UnresolvedConstraint},
      Placing.Done plans visited state issues →
      ∃ state' issues', resolvePlacementsFrom (keyIndex plans) fuel rest state issues =
          .ok (state'.entities, issues') ∧
        Placing.Done plans (visited ++ rest) state' issues' := by
  induction rest with
  | nil =>
    intro visited state issues h
    exact ⟨state, issues, rfl, by rwa [List.append_nil]⟩
  | cons index rest ih =>
    intro visited state issues h
    obtain ⟨⟨hlt, depth, hfuel, hdepth⟩, hrest⟩ := List.forall_mem_cons.mp hrest
    obtain ⟨state', outcome, hcall, hadvances, hends⟩ :=
      resolvePlacement_spec hkeyed hinside hdepth hfuel hlt h.holds
    rw [resolvePlacementsFrom, hcall, List.append_cons]
    cases hends with
    | resolved hdone =>
      refine ih hrest ⟨hadvances.holds, h.sound, fun other hother => ?_⟩
      rcases List.mem_append.mp hother with hother | hother
      · exact (h.visited other hother).imp_left (hadvances.kept other)
      · obtain rfl := List.mem_singleton.mp hother
        exact .inl hdone
    | @unsettled issue hunsettled =>
      refine ih hrest ⟨hadvances.holds, fun reported hreported => ?_, fun other hother => ?_⟩
      · rcases List.mem_append.mp hreported with hreported | hreported
        · exact h.sound reported hreported
        · obtain rfl := List.mem_singleton.mp hreported
          exact ⟨index, hunsettled⟩
      · rcases List.mem_append.mp hother with hother | hother
        · refine (h.visited other hother).imp (hadvances.kept other) ?_
          rintro ⟨reported, hreported, hother⟩
          exact ⟨reported, List.mem_append_left _ hreported, hother⟩
        · obtain rfl := List.mem_singleton.mp hother
          exact .inr ⟨issue, List.mem_append_right _ (List.mem_singleton_self issue), hunsettled⟩

/-- **All placements.** Without cycles the pass succeeds. Every position ends up settled or reported,
and nothing else is reported. -/
theorem resolvePlacements_spec (hkeyed : Keyed plans)
    (hinside : PointsInside plans EntityPlan.nextAnchor)
    (hacyclic : ∀ index, ¬ Above (follow plans EntityPlan.nextAnchor) index index) :
    ∃ final issues, resolvePlacements (keyIndex plans) plans = .ok (final, issues) ∧
      final.length = plans.length ∧
      (∀ issue ∈ issues, ∃ index, Unsettled plans index issue) ∧
      ∀ index < plans.length, (∃ plan, final[index]? = some plan ∧ Settled plans index plan) ∨
        ∃ issue ∈ issues, Unsettled plans index issue := by
  have hstart : Placing.Done plans [] ⟨plans, List.replicate plans.length false⟩ [] := by
    refine ⟨⟨List.length_replicate, rfl, fun index hindex => ?_, fun _ _ => rfl⟩,
      fun issue hissue => absurd hissue List.not_mem_nil,
      fun index hindex => absurd hindex List.not_mem_nil⟩
    rw [List.getElem?_replicate] at hindex
    split at hindex <;> cases hindex
  have hpositions : ∀ index ∈ List.range plans.length, index < plans.length ∧
      ∃ depth < plans.length + 1, HasDepth (follow plans EntityPlan.nextAnchor) index depth := by
    intro index hindex
    have hrange : ∀ x ∈ List.range plans.length, ∀ y,
        follow plans EntityPlan.nextAnchor x = some y → y ∈ List.range plans.length :=
      fun _ _ target htarget => List.mem_range.mpr (follow_lt hkeyed htarget)
    obtain ⟨depth, hdepth⟩ := Walk.exists_hasDepth hrange hacyclic hindex
    have hle := hdepth.le_length fun x y hxy => List.mem_range.mpr (lt_of_follow hxy)
    rw [List.length_range] at hle
    exact ⟨List.mem_range.mp hindex, depth, Nat.lt_succ_of_le hle, hdepth⟩
  obtain ⟨state, issues, hrun, hdone⟩ := hstart.run hkeyed hinside hpositions
  refine ⟨state.entities, issues, hrun, hdone.holds.length_entities, hdone.sound, ?_⟩
  intro index hlt
  rw [List.nil_append] at hdone
  exact (hdone.visited index (List.mem_range.mpr hlt)).imp_left (hdone.holds.settled index)

end Recursion

end Cogniform
