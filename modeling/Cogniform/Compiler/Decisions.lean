import Cogniform.Compiler.Patch

/-!
# Decisions

Every entity has at most one decision about its identity and one for each default, and every plan at
most one about its relation. No two decisions of an entity compare equal, so the canonical order is
strict. Their text and that of the patch is at most six times the text of the imagination.
-/

namespace Cogniform

instance : Std.TransCmp CompilationDecision.canonicalCmp :=
  inferInstanceAs (Std.TransCmp (compareLex (compareOn CompilationDecision.entityKey)
    (compareLex (compareOn fun decision => decision.code.canonicalRank)
      (compareOn CompilationDecision.relationIndex))))

theorem CompilationDecision.canonicalCmp_ne {left right : CompilationDecision}
    (h : left.entityKey ≠ right.entityKey ∨
      left.code.canonicalRank ≠ right.code.canonicalRank) :
    left.canonicalCmp right ≠ .eq := by
  intro heq
  simp only [canonicalCmp, Ordering.then_eq_eq, Std.LawfulEqCmp.compare_eq_iff_eq] at heq
  exact h.elim (fun hkey => hkey heq.1) fun hrank => hrank heq.2.1

/-! ### Decisions about one entity -/

section Entity

variable {entity : ImaginedEntity} {entityId : StableEntityId} {chosen : List CompilationDecision}

structure Explained (entity : ImaginedEntity) (decisions : List CompilationDecision) : Prop where
  key : ∀ decision ∈ decisions, decision.entityKey = entity.key
  shape : ∀ decision ∈ decisions, decision.wellShaped = true
  rank : ∀ decision ∈ decisions, decision.code.canonicalRank < 5
  pairwise : decisions.Pairwise fun left right =>
    left.code.canonicalRank ≠ right.code.canonicalRank
  length : decisions.length + entity.name.isSome.toNat ≤ 4

def allDecisions (entity : ImaginedEntity) (entityId : StableEntityId)
    (code : CompilationDecisionCode) : List CompilationDecision :=
  [⟨code, entity.key, none, some entityId⟩] ++ ([defaultDecision .defaultName entity.key] ++
    [defaultDecision .defaultTransform entity.key] ++
    [defaultDecision .defaultMaterial entity.key])

theorem missing_sublist (present : Bool) (decision : CompilationDecision) :
    (if present then [] else [decision]).Sublist [decision] := by
  cases present with
  | true => exact List.nil_sublist _
  | false => exact List.Sublist.refl _

theorem Chosen.sublist (h : Chosen entity entityId chosen) :
    ∃ code, (code = .generatedEntityId ∨ code = .preferredEntityIdSubstituted) ∧
      (chosen ++ (planEntity entity entityId).2).Sublist (allDecisions entity entityId code) := by
  have hdefaults : (planEntity entity entityId).2.Sublist
      ([defaultDecision .defaultName entity.key] ++
        [defaultDecision .defaultTransform entity.key] ++
        [defaultDecision .defaultMaterial entity.key]) :=
    ((missing_sublist ..).append (missing_sublist ..)).append (missing_sublist ..)
  cases h with
  | preferred => exact ⟨_, .inl rfl, (List.nil_sublist _).append hdefaults⟩
  | generated => exact ⟨_, .inl rfl, (List.Sublist.refl _).append hdefaults⟩
  | substituted => exact ⟨_, .inr rfl, (List.Sublist.refl _).append hdefaults⟩

theorem Chosen.length_le (h : Chosen entity entityId chosen) :
    (chosen ++ (planEntity entity entityId).2).length + entity.name.isSome.toNat ≤ 4 := by
  have hmissing : ∀ (present : Bool) (decision : CompilationDecision),
      (if present then [] else [decision]).length + present.toNat = 1 := by
    intro present decision
    cases present <;> rfl
  have hname := hmissing entity.name.isSome (defaultDecision .defaultName entity.key)
  have htransform := hmissing entity.transform.isSome (defaultDecision .defaultTransform entity.key)
  have hmaterial := hmissing entity.material.isSome (defaultDecision .defaultMaterial entity.key)
  have hchosen : chosen.length ≤ 1 := by
    cases h with
    | preferred => exact Nat.zero_le _
    | generated => exact Nat.le_refl _
    | substituted => exact Nat.le_refl _
  simp only [planEntity, List.length_append]
  omega

theorem Chosen.explained (h : Chosen entity entityId chosen) :
    Explained entity (chosen ++ (planEntity entity entityId).2) := by
  obtain ⟨code, hcode, hsublist⟩ := h.sublist
  -- Everything but the number is inherited from the full list.
  have hall : Explained { entity with name := none } (allDecisions entity entityId code) := by
    rcases hcode with rfl | rfl <;> constructor <;>
      simp [allDecisions, defaultDecision, CompilationDecision.wellShaped,
        CompilationDecisionCode.canonicalRank]
  exact ⟨fun decision hmem => hall.key decision (hsublist.mem hmem),
    fun decision hmem => hall.shape decision (hsublist.mem hmem),
    fun decision hmem => hall.rank decision (hsublist.mem hmem),
    hall.pairwise.sublist hsublist, h.length_le⟩

end Entity

namespace PlannedFrom

variable {scene : CompilationSceneView} {usedIds : Std.ExtTreeSet StableEntityId}
  {entities : List ImaginedEntity} {plans : List EntityPlan}
  {decisions : List CompilationDecision}

theorem shape_decisions (h : PlannedFrom scene usedIds entities plans decisions) :
    ∀ decision ∈ decisions, decision.wellShaped = true ∧ decision.code.canonicalRank < 5 ∧
      decision.entityKey ∈ entities.map ImaginedEntity.key := by
  induction h with
  | nil =>
    intro decision hmem
    cases hmem
  | cons _ _ hchosen _ ih =>
    intro decision hmem
    have hexplained := hchosen.explained
    rcases List.mem_append.mp hmem with hmem | hmem
    · refine ⟨hexplained.shape decision hmem, hexplained.rank decision hmem, ?_⟩
      rw [hexplained.key decision hmem]
      exact List.mem_cons_self
    · obtain ⟨hshape, hrank, hkey⟩ := ih decision hmem
      exact ⟨hshape, hrank, List.mem_cons_of_mem _ hkey⟩

theorem pairwise_decisions (h : PlannedFrom scene usedIds entities plans decisions)
    (hnodup : (entities.map ImaginedEntity.key).Nodup) :
    decisions.Pairwise fun left right => left.canonicalCmp right ≠ .eq := by
  induction h with
  | nil => exact .nil
  | cons _ _ hchosen hrest ih =>
    rw [List.map_cons, List.nodup_cons] at hnodup
    have hexplained := hchosen.explained
    refine List.pairwise_append.mpr ⟨hexplained.pairwise.imp fun hrank =>
      CompilationDecision.canonicalCmp_ne (.inr hrank), ih hnodup.2, fun left hleft right hright =>
        CompilationDecision.canonicalCmp_ne (.inl ?_)⟩
    rw [hexplained.key left hleft]
    intro heq
    exact hnodup.1 (heq ▸ (hrest.shape_decisions right hright).2.2)

theorem length_decisions (h : PlannedFrom scene usedIds entities plans decisions) :
    decisions.length ≤ 4 * entities.length := by
  induction h with
  | nil => exact Nat.le_refl _
  | cons _ _ hchosen _ ih =>
    have hlength := hchosen.length_le
    rw [List.length_append, List.length_cons]
    omega

theorem text_decisions (h : PlannedFrom scene usedIds entities plans decisions) :
    (decisions.map fun decision => textLen decision.entityKey).sum +
        (entities.map ImaginedEntity.outputTextBytes).sum ≤
      5 * (entities.map ImaginedEntity.textBytes).sum := by
  induction h with
  | nil => exact Nat.le_refl _
  | @cons _ entity _ entityId chosen _ _ _ _ hchosen _ ih =>
    have hexplained := hchosen.explained
    have hlength := hchosen.length_le
    have htext : ((chosen ++ (planEntity entity entityId).2).map
        fun decision => textLen decision.entityKey).sum =
        (chosen ++ (planEntity entity entityId).2).length * textLen entity.key := by
      rw [List.map_congr_left fun decision hmem => congrArg textLen (hexplained.key decision hmem),
        List.map_const', List.sum_replicate_nat]
    have hoffer : (chosen ++ (planEntity entity entityId).2).length * textLen entity.key +
        entity.outputTextBytes ≤ 5 * entity.textBytes := by
      rw [ImaginedEntity.outputTextBytes, ImaginedEntity.textBytes]
      cases hname : entity.name with
      | none =>
        rw [hname] at hlength
        have := Nat.mul_le_mul_right (textLen entity.key) hlength
        simp only [Option.isSome_none, Bool.toNat_false, Nat.add_zero] at this
        simp only [Option.getD_none, Option.elim_none]
        omega
      | some name =>
        rw [hname] at hlength
        simp only [Option.isSome_some, Bool.toNat_true] at hlength
        have := Nat.mul_le_mul_right (textLen entity.key) (Nat.le_of_lt_succ hlength)
        simp only [Option.getD_some, Option.elim_some]
        omega
    rw [List.map_append, List.sum_append, List.map_cons, List.sum_cons, List.map_cons,
      List.sum_cons]
    omega

end PlannedFrom

/-! ### Decisions about relations -/

def ImaginationRelation.decision (relation : ImaginationRelation) (index : ℕ) :
    CompilationDecision :=
  ⟨match relation with
    | .parent .. => .parentRelationApplied
    | .above .. => .aboveRelationApplied
    | .rightOf .. => .rightOfRelationApplied,
  relation.subject, some (relationPosition index), none⟩

theorem ImaginationRelation.wellShaped_decision (relation : ImaginationRelation) (index : ℕ) :
    (relation.decision index).wellShaped = true := by
  cases relation <;> rfl

theorem ImaginationRelation.rank_decision (relation : ImaginationRelation) (index : ℕ) :
    5 ≤ (relation.decision index).code.canonicalRank := by
  cases relation with
  | parent => exact (by decide : (5 : UInt8) ≤ 5)
  | above => exact (by decide : (5 : UInt8) ≤ 6)
  | rightOf => exact (by decide : (5 : UInt8) ≤ 7)

theorem AssignedBy.relationDecisions {keys : List SceneText}
    {relations : List ImaginationRelation} {plan plan' : EntityPlan} (hblank : plan.Blank)
    (h : AssignedBy keys relations relations.length plan plan') :
    (relationDecisions plan' = [] ∧ ∀ (index : ℕ) (relation : ImaginationRelation), Accepts keys relations index →
      relations[index]? = some relation → relation.subject ≠ plan.key) ∨
    ∃ (index : ℕ) (relation : ImaginationRelation), relations[index]? = some relation ∧ relation.subject = plan.key ∧
      relationDecisions plan' = [relation.decision index] := by
  cases h with
  | free hfree =>
    refine .inl ⟨?_, fun index relation haccepts hget =>
      hfree index (List.getElem?_eq_some_iff.mp hget).1 haccepts relation hget⟩
    rw [Cogniform.relationDecisions, hblank.2.1, hblank.2.2]
    rfl
  | @taken index relation _ _ hget hsubject =>
    refine .inr ⟨index, relation, hget, hsubject, ?_⟩
    cases relation with
    | parent =>
      simp [Cogniform.relationDecisions, ImaginationRelation.assign, hblank.2.2,
        ImaginationRelation.decision, hsubject]
    | above =>
      simp [Cogniform.relationDecisions, ImaginationRelation.assign, hblank.2.1,
        ImaginationRelation.decision, hsubject]
    | rightOf =>
      simp [Cogniform.relationDecisions, ImaginationRelation.assign, hblank.2.1,
        ImaginationRelation.decision, hsubject]

theorem flatMap_sublist {α β γ : Type} {f : α → List β} {key : β → γ} {origin : α → γ}
    {items : List α} (h : ∀ item ∈ items, f item = [] ∨ ∃ b, f item = [b] ∧ key b = origin item) :
    ((items.flatMap f).map key).Sublist (items.map origin) := by
  induction items with
  | nil => exact List.Sublist.refl _
  | cons item items ih =>
    obtain ⟨hitem, hitems⟩ := List.forall_mem_cons.mp h
    rw [List.flatMap_cons, List.map_append, List.map_cons]
    rcases hitem with hnil | ⟨b, hb, hkey⟩
    · rw [hnil]
      exact (ih hitems).cons _
    · rw [hb, ← hkey]
      exact (ih hitems).cons_cons _

section Relations

variable {imagination : ImaginationEnvelope} {scene : CompilationSceneView}
  {base plans final : List EntityPlan} {decisions : List CompilationDecision}
  (hplanned : Planned imagination scene base decisions)
  (h : Complete imagination scene base plans final)

include hplanned h

theorem Complete.relationDecisions {plan : EntityPlan} (hplan : plan ∈ final) :
    (relationDecisions plan = [] ∧ ∀ (index : ℕ) (relation : ImaginationRelation),
      Accepts imagination.keys imagination.relations index →
      imagination.relations[index]? = some relation → relation.subject ≠ plan.key) ∨
    ∃ (index : ℕ) (relation : ImaginationRelation), imagination.relations[index]? = some relation ∧
      relation.subject = plan.key ∧ relationDecisions plan = [relation.decision index] := by
  have hpair : (plan.key, Cogniform.relationDecisions plan) ∈
      plans.map fun plan => (plan.key, Cogniform.relationDecisions plan) := by
    rw [← h.map_eq fun _ _ => rfl]
    exact List.mem_map_of_mem hplan
  obtain ⟨assigned, hassigned, heq⟩ := List.mem_map.mp hpair
  obtain ⟨hkey, hdecisions⟩ := Prod.mk.inj heq
  obtain ⟨index, hget⟩ := List.mem_iff_getElem?.mp hassigned
  obtain ⟨planned, hplannedGet, hby⟩ := h.assigning.get hget
  rw [← hdecisions, ← hkey, hby.key, ← hplanned.keys_eq]
  exact hby.relationDecisions (hplanned.blank planned (List.mem_of_getElem? hplannedGet))

theorem Complete.keys_relationDecisions :
    ((final.flatMap Cogniform.relationDecisions).map CompilationDecision.entityKey).Sublist
      imagination.keys := by
  rw [← hplanned.keys_eq, ← h.keys_eq]
  refine flatMap_sublist fun plan hplan => ?_
  rcases h.relationDecisions hplanned hplan with ⟨hnil, -⟩ | ⟨index, relation, -, hkey, hdecision⟩
  · exact .inl hnil
  · exact .inr ⟨relation.decision index, hdecision, hkey⟩

theorem Complete.exists_relation {decision : CompilationDecision}
    (hmem : decision ∈ final.flatMap Cogniform.relationDecisions) :
    ∃ (index : ℕ) (relation : ImaginationRelation), imagination.relations[index]? = some relation ∧
      decision = relation.decision index := by
  obtain ⟨plan, hplan, hdecision⟩ := List.mem_flatMap.mp hmem
  rcases h.relationDecisions hplanned hplan with ⟨hnil, -⟩ | ⟨index, relation, hget, -, hother⟩
  · rw [hnil] at hdecision
    cases hdecision
  · rw [hother, List.mem_singleton] at hdecision
    exact ⟨index, relation, hget, hdecision⟩

theorem Complete.mem_relationDecisions {decision : CompilationDecision}
    (hmem : decision ∈ final.flatMap Cogniform.relationDecisions) :
    decision.wellShaped = true ∧ 5 ≤ decision.code.canonicalRank ∧
      decision.entityKey ∈ imagination.relations.map ImaginationRelation.subject := by
  obtain ⟨index, relation, hget, rfl⟩ := h.exists_relation hplanned hmem
  exact ⟨relation.wellShaped_decision index, relation.rank_decision index,
    List.mem_map.mpr ⟨relation, List.mem_of_getElem? hget, rfl⟩⟩

theorem Complete.shape_decisions :
    ∀ decision ∈ decisions ++ final.flatMap Cogniform.relationDecisions,
      decision.wellShaped = true := by
  intro decision hmem
  rcases List.mem_append.mp hmem with hmem | hmem
  · exact (hplanned.plannedFrom.shape_decisions decision hmem).1
  · exact (h.mem_relationDecisions hplanned hmem).1

theorem Complete.pairwise_decisions :
    (decisions ++ final.flatMap Cogniform.relationDecisions).Pairwise
      fun left right => left.canonicalCmp right ≠ .eq := by
  have hkeys := hplanned.nodup.sublist (h.keys_relationDecisions hplanned)
  refine List.pairwise_append.mpr ⟨hplanned.plannedFrom.pairwise_decisions hplanned.nodup,
    (List.pairwise_map.mp hkeys).imp fun hne => CompilationDecision.canonicalCmp_ne (.inl hne),
    fun left hleft right hright => CompilationDecision.canonicalCmp_ne (.inr fun hrank => ?_)⟩
  have hlow := (hplanned.plannedFrom.shape_decisions left hleft).2.1
  have hhigh := (h.mem_relationDecisions hplanned hright).2.1
  rw [hrank] at hlow
  exact absurd hlow (UInt8.not_lt.mpr hhigh)

theorem Complete.length_decisions :
    (decisions ++ final.flatMap Cogniform.relationDecisions).length ≤
      4 * imagination.entities.length + imagination.relations.length := by
  have hkeys := hplanned.nodup.sublist (h.keys_relationDecisions hplanned)
  have hrelations := (List.subperm_of_subset hkeys fun key hkey => by
    obtain ⟨decision, hdecision, rfl⟩ := List.mem_map.mp hkey
    exact (h.mem_relationDecisions hplanned hdecision).2.2).length_le
  rw [List.length_map, List.length_map] at hrelations
  have hentities := hplanned.plannedFrom.length_decisions
  rw [ImaginationEnvelope.sortedEntities, List.length_insertionSort] at hentities
  rw [List.length_append]
  omega

theorem Complete.text_decisions :
    ((decisions ++ final.flatMap Cogniform.relationDecisions).map
        fun decision => textLen decision.entityKey).sum +
        (imagination.entities.map ImaginedEntity.outputTextBytes).sum ≤
      6 * (imagination.entities.map ImaginedEntity.textBytes).sum := by
  have hperm := List.perm_insertionSort
    (fun left right : ImaginedEntity => (compare left.key right.key).isLE) imagination.entities
  have hplan := hplanned.plannedFrom.text_decisions
  rw [ImaginationEnvelope.sortedEntities, (hperm.map _).sum_eq, (hperm.map _).sum_eq] at hplan
  have hkeys := ((h.keys_relationDecisions hplanned).map textLen).sum_le_sum
    fun _ _ => Nat.zero_le _
  rw [List.map_map, ImaginationEnvelope.keys, ImaginationEnvelope.sortedEntities, List.map_map,
    (hperm.map _).sum_eq] at hkeys
  have htext : (imagination.entities.map (textLen ∘ ImaginedEntity.key)).sum ≤
      (imagination.entities.map ImaginedEntity.textBytes).sum :=
    List.sum_le_sum fun entity _ => Nat.le_add_right _ _
  rw [List.map_append, List.sum_append]
  have hrelations : ((final.flatMap Cogniform.relationDecisions).map
      fun decision => textLen decision.entityKey).sum ≤
      (imagination.entities.map (textLen ∘ ImaginedEntity.key)).sum := hkeys
  omega

end Relations

end Cogniform
