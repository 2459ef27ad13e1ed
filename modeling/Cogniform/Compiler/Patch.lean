import Cogniform.Compiler.Realise

/-!
# The size of the patch

Validation of an imagination predicts the operations, components, text and logical size of the patch
it becomes. The prediction and the patch count the same things, so a patch that is built is valid.
-/

namespace Cogniform

theorem min_sum_min {α : Type} (size : α → ℕ) (limit : ℕ) (items : List α) (total : ℕ) :
    min (total + (items.map fun item => min (size item) limit).sum) limit =
      min (total + (items.map size).sum) limit := by
  induction items generalizing total with
  | nil => rfl
  | cons item items ih =>
    have hleft := ih (total + min (size item) limit)
    have hright := ih (total + size item)
    simp only [List.map_cons, List.sum_cons, ← Nat.add_assoc]
    omega

theorem validateOperations_eq {limits : RuntimeLimits} {operations : List SceneOperation}
    (h : ∀ operation ∈ operations, operation.validate = .ok () ∧
      operation.exceedsEntityLimit limits = false) :
    ∀ {components text : ℕ}, components ≤ 2 ^ 64 - 1 → text ≤ 2 ^ 64 - 1 →
      validateOperations limits operations components text =
        .ok (min (components +
            (operations.map fun operation => count64 operation.componentCount).sum) (2 ^ 64 - 1),
          min (text + (operations.map SceneOperation.textBytes).sum) (2 ^ 64 - 1)) := by
  induction operations with
  | nil =>
    intro components text hcomponents htext
    have hleft : min (components + 0) (2 ^ 64 - 1) = components := Nat.min_eq_left hcomponents
    have hright : min (text + 0) (2 ^ 64 - 1) = text := Nat.min_eq_left htext
    rw [validateOperations, List.map_nil, List.map_nil, List.sum_nil, hleft, hright]
  | cons first rest ih =>
    intro components text _ _
    obtain ⟨⟨hvalid, hlimit⟩, hrest⟩ := List.forall_mem_cons.mp h
    rw [validateOperations, hvalid]
    simp only [hlimit, Bool.false_eq_true, if_false]
    rw [ih hrest (satAdd_le _ _) (satAdd_le _ _)]
    simp only [List.map_cons, List.sum_cons, satAdd]
    congr 2 <;> omega

theorem validatePatchBudget_eq_ok {budget : PatchBudget} {limits : RuntimeLimits} :
    validatePatchBudget budget limits = .ok () ↔
      budget.maxOperations.get ≤ limits.maxOperations.get ∧
      budget.maxComponents.get ≤ limits.maxComponents.get ∧
      budget.maxTextBytes.get ≤ limits.maxTextBytes.get ∧
      budget.maxDecodedBytes.get ≤ limits.maxDecodedBytes.get := by
  rw [validatePatchBudget]
  simp only [← Nat.not_lt]
  split
  · simp_all
  split
  · simp_all
  split
  · simp_all
  split <;> simp_all

/-! ### Operations of the patch -/

section Operations

variable {plan : EntityPlan}

theorem createOperation_textBytes : (createOperation plan).textBytes = textLen plan.name := by
  simp only [createOperation, SceneOperation.textBytes, List.foldl_cons, List.foldl_nil,
    ComponentValue.textBytes, satAdd, count64, textLen]
  omega

theorem createOperation_logicalSizeBytes :
    (createOperation plan).logicalSizeBytes = min (106 + textLen plan.name) (2 ^ 64 - 1) := by
  simp only [createOperation, SceneOperation.logicalSizeBytes, List.foldl_cons, List.foldl_nil,
    ComponentValue.logicalSizeBytes, satAdd, count64, textLen]
  omega

theorem createOperation_validate (h : plan.transform.rotation.isNonZero) :
    (createOperation plan).validate = .ok () := by
  simp only [createOperation, SceneOperation.validate, SceneOperation.validateComponents,
    ComponentValue.validate, h, Bool.not_true, Bool.false_eq_true, if_false]
  rfl

end Operations

theorem ImaginedEntity.isNonZero_of_validate {entity : ImaginedEntity}
    (h : entity.validate = .ok ()) : entity.initialTransform.rotation.isNonZero := by
  obtain ⟨⟨⟩, -, h⟩ := Exec.bind_eq_ok.mp h
  obtain ⟨⟨⟩, htransform, -⟩ := Exec.bind_eq_ok.mp h
  rw [ImaginedEntity.initialTransform]
  cases hentity : entity.transform with
  | none => decide +kernel
  | some transform =>
    rw [hentity, Option.elim_some, ComponentValue.validate] at htransform
    by_contra hzero
    rw [if_pos (by rw [Bool.not_eq_true'] ; exact Bool.eq_false_iff.mpr hzero)] at htransform
    cases htransform

section Built

variable {imagination : ImaginationEnvelope} {scene : CompilationSceneView}
  {base plans final : List EntityPlan} {decisions : List CompilationDecision}

variable (hplanned : Planned imagination scene base decisions)
  (h : Complete imagination scene base plans final)

include hplanned h

theorem Complete.map_entities {γ : Type} {f : EntityPlan → γ} {g : ImaginedEntity → γ}
    (hmoved : ∀ plan translation, f (plan.moved translation) = f plan)
    (hassign : ∀ (relation : ImaginationRelation) relationIndex plan,
      f (relation.assign relationIndex plan) = f plan)
    (hplan : ∀ entity entityId, f (planEntity entity entityId).1 = g entity) :
    final.map f = imagination.sortedEntities.map g := by
  have hassigned : base.map f = plans.map f :=
    map_eq_of_forall₂ h.assigning.forall₂ fun plan plan' hby => by
      cases hby with
      | free => rfl
      | taken => exact (hassign ..).symm
  have hentities : imagination.sortedEntities.map g = base.map f :=
    map_eq_of_forall₂ hplanned.plannedFrom.plans_eq fun entity plan heq => by
      rw [heq, hplan]
  rw [h.map_eq hmoved, ← hassigned, hentities]

theorem Complete.names_eq : final.map EntityPlan.name =
    imagination.sortedEntities.map fun entity => entity.name.getD entity.key :=
  h.map_entities hplanned (fun _ _ => rfl) (fun relation _ _ => by cases relation <;> rfl)
    fun _ _ => rfl

theorem Complete.rotations_eq : (final.map fun plan => plan.transform.rotation) =
    imagination.sortedEntities.map fun entity => entity.initialTransform.rotation :=
  h.map_entities hplanned (fun _ _ => rfl) (fun relation _ _ => by cases relation <;> rfl)
    fun _ _ => rfl

omit hplanned in
theorem Complete.nodup_subjects : (imagination.relations.map ImaginationRelation.subject).Nodup := by
  rw [List.nodup_iff_getElem?_ne_getElem?]
  intro i j hij hj heq
  rw [List.length_map] at hj
  have hgeti : imagination.relations[i]? = some imagination.relations[i] :=
    List.getElem?_eq_getElem (hij.trans hj)
  have hgetj : imagination.relations[j]? = some imagination.relations[j] :=
    List.getElem?_eq_getElem hj
  rw [List.getElem?_map, List.getElem?_map, hgeti, hgetj] at heq
  exact hij.ne ((h.accepts hgeti).unique (h.accepts hgetj) hgeti hgetj (Option.some.inj heq))

theorem Complete.length_reparents : (reparents final).length = imagination.reparentTotal := by
  have hkeyed := h.keyed hplanned.keyed
  have hcount : (reparents final).length = (final.filter fun plan => plan.parent.isSome).length := by
    rw [reparents, List.length_filterMap_eq_countP, ← List.countP_eq_length_filter]
    refine List.countP_congr fun plan hplan => ?_
    cases hparent : plan.parent with
    | none => simp
    | some parent =>
      obtain ⟨candidate, hcandidate, hkey⟩ :=
        List.mem_map.mp (h.parent_mem hplanned plan hplan parent hparent)
      have hfind := hkeyed.find?_eq_some.mpr ⟨hcandidate, hkey⟩
      simp [hfind]
  -- Children and subjects of parent relations are the same keys.
  have hperm : ((final.filter fun plan => plan.parent.isSome).map EntityPlan.key).Perm
      ((imagination.relations.filter ImaginationRelation.addsPatchOperation).map
        ImaginationRelation.subject) := by
    refine (List.perm_ext_iff_of_nodup (hkeyed.sublist (List.filter_sublist.map _))
      (h.nodup_subjects.sublist (List.filter_sublist.map _))).mpr fun key => ?_
    simp only [List.mem_map, List.mem_filter]
    constructor
    · rintro ⟨plan, ⟨hplan, hsome⟩, rfl⟩
      obtain ⟨parent, hparent⟩ := Option.isSome_iff_exists.mp hsome
      obtain ⟨index, relation, -, hget, hsubject, htarget⟩ :=
        (h.parent_iff hplanned hplan).mp hparent
      refine ⟨relation, ⟨List.mem_of_getElem? hget, ?_⟩, hsubject⟩
      cases relation with
      | parent => rfl
      | above => cases htarget
      | rightOf => cases htarget
    · rintro ⟨relation, ⟨hmem, hadds⟩, rfl⟩
      cases relation with
      | parent child parent =>
        obtain ⟨subject, hsubject, related, -, hchild, -, hadopted⟩ := h.adopted hplanned hmem
        exact ⟨subject, ⟨hsubject, by rw [hadopted]; rfl⟩, hchild⟩
      | above => cases hadds
      | rightOf => cases hadds
  have hlength := hperm.length_eq
  rw [List.length_map, List.length_map] at hlength
  rw [hcount, hlength, ImaginationEnvelope.reparentTotal]

theorem Complete.mem_operations {operation : SceneOperation}
    (hmem : operation ∈ (builtPatch imagination final).operations) :
    (∃ plan ∈ final, operation = createOperation plan) ∨
      ∃ child ∈ final, ∃ parent ∈ final, child.entityId ≠ parent.entityId ∧
        operation = .reparent child.entityId (some parent.entityId) := by
  rcases List.mem_append.mp hmem with hcreate | hreparent
  · obtain ⟨plan, hplan, rfl⟩ := List.mem_map.mp hcreate
    exact .inl ⟨plan, hplan, rfl⟩
  · obtain ⟨child, hchild, parent, hparentMem, hparent, rfl⟩ :=
      (h.mem_reparents hplanned).mp hreparent
    refine .inr ⟨child, hchild, parent, hparentMem, fun hids => ?_, rfl⟩
    obtain ⟨index, relation, haccepts, hget, hsubject, htarget⟩ :=
      (h.parent_iff hplanned hchild).mp hparent
    have hne := ((accepts_iff hget).mp haccepts).2.2.1
    rw [hsubject, ImaginationRelation.related_of_parentKey htarget] at hne
    exact hne (congrArg EntityPlan.key
      (List.inj_on_of_nodup_map (h.nodup_ids hplanned) hchild hparentMem hids))

theorem Complete.sum_operations (size : SceneOperation → ℕ) (created : SceneText → ℕ) (parented : ℕ)
    (hcreated : ∀ plan, size (createOperation plan) = created plan.name)
    (hparented : ∀ child parent, size (.reparent child (some parent)) = parented) :
    ((builtPatch imagination final).operations.map size).sum =
      (imagination.entities.map fun entity => created (entity.name.getD entity.key)).sum +
        imagination.reparentTotal * parented := by
  have hreparents : (reparents final).map size =
      List.replicate imagination.reparentTotal parented := by
    rw [← h.length_reparents hplanned]
    refine List.eq_replicate_iff.mpr ⟨List.length_map .., fun value hvalue => ?_⟩
    obtain ⟨operation, hoperation, rfl⟩ := List.mem_map.mp hvalue
    obtain ⟨child, -, parent, -, -, rfl⟩ := (h.mem_reparents hplanned).mp hoperation
    exact hparented ..
  have hcreates : (final.map createOperation).map size =
      imagination.sortedEntities.map fun entity => created (entity.name.getD entity.key) := by
    have hnames := congrArg (List.map created) (h.names_eq hplanned)
    rw [List.map_map, List.map_map] at hnames
    rw [List.map_map]
    exact (List.map_congr_left fun plan _ => hcreated plan).trans hnames
  have hperm := List.perm_insertionSort
    (fun left right : ImaginedEntity => (compare left.key right.key).isLE) imagination.entities
  have hsorted : (imagination.sortedEntities.map fun entity =>
      created (entity.name.getD entity.key)).sum =
      (imagination.entities.map fun entity => created (entity.name.getD entity.key)).sum :=
    (hperm.map _).sum_eq
  rw [builtPatch, List.map_append, List.sum_append, hcreates, hreparents,
    List.sum_replicate_nat, hsorted]

end Built

structure Predicted (imagination : ImaginationEnvelope) (patch : ScenePatch) : Prop where
  operations : patch.operations.length = imagination.entities.length + imagination.reparentTotal
  components : (patch.operations.map SceneOperation.componentCount).sum =
    imagination.entities.length * 4
  text : patch.textBytes = min imagination.outputTextTotal (2 ^ 64 - 1)
  size : patch.logicalSizeBytes = imagination.normalizedPatchSizeBytes

section Predicted

variable {imagination : ImaginationEnvelope} {scene : CompilationSceneView}
  {base plans final : List EntityPlan} {decisions : List CompilationDecision}
  (hplanned : Planned imagination scene base decisions)
  (h : Complete imagination scene base plans final)
  (hrelations : imagination.relations.length < 2 ^ 29)

include hplanned h

theorem Complete.length_operations : (builtPatch imagination final).operations.length =
    imagination.entities.length + imagination.reparentTotal := by
  have hsum : ((builtPatch imagination final).operations.map fun _ => 1).sum =
      (imagination.entities.map fun _ => 1).sum + imagination.reparentTotal * 1 :=
    h.sum_operations hplanned _ (fun _ => 1) 1 (fun _ => rfl) fun _ _ => rfl
  simpa using hsum

theorem Complete.sum_components :
    ((builtPatch imagination final).operations.map SceneOperation.componentCount).sum =
      imagination.entities.length * 4 := by
  have hsum : ((builtPatch imagination final).operations.map SceneOperation.componentCount).sum =
      (imagination.entities.map fun _ => 4).sum + imagination.reparentTotal * 0 :=
    h.sum_operations hplanned _ (fun _ => 4) 0 (fun _ => rfl) fun _ _ => rfl
  simpa using hsum

theorem Complete.sum_text :
    ((builtPatch imagination final).operations.map SceneOperation.textBytes).sum =
      (imagination.entities.map ImaginedEntity.outputTextBytes).sum := by
  have hsum : ((builtPatch imagination final).operations.map SceneOperation.textBytes).sum =
      (imagination.entities.map ImaginedEntity.outputTextBytes).sum +
        imagination.reparentTotal * 0 :=
    h.sum_operations hplanned _ textLen 0 (fun _ => createOperation_textBytes) fun _ _ => rfl
  simpa using hsum

theorem Complete.textBytes_eq :
    (builtPatch imagination final).textBytes = min imagination.outputTextTotal (2 ^ 64 - 1) := by
  have hdelivery : count64 (builtPatch imagination final).delivery.textBytes ≤ 2 ^ 64 - 1 :=
    Nat.min_le_right _ _
  rw [ScenePatch.textBytes, foldl_satAdd _ _ hdelivery, h.sum_text hplanned]
  rfl

include hrelations in
theorem Complete.logicalSizeBytes_eq : (builtPatch imagination final).logicalSizeBytes =
    imagination.normalizedPatchSizeBytes := by
  have hreparents : imagination.reparents = imagination.reparentTotal := by
    have hle : imagination.reparentTotal ≤ imagination.relations.length :=
      List.length_filter_le _ _
    exact Nat.min_eq_left (hle.trans (hrelations.le.trans (by decide)))
  have hsum : ((builtPatch imagination final).operations.map
      SceneOperation.logicalSizeBytes).sum =
      (imagination.entities.map fun entity =>
        min (106 + entity.outputTextBytes) (2 ^ 64 - 1)).sum + imagination.reparentTotal * 34 :=
    h.sum_operations hplanned _ (fun name => min (106 + textLen name) (2 ^ 64 - 1)) 34
      (fun _ => createOperation_logicalSizeBytes) fun _ _ => rfl
  have hmin := min_sum_min (fun entity : ImaginedEntity => 106 + entity.outputTextBytes)
    (2 ^ 64 - 1) imagination.entities (71 + imagination.delivery.logicalSizeBytes +
      imagination.reparentTotal * 34)
  rw [ScenePatch.logicalSizeBytes, foldl_satAdd _ _ (satAdd_le _ _), hsum,
    ImaginationEnvelope.normalizedPatchSizeBytes_eq, hreparents]
  have hdelivery : (builtPatch imagination final).delivery = imagination.delivery := rfl
  rw [hdelivery]
  generalize (imagination.entities.map fun entity =>
    min (106 + entity.outputTextBytes) (2 ^ 64 - 1)).sum = saturated at hmin ⊢
  generalize (imagination.entities.map fun entity => 106 + entity.outputTextBytes).sum = total
    at hmin ⊢
  simp only [satAdd_satAdd]
  rw [satAdd]
  generalize 2 ^ 64 - 1 = limit at hmin ⊢
  omega

include hrelations in
theorem Complete.predicted : Predicted imagination (builtPatch imagination final) where
  operations := h.length_operations hplanned
  components := h.sum_components hplanned
  text := h.textBytes_eq hplanned
  size := h.logicalSizeBytes_eq hplanned hrelations

theorem Complete.operations_valid {limits : RuntimeLimits}
    (hadmissible : imagination.Admissible limits) :
    ∀ operation ∈ (builtPatch imagination final).operations, operation.validate = .ok () ∧
      operation.exceedsEntityLimit limits = false := by
  intro operation hmem
  rcases h.mem_operations hplanned hmem with ⟨plan, hplan, rfl⟩ |
    ⟨child, -, parent, -, hne, rfl⟩
  · have hrotation : plan.transform.rotation ∈
        imagination.sortedEntities.map fun entity => entity.initialTransform.rotation := by
      rw [← h.rotations_eq hplanned]
      exact List.mem_map_of_mem hplan
    obtain ⟨entity, hentity, hrotation⟩ := List.mem_map.mp hrotation
    refine ⟨createOperation_validate ?_, decide_eq_false (Nat.not_lt.mpr ?_)⟩
    · rw [← hrotation]
      exact ImaginedEntity.isNonZero_of_validate
        (hadmissible.entities_valid entity (ImaginationEnvelope.mem_sortedEntities.mp hentity))
    · exact hadmissible.componentsPerEntity
  · refine ⟨if_neg fun heq => hne (Option.some.inj heq).symm, rfl⟩

include hrelations in
theorem Complete.validate_patch {limits : RuntimeLimits}
    (hadmissible : imagination.Admissible limits)
    (hentities : imagination.entities.length < 2 ^ 29) :
    (builtPatch imagination final).validate limits = .ok () := by
  have hpredicted := h.predicted hplanned hrelations
  obtain ⟨hmaxOperations, hmaxComponents, hmaxText, hmaxDecoded⟩ :=
    validatePatchBudget_eq_ok.mp hadmissible.budget
  have hvalid := h.operations_valid hplanned hadmissible
  have hdelivery : count64 (builtPatch imagination final).delivery.textBytes ≤ 2 ^ 64 - 1 :=
    Nat.min_le_right _ _
  have hnonempty : 0 < imagination.entities.length :=
    List.length_pos_iff.mpr hadmissible.nonempty
  have hcounts : ((builtPatch imagination final).operations.map fun operation =>
      count64 operation.componentCount).sum = imagination.entities.length * 4 := by
    rw [← hpredicted.components]
    refine congrArg List.sum (List.map_congr_left fun operation hoperation => ?_)
    rcases h.mem_operations hplanned hoperation with ⟨plan, -, rfl⟩ | ⟨_, -, _, -, -, rfl⟩ <;> rfl
  have htext : min (count64 (builtPatch imagination final).delivery.textBytes +
      ((builtPatch imagination final).operations.map SceneOperation.textBytes).sum) (2 ^ 64 - 1) =
      min imagination.outputTextTotal (2 ^ 64 - 1) := by
    rw [h.sum_text hplanned]
    rfl
  obtain ⟨hoperations, hoperationsLimit⟩ := hadmissible.operations
  obtain ⟨hcomponents, hcomponentsLimit⟩ := hadmissible.components
  have hcomponentCount : count (imagination.entities.length * 4) =
      imagination.entities.length * 4 := Nat.min_eq_left (by omega)
  rw [hcomponentCount] at hcomponents hcomponentsLimit
  have hschema : validateSchema (builtPatch imagination final).schemaVersion = .ok () :=
    validateSchema_eq_ok.mpr hadmissible.schema
  have hbudget : (builtPatch imagination final).declaredBudget =
      imagination.declaredBudget.patch := rfl
  have hpositive : count (imagination.entities.length + imagination.reparentTotal) ≠ 0 := by
    rw [count]
    omega
  have hsize := hadmissible.patchSize
  have houtput := hadmissible.outputText
  rw [ScenePatch.validate, hschema, hpredicted.operations, hbudget]
  refine Exec.bind_eq_ok.mpr ⟨(), rfl, ?_⟩
  rw [if_neg hpositive, if_neg (by omega),
    validateOperations_eq hvalid (Nat.zero_le _) hdelivery, hcounts, htext, hpredicted.size]
  refine Exec.bind_eq_ok.mpr ⟨_, rfl, ?_⟩
  dsimp only
  rw [if_neg (by omega), if_neg (by omega), if_neg (by omega)]

end Predicted

end Cogniform
