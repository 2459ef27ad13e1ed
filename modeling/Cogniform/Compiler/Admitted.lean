import Cogniform.Compiler.Decisions

/-!
# Results are admitted

The compiler derives the limits of its results from those of imaginations, and what it completes is
within them. So of a valid imagination it never makes a patch or a result that it then refuses. Sums
saturate, in the sizes as in the limits; a sum that saturates exceeds no limit that does.
-/

namespace Cogniform

theorem validateOrder_eq_ok {α : Type} {cmp : α → α → Ordering}
    {duplicate nonCanonical : CompilationValidationError} {items : List α}
    (h : items.Pairwise fun left right => cmp left right = .lt) :
    validateOrder cmp duplicate nonCanonical items = .ok () := by
  induction items with
  | nil => rfl
  | cons first rest ih =>
    cases rest with
    | nil => rfl
    | cons second rest =>
      obtain ⟨hfirst, hrest⟩ := List.pairwise_cons.mp h
      rw [validateOrder, hfirst second List.mem_cons_self]
      exact ih hrest

def UnresolvedConstraint.textBytes (issue : UnresolvedConstraint) : ℕ :=
  optionalTextBytes issue.entityKey + optionalTextBytes issue.relatedKey

namespace CompilationResult

def reportText (result : CompilationResult) : ℕ :=
  (result.decisions.map fun decision => textLen decision.entityKey).sum +
    (result.unresolved.map UnresolvedConstraint.textBytes).sum

theorem textBytes_eq (result : CompilationResult) :
    result.textBytes =
      min (result.patch.elim 0 ScenePatch.textBytes + result.reportText) (2 ^ 64 - 1) := by
  have hdecisions : result.decisions.foldl (fun total decision =>
      satAdd total (count64 decision.entityKey.lenBytes)) 0 =
      min (0 + (result.decisions.map fun decision => textLen decision.entityKey).sum)
        (2 ^ 64 - 1) := foldl_satAdd _ _ (Nat.zero_le _)
  have hunresolved : ∀ total : ℕ, total ≤ 2 ^ 64 - 1 →
      result.unresolved.foldl (fun total issue =>
        satAdd (satAdd total (optionalTextBytes issue.entityKey))
          (optionalTextBytes issue.relatedKey)) total =
        min (total + (result.unresolved.map UnresolvedConstraint.textBytes).sum) (2 ^ 64 - 1) := by
    intro total htotal
    simp only [satAdd_satAdd]
    exact foldl_satAdd _ _ htotal
  simp only [textBytes, hdecisions, hunresolved _ (satAdd_le _ _), reportText]
  rw [satAdd]
  generalize 2 ^ 64 - 1 = limit
  omega

theorem logicalSizeBytes_eq (result : CompilationResult) :
    result.logicalSizeBytes = min (35 + result.patch.elim 0 ScenePatch.logicalSizeBytes +
      (result.decisions.map CompilationDecision.logicalSize).sum +
      (result.unresolved.map UnresolvedConstraint.logicalSize).sum) (2 ^ 64 - 1) := by
  have hdecisions := foldl_satAdd CompilationDecision.logicalSize result.decisions
    (Nat.zero_le (2 ^ 64 - 1))
  simp only [logicalSizeBytes, foldl_satAdd _ _ (satAdd_le _ _), hdecisions]
  rw [satAdd, satAdd]
  generalize 2 ^ 64 - 1 = limit
  omega

end CompilationResult

theorem CompilationDecision.logicalSize_le (decision : CompilationDecision)
    (h : decision.wellShaped = true) : decision.logicalSize ≤ 27 + textLen decision.entityKey := by
  have hfields : decision.relationIndex.isSome.toNat * 4 + decision.entityId.isSome.toNat * 16 ≤
      16 := by
    rw [wellShaped] at h
    cases hrelation : decision.relationIndex <;> cases hid : decision.entityId <;> simp
    rw [hrelation, hid] at h
    cases hcode : decision.code <;> rw [hcode] at h <;> cases h
  have hsize : decision.logicalSize ≤ 8 + textLen decision.entityKey +
      decision.relationIndex.isSome.toNat * 4 + decision.entityId.isSome.toNat * 16 := by
    simp only [logicalSize, satAdd, textLen]
    generalize 2 ^ 64 - 1 = limit
    omega
  omega

theorem UnresolvedConstraint.logicalSize_le (issue : UnresolvedConstraint) :
    issue.logicalSize ≤ 38 + issue.textBytes := by
  have hflag : ∀ flag : Bool, flag.toNat ≤ 1 := by decide
  have hrelation := hflag issue.relationIndex.isSome
  have hconstraint := hflag issue.constraintIndex.isSome
  have hid := hflag issue.entityId.isSome
  have hsize : issue.logicalSize ≤ 14 + issue.relationIndex.isSome.toNat * 4 +
      issue.constraintIndex.isSome.toNat * 4 + issue.textBytes +
      issue.entityId.isSome.toNat * 16 := by
    simp only [logicalSize, satAdd, textBytes]
    generalize 2 ^ 64 - 1 = limit
    omega
  omega

/-! ### Entries -/

theorem length_le_of_positions {positions : List UInt32} {bound : ℕ} (hnodup : positions.Nodup)
    (h : ∀ position ∈ positions, ∃ index < bound, position = .ofNat index) :
    positions.length ≤ bound := by
  have hsubset : positions ⊆ (List.range bound).map UInt32.ofNat := by
    intro position hposition
    obtain ⟨index, hlt, rfl⟩ := h position hposition
    exact List.mem_map_of_mem (List.mem_range.mpr hlt)
  have hlength := (List.subperm_of_subset hnodup hsubset).length_le
  rwa [List.length_map, List.length_range] at hlength

theorem length_eq_of_kinds {α β γ : Type} {f : α → Option β} {g : α → Option γ} {items : List α}
    (h : ∀ item ∈ items, (f item).isSome.toNat + (g item).isSome.toNat = 1) :
    items.length = (items.filterMap f).length + (items.filterMap g).length := by
  induction items with
  | nil => rfl
  | cons item items ih =>
    obtain ⟨hitem, hitems⟩ := List.forall_mem_cons.mp h
    rw [List.length_cons, ih hitems]
    cases hf : f item <;> cases hg : g item <;> rw [hf, hg] at hitem <;>
      simp [hf, hg] at hitem ⊢ <;> omega

theorem sum_filterMap {α β : Type} {f : α → Option β} {size : α → ℕ} {weight : β → ℕ}
    {items : List α} (h : ∀ item ∈ items, size item = (f item).elim 0 weight) :
    (items.map size).sum = ((items.filterMap f).map weight).sum := by
  induction items with
  | nil => rfl
  | cons item items ih =>
    obtain ⟨hitem, hitems⟩ := List.forall_mem_cons.mp h
    rw [List.map_cons, List.sum_cons, ih hitems, hitem]
    cases hf : f item with
    | none => rw [List.filterMap_cons_none hf, Option.elim_none, Nat.zero_add]
    | some b => rw [List.filterMap_cons_some hf, Option.elim_some, List.map_cons, List.sum_cons]

theorem ExactReport.length_le {imagination : ImaginationEnvelope} {scene : CompilationSceneView}
    {result : CompilationResult} (h : ExactReport imagination scene result) :
    result.unresolved.length ≤ imagination.relations.length + imagination.constraints.length := by
  have hkinds : result.unresolved.length =
      (result.unresolved.filterMap (·.relationIndex)).length +
        (result.unresolved.filterMap (·.constraintIndex)).length :=
    length_eq_of_kinds fun entry hentry => by
      rcases h.entry entry hentry with ⟨index, -, hrelation, hconstraint⟩ |
        ⟨index, -, hconstraint, hrelation⟩ <;> rw [hrelation, hconstraint] <;> rfl
  have hrelations := length_le_of_positions h.relations_nodup fun position hposition => by
    obtain ⟨entry, hentry, hindex⟩ := List.mem_filterMap.mp hposition
    rcases h.entry entry hentry with ⟨index, hlt, hrelation, -⟩ | ⟨index, -, -, hrelation⟩
    · exact ⟨index, hlt, Option.some.inj (hindex.symm.trans hrelation)⟩
    · cases hindex.symm.trans hrelation
  have hconstraints := length_le_of_positions h.constraints_nodup fun position hposition => by
    obtain ⟨entry, hentry, hindex⟩ := List.mem_filterMap.mp hposition
    rcases h.entry entry hentry with ⟨index, -, -, hconstraint⟩ | ⟨index, hlt, hconstraint, -⟩
    · cases hindex.symm.trans hconstraint
    · exact ⟨index, hlt, Option.some.inj (hindex.symm.trans hconstraint)⟩
  omega

section Entries

variable {imagination : ImaginationEnvelope} {scene : CompilationSceneView}
  {why : ℕ → ImaginationRelation → UnresolvedConstraintCode → Prop}
  {entries report : List UnresolvedConstraint}

theorem Entries.shape (h : Entries imagination scene why entries) :
    ∀ entry ∈ entries, entry.wellShaped = true := by
  intro entry hentry
  rcases h.sound entry hentry with hunmet | ⟨index, relation, code, -, hwhy, rfl⟩
  · obtain ⟨index, constraint, -, hcheck⟩ := mem_checkSceneConstraints.mp hunmet
    cases constraint with
    | entityExists =>
      rw [checkSceneConstraint] at hcheck
      split at hcheck <;> cases hcheck
      rfl
    | entityAbsent =>
      rw [checkSceneConstraint] at hcheck
      split at hcheck <;> cases hcheck
      rfl
  · obtain ⟨hmissing, hpresent⟩ := h.code index relation code hwhy
    cases code with
    | requiredEntityMissing => exact absurd rfl hmissing
    | requiredEntityPresent => exact absurd rfl hpresent
    | _ => rfl

def relationOf (imagination : ImaginationEnvelope) (entry : UnresolvedConstraint) :
    Option (ImaginationRelation × ℕ) := do
  let position ← entry.relationIndex
  let relation ← imagination.relations[position.toNat]?
  some (relation, position.toNat)

def relationText (relation : ImaginationRelation) : ℕ :=
  textLen relation.subject + textLen relation.related

theorem Entries.text_entry (h : Entries imagination scene why entries)
    (hrelations : imagination.relations.length < 2 ^ 29) {entry : UnresolvedConstraint}
    (hentry : entry ∈ entries) :
    entry.textBytes =
      (relationOf imagination entry).elim 0 fun (relation, _) => relationText relation := by
  rcases h.sound entry hentry with hunmet | ⟨index, relation, code, hget, -, rfl⟩
  · obtain ⟨index, constraint, -, hcheck⟩ := mem_checkSceneConstraints.mp hunmet
    rw [relationOf, (checkSceneConstraint_position hcheck).1]
    cases constraint with
    | entityExists =>
      rw [checkSceneConstraint] at hcheck
      split at hcheck <;> cases hcheck
      rfl
    | entityAbsent =>
      rw [checkSceneConstraint] at hcheck
      split at hcheck <;> cases hcheck
      rfl
  · have hlt : index < 2 ^ 29 := (List.getElem?_eq_some_iff.mp hget).1.trans hrelations
    have hposition : (relationPosition index).toNat = index := by
      rw [relationPosition_eq hlt, UInt32.toNat_ofNat', Nat.mod_eq_of_lt (by omega)]
    have hrelationOf : relationOf imagination (relation.issue index code) =
        some (relation, index) := by
      simp [relationOf, ImaginationRelation.issue, relationIssue, hposition, hget]
    rw [hrelationOf]
    rfl

theorem Entries.text_le (h : Entries imagination scene why entries)
    (hrelations : imagination.relations.length < 2 ^ 29)
    (hmem : ∀ entry, entry ∈ report ↔ entry ∈ entries)
    (hnodup : (report.filterMap (·.relationIndex)).Nodup) :
    (report.map UnresolvedConstraint.textBytes).sum ≤
      (imagination.relations.map relationText).sum := by
  have hpairs : (report.filterMap (relationOf imagination)).Nodup := by
    refine List.pairwise_filterMap.mpr ((List.pairwise_filterMap.mp hnodup).imp ?_)
    rintro left right hne pair hleft _ hright rfl
    simp only [relationOf, Option.bind_eq_bind, Option.bind_eq_some_iff,
      Option.some.injEq] at hleft hright
    obtain ⟨position, hposition, relation, -, rfl⟩ := hleft
    obtain ⟨position', hposition', relation', -, heq⟩ := hright
    refine hne position hposition position' hposition' ?_
    exact UInt32.toNat_inj.mp (Prod.mk.inj heq).2.symm
  have hsubset : report.filterMap (relationOf imagination) ⊆ imagination.relations.zipIdx := by
    rintro ⟨relation, index⟩ hpair
    obtain ⟨entry, -, hentry⟩ := List.mem_filterMap.mp hpair
    simp only [relationOf, Option.bind_eq_bind, Option.bind_eq_some_iff, Option.some.injEq,
      Prod.mk.injEq] at hentry
    obtain ⟨position, -, _, hget, rfl, rfl⟩ := hentry
    exact List.mem_zipIdx_iff_getElem?.mpr hget
  obtain ⟨chosen, hperm, hsublist⟩ := List.subperm_of_subset hpairs hsubset
  calc (report.map UnresolvedConstraint.textBytes).sum
      = ((report.filterMap (relationOf imagination)).map
          fun (relation, _) => relationText relation).sum :=
        sum_filterMap fun entry hentry => h.text_entry hrelations ((hmem entry).mp hentry)
    _ = (chosen.map fun (relation, _) => relationText relation).sum := (hperm.symm.map _).sum_eq
    _ ≤ (imagination.relations.zipIdx.map fun (relation, _) => relationText relation).sum :=
        (hsublist.map _).sum_le_sum fun _ _ => Nat.zero_le _
    _ = (imagination.relations.map relationText).sum := by
        have hfst : (imagination.relations.zipIdx.map fun (relation, _) => relationText relation) =
            (imagination.relations.zipIdx.map Prod.fst).map relationText := by
          rw [List.map_map]
          rfl
        rw [hfst, List.zipIdx_map_fst]

end Entries

/-! ### Completed results -/

structure Admitted (limits : RuntimeLimits) (imagination : ImaginationEnvelope)
    (result : CompilationResult) : Prop where
  patch : ∀ patch, result.patch = some patch →
    patch.validate limits = .ok () ∧ Predicted imagination patch
  relations_nodup : (result.unresolved.filterMap (·.relationIndex)).Nodup
  constraints_nodup : (result.unresolved.filterMap (·.constraintIndex)).Nodup
  decisions_shape : ∀ decision ∈ result.decisions, decision.wellShaped = true
  unresolved_shape : ∀ entry ∈ result.unresolved, entry.wellShaped = true
  decisions_sorted : result.decisions.Pairwise fun left right => left.canonicalCmp right = .lt
  unresolved_sorted : result.unresolved.Pairwise fun left right => left.canonicalCmp right = .lt
  decisions_length : result.decisions.length ≤
    (CompilationLimits.forRuntimeLimits limits).maxDecisions.get
  unresolved_length : result.unresolved.length ≤
    (CompilationLimits.forRuntimeLimits limits).maxUnresolvedConstraints.get
  text : result.textBytes ≤ (CompilationLimits.forRuntimeLimits limits).maxTextBytes.get
  size : result.logicalSizeBytes ≤
    (CompilationLimits.forRuntimeLimits limits).maxDecodedBytes.get

section Completed

variable {imagination : ImaginationEnvelope} {scene : CompilationSceneView}
  {base : List EntityPlan} {decisions : List CompilationDecision} {analysis : Analysis}
  {limits : RuntimeLimits}

def unsortedDecisions (analysis : Analysis) : List CompilationDecision :=
  if analysis.unresolved = [] then
    analysis.decisions ++ analysis.entities.flatMap relationDecisions
  else analysis.decisions

theorem perm_decisions (imagination : ImaginationEnvelope) (scene : CompilationSceneView)
    (analysis : Analysis) :
    (completed imagination scene analysis).decisions.Perm (unsortedDecisions analysis) := by
  rw [completed, unsortedDecisions]
  split
  · exact List.perm_insertionSort _ _
  · exact List.perm_insertionSort _ _

variable (hplanned : Planned imagination scene base decisions)
  (h : Analysed imagination scene base decisions analysis)

include hplanned h

theorem Analysed.shape_decisions :
    ∀ decision ∈ unsortedDecisions analysis, decision.wellShaped = true := by
  rw [unsortedDecisions, h.decisions_eq]
  split
  · rename_i hnil
    obtain ⟨plans, hcomplete⟩ := h.complete hnil
    exact hcomplete.shape_decisions hplanned
  · exact fun decision hmem => (hplanned.plannedFrom.shape_decisions decision hmem).1

theorem Analysed.sorted_decisions :
    (completed imagination scene analysis).decisions.Pairwise
      fun left right => left.canonicalCmp right = .lt := by
  rw [completed, h.decisions_eq]
  split
  · rename_i hnil
    obtain ⟨plans, hcomplete⟩ := h.complete hnil
    exact Sorting.pairwise_lt_sort (hcomplete.pairwise_decisions hplanned)
  · exact Sorting.pairwise_lt_sort (hplanned.plannedFrom.pairwise_decisions hplanned.nodup)

theorem Analysed.length_decisions : (unsortedDecisions analysis).length ≤
    4 * imagination.entities.length + imagination.relations.length := by
  rw [unsortedDecisions, h.decisions_eq]
  split
  · rename_i hnil
    obtain ⟨plans, hcomplete⟩ := h.complete hnil
    exact hcomplete.length_decisions hplanned
  · have hlength := hplanned.plannedFrom.length_decisions
    rw [ImaginationEnvelope.sortedEntities, List.length_insertionSort] at hlength
    omega

theorem Analysed.text_le (hrelations : imagination.relations.length < 2 ^ 29)
    (hconstraints : imagination.constraints.length < 2 ^ 29) :
    (completed imagination scene analysis).textBytes ≤
      min (6 * imagination.textTotal) (2 ^ 64 - 1) := by
  have hdecisions : ((completed imagination scene analysis).decisions.map
      fun decision => textLen decision.entityKey).sum =
      ((unsortedDecisions analysis).map fun decision => textLen decision.entityKey).sum :=
    ((perm_decisions imagination scene analysis).map _).sum_eq
  rw [CompilationResult.textBytes_eq, CompilationResult.reportText, hdecisions,
    unsortedDecisions, h.decisions_eq]
  by_cases hnil : analysis.unresolved = []
  · obtain ⟨plans, hcomplete⟩ := h.complete hnil
    have htext := hcomplete.text_decisions hplanned
    have hpatch := hcomplete.textBytes_eq hplanned
    simp only [completed, hnil, if_true, Option.elim_some, hpatch, List.map_nil, List.sum_nil,
      ImaginationEnvelope.textTotal, ImaginationEnvelope.outputTextTotal]
    generalize 2 ^ 64 - 1 = limit
    omega
  · obtain ⟨why, hentries, -⟩ := h.entries hplanned
    have hexact := h.exactReport hplanned hrelations hconstraints
    have hunresolved := hentries.text_le hrelations (fun _ => mem_unresolved_completed)
      hexact.relations_nodup
    have hperm := List.perm_insertionSort
      (fun left right : ImaginedEntity => (compare left.key right.key).isLE) imagination.entities
    have hplan := hplanned.plannedFrom.text_decisions
    rw [ImaginationEnvelope.sortedEntities, (hperm.map ImaginedEntity.textBytes).sum_eq] at hplan
    have htexts : (imagination.relations.map ImaginationRelation.textBytes) =
        imagination.relations.map fun relation => min (relationText relation) (2 ^ 64 - 1) :=
      List.map_congr_left fun relation _ => by cases relation <;> rfl
    have hmin := min_sum_min relationText (2 ^ 64 - 1) imagination.relations
      (5 * (imagination.entities.map ImaginedEntity.textBytes).sum)
    have hnone : (completed imagination scene analysis).patch = none := by
      rw [completed, if_neg hnil]
    rw [hnone, if_neg hnil, Option.elim_none, ImaginationEnvelope.textTotal, htexts]
    generalize (imagination.relations.map fun relation =>
      min (relationText relation) (2 ^ 64 - 1)).sum = saturated at hmin ⊢
    generalize 2 ^ 64 - 1 = limit at hmin ⊢
    omega

theorem Analysed.shape_unresolved :
    ∀ entry ∈ (completed imagination scene analysis).unresolved, entry.wellShaped = true := by
  obtain ⟨why, hentries, -⟩ := h.entries hplanned
  exact fun entry hentry => hentries.shape entry (mem_unresolved_completed.mp hentry)

theorem Analysed.size_le :
    (completed imagination scene analysis).logicalSizeBytes ≤
      min (35 + (completed imagination scene analysis).patch.elim 0 ScenePatch.logicalSizeBytes +
        27 * (completed imagination scene analysis).decisions.length +
        38 * (completed imagination scene analysis).unresolved.length +
        (completed imagination scene analysis).reportText) (2 ^ 64 - 1) := by
  have hshape := h.shape_decisions hplanned
  have hdecisions : ((completed imagination scene analysis).decisions.map
      CompilationDecision.logicalSize).sum ≤ ((completed imagination scene analysis).decisions.map
        fun decision => 27 + textLen decision.entityKey).sum :=
    List.sum_le_sum fun decision hmem =>
      decision.logicalSize_le (hshape decision ((perm_decisions ..).mem_iff.mp hmem))
  have hunresolved : ((completed imagination scene analysis).unresolved.map
      UnresolvedConstraint.logicalSize).sum ≤
      ((completed imagination scene analysis).unresolved.map fun entry =>
        38 + entry.textBytes).sum :=
    List.sum_le_sum fun entry _ => entry.logicalSize_le
  rw [List.sum_map_add, List.map_const', List.sum_replicate_nat] at hdecisions hunresolved
  rw [CompilationResult.logicalSizeBytes_eq, CompilationResult.reportText]
  generalize 2 ^ 64 - 1 = limit
  omega

omit hplanned h in
theorem length_le_of_not_exceeds {length : ℕ} {declared limit : NonZeroU32} (hlt : length < 2 ^ 29)
    (hfits : ¬ exceedsCollection length declared limit) : length ≤ limit.get := by
  have hcount : count length = length := Nat.min_eq_left (by omega)
  rw [exceedsCollection, hcount] at hfits
  omega

theorem Analysed.text_fits (hadmissible : imagination.Admissible limits)
    (hrelations : imagination.relations.length < 2 ^ 29)
    (hconstraints : imagination.constraints.length < 2 ^ 29) :
    (completed imagination scene analysis).textBytes ≤ CompilationLimits.text limits := by
  have htext := h.text_le hplanned hrelations hconstraints
  have htotal := hadmissible.text
  rw [CompilationLimits.text, CompilationLimits.saturate]
  generalize 2 ^ 64 - 1 = limit at htext htotal ⊢
  omega

omit h hplanned in
theorem size_fits {size patch decisions unresolved text : ℕ}
    (hsize : size ≤ min (35 + patch + 27 * decisions + 38 * unresolved + text) (2 ^ 64 - 1))
    (hpatch : patch ≤ limits.maxDecodedBytes.get)
    (hdecisions : decisions ≤ CompilationLimits.decisions limits)
    (hunresolved : unresolved ≤ CompilationLimits.unresolved limits)
    (htext : min text (2 ^ 64 - 1) ≤ CompilationLimits.text limits) :
    size ≤ CompilationLimits.decoded limits := by
  simp only [CompilationLimits.decoded, satAdd, satMul]
  generalize 2 ^ 64 - 1 = limit at hsize htext ⊢
  omega

theorem Analysed.admitted (hadmissible : imagination.Admissible limits)
    (hentities : imagination.entities.length < 2 ^ 29)
    (hrelations : imagination.relations.length < 2 ^ 29)
    (hconstraints : imagination.constraints.length < 2 ^ 29) :
    Admitted limits imagination (completed imagination scene analysis) := by
  have hexact := h.exactReport hplanned hrelations hconstraints
  have hpatch : ∀ patch, (completed imagination scene analysis).patch = some patch →
      patch.validate limits = .ok () ∧ Predicted imagination patch := by
    intro patch hpatch
    rw [completed] at hpatch
    split at hpatch
    · rename_i hnil
      obtain ⟨plans, hcomplete⟩ := h.complete hnil
      cases hpatch
      exact ⟨hcomplete.validate_patch hplanned hrelations hadmissible hentities,
        hcomplete.predicted hplanned hrelations⟩
    · cases hpatch
  have hdecisions : (completed imagination scene analysis).decisions.length ≤
      CompilationLimits.decisions limits := by
    have hlength := h.length_decisions hplanned
    have hfewEntities := length_le_of_not_exceeds hentities hadmissible.entityCount
    have hfewRelations := length_le_of_not_exceeds hrelations hadmissible.relationCount
    rw [(perm_decisions ..).length_eq]
    simp only [CompilationLimits.decisions, CompilationLimits.saturate]
    omega
  have hunresolved : (completed imagination scene analysis).unresolved.length ≤
      CompilationLimits.unresolved limits := by
    have hlength := hexact.length_le
    have hfewRelations := length_le_of_not_exceeds hrelations hadmissible.relationCount
    have hfewConstraints := length_le_of_not_exceeds hconstraints hadmissible.constraintCount
    simp only [CompilationLimits.unresolved, CompilationLimits.saturate]
    omega
  have htext := h.text_fits hplanned hadmissible hrelations hconstraints
  constructor
  case patch => exact hpatch
  case relations_nodup => exact hexact.relations_nodup
  case constraints_nodup => exact hexact.constraints_nodup
  case decisions_shape =>
    exact fun decision hmem =>
      h.shape_decisions hplanned decision ((perm_decisions ..).mem_iff.mp hmem)
  case unresolved_shape => exact h.shape_unresolved hplanned
  case decisions_sorted => exact h.sorted_decisions hplanned
  case unresolved_sorted => exact pairwise_unresolved_completed imagination scene analysis
  case decisions_length => exact hdecisions
  case unresolved_length => exact hunresolved
  case text => exact htext
  case size =>
    refine size_fits (h.size_le hplanned) ?_ hdecisions hunresolved ?_
    · cases hsome : (completed imagination scene analysis).patch with
      | none => exact Nat.zero_le _
      | some patch =>
        obtain ⟨-, -, -, hmaxDecoded⟩ := validatePatchBudget_eq_ok.mp hadmissible.budget
        rw [Option.elim_some, (hpatch patch hsome).2.size]
        exact hadmissible.patchSize.trans hmaxDecoded
    · rw [CompilationResult.textBytes_eq] at htext
      omega

omit hplanned h in
theorem Admitted.validateOutcome (hadmissible : imagination.Admissible limits)
    (hrevision : imagination.baseRevision = scene.revision)
    (hadmitted : Admitted limits imagination (completed imagination scene analysis))
    (houtcome : (completed imagination scene analysis).patch.isSome ↔
      (completed imagination scene analysis).unresolved = []) :
    (completed imagination scene analysis).validateOutcome (.forRuntimeLimits limits) = .ok () := by
  have hpatch := hadmitted.patch
  rw [completed] at hpatch houtcome ⊢
  split at hpatch
  · rename_i hnil
    rw [if_pos hnil]
    have hschema : ¬ imagination.schemaVersion ≠ .v1 := not_not.mpr hadmissible.schema
    have hbase : ¬ imagination.baseRevision ≠ scene.revision := not_not.mpr hrevision
    show (if imagination.schemaVersion ≠ .v1 then _
      else if imagination.baseRevision ≠ scene.revision then _ else _) = _
    rw [if_neg hschema, if_neg hbase]
    exact Exec.exceptMapError_eq_ok.mpr (hpatch _ rfl).1
  · rename_i hne
    rw [if_neg hne] at houtcome ⊢
    have hreport := mt houtcome.mpr Bool.false_ne_true
    rw [CompilationResult.validateOutcome, List.isEmpty_eq_false_iff.mpr hreport]

omit hplanned h in
theorem Admitted.validate (hadmissible : imagination.Admissible limits)
    (hrevision : imagination.baseRevision = scene.revision)
    (hadmitted : Admitted limits imagination (completed imagination scene analysis))
    (houtcome : (completed imagination scene analysis).patch.isSome ↔
      (completed imagination scene analysis).unresolved = []) :
    (completed imagination scene analysis).validate (.forRuntimeLimits limits) = .ok () := by
  have hschema : (completed imagination scene analysis).schemaVersion = .v1 := by
    rw [completed]
    split <;> rfl
  have hdecisions :
      validateDecisions (completed imagination scene analysis).decisions = .ok () := by
    rw [validateDecisions, if_pos (List.all_eq_true.mpr hadmitted.decisions_shape)]
    exact validateOrder_eq_ok hadmitted.decisions_sorted
  have hunresolved :
      validateUnresolved (completed imagination scene analysis).unresolved = .ok () := by
    rw [validateUnresolved, if_pos (List.all_eq_true.mpr hadmitted.unresolved_shape)]
    exact validateOrder_eq_ok hadmitted.unresolved_sorted
  have hfew : ∀ length : ℕ, count length ≤ length := fun length => Nat.min_le_left ..
  rw [CompilationResult.validate, if_neg (not_not.mpr hschema),
    if_neg (not_lt.mpr ((hfew _).trans hadmitted.decisions_length)),
    if_neg (not_lt.mpr ((hfew _).trans hadmitted.unresolved_length)),
    hadmitted.validateOutcome hadmissible hrevision houtcome, hdecisions, hunresolved,
    if_neg (not_lt.mpr hadmitted.text), if_neg (not_lt.mpr hadmitted.size)]
  rfl

end Completed

namespace CompilationResult

theorem encodeValidated_ne_invalidResult {serde : SerdeWriter CompilationResult}
    {result : CompilationResult} {limits : CompilationLimits} (error : CompilationValidationError) :
    result.encodeValidated serde limits ≠ .error (.invalidResult error) := by
  intro h
  rcases Exec.bind_eq_error.mp h with hline | ⟨bytes, -, h⟩
  · rcases LineErrors.writeLine_error hline with ⟨_, _, h⟩ | h
    · cases h
    · cases h
  rcases Exec.bind_eq_error.mp h with hnesting | ⟨_, -, hend⟩
  · obtain ⟨_, h⟩ := enforceNestingDepth_error hnesting
    cases h
  · cases hend

end CompilationResult

namespace CompilerConfig

variable {sha256 : List UInt8 → Digest} {serde : SerdeWriter CompilationResult}
  {limits : RuntimeLimits} {imagination : ImaginationEnvelope} {scene : CompilationSceneView}

theorem planFrom_failsWith {config : CompilerConfig} {entities : List ImaginedEntity} :
    ∀ (index : ℕ) (usedIds : Std.ExtTreeSet StableEntityId),
      Exec.FailsWith (fun error =>
          ∃ index attempts, error = .entityIdDerivationExhausted index attempts)
        (config.planFrom sha256 imagination scene index usedIds entities) := by
  induction entities with
  | nil =>
    intro index usedIds
    exact .ok _
  | cons entity entities ih =>
    intro index usedIds
    rw [planFrom]
    refine .bind ?_ fun chosen _ => .bind (ih _ _) fun rest _ => .ok _
    rw [chooseEntityId]
    split
    · exact .bind (.okOr ⟨_, _, rfl⟩ _) fun _ _ => .ok _
    · split
      · exact .bind (.okOr ⟨_, _, rfl⟩ _) fun _ _ => .ok _
      · exact .ok _

theorem analyze_failsWith {config : CompilerConfig}
    (hnodup : (imagination.entities.map ImaginedEntity.key).Nodup) :
    Exec.FailsWith (fun error =>
          ∃ index attempts, error = .entityIdDerivationExhausted index attempts)
      (config.analyze sha256 imagination scene) := by
  intro error herror
  have hreturns : (config.planEntities sha256 imagination scene).Returns := planFrom_returns 0 ∅
  rcases hreturns with ⟨⟨base, decisions⟩, hplan⟩ | ⟨error', hplan⟩
  · obtain ⟨analysis, hanalysis, -⟩ := analyze_spec hplan (planEntities_ok hnodup hplan)
    rw [hanalysis] at herror
    cases herror
  · rw [analyze, hplan] at herror
    cases herror
    exact planFrom_failsWith 0 ∅ error hplan

theorem validateCompletedResult_failsWith {config : CompilerConfig} {result : CompilationResult}
    (h : result.validate config.compilationLimits = .ok ()) :
    Exec.FailsWith (fun error => ∃ encoding, error = .invalidCompilationEncoding encoding)
      (config.validateCompletedResult serde result) := by
  rw [validateCompletedResult, CompilationResult.toCanonicalJson, h]
  split
  · exact .ok _
  · rename_i error hencode
    exact absurd hencode (CompilationResult.encodeValidated_ne_invalidResult error)
  · exact .fail ⟨_, rfl⟩

section Valid

variable (hvalid : imagination.validate limits = .ok ())
  (hentities : imagination.entities.length < 2 ^ 29)
  (hrelations : imagination.relations.length < 2 ^ 29)
  (hconstraints : imagination.constraints.length < 2 ^ 29)

include hvalid hentities hrelations hconstraints

theorem admitted_of_analyze {analysis : Analysis}
    (hanalysis : (CompilerConfig.new limits).analyze sha256 imagination scene = .ok analysis) :
    Admitted limits imagination (completed imagination scene analysis) := by
  have hadmissible := ImaginationEnvelope.validate_eq_ok.mp hvalid
  obtain ⟨base, decisions, hplanned, hanalysed⟩ := analyze_eq_ok hadmissible.keys_nodup hanalysis
  exact hanalysed.admitted hplanned hadmissible hentities hrelations hconstraints

theorem compile_eq {analysis : Analysis} (hrevision : imagination.baseRevision = scene.revision)
    (hanalysis : (CompilerConfig.new limits).analyze sha256 imagination scene = .ok analysis) :
    (completed imagination scene analysis).validate
        (CompilerConfig.new limits).compilationLimits = .ok () ∧
      (CompilerConfig.new limits).compile sha256 serde imagination scene =
        (CompilerConfig.new limits).validateCompletedResult serde
          (completed imagination scene analysis) := by
  have hadmissible := ImaginationEnvelope.validate_eq_ok.mp hvalid
  have himagination : imagination.validate (CompilerConfig.new limits).runtimeLimits = .ok () :=
    hvalid
  have hadmitted := admitted_of_analyze hvalid hentities hrelations hconstraints hanalysis
  obtain ⟨base, decisions, hplanned, hanalysed⟩ := analyze_eq_ok hadmissible.keys_nodup hanalysis
  refine ⟨hadmitted.validate hadmissible hrevision
    (hanalysed.exactReport hplanned hrelations hconstraints).patch, ?_⟩
  have hpatch : (if analysis.unresolved = [] then
      (Exec.ofExcept ((builtPatch imagination analysis.entities).validate
        (CompilerConfig.new limits).runtimeLimits)).mapError .invalidNormalizedPatch
      else .ok ()) = (.ok () : Exec CompileError Unit) := by
    split
    · rename_i hnil
      have hpatch : (builtPatch imagination analysis.entities).validate
          (CompilerConfig.new limits).runtimeLimits = .ok () :=
        (hadmitted.patch _ (by rw [completed, if_pos hnil])).1
      rw [hpatch]
      rfl
    · rfl
  rw [compile, himagination, if_neg (not_not.mpr hrevision), hanalysis, Exec.ok_bind,
    finish_eq hplanned hanalysed, hpatch]
  rfl

/-- **Compilation does not fail on its own output.** Of a valid imagination, the compiler under the
same limits makes a patch and a result that it accepts. What it completes, before it is encoded, is
admitted. -/
theorem compile_admits :
    (∀ error, (CompilerConfig.new limits).compile sha256 serde imagination scene ≠
        Exec.fail (.invalidNormalizedPatch error)) ∧
      (∀ error, (CompilerConfig.new limits).compile sha256 serde imagination scene ≠
        Exec.fail (.invalidCompilationResult error)) ∧
      ∀ analysis, (CompilerConfig.new limits).analyze sha256 imagination scene = .ok analysis →
        Admitted limits imagination (completed imagination scene analysis) := by
  have hfails : Exec.FailsWith (fun error => (∀ patch, error ≠ .invalidNormalizedPatch patch) ∧
      ∀ result, error ≠ .invalidCompilationResult result)
      ((CompilerConfig.new limits).compile sha256 serde imagination scene) := by
    have himagination : imagination.validate (CompilerConfig.new limits).runtimeLimits = .ok () :=
      hvalid
    by_cases hrevision : imagination.baseRevision = scene.revision
    · have hnodup := (ImaginationEnvelope.validate_eq_ok.mp hvalid).keys_nodup
      cases hanalysis : (CompilerConfig.new limits).analyze sha256 imagination scene with
      | ok analysis =>
        obtain ⟨hresult, heq⟩ := compile_eq hvalid hentities hrelations hconstraints hrevision
          hanalysis
        rw [heq]
        intro error herror
        obtain ⟨encoding, rfl⟩ := validateCompletedResult_failsWith hresult error herror
        exact ⟨by simp, by simp⟩
      | error abort =>
        rw [compile, himagination, if_neg (not_not.mpr hrevision), hanalysis]
        intro error herror
        cases herror
        obtain ⟨_, _, rfl⟩ := analyze_failsWith hnodup error hanalysis
        exact ⟨by simp, by simp⟩
    · rw [compile, himagination, if_pos hrevision]
      exact .bind (.ok ()) fun _ _ => .fail ⟨by simp, by simp⟩
  exact ⟨fun error h => (hfails _ h).1 error rfl, fun error h => (hfails _ h).2 error rfl,
    fun _ => admitted_of_analyze hvalid hentities hrelations hconstraints⟩

end Valid

theorem compile_admits_sample :
    (∀ error, (CompilerConfig.new .default).compile (fun _ => .replicate 32 0)
        (CompilationResult.serde sampleFloats) sampleImagination ⟨.initial, ∅⟩ ≠
          Exec.fail (.invalidNormalizedPatch error)) ∧
      ∃ analysis, (CompilerConfig.new .default).analyze (fun _ => .replicate 32 0)
          sampleImagination ⟨.initial, ∅⟩ = .ok analysis ∧
        Admitted .default sampleImagination
          (completed sampleImagination ⟨.initial, ∅⟩ analysis) := by
  obtain ⟨hvalid, ⟨analysis, hanalysis⟩, -⟩ := sampleImagination_compiles
  obtain ⟨hpatch, -, hadmitted⟩ := @compile_admits (fun _ => .replicate 32 0)
    (CompilationResult.serde sampleFloats) .default sampleImagination ⟨.initial, ∅⟩ hvalid
    (by decide) (by decide) (by decide)
  exact ⟨hpatch, analysis, hanalysis, hadmitted analysis hanalysis⟩

end CompilerConfig

end Cogniform
