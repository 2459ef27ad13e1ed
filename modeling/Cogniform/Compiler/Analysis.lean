import Cogniform.Compiler.Faults

/-!
# The passes together

Once the entities are planned no pass can fail. `Analysed` says what they end with: the assigned
plans with all faults, or, when there is none, the settled plans with what could not be placed.
-/

namespace Cogniform

open Forest

/-! ### Planned entities -/

namespace ImaginationEnvelope

def sortedEntities (imagination : ImaginationEnvelope) : List ImaginedEntity :=
  imagination.entities.insertionSort fun left right => (compare left.key right.key).isLE

def keys (imagination : ImaginationEnvelope) : List SceneText :=
  imagination.sortedEntities.map ImaginedEntity.key

variable {imagination : ImaginationEnvelope}

theorem mem_sortedEntities {entity : ImaginedEntity} :
    entity ∈ imagination.sortedEntities ↔ entity ∈ imagination.entities :=
  (List.perm_insertionSort _ _).mem_iff

theorem nodup_keys (h : (imagination.entities.map ImaginedEntity.key).Nodup) :
    imagination.keys.Nodup :=
  ((List.perm_insertionSort _ _).map ImaginedEntity.key).nodup_iff.mpr h

end ImaginationEnvelope

structure Planned (imagination : ImaginationEnvelope) (scene : CompilationSceneView)
    (base : List EntityPlan) (decisions : List CompilationDecision) : Prop where
  plannedFrom : PlannedFrom scene ∅ imagination.sortedEntities base decisions
  nodup : imagination.keys.Nodup

namespace Planned

variable {imagination : ImaginationEnvelope} {scene : CompilationSceneView}
  {base : List EntityPlan} {decisions : List CompilationDecision}

theorem keys_eq (h : Planned imagination scene base decisions) :
    base.map EntityPlan.key = imagination.keys :=
  h.plannedFrom.keys

theorem keyed (h : Planned imagination scene base decisions) : Keyed base := by
  rw [Keyed, h.keys_eq]
  exact h.nodup

theorem get (h : Planned imagination scene base decisions) {index : ℕ} {plan : EntityPlan}
    (hget : base[index]? = some plan) :
    ∃ entity, imagination.sortedEntities[index]? = some entity ∧
      plan = (planEntity entity plan.entityId).1 := by
  obtain ⟨hlength, hplans⟩ := List.forall₂_iff_get.mp h.plannedFrom.plans_eq
  obtain ⟨hlt, rfl⟩ := List.getElem?_eq_some_iff.mp hget
  have hlt' : index < imagination.sortedEntities.length := hlength ▸ hlt
  exact ⟨_, List.getElem?_eq_getElem hlt', hplans index hlt' hlt⟩

theorem length_eq (h : Planned imagination scene base decisions) :
    base.length = imagination.sortedEntities.length :=
  h.plannedFrom.plans_eq.length_eq.symm

theorem blank (h : Planned imagination scene base decisions) : ∀ plan ∈ base, plan.Blank := by
  intro plan hplan
  obtain ⟨index, hget⟩ := List.mem_iff_getElem?.mp hplan
  obtain ⟨entity, -, heq⟩ := h.get hget
  rw [heq]
  exact ⟨rfl, rfl, rfl⟩

end Planned

section Analysed

variable {imagination : ImaginationEnvelope} {scene : CompilationSceneView}
  {base plans : List EntityPlan} {decisions : List CompilationDecision}

inductive Analysed (imagination : ImaginationEnvelope) (scene : CompilationSceneView)
    (base : List EntityPlan) (decisions : List CompilationDecision) : Analysis → Prop where
  | faulty {plans : List EntityPlan} {entries : List UnresolvedConstraint}
      (hassigning : Assigning imagination.relations base imagination.relations.length plans)
      (hfaults : Faults imagination.keys imagination.relations
        (checkSceneConstraints imagination scene) entries)
      (hne : entries ≠ []) : Analysed imagination scene base decisions ⟨plans, decisions, entries⟩
  | placed {plans final : List EntityPlan} {issues : List UnresolvedConstraint}
      (hassigning : Assigning imagination.relations base imagination.relations.length plans)
      (hfaults : Faults imagination.keys imagination.relations
        (checkSceneConstraints imagination scene) [])
      (hlength : final.length = plans.length)
      (hsound : ∀ issue ∈ issues, ∃ index, Unsettled plans index issue)
      (hsettled : ∀ index < plans.length,
        (∃ plan, final[index]? = some plan ∧ Settled plans index plan) ∨
          ∃ issue ∈ issues, Unsettled plans index issue) :
      Analysed imagination scene base decisions ⟨final, decisions, issues⟩

theorem Linked.acyclic {next : EntityPlan → Option (SceneText × UInt32)}
    {target : ImaginationRelation → Option SceneText} {keys : List SceneText}
    {relations : List ImaginationRelation} (h : Linked keys relations plans next target)
    (hclean : ∀ index relation y, relations[index]? = some relation →
      ¬ OnCycle keys relations target index relation y) (index : ℕ) :
    ¬ Above (follow plans next) index index := by
  intro habove
  obtain ⟨plan, related, r, hcyclic⟩ := Cogniform.exists_cyclic h.keyed habove
  obtain ⟨position, relation, hget, honCycle, -⟩ := h.onCycle hcyclic
  exact hclean position relation related hget honCycle

theorem Faults.not_fault {keys : List SceneText} {relations : List ImaginationRelation}
    {unmet : List UnresolvedConstraint} (h : Faults keys relations unmet []) {index : ℕ}
    {relation : ImaginationRelation} {code : UnresolvedConstraintCode}
    (hget : relations[index]? = some relation) : ¬ Fault keys relations index relation code := by
  intro hfault
  obtain ⟨entry, hentry, -⟩ := h.complete index relation code hget hfault
  cases hentry

theorem Analysed.decisions_eq {analysis : Analysis}
    (h : Analysed imagination scene base decisions analysis) : analysis.decisions = decisions := by
  cases h <;> rfl

/-! ### The patch -/

def reparents (entities : List EntityPlan) : List SceneOperation :=
  entities.filterMap fun entity => do
    let parent ← entity.parent
    let candidate ← entities.find? fun candidate => candidate.key = parent
    some (.reparent entity.entityId (some candidate.entityId))

def builtPatch (imagination : ImaginationEnvelope) (entities : List EntityPlan) : ScenePatch where
  schemaVersion := imagination.schemaVersion
  transactionId := imagination.transactionId
  idempotencyKey := imagination.idempotencyKey
  baseRevision := imagination.baseRevision
  conflictPolicy := .requireExactBase
  delivery := imagination.delivery
  declaredBudget := imagination.declaredBudget.patch
  operations := entities.map createOperation ++ reparents entities

theorem buildPatch_eq {entities : List EntityPlan} (hkeyed : Keyed entities)
    (hparents : ∀ plan ∈ entities, ∀ parent, plan.parent = some parent →
      parent ∈ entities.map EntityPlan.key) :
    buildPatch imagination entities = .ok (builtPatch imagination entities) := by
  have hmap : entities.mapM (reparentOperation entities) = .ok (entities.map fun entity =>
      (do
        let parent ← entity.parent
        let candidate ← entities.find? fun candidate => candidate.key = parent
        some (SceneOperation.reparent entity.entityId (some candidate.entityId)) :
          Option SceneOperation).toList) := by
    rw [Exec.mapM_eq_ok, List.forall₂_map_right_iff, List.forall₂_same]
    intro plan hplan
    rw [reparentOperation]
    cases hparent : plan.parent with
    | none => rfl
    | some parent =>
      obtain ⟨candidate, hcandidate, hkey⟩ := List.mem_map.mp (hparents plan hplan parent hparent)
      have hfind := hkeyed.find?_eq_some.mpr ⟨hcandidate, hkey⟩
      simp only [hfind, Exec.expect_some, Exec.ok_bind, Option.bind_eq_bind, Option.bind_some]
      rfl
  rw [buildPatch, hmap, Exec.ok_bind, ← List.flatMap_def, ← List.filterMap_eq_flatMap_toList]
  rfl

structure Complete (imagination : ImaginationEnvelope) (scene : CompilationSceneView)
    (base plans final : List EntityPlan) : Prop where
  assigning : Assigning imagination.relations base imagination.relations.length plans
  clean : Faults imagination.keys imagination.relations (checkSceneConstraints imagination scene) []
  length_eq : final.length = plans.length
  settled : ∀ index < plans.length, ∃ plan, final[index]? = some plan ∧ Settled plans index plan

theorem Analysed.complete {analysis : Analysis}
    (h : Analysed imagination scene base decisions analysis) (hnil : analysis.unresolved = []) :
    ∃ plans, Complete imagination scene base plans analysis.entities := by
  cases h with
  | faulty _ _ hne => exact absurd hnil hne
  | placed hassigning hfaults hlength _ hsettled =>
    refine ⟨_, hassigning, hfaults, hlength, fun index hlt => ?_⟩
    refine (hsettled index hlt).resolve_right ?_
    rintro ⟨issue, hissue, -⟩
    exact List.eq_nil_iff_forall_not_mem.mp hnil issue hissue

namespace Complete

variable {final : List EntityPlan}

theorem forall₂ (h : Complete imagination scene base plans final) :
    List.Forall₂ (fun plan plan' : EntityPlan => plan' = plan.moved plan'.transform.translation)
      plans final := by
  refine List.forall₂_iff_get.mpr ⟨h.length_eq.symm, fun index hplans hfinal => ?_⟩
  obtain ⟨plan, hplan, hsettled⟩ := h.settled index hplans
  obtain ⟨_, rfl⟩ := List.getElem?_eq_some_iff.mp hplan
  obtain ⟨assigned, hassigned, hmoved⟩ := hsettled.eq_moved
  obtain ⟨_, rfl⟩ := List.getElem?_eq_some_iff.mp hassigned
  exact hmoved

theorem map_eq (h : Complete imagination scene base plans final) {γ : Type} {f : EntityPlan → γ}
    (hf : ∀ plan translation, f (plan.moved translation) = f plan) : final.map f = plans.map f :=
  (map_eq_of_forall₂ h.forall₂ fun plan plan' hmoved => by rw [hmoved, hf]).symm

theorem keys_eq (h : Complete imagination scene base plans final) :
    final.map EntityPlan.key = base.map EntityPlan.key :=
  (h.map_eq fun _ _ => rfl).trans h.assigning.keys_eq

theorem keyed (h : Complete imagination scene base plans final) (hbase : Keyed base) :
    Keyed final := by
  rw [Keyed, h.keys_eq]
  exact hbase

theorem parent_iff (h : Complete imagination scene base plans final)
    (hplanned : Planned imagination scene base decisions) {plan : EntityPlan} (hplan : plan ∈ final)
    {parent : SceneText} :
    plan.parent = some parent ↔
      HasParent imagination.keys imagination.relations plan.key parent := by
  have hlink : (plan.key, plan.parent) ∈ plans.map fun plan => (plan.key, plan.parent) := by
    rw [← h.map_eq fun _ _ => rfl]
    exact List.mem_map_of_mem hplan
  obtain ⟨assigned, hassigned, heq⟩ := List.mem_map.mp hlink
  obtain ⟨hkey, hparent⟩ := Prod.mk.inj heq
  rw [← hparent, h.assigning.parent_iff hplanned.blank hassigned, hkey, hplanned.keys_eq]

theorem parent_mem (h : Complete imagination scene base plans final)
    (hplanned : Planned imagination scene base decisions) :
    ∀ plan ∈ final, ∀ parent, plan.parent = some parent → parent ∈ final.map EntityPlan.key := by
  intro plan hplan parent hparent
  obtain ⟨index, relation, haccepts, hget, -, htarget⟩ := (h.parent_iff hplanned hplan).mp hparent
  rw [h.keys_eq, hplanned.keys_eq, ← ImaginationRelation.related_of_parentKey htarget]
  exact ((accepts_iff hget).mp haccepts).2.1

end Complete

def completed (imagination : ImaginationEnvelope) (scene : CompilationSceneView)
    (analysis : Analysis) : CompilationResult :=
  if analysis.unresolved = [] then
    ⟨.v1, imagination.imaginationId, scene.revision,
      some (builtPatch imagination analysis.entities),
      (analysis.decisions ++ analysis.entities.flatMap relationDecisions).insertionSort
        fun left right => (left.canonicalCmp right).isLE, []⟩
  else
    ⟨.v1, imagination.imaginationId, scene.revision, none,
      analysis.decisions.insertionSort fun left right => (left.canonicalCmp right).isLE,
      (analysis.unresolved.insertionSort fun left right =>
        (left.canonicalCmp right).isLE).destutter (· ≠ ·)⟩

namespace CompilerConfig

variable {sha256 : List UInt8 → Digest} {serde : SerdeWriter CompilationResult}
  {config : CompilerConfig} {result : CompilationResult}

theorem planEntities_ok (hnodup : (imagination.entities.map ImaginedEntity.key).Nodup)
    (h : config.planEntities sha256 imagination scene = .ok (base, decisions)) :
    Planned imagination scene base decisions :=
  ⟨planFrom_ok h, ImaginationEnvelope.nodup_keys hnodup⟩

theorem analyze_spec (h : config.planEntities sha256 imagination scene = .ok (base, decisions))
    (hplanned : Planned imagination scene base decisions) :
    ∃ analysis, config.analyze sha256 imagination scene = .ok analysis ∧
      Analysed imagination scene base decisions analysis := by
  obtain ⟨plans, hassign, hassigning⟩ := @assignRelations_eq imagination.relations base
    hplanned.keyed hplanned.blank (checkSceneConstraints imagination scene)
  obtain ⟨parented, cyclic, hparented, hcyclic, hfaults⟩ :=
    hassigning.faults hplanned.keyed hplanned.blank (checkSceneConstraints imagination scene)
  rw [hplanned.keys_eq] at hassign hfaults
  have hlinked := hassigning.linked_anchor hplanned.keyed hplanned.blank
  rw [hplanned.keys_eq] at hlinked
  simp only [analyze, h, Exec.ok_bind, hassign, hparented, hcyclic]
  split
  · rename_i hempty
    rw [List.isEmpty_iff] at hempty
    rw [hempty] at hfaults
    obtain ⟨final, issues, hresolve, hlength, hsound, hsettled⟩ :=
      resolvePlacements_spec hlinked.keyed hlinked.pointsInside
        (hlinked.acyclic fun index relation y hget honCycle =>
          hfaults.not_fault hget (.placement honCycle))
    rw [keyIndex_congr hassigning.keys_eq.symm, hresolve]
    exact ⟨_, rfl, .placed hassigning hfaults hlength hsound hsettled⟩
  · rename_i hne
    rw [List.isEmpty_iff] at hne
    exact ⟨_, rfl, .faulty hassigning hfaults hne⟩

theorem analyze_eq_ok (hnodup : (imagination.entities.map ImaginedEntity.key).Nodup)
    {analysis : Analysis} (h : config.analyze sha256 imagination scene = .ok analysis) :
    ∃ base decisions, Planned imagination scene base decisions ∧
      Analysed imagination scene base decisions analysis := by
  obtain ⟨⟨base, decisions⟩, hplan, -⟩ := Exec.bind_eq_ok.mp h
  have hplanned := planEntities_ok hnodup hplan
  obtain ⟨analysis', h', hanalysed⟩ := analyze_spec hplan hplanned
  cases h.symm.trans h'
  exact ⟨base, decisions, hplanned, hanalysed⟩

theorem finish_eq (hplanned : Planned imagination scene base decisions) {analysis : Analysis}
    (hanalysed : Analysed imagination scene base decisions analysis) :
    config.finish serde imagination scene analysis =
      (if analysis.unresolved = [] then
        (Exec.ofExcept ((builtPatch imagination analysis.entities).validate
          config.runtimeLimits)).mapError .invalidNormalizedPatch
      else .ok ()) >>= fun _ =>
        config.validateCompletedResult serde (completed imagination scene analysis) := by
  simp only [finish, completed, List.isEmpty_iff]
  split
  · rename_i hnil
    obtain ⟨plans, hcomplete⟩ := hanalysed.complete hnil
    rw [buildPatch_eq (hcomplete.keyed hplanned.keyed) (hcomplete.parent_mem hplanned),
      Exec.ok_bind]
  · rfl

theorem compile_eq_ok (h : config.compile sha256 serde imagination scene = .ok result) :
    ∃ base decisions analysis, imagination.Admissible config.runtimeLimits ∧
      imagination.baseRevision = scene.revision ∧
      Planned imagination scene base decisions ∧
      Analysed imagination scene base decisions analysis ∧
      (analysis.unresolved = [] →
        (builtPatch imagination analysis.entities).validate config.runtimeLimits = .ok ()) ∧
      result = completed imagination scene analysis := by
  obtain ⟨⟨⟩, hvalid, h⟩ := Exec.bind_eq_ok.mp h
  rw [Exec.mapError_eq_ok, Exec.ofExcept_eq_ok, ImaginationEnvelope.validate_eq_ok] at hvalid
  split at h
  · cases h
  rename_i hrevision
  obtain ⟨analysis, hanalysis, h⟩ := Exec.bind_eq_ok.mp h
  obtain ⟨base, decisions, hplanned, hanalysed⟩ := analyze_eq_ok hvalid.keys_nodup hanalysis
  rw [finish_eq hplanned hanalysed] at h
  obtain ⟨⟨⟩, hpatch, h⟩ := Exec.bind_eq_ok.mp h
  obtain ⟨rfl, -⟩ := validateCompletedResult_eq_ok h
  refine ⟨base, decisions, analysis, hvalid, not_not.mp hrevision, hplanned, hanalysed,
    fun hnil => ?_, rfl⟩
  rw [if_pos hnil, Exec.mapError_eq_ok, Exec.ofExcept_eq_ok] at hpatch
  exact hpatch

theorem planFrom_returns {entities : List ImaginedEntity} :
    ∀ (index : ℕ) (usedIds : Std.ExtTreeSet StableEntityId),
      (config.planFrom sha256 imagination scene index usedIds entities).Returns := by
  induction entities with
  | nil =>
    intro index usedIds
    exact .ok _
  | cons entity entities ih =>
    intro index usedIds
    rw [planFrom]
    refine .bind ?_ fun chosen _ => .bind (ih _ _) fun rest _ => .ok _
    rw [chooseEntityId]
    split
    · exact .bind (.okOr _ _) fun _ _ => .ok _
    · split
      · exact .bind (.okOr _ _) fun _ _ => .ok _
      · exact .ok _

theorem validateCompletedResult_returns (completed : CompilationResult) :
    (config.validateCompletedResult serde completed).Returns := by
  rw [validateCompletedResult]
  split
  · exact .ok _
  · exact .fail _
  · exact .fail _

/-- **Compilation returns**, whatever the relations are: it neither panics nor runs forever. -/
theorem compile_returns : (config.compile sha256 serde imagination scene).Returns := by
  rw [compile]
  refine .bind (.mapError _ (.ofExcept _)) fun _ hvalid => ?_
  rw [Exec.mapError_eq_ok, Exec.ofExcept_eq_ok, ImaginationEnvelope.validate_eq_ok] at hvalid
  split
  · exact .fail _
  refine .bind ?_ fun analysis hanalysis => ?_
  · have hreturns : (config.planEntities sha256 imagination scene).Returns := planFrom_returns 0 ∅
    rcases hreturns with ⟨⟨base, decisions⟩, hplan⟩ | ⟨error, herror⟩
    · obtain ⟨analysis, hanalysis, -⟩ :=
        analyze_spec hplan (planEntities_ok hvalid.keys_nodup hplan)
      rw [hanalysis]
      exact .ok _
    · rw [analyze, herror]
      exact .fail _
  obtain ⟨base, decisions, hplanned, hanalysed⟩ := analyze_eq_ok hvalid.keys_nodup hanalysis
  rw [finish_eq hplanned hanalysed]
  refine .bind ?_ fun _ _ => validateCompletedResult_returns _
  split
  · exact .mapError _ (.ofExcept _)
  · exact .ok _

end CompilerConfig

end Analysed

end Cogniform
