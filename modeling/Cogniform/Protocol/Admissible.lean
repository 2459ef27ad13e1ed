import Cogniform.Protocol.Imagination

/-!
# What validation of an imagination decides

Validation walks over the entities and stops at the first failure. Which failure it reports depends
on the order of the entities; whether it succeeds does not. `Admissible` lists the conditions, each a
statement about sums and sets of entities, and validation succeeds exactly under them.
-/

namespace Cogniform

namespace ImaginedEntity

def textBytes (entity : ImaginedEntity) : ℕ :=
  textLen entity.key + entity.name.elim 0 textLen

def outputTextBytes (entity : ImaginedEntity) : ℕ := textLen (entity.name.getD entity.key)

end ImaginedEntity

theorem validateEntities_eq_ok {entities : List ImaginedEntity} :
    ∀ {keys : List SceneText} {text output : ℕ} {totals : ℕ × ℕ},
      text ≤ 2 ^ 64 - 1 → output ≤ 2 ^ 64 - 1 →
      (validateEntities entities keys text output = .ok totals ↔
        (entities.map ImaginedEntity.key).Nodup ∧ (∀ entity ∈ entities, entity.key ∉ keys) ∧
          (∀ entity ∈ entities, entity.validate = .ok ()) ∧
          totals = (min (text + (entities.map ImaginedEntity.textBytes).sum) (2 ^ 64 - 1),
            min (output + (entities.map ImaginedEntity.outputTextBytes).sum) (2 ^ 64 - 1))) := by
  induction entities with
  | nil =>
    intro keys text output totals htext houtput
    have htotals : (min (text + 0) (2 ^ 64 - 1), min (output + 0) (2 ^ 64 - 1)) = (text, output) :=
      Prod.ext (Nat.min_eq_left htext) (Nat.min_eq_left houtput)
    rw [validateEntities, List.map_nil, List.map_nil, List.map_nil, List.sum_nil, htotals,
      Except.ok.injEq]
    simp [eq_comm]
  | cons first rest ih =>
    intro keys text output totals htext houtput
    rw [validateEntities]
    by_cases hfresh : first.key ∈ keys
    · simp [hfresh]
    cases hvalid : first.validate with
    | error error => simp [hfresh, hvalid]
    | ok =>
      have hsum : min (satAdd (satAdd text (textLen first.key)) (first.name.elim 0 textLen) +
          (rest.map ImaginedEntity.textBytes).sum) (2 ^ 64 - 1) =
          min (text + ((first :: rest).map ImaginedEntity.textBytes).sum) (2 ^ 64 - 1) := by
        rw [satAdd_satAdd, satAdd, List.map_cons, List.sum_cons, ImaginedEntity.textBytes]
        omega
      have houtputSum : min (satAdd output (textLen (first.name.getD first.key)) +
          (rest.map ImaginedEntity.outputTextBytes).sum) (2 ^ 64 - 1) =
          min (output + ((first :: rest).map ImaginedEntity.outputTextBytes).sum) (2 ^ 64 - 1) := by
        rw [satAdd, List.map_cons, List.sum_cons, ImaginedEntity.outputTextBytes]
        omega
      simp only [hfresh, if_false]
      rw [ih (satAdd_le _ _) (satAdd_le _ _), hsum, houtputSum]
      rw [List.forall_mem_cons, List.forall_mem_cons]
      simp only [List.map_cons, List.nodup_cons, List.mem_cons, not_or, List.mem_map, not_exists,
        not_and]
      constructor
      · rintro ⟨hnodup, hkeys, hvalids, htotals⟩
        exact ⟨⟨fun entity hentity => (hkeys entity hentity).1, hnodup⟩,
          ⟨hfresh, fun entity hentity => (hkeys entity hentity).2⟩, ⟨hvalid, hvalids⟩, htotals⟩
      · rintro ⟨⟨hnew, hnodup⟩, ⟨-, hkeys⟩, ⟨-, hvalids⟩, htotals⟩
        exact ⟨hnodup, fun entity hentity => ⟨hnew entity hentity, hkeys entity hentity⟩, hvalids,
          htotals⟩

namespace ImaginationEnvelope

def textTotal (imagination : ImaginationEnvelope) : ℕ :=
  count64 imagination.delivery.textBytes +
    (imagination.entities.map ImaginedEntity.textBytes).sum +
    (imagination.relations.map ImaginationRelation.textBytes).sum

def outputTextTotal (imagination : ImaginationEnvelope) : ℕ :=
  count64 imagination.delivery.textBytes +
    (imagination.entities.map ImaginedEntity.outputTextBytes).sum

def reparentTotal (imagination : ImaginationEnvelope) : ℕ :=
  (imagination.relations.filter ImaginationRelation.addsPatchOperation).length

structure Admissible (imagination : ImaginationEnvelope) (limits : RuntimeLimits) : Prop where
  schema : imagination.schemaVersion = .v1
  nonempty : imagination.entities ≠ []
  entityCount : ¬ exceedsCollection imagination.entities.length
    imagination.declaredBudget.maxEntities limits.maxImaginationEntities
  relationCount : ¬ exceedsCollection imagination.relations.length
    imagination.declaredBudget.maxRelations limits.maxImaginationRelations
  constraintCount : ¬ exceedsCollection imagination.constraints.length
    imagination.declaredBudget.maxConstraints limits.maxImaginationConstraints
  budget : validatePatchBudget imagination.declaredBudget.patch limits = .ok ()
  keys_nodup : (imagination.entities.map ImaginedEntity.key).Nodup
  entities_valid : ∀ entity ∈ imagination.entities, entity.validate = .ok ()
  text : min imagination.textTotal (2 ^ 64 - 1) ≤ limits.maxTextBytes.get
  outputText : min imagination.outputTextTotal (2 ^ 64 - 1) ≤
    imagination.declaredBudget.patch.maxTextBytes.get
  operations : count (imagination.entities.length + imagination.reparentTotal) ≤
      imagination.declaredBudget.patch.maxOperations.get ∧
    count (imagination.entities.length + imagination.reparentTotal) ≤ limits.maxOperations.get
  componentsPerEntity : 4 ≤ limits.maxComponentsPerEntity.get
  components : count (imagination.entities.length * 4) ≤
      imagination.declaredBudget.patch.maxComponents.get ∧
    count (imagination.entities.length * 4) ≤ limits.maxComponents.get
  patchSize : imagination.normalizedPatchSizeBytes ≤
    imagination.declaredBudget.patch.maxDecodedBytes.get
  size : imagination.logicalSizeBytes ≤ limits.maxDecodedBytes.get

variable {imagination : ImaginationEnvelope} {limits : RuntimeLimits}

theorem validateCollectionLimits_eq_ok :
    imagination.validateCollectionLimits limits = .ok () ↔
      imagination.entities ≠ [] ∧
      ¬ exceedsCollection imagination.entities.length imagination.declaredBudget.maxEntities
        limits.maxImaginationEntities ∧
      ¬ exceedsCollection imagination.relations.length imagination.declaredBudget.maxRelations
        limits.maxImaginationRelations ∧
      ¬ exceedsCollection imagination.constraints.length imagination.declaredBudget.maxConstraints
        limits.maxImaginationConstraints := by
  have hempty : count imagination.entities.length = 0 ↔ imagination.entities = [] := by
    rw [count, ← List.length_eq_zero_iff]
    omega
  simp only [validateCollectionLimits, hempty]
  split
  · simp_all
  split
  · simp_all
  split
  · simp_all
  split <;> simp_all

theorem validateEntitiesAndOutput_eq_ok :
    imagination.validateEntitiesAndOutput limits = .ok () ↔
      (imagination.entities.map ImaginedEntity.key).Nodup ∧
      (∀ entity ∈ imagination.entities, entity.validate = .ok ()) ∧
      min imagination.textTotal (2 ^ 64 - 1) ≤ limits.maxTextBytes.get ∧
      min imagination.outputTextTotal (2 ^ 64 - 1) ≤
        imagination.declaredBudget.patch.maxTextBytes.get ∧
      (count (imagination.entities.length + imagination.reparentTotal) ≤
          imagination.declaredBudget.patch.maxOperations.get ∧
        count (imagination.entities.length + imagination.reparentTotal) ≤
          limits.maxOperations.get) ∧
      4 ≤ limits.maxComponentsPerEntity.get ∧
      (count (imagination.entities.length * 4) ≤
          imagination.declaredBudget.patch.maxComponents.get ∧
        count (imagination.entities.length * 4) ≤ limits.maxComponents.get) ∧
      imagination.normalizedPatchSizeBytes ≤
        imagination.declaredBudget.patch.maxDecodedBytes.get := by
  have hdelivered : count64 imagination.delivery.textBytes ≤ 2 ^ 64 - 1 := Nat.min_le_right _ _
  have hoperations : count (count imagination.entities.length + imagination.reparents) =
      count (imagination.entities.length + imagination.reparentTotal) := by
    simp only [reparents, reparentTotal, count]
    omega
  have hcomponents : count (count imagination.entities.length * 4) =
      count (imagination.entities.length * 4) := by
    simp only [count]
    omega
  simp only [validateEntitiesAndOutput, Exec.bind_eq_ok, hoperations, hcomponents]
  constructor
  · rintro ⟨totals, htotals, h⟩
    obtain ⟨hnodup, -, hvalid, rfl⟩ := (validateEntities_eq_ok hdelivered hdelivered).mp htotals
    rw [foldl_satAdd _ _ (Nat.min_le_right _ _)] at h
    refine ⟨hnodup, hvalid, ?_⟩
    split at h
    · cases h
    split at h
    · cases h
    split at h
    · cases h
    split at h
    · cases h
    split at h
    · cases h
    simp only [textTotal, outputTextTotal]
    omega
  · rintro ⟨hnodup, hvalid, htext, houtput, hops, hper, hcomps, hsize⟩
    refine ⟨_, (validateEntities_eq_ok hdelivered hdelivered).mpr ⟨hnodup, by simp, hvalid, rfl⟩, ?_⟩
    rw [foldl_satAdd _ _ (Nat.min_le_right _ _)]
    simp only [textTotal] at htext
    simp only [outputTextTotal] at houtput
    rw [if_neg (by omega), if_neg (by omega), if_neg (by omega), if_neg (by omega),
      if_neg (by omega)]

theorem validate_eq_ok : imagination.validate limits = .ok () ↔ imagination.Admissible limits := by
  simp only [validate, Exec.bind_eq_ok]
  constructor
  · rintro ⟨⟨⟩, hschema, ⟨⟩, hcollections, ⟨⟩, hbudget, ⟨⟩, hentities, h⟩
    obtain ⟨hne, hentityCount, hrelationCount, hconstraintCount⟩ :=
      validateCollectionLimits_eq_ok.mp hcollections
    obtain ⟨hnodup, hvalid, htext, houtput, hops, hper, hcomps, hsize⟩ :=
      validateEntitiesAndOutput_eq_ok.mp hentities
    split at h
    · cases h
    rename_i hdecoded
    exact ⟨validateSchema_eq_ok.mp hschema, hne, hentityCount, hrelationCount, hconstraintCount,
      hbudget, hnodup, hvalid, htext, houtput, hops, hper, hcomps, hsize, Nat.not_lt.mp hdecoded⟩
  · intro h
    refine ⟨(), validateSchema_eq_ok.mpr h.schema, (), validateCollectionLimits_eq_ok.mpr
      ⟨h.nonempty, h.entityCount, h.relationCount, h.constraintCount⟩, (), h.budget, (),
      validateEntitiesAndOutput_eq_ok.mpr ⟨h.keys_nodup, h.entities_valid, h.text, h.outputText,
        h.operations, h.componentsPerEntity, h.components, h.patchSize⟩, ?_⟩
    rw [if_neg (Nat.not_lt.mpr h.size)]

theorem normalizedPatchSizeBytes_eq (imagination : ImaginationEnvelope) :
    imagination.normalizedPatchSizeBytes =
      min (71 + imagination.delivery.logicalSizeBytes +
        (imagination.entities.map fun entity => 106 + entity.outputTextBytes).sum +
        imagination.reparents * 34) (2 ^ 64 - 1) := by
  simp only [normalizedPatchSizeBytes, satAdd_satAdd]
  rw [foldl_satAdd (fun entity : ImaginedEntity =>
    1 + 16 + 4 + (1 + 4 + textLen (entity.name.getD entity.key)) + (1 + 10 * 4) +
      (1 + 1 + 3 * 4) + (1 + 6 * 4)) _ (Nat.zero_le _)]
  have hsize : (fun entity : ImaginedEntity =>
      1 + 16 + 4 + (1 + 4 + textLen (entity.name.getD entity.key)) + (1 + 10 * 4) +
        (1 + 1 + 3 * 4) + (1 + 6 * 4)) = fun entity => 106 + entity.outputTextBytes := by
    funext entity
    rw [ImaginedEntity.outputTextBytes]
    omega
  rw [hsize]
  simp only [satAdd, satMul]
  omega

theorem logicalSizeBytes_perm {entities : List ImaginedEntity}
    (h : entities.Perm imagination.entities) :
    logicalSizeBytes { imagination with entities } = imagination.logicalSizeBytes := by
  have hsum : ∀ entities : List ImaginedEntity,
      entities.foldl (fun total entity =>
        satAdd (satAdd (satAdd (satAdd (satAdd (satAdd (satAdd total 16) (textLen entity.key))
          (entity.name.elim 0 textLen)) (1 + entity.preferredId.isSome.toNat * 16)) (1 + 3 * 4))
          (1 + entity.transform.isSome.toNat * (10 * 4)))
          (1 + entity.material.isSome.toNat * (6 * 4))) 0 =
        min (0 + (entities.map fun entity => 16 + textLen entity.key + entity.name.elim 0 textLen +
          (1 + entity.preferredId.isSome.toNat * 16) + (1 + 3 * 4) +
          (1 + entity.transform.isSome.toNat * (10 * 4)) +
          (1 + entity.material.isSome.toNat * (6 * 4))).sum) (2 ^ 64 - 1) := by
    intro entities
    simp only [satAdd_satAdd]
    exact foldl_satAdd _ _ (Nat.zero_le _)
  rw [logicalSizeBytes, logicalSizeBytes]
  simp only [hsum]
  rw [(h.map _).sum_eq]

theorem Admissible.perm {entities : List ImaginedEntity} (h : imagination.Admissible limits)
    (hperm : entities.Perm imagination.entities) :
    Admissible { imagination with entities } limits := by
  have hlength := hperm.length_eq
  have htext : textTotal { imagination with entities } = imagination.textTotal := by
    simp only [textTotal, (hperm.map _).sum_eq]
  have houtput : outputTextTotal { imagination with entities } = imagination.outputTextTotal := by
    simp only [outputTextTotal, (hperm.map _).sum_eq]
  have hpatch : normalizedPatchSizeBytes { imagination with entities } =
      imagination.normalizedPatchSizeBytes := by
    simp only [normalizedPatchSizeBytes_eq, (hperm.map _).sum_eq, reparents]
  constructor
  case schema => exact h.schema
  case nonempty =>
    intro hnil
    obtain rfl : entities = [] := hnil
    exact h.nonempty hperm.nil_eq.symm
  case entityCount =>
    change ¬ exceedsCollection entities.length _ _
    rw [hlength]
    exact h.entityCount
  case relationCount => exact h.relationCount
  case constraintCount => exact h.constraintCount
  case budget => exact h.budget
  case keys_nodup => exact (hperm.map _).nodup_iff.mpr h.keys_nodup
  case entities_valid => exact fun entity hentity => h.entities_valid entity (hperm.mem_iff.mp hentity)
  case text =>
    rw [htext]
    exact h.text
  case outputText =>
    rw [houtput]
    exact h.outputText
  case operations =>
    change count (entities.length + imagination.reparentTotal) ≤ _ ∧
      count (entities.length + imagination.reparentTotal) ≤ _
    rw [hlength]
    exact h.operations
  case componentsPerEntity => exact h.componentsPerEntity
  case components =>
    change count (entities.length * 4) ≤ _ ∧ count (entities.length * 4) ≤ _
    rw [hlength]
    exact h.components
  case patchSize =>
    rw [hpatch]
    exact h.patchSize
  case size =>
    rw [logicalSizeBytes_perm hperm]
    exact h.size

end ImaginationEnvelope

end Cogniform
