import Cogniform.Lib.Exec
import Cogniform.Protocol.Message
import Mathlib.Order.Lattice

/-!
# Limits, compared field by field

Limits are compared by the values of their fields. What fits limits fits greater ones.
-/

namespace Cogniform

instance {width : ℕ} : Min (NonZero width) := ⟨fun a b => if a.get ≤ b.get then a else b⟩

@[simp] theorem NonZero.get_min {width : ℕ} (a b : NonZero width) :
    (min a b).get = min a.get b.get := by
  change (if a.get ≤ b.get then a else b).get = _
  split
  · rename_i h
    exact (min_eq_left h).symm
  · rename_i h
    exact (min_eq_right (Nat.le_of_not_le h)).symm

/-! ### Runtime limits -/

/-- The fields of `RuntimeLimits`. -/
inductive RuntimeLimit where
  | maxEncodedBytes | maxDecodedBytes | maxJsonNestingDepth | maxOperations | maxComponents
  | maxComponentsPerEntity | maxTextBytes | maxDiagnostics | maxQueueCapacity
  | maxImaginationEntities | maxImaginationRelations | maxImaginationConstraints | maxQueryEntities
  | maxObservationWidth | maxObservationHeight | maxObservationPixels

def RuntimeLimits.value (limits : RuntimeLimits) : RuntimeLimit → ℕ
  | .maxEncodedBytes => limits.maxEncodedBytes.get
  | .maxDecodedBytes => limits.maxDecodedBytes.get
  | .maxJsonNestingDepth => limits.maxJsonNestingDepth.get
  | .maxOperations => limits.maxOperations.get
  | .maxComponents => limits.maxComponents.get
  | .maxComponentsPerEntity => limits.maxComponentsPerEntity.get
  | .maxTextBytes => limits.maxTextBytes.get
  | .maxDiagnostics => limits.maxDiagnostics.get
  | .maxQueueCapacity => limits.maxQueueCapacity.get
  | .maxImaginationEntities => limits.maxImaginationEntities.get
  | .maxImaginationRelations => limits.maxImaginationRelations.get
  | .maxImaginationConstraints => limits.maxImaginationConstraints.get
  | .maxQueryEntities => limits.maxQueryEntities.get
  | .maxObservationWidth => limits.maxObservationWidth.get
  | .maxObservationHeight => limits.maxObservationHeight.get
  | .maxObservationPixels => limits.maxObservationPixels.get

def runtimeLimitsFit (proposed available : RuntimeLimits) : Bool :=
  proposed.maxEncodedBytes.get ≤ available.maxEncodedBytes.get
    && proposed.maxDecodedBytes.get ≤ available.maxDecodedBytes.get
    && proposed.maxJsonNestingDepth.get ≤ available.maxJsonNestingDepth.get
    && proposed.maxOperations.get ≤ available.maxOperations.get
    && proposed.maxComponents.get ≤ available.maxComponents.get
    && proposed.maxComponentsPerEntity.get ≤ available.maxComponentsPerEntity.get
    && proposed.maxTextBytes.get ≤ available.maxTextBytes.get
    && proposed.maxDiagnostics.get ≤ available.maxDiagnostics.get
    && proposed.maxQueueCapacity.get ≤ available.maxQueueCapacity.get
    && proposed.maxImaginationEntities.get ≤ available.maxImaginationEntities.get
    && proposed.maxImaginationRelations.get ≤ available.maxImaginationRelations.get
    && proposed.maxImaginationConstraints.get ≤ available.maxImaginationConstraints.get
    && proposed.maxQueryEntities.get ≤ available.maxQueryEntities.get
    && proposed.maxObservationWidth.get ≤ available.maxObservationWidth.get
    && proposed.maxObservationHeight.get ≤ available.maxObservationHeight.get
    && proposed.maxObservationPixels.get ≤ available.maxObservationPixels.get

namespace RuntimeLimits

theorem value_injective : Function.Injective value := by
  intro left right h
  cases left
  cases right
  simp only [RuntimeLimits.mk.injEq]
  refine ⟨?_, ?_, ?_, ?_, ?_, ?_, ?_, ?_, ?_, ?_, ?_, ?_, ?_, ?_, ?_, ?_⟩ <;>
    apply NonZero.get_injective
  exacts [congrFun h .maxEncodedBytes, congrFun h .maxDecodedBytes,
    congrFun h .maxJsonNestingDepth, congrFun h .maxOperations, congrFun h .maxComponents,
    congrFun h .maxComponentsPerEntity, congrFun h .maxTextBytes, congrFun h .maxDiagnostics,
    congrFun h .maxQueueCapacity, congrFun h .maxImaginationEntities,
    congrFun h .maxImaginationRelations, congrFun h .maxImaginationConstraints,
    congrFun h .maxQueryEntities, congrFun h .maxObservationWidth,
    congrFun h .maxObservationHeight, congrFun h .maxObservationPixels]

instance : PartialOrder RuntimeLimits := PartialOrder.lift value value_injective

theorem runtimeLimitsFit_iff {proposed available : RuntimeLimits} :
    runtimeLimitsFit proposed available = true ↔ proposed ≤ available := by
  simp only [runtimeLimitsFit, Bool.and_eq_true, decide_eq_true_eq]
  constructor
  · intro h field
    cases field <;> simp only [value] <;> omega
  · intro h
    exact ⟨⟨⟨⟨⟨⟨⟨⟨⟨⟨⟨⟨⟨⟨⟨h .maxEncodedBytes, h .maxDecodedBytes⟩, h .maxJsonNestingDepth⟩,
      h .maxOperations⟩, h .maxComponents⟩, h .maxComponentsPerEntity⟩, h .maxTextBytes⟩,
      h .maxDiagnostics⟩, h .maxQueueCapacity⟩, h .maxImaginationEntities⟩,
      h .maxImaginationRelations⟩, h .maxImaginationConstraints⟩, h .maxQueryEntities⟩,
      h .maxObservationWidth⟩, h .maxObservationHeight⟩, h .maxObservationPixels⟩

def Consistent (limits : RuntimeLimits) : Prop :=
  limits.maxComponentsPerEntity.get ≤ limits.maxComponents.get

end RuntimeLimits

section

variable {limits limits' : RuntimeLimits}

theorem validateOperations_mono (hle : limits ≤ limits') {operations : List SceneOperation} :
    ∀ {componentCount textBytes : ℕ} {totals : ℕ × ℕ},
      validateOperations limits operations componentCount textBytes = .ok totals →
        validateOperations limits' operations componentCount textBytes = .ok totals := by
  have hentity : limits.maxComponentsPerEntity.get ≤ limits'.maxComponentsPerEntity.get :=
    hle .maxComponentsPerEntity
  induction operations with
  | nil => exact id
  | cons operation operations ih =>
    intro componentCount textBytes totals h
    rw [validateOperations] at h ⊢
    cases hvalid : operation.validate with
    | error error =>
      rw [hvalid] at h
      cases h
    | ok _ =>
      rw [hvalid] at h
      dsimp only at h ⊢
      split at h
      · cases h
      · rename_i hfits
        have hfits' : ¬operation.exceedsEntityLimit limits' = true := by
          cases operation with
          | create entityId components =>
            simp only [SceneOperation.exceedsEntityLimit, decide_eq_true_eq] at hfits ⊢
            omega
          | _ => exact hfits
        rw [if_neg hfits']
        exact ih h

theorem ScenePatch.validate_mono (hle : limits ≤ limits') {patch : ScenePatch}
    (h : patch.validate limits = .ok ()) : patch.validate limits' = .ok () := by
  have hoperations : limits.maxOperations.get ≤ limits'.maxOperations.get := hle .maxOperations
  have hcomponents : limits.maxComponents.get ≤ limits'.maxComponents.get := hle .maxComponents
  have htext : limits.maxTextBytes.get ≤ limits'.maxTextBytes.get := hle .maxTextBytes
  have hdecoded : limits.maxDecodedBytes.get ≤ limits'.maxDecodedBytes.get := hle .maxDecodedBytes
  obtain ⟨⟨⟩, hschema, h⟩ := Exec.bind_eq_ok.mp h
  refine Exec.bind_eq_ok.mpr ⟨(), hschema, ?_⟩
  dsimp only at h ⊢
  split at h
  · cases h
  rename_i hcount
  split at h
  · cases h
  rename_i hoperationCount
  rw [if_neg hcount, if_neg (by omega)]
  obtain ⟨totals, htotals, h⟩ := Exec.bind_eq_ok.mp h
  refine Exec.bind_eq_ok.mpr ⟨totals, validateOperations_mono hle htotals, ?_⟩
  split at h
  · cases h
  rename_i hcomponentCount
  split at h
  · cases h
  rename_i htextBytes
  split at h
  · cases h
  rename_i hlogical
  rw [if_neg (by omega), if_neg (by omega), if_neg (by omega)]

end

end Cogniform
