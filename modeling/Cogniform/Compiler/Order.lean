import Cogniform.Compiler.Compile
import Cogniform.Lib.Sorting
import Cogniform.Protocol.Admissible

/-!
# The order of imagined entities

Entities are named by keys, and the compiler takes them in the order of their keys. Where an entity
stands in the request matters in one place only, which failure an invalid request is refused with.
-/

namespace Cogniform

instance : Std.TransCmp fun left right : ImaginedEntity => compare left.key right.key :=
  inferInstanceAs (Std.TransCmp (compareOn ImaginedEntity.key))

theorem insertionSort_key_perm {entities entities' : List ImaginedEntity}
    (hnodup : (entities.map ImaginedEntity.key).Nodup) (hperm : entities'.Perm entities) :
    entities'.insertionSort (fun left right => (compare left.key right.key).isLE) =
      entities.insertionSort fun left right => (compare left.key right.key).isLE :=
  Sorting.sort_eq_of_perm hperm fun _ hleft _ hright heq =>
    List.inj_on_of_nodup_map hnodup hleft hright (Std.LawfulEqCmp.compare_eq_iff_eq.mp heq)

namespace CompilerConfig

variable {sha256 : List UInt8 → Digest} {serde : SerdeWriter CompilationResult}
  {config : CompilerConfig} {imagination : ImaginationEnvelope} {scene : CompilationSceneView}
  {entities : List ImaginedEntity}

theorem planFrom_entities (plans : List ImaginedEntity) :
    ∀ index usedIds,
      config.planFrom sha256 { imagination with entities } scene index usedIds plans =
        config.planFrom sha256 imagination scene index usedIds plans := by
  induction plans with
  | nil =>
    intro index usedIds
    rfl
  | cons plan plans ih =>
    intro index usedIds
    simp only [planFrom, ih]
    rfl

theorem planEntities_perm (hnodup : (imagination.entities.map ImaginedEntity.key).Nodup)
    (hperm : entities.Perm imagination.entities) :
    config.planEntities sha256 { imagination with entities } scene =
      config.planEntities sha256 imagination scene := by
  rw [planEntities, planEntities, planFrom_entities, insertionSort_key_perm hnodup hperm]

theorem compile_of_perm {result : CompilationResult} (hperm : entities.Perm imagination.entities)
    (h : config.compile sha256 serde imagination scene = .ok result) :
    config.compile sha256 serde { imagination with entities } scene = .ok result := by
  obtain ⟨⟨⟩, hvalid, h⟩ := Exec.bind_eq_ok.mp h
  rw [Exec.mapError_eq_ok, Exec.ofExcept_eq_ok, ImaginationEnvelope.validate_eq_ok] at hvalid
  refine Exec.bind_eq_ok.mpr ⟨(), ?_, ?_⟩
  · rw [Exec.mapError_eq_ok, Exec.ofExcept_eq_ok, ImaginationEnvelope.validate_eq_ok]
    exact hvalid.perm hperm
  · have hanalyze : config.analyze sha256 { imagination with entities } scene =
        config.analyze sha256 imagination scene := by
      rw [analyze, analyze, planEntities_perm hvalid.keys_nodup hperm]
      rfl
    rw [hanalyze]
    exact h

/-- **Compilation does not depend on the order of imagined entities.** One order compiles if and only
if the other does, and to the same result. -/
theorem compile_perm (hperm : entities.Perm imagination.entities) (result : CompilationResult) :
    config.compile sha256 serde { imagination with entities } scene = .ok result ↔
      config.compile sha256 serde imagination scene = .ok result := by
  constructor
  · intro h
    exact @compile_of_perm sha256 serde config { imagination with entities } scene
      imagination.entities result hperm.symm h
  · exact compile_of_perm hperm

theorem compile_perm_sample :
    ∃ result, (CompilerConfig.new .default).compile (fun _ => .replicate 32 0)
        (CompilationResult.serde sampleFloats) sampleImagination ⟨.initial, ∅⟩ = .ok result ∧
      (CompilerConfig.new .default).compile (fun _ => .replicate 32 0)
        (CompilationResult.serde sampleFloats)
        { sampleImagination with entities := sampleImagination.entities.reverse }
        ⟨.initial, ∅⟩ = .ok result := by
  obtain ⟨-, -, result, -, hresult, -⟩ := sampleImagination_compiles
  exact ⟨result, hresult, (compile_perm (List.reverse_perm _) result).mpr hresult⟩

end CompilerConfig

end Cogniform
