import Cogniform.Compiler.Result
import Cogniform.Protocol.Limits
import Mathlib.Order.Lattice.Nat

/-!
# Limits of compilation results
-/

namespace Cogniform

structure CompilationLimits where
  maxEncodedBytes : NonZeroU64
  maxDecodedBytes : NonZeroU64
  maxJsonNestingDepth : NonZeroU16
  maxTextBytes : NonZeroU64
  maxDecisions : NonZeroU32
  maxUnresolvedConstraints : NonZeroU32
  patchLimits : RuntimeLimits
  deriving DecidableEq

namespace CompilationLimits

def saturate (width value : ℕ) : ℕ := min value (2 ^ width - 1)

theorem saturate_lt (width value : ℕ) : saturate width value < 2 ^ width := by
  have h := Nat.two_pow_pos width
  rw [saturate]
  omega

def decisions (patchLimits : RuntimeLimits) : ℕ :=
  saturate 32 (saturate 32 (patchLimits.maxImaginationEntities.get * 4) +
    patchLimits.maxImaginationRelations.get)

def unresolved (patchLimits : RuntimeLimits) : ℕ :=
  saturate 32 (patchLimits.maxImaginationRelations.get + patchLimits.maxImaginationConstraints.get)

def text (patchLimits : RuntimeLimits) : ℕ := saturate 64 (patchLimits.maxTextBytes.get * 6)

def decoded (patchLimits : RuntimeLimits) : ℕ :=
  satAdd (satAdd (satAdd (satAdd patchLimits.maxDecodedBytes.get (text patchLimits))
    (satMul (decisions patchLimits) 27)) (satMul (unresolved patchLimits) 38)) 35

def encoded (patchLimits : RuntimeLimits) : ℕ :=
  satAdd (satAdd (satAdd (satAdd patchLimits.maxEncodedBytes.get (satMul (text patchLimits) 6))
    (satMul (decisions patchLimits) 192)) (satMul (unresolved patchLimits) 256)) 1024

def nesting (patchLimits : RuntimeLimits) : ℕ :=
  let nestedPatch := saturate 16 (patchLimits.maxJsonNestingDepth.get + 1)
  if nestedPatch < 9 then 9 else nestedPatch

theorem encoded_pos (patchLimits : RuntimeLimits) : 0 < encoded patchLimits := by
  rw [encoded, satAdd]
  omega

theorem encoded_lt (patchLimits : RuntimeLimits) : encoded patchLimits < 2 ^ 64 := by
  rw [encoded, satAdd]
  omega

theorem decoded_pos (patchLimits : RuntimeLimits) : 0 < decoded patchLimits := by
  rw [decoded, satAdd]
  omega

theorem decoded_lt (patchLimits : RuntimeLimits) : decoded patchLimits < 2 ^ 64 := by
  rw [decoded, satAdd]
  omega

theorem text_pos (patchLimits : RuntimeLimits) : 0 < text patchLimits := by
  have h := patchLimits.maxTextBytes.pos
  rw [text, saturate]
  omega

theorem decisions_pos (patchLimits : RuntimeLimits) : 0 < decisions patchLimits := by
  have h := patchLimits.maxImaginationRelations.pos
  rw [decisions, saturate]
  omega

theorem unresolved_pos (patchLimits : RuntimeLimits) : 0 < unresolved patchLimits := by
  have h := patchLimits.maxImaginationRelations.pos
  rw [unresolved, saturate]
  omega

theorem nesting_pos (patchLimits : RuntimeLimits) : 0 < nesting patchLimits := by
  simp only [nesting]
  split <;> omega

theorem nesting_lt (patchLimits : RuntimeLimits) : nesting patchLimits < 2 ^ 16 := by
  have h := saturate_lt 16 (patchLimits.maxJsonNestingDepth.get + 1)
  simp only [nesting]
  split <;> omega

def forRuntimeLimits (patchLimits : RuntimeLimits) : CompilationLimits where
  maxEncodedBytes := ⟨encoded patchLimits, encoded_pos patchLimits, encoded_lt patchLimits⟩
  maxDecodedBytes := ⟨decoded patchLimits, decoded_pos patchLimits, decoded_lt patchLimits⟩
  maxJsonNestingDepth := ⟨nesting patchLimits, nesting_pos patchLimits, nesting_lt patchLimits⟩
  maxTextBytes := ⟨text patchLimits, text_pos patchLimits, saturate_lt _ _⟩
  maxDecisions := ⟨decisions patchLimits, decisions_pos patchLimits, saturate_lt _ _⟩
  maxUnresolvedConstraints := ⟨unresolved patchLimits, unresolved_pos patchLimits, saturate_lt _ _⟩
  patchLimits := patchLimits

def default : CompilationLimits := forRuntimeLimits .default

end CompilationLimits

def compilationLimitsFit (proposed available : CompilationLimits) : Bool :=
  proposed.maxEncodedBytes.get ≤ available.maxEncodedBytes.get
    && proposed.maxDecodedBytes.get ≤ available.maxDecodedBytes.get
    && proposed.maxJsonNestingDepth.get ≤ available.maxJsonNestingDepth.get
    && proposed.maxTextBytes.get ≤ available.maxTextBytes.get
    && proposed.maxDecisions.get ≤ available.maxDecisions.get
    && proposed.maxUnresolvedConstraints.get ≤ available.maxUnresolvedConstraints.get
    && runtimeLimitsFit proposed.patchLimits available.patchLimits

namespace CompilationLimits

inductive Field where
  | maxEncodedBytes | maxDecodedBytes | maxJsonNestingDepth | maxTextBytes | maxDecisions
  | maxUnresolvedConstraints
  | patch (limit : RuntimeLimit)

def value (limits : CompilationLimits) : Field → ℕ
  | .maxEncodedBytes => limits.maxEncodedBytes.get
  | .maxDecodedBytes => limits.maxDecodedBytes.get
  | .maxJsonNestingDepth => limits.maxJsonNestingDepth.get
  | .maxTextBytes => limits.maxTextBytes.get
  | .maxDecisions => limits.maxDecisions.get
  | .maxUnresolvedConstraints => limits.maxUnresolvedConstraints.get
  | .patch limit => limits.patchLimits.value limit

theorem value_injective : Function.Injective value := by
  intro left right h
  have hpatch : left.patchLimits = right.patchLimits :=
    RuntimeLimits.value_injective (funext fun limit => congrFun h (.patch limit))
  cases left
  cases right
  simp only [CompilationLimits.mk.injEq]
  refine ⟨?_, ?_, ?_, ?_, ?_, ?_, hpatch⟩ <;> apply NonZero.get_injective
  exacts [congrFun h .maxEncodedBytes, congrFun h .maxDecodedBytes,
    congrFun h .maxJsonNestingDepth, congrFun h .maxTextBytes, congrFun h .maxDecisions,
    congrFun h .maxUnresolvedConstraints]

instance : PartialOrder CompilationLimits := PartialOrder.lift value value_injective

def valueEmbedding : CompilationLimits ↪o (Field → ℕ) := ⟨⟨value, value_injective⟩, Iff.rfl⟩

theorem compilationLimitsFit_iff {proposed available : CompilationLimits} :
    compilationLimitsFit proposed available = true ↔ proposed ≤ available := by
  simp only [compilationLimitsFit, Bool.and_eq_true, decide_eq_true_eq,
    RuntimeLimits.runtimeLimitsFit_iff]
  constructor
  · intro h field
    cases field with
    | patch limit => exact h.2 limit
    | _ => simp only [value]; omega
  · intro h
    exact ⟨⟨⟨⟨⟨⟨h .maxEncodedBytes, h .maxDecodedBytes⟩, h .maxJsonNestingDepth⟩, h .maxTextBytes⟩,
      h .maxDecisions⟩, h .maxUnresolvedConstraints⟩, fun limit => h (.patch limit)⟩

def Consistent (limits : CompilationLimits) : Prop := limits.patchLimits.Consistent

end CompilationLimits

end Cogniform
