import Mathlib.Algebra.BigOperators.Group.Finset.Basic
import Mathlib.Algebra.Order.BigOperators.Group.Finset
import Mathlib.Algebra.Order.Ring.Nat
import Mathlib.Data.Finset.Basic
import Mathlib.Data.Nat.Notation

/-!
# Sizes of classes

Keys in a list form classes of equal keys. The work of the list is the sum of the cubes of the class
sizes: it does not depend on the order of the keys, and one more key adds the difference of two cubes.
-/

namespace Cogniform

variable {K : Type} [DecidableEq K] {keys keys' : List K} {key : K}

def classSize (keys : List K) (key : K) : ℕ := keys.count key

def cubeWork (keys : List K) : ℕ := ∑ key ∈ keys.toFinset, classSize keys key ^ 3

theorem classSize_concat (keys : List K) (key other : K) :
    classSize (keys ++ [key]) other = classSize keys other + if other = key then 1 else 0 := by
  rw [classSize, List.count_append, List.count_singleton, classSize]
  by_cases h : other = key
  · rw [if_pos h, if_pos (by simp [h])]
  · rw [if_neg h, if_neg (by simpa using Ne.symm h)]

theorem cubeWork_perm (h : keys.Perm keys') : cubeWork keys = cubeWork keys' := by
  rw [cubeWork, cubeWork, List.toFinset_eq_of_perm _ _ h]
  exact Finset.sum_congr rfl fun key _ => by rw [classSize, h.count_eq, classSize]

theorem cubeWork_eq_sum {s : Finset K} (h : keys.toFinset ⊆ s) :
    cubeWork keys = ∑ key ∈ s, classSize keys key ^ 3 := by
  refine Finset.sum_subset h fun key _ hkey => ?_
  rw [classSize, List.count_eq_zero.mpr (by simpa using hkey)]
  rfl

theorem cubeWork_concat (keys : List K) (key : K) :
    cubeWork (keys ++ [key]) =
      cubeWork keys + ((classSize keys key + 1) ^ 3 - classSize keys key ^ 3) := by
  have hkey : key ∈ (keys ++ [key]).toFinset := by simp
  have hsubset : keys.toFinset ⊆ (keys ++ [key]).toFinset := by simp
  have hrest : ∀ other ∈ (keys ++ [key]).toFinset.erase key,
      classSize (keys ++ [key]) other ^ 3 = classSize keys other ^ 3 := by
    intro other hother
    rw [classSize_concat, if_neg (Finset.ne_of_mem_erase hother), Nat.add_zero]
  have hcube : classSize keys key ^ 3 ≤ (classSize keys key + 1) ^ 3 :=
    Nat.pow_le_pow_left (Nat.le_succ _) 3
  rw [cubeWork_eq_sum hsubset, cubeWork, ← Finset.add_sum_erase _ _ hkey,
    ← Finset.add_sum_erase _ _ hkey, Finset.sum_congr rfl hrest, classSize_concat, if_pos rfl]
  omega

theorem cubeWork_le_append (keys rest : List K) : cubeWork keys ≤ cubeWork (keys ++ rest) := by
  rw [cubeWork_eq_sum (s := (keys ++ rest).toFinset) (by simp), cubeWork]
  refine Finset.sum_le_sum fun key _ => Nat.pow_le_pow_left ?_ 3
  rw [classSize, classSize, List.count_append]
  exact Nat.le_add_right _ _

theorem classSize_pow_le_cubeWork (keys : List K) (key : K) :
    classSize keys key ^ 3 ≤ cubeWork keys := by
  by_cases h : key ∈ keys
  · exact Finset.single_le_sum (f := fun key => classSize keys key ^ 3)
      (fun _ _ => Nat.zero_le _) (List.mem_toFinset.mpr h)
  · rw [classSize, List.count_eq_zero.mpr h]
    exact Nat.zero_le _

theorem length_le_cubeWork (keys : List K) : keys.length ≤ cubeWork keys := by
  rw [← List.sum_toFinset_count_eq_length keys]
  exact Finset.sum_le_sum fun key _ => Nat.le_self_pow (by decide) _

end Cogniform
