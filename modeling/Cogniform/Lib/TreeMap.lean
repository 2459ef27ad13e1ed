import Mathlib.Data.List.Perm.Subperm
import Std.Data.ExtTreeMap
import Std.Data.ExtTreeSet

/-!
# Ordered maps and sets over keys with decidable equality

The library states lookups after an update by comparing keys. When comparison decides equality, the
same facts read better with an equation between keys; these are the forms the development uses.
-/

namespace Cogniform

variable {K V W : Type} [Ord K] [Std.TransOrd K] [Std.LawfulEqOrd K] [DecidableEq K]

namespace TreeMap

variable {m : Std.ExtTreeMap K V} {k a : K} {v : V}

theorem getElem?_insert (m : Std.ExtTreeMap K V) (k a : K) (v : V) :
    (m.insert k v)[a]? = if a = k then some v else m[a]? := by
  rw [Std.ExtTreeMap.getElem?_insert]
  rcases eq_or_ne a k with rfl | hne
  · simp
  · simp [hne, hne.symm]

theorem getElem?_erase (m : Std.ExtTreeMap K V) (k a : K) :
    (m.erase k)[a]? = if a = k then none else m[a]? := by
  rw [Std.ExtTreeMap.getElem?_erase]
  rcases eq_or_ne a k with rfl | hne
  · simp
  · simp [hne, hne.symm]

omit [Std.LawfulEqOrd K] [DecidableEq K] in
theorem mem_iff : k ∈ m ↔ ∃ v, m[k]? = some v := by
  rw [Std.ExtTreeMap.mem_iff_isSome_getElem?, Option.isSome_iff_exists]

omit [Std.LawfulEqOrd K] [DecidableEq K] in
theorem mem_of_get (h : m[k]? = some v) : k ∈ m := mem_iff.mpr ⟨v, h⟩

omit [Std.LawfulEqOrd K] [DecidableEq K] in
theorem not_mem_iff : k ∉ m ↔ m[k]? = none := by
  rw [mem_iff, ← Option.isSome_iff_exists, Option.not_isSome_iff_eq_none]

omit [DecidableEq K] in
theorem mem_insert : a ∈ m.insert k v ↔ a = k ∨ a ∈ m := by
  rw [Std.ExtTreeMap.mem_insert, Std.LawfulEqCmp.compare_eq_iff_eq, eq_comm]

theorem mem_erase : a ∈ m.erase k ↔ a ≠ k ∧ a ∈ m := by
  rw [mem_iff, mem_iff, getElem?_erase]
  rcases eq_or_ne a k with rfl | hne
  · simp
  · simp [hne]

theorem erase_of_not_mem (h : k ∉ m) : m.erase k = m := by
  refine Std.ExtTreeMap.ext_getElem? fun a => ?_
  rw [getElem?_erase]
  split
  · rename_i heq
    rw [heq, not_mem_iff.mp h]
  · rfl

theorem insert_of_get (h : m[k]? = some v) : m.insert k v = m := by
  refine Std.ExtTreeMap.ext_getElem? fun a => ?_
  rw [getElem?_insert]
  split
  · rename_i heq
    rw [heq, h]
  · rfl

omit [Std.LawfulEqOrd K] [DecidableEq K] in
theorem size_insert_of_mem (h : k ∈ m) (v : V) : (m.insert k v).size = m.size := by
  rw [Std.ExtTreeMap.size_insert, if_pos (Std.ExtTreeMap.contains_iff_mem.mpr h)]

omit [Std.LawfulEqOrd K] [DecidableEq K] in
theorem size_insert_of_not_mem (h : k ∉ m) (v : V) : (m.insert k v).size = m.size + 1 := by
  rw [Std.ExtTreeMap.size_insert, if_neg (by rwa [Std.ExtTreeMap.contains_iff_mem])]

omit [Std.LawfulEqOrd K] [DecidableEq K] in
theorem size_pos_of_mem (h : k ∈ m) : 0 < m.size := by
  rw [Nat.pos_iff_ne_zero]
  intro hzero
  rw [Std.ExtTreeMap.eq_empty_iff_size_eq_zero.mpr hzero] at h
  exact Std.ExtTreeMap.not_mem_empty h

omit [Std.LawfulEqOrd K] [DecidableEq K] in
theorem size_erase_of_mem (h : k ∈ m) : (m.erase k).size + 1 = m.size := by
  rw [Std.ExtTreeMap.size_erase, if_pos (Std.ExtTreeMap.contains_iff_mem.mpr h)]
  exact Nat.sub_add_cancel (size_pos_of_mem h)

omit [DecidableEq K] in
theorem size_le_of_mem {m : Std.ExtTreeMap K V} {n : Std.ExtTreeMap K W}
    (h : ∀ k, k ∈ m → k ∈ n) : m.size ≤ n.size := by
  rw [← Std.ExtTreeMap.length_keys, ← Std.ExtTreeMap.length_keys]
  refine (List.subperm_of_subset Std.ExtTreeMap.nodup_keys fun k hk => ?_).length_le
  exact Std.ExtTreeMap.mem_keys.mpr (h k (Std.ExtTreeMap.mem_keys.mp hk))

omit [DecidableEq K] in
theorem size_eq_of_mem_iff {m : Std.ExtTreeMap K V} {n : Std.ExtTreeMap K W}
    (h : ∀ k, k ∈ m ↔ k ∈ n) : m.size = n.size :=
  Nat.le_antisymm (size_le_of_mem fun k => (h k).mp) (size_le_of_mem fun k => (h k).mpr)

theorem getElem?_ofList_zipIdx {A : Type} {items : List A} {key : A → K}
    (hnodup : (items.map key).Nodup) {index : ℕ} :
    (Std.ExtTreeMap.ofList (items.zipIdx.map fun (item, index) => (key item, index)) compare)[k]? =
        some index ↔
      ∃ item, items[index]? = some item ∧ key item = k := by
  have hfst : (items.zipIdx.map fun (item, index) => (key item, index)).map Prod.fst =
      items.map key := by
    rw [List.map_map]
    change items.zipIdx.map (key ∘ Prod.fst) = _
    rw [← List.map_map, List.zipIdx_map_fst]
  have hdistinct : (items.zipIdx.map fun (item, index) => (key item, index)).Pairwise
      fun a b => ¬ compare a.1 b.1 = .eq := by
    rw [← hfst] at hnodup
    refine (List.pairwise_map.mp hnodup).imp fun hne heq => ?_
    exact hne (Std.LawfulEqCmp.compare_eq_iff_eq.mp heq)
  have hmem : ∀ {index : ℕ} {item : A}, items[index]? = some item → key item = k →
      (Std.ExtTreeMap.ofList (items.zipIdx.map fun (item, index) => (key item, index))
        compare)[k]? = some index := by
    intro index item hitem hkey
    refine Std.ExtTreeMap.getElem?_ofList_of_mem (Std.ReflCmp.compare_self) hdistinct ?_
    exact List.mem_map.mpr ⟨(item, index), List.mem_zipIdx_iff_getElem?.mpr hitem,
      Prod.ext hkey rfl⟩
  constructor
  · intro h
    have hcontains := Std.ExtTreeMap.mem_ofList.mp (mem_of_get h)
    rw [hfst] at hcontains
    obtain ⟨item, hitem, hkey⟩ := List.mem_map.mp (List.contains_iff_mem.mp hcontains)
    obtain ⟨other, hother⟩ := List.mem_iff_getElem?.mp hitem
    have heq := (hmem hother hkey).symm.trans h
    cases heq
    exact ⟨item, hother, hkey⟩
  · rintro ⟨item, hitem, hkey⟩
    exact hmem hitem hkey

end TreeMap

namespace TreeSet

variable {s t : Std.ExtTreeSet K} {k a : K}

omit [DecidableEq K] in
theorem mem_insert : a ∈ s.insert k ↔ a = k ∨ a ∈ s := by
  rw [Std.ExtTreeSet.mem_insert, Std.LawfulEqCmp.compare_eq_iff_eq, eq_comm]

omit [DecidableEq K] in
theorem mem_erase : a ∈ s.erase k ↔ a ≠ k ∧ a ∈ s := by
  rw [Std.ExtTreeSet.mem_erase, ne_eq, Std.LawfulEqCmp.compare_eq_iff_eq, ne_eq, eq_comm]

omit [Std.LawfulEqOrd K] [DecidableEq K] in
theorem nodup_toList (s : Std.ExtTreeSet K) : s.toList.Nodup :=
  Std.ExtTreeSet.distinct_toList.imp fun hne heq => hne (by rw [heq]; simp)

omit [DecidableEq K] in
theorem size_le_of_subset (h : ∀ k ∈ s, k ∈ t) : s.size ≤ t.size := by
  rw [← Std.ExtTreeSet.length_toList, ← Std.ExtTreeSet.length_toList]
  refine (List.subperm_of_subset (nodup_toList s) fun k hk => ?_).length_le
  exact Std.ExtTreeSet.mem_toList.mpr (h k (Std.ExtTreeSet.mem_toList.mp hk))

end TreeSet

end Cogniform
