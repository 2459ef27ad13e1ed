import Cogniform.Lib.TreeMap
import Mathlib.Data.List.Nodup

/-!
# Reusing identities

An allocator hands out identities from one counter and takes back the ones that are released. Each
identity below the counter is in use under one key or free, and never both. So an allocator that
prefers free identities never counts beyond the largest number of keys it has served at once.
-/

namespace Cogniform

variable {K C : Type} [Ord K] [Std.TransOrd K] [Std.LawfulEqOrd K] [DecidableEq K]
  [Ord C] [Std.TransOrd C] [Std.LawfulEqOrd C]

structure Allocated (value : C → ℕ) (used : Std.ExtTreeMap K C) (free : Std.ExtTreeSet C)
    (next : ℕ) : Prop where
  injective : ∀ (a b : K) (c : C), used[a]? = some c → used[b]? = some c → a = b
  disjoint : ∀ (a : K) (c : C), used[a]? = some c → c ∉ free
  issued : ∀ c : C, (c ∈ free ∨ ∃ a : K, used[a]? = some c) ↔ value c < next

namespace Allocated

variable {value : C → ℕ} {used : Std.ExtTreeMap K C} {free : Std.ExtTreeSet C} {next : ℕ} {a : K}
  {c : C}

omit [Std.LawfulEqOrd K] [DecidableEq K] [Std.LawfulEqOrd C] in
theorem empty (hpos : ∀ c, 0 < value c) :
    Allocated value (∅ : Std.ExtTreeMap K C) (∅ : Std.ExtTreeSet C) 1 where
  injective := by simp
  disjoint := by simp
  issued c := by
    have := hpos c
    simp
    omega

theorem release (h : Allocated value used free next) (ha : used[a]? = some c) :
    Allocated value (used.erase a) (free.insert c) next where
  injective x y d hx hy := by
    rw [TreeMap.getElem?_erase] at hx hy
    split at hx
    · cases hx
    split at hy
    · cases hy
    exact h.injective x y d hx hy
  disjoint x d hx := by
    rw [TreeMap.getElem?_erase] at hx
    split at hx
    · cases hx
    rename_i hne
    rw [TreeSet.mem_insert, not_or]
    refine ⟨?_, h.disjoint x d hx⟩
    rintro rfl
    exact hne (h.injective x a d hx ha)
  issued d := by
    rw [← h.issued, TreeSet.mem_insert]
    constructor
    · rintro ((rfl | hd) | ⟨x, hx⟩)
      · exact .inr ⟨a, ha⟩
      · exact .inl hd
      · rw [TreeMap.getElem?_erase] at hx
        split at hx
        · cases hx
        · exact .inr ⟨x, hx⟩
    · rintro (hd | ⟨x, hx⟩)
      · exact .inl (.inr hd)
      · by_cases hxa : x = a
        · rw [hxa, ha, Option.some.injEq] at hx
          exact .inl (.inl hx.symm)
        · exact .inr ⟨x, by rw [TreeMap.getElem?_erase, if_neg hxa, hx]⟩

theorem reuse (h : Allocated value used free next) (hc : c ∈ free) (ha : a ∉ used) :
    Allocated value (used.insert a c) (free.erase c) next where
  injective x y d hx hy := by
    rw [TreeMap.getElem?_insert] at hx hy
    split at hx <;> split at hy
    · rename_i hxa hya
      exact hxa.trans hya.symm
    · cases hx
      exact absurd hc (h.disjoint y c hy)
    · cases hy
      exact absurd hc (h.disjoint x c hx)
    · exact h.injective x y d hx hy
  disjoint x d hx := by
    rw [TreeMap.getElem?_insert] at hx
    rw [TreeSet.mem_erase]
    split at hx
    · cases hx
      exact fun hd => hd.1 rfl
    · exact fun hd => h.disjoint x d hx hd.2
  issued d := by
    rw [← h.issued, TreeSet.mem_erase]
    constructor
    · rintro (⟨-, hd⟩ | ⟨x, hx⟩)
      · exact .inl hd
      · rw [TreeMap.getElem?_insert] at hx
        split at hx
        · cases hx
          exact .inl hc
        · exact .inr ⟨x, hx⟩
    · rintro (hd | ⟨x, hx⟩)
      · by_cases hdc : d = c
        · exact .inr ⟨a, by rw [TreeMap.getElem?_insert, if_pos rfl, hdc]⟩
        · exact .inl ⟨hdc, hd⟩
      · refine .inr ⟨x, ?_⟩
        rw [TreeMap.getElem?_insert, if_neg, hx]
        rintro rfl
        exact ha (TreeMap.mem_of_get hx)

omit [Std.LawfulEqOrd C] in
theorem issue (h : Allocated value used free next) (hvalue : Function.Injective value)
    (hc : value c = next) (ha : a ∉ used) :
    Allocated value (used.insert a c) free (next + 1) where
  injective x y d hx hy := by
    have hfresh : ∀ z, used[z]? ≠ some c := fun z hz =>
      Nat.ne_of_lt ((h.issued c).mp (.inr ⟨z, hz⟩)) hc
    rw [TreeMap.getElem?_insert] at hx hy
    split at hx <;> split at hy
    · rename_i hxa hya
      exact hxa.trans hya.symm
    · cases hx
      exact absurd hy (hfresh y)
    · cases hy
      exact absurd hx (hfresh x)
    · exact h.injective x y d hx hy
  disjoint x d hx := by
    rw [TreeMap.getElem?_insert] at hx
    split at hx
    · cases hx
      exact fun hd => Nat.ne_of_lt ((h.issued c).mp (.inl hd)) hc
    · exact h.disjoint x d hx
  issued d := by
    constructor
    · rintro (hd | ⟨x, hx⟩)
      · exact Nat.lt_succ_of_lt ((h.issued d).mp (.inl hd))
      · rw [TreeMap.getElem?_insert] at hx
        split at hx
        · cases hx
          omega
        · exact Nat.lt_succ_of_lt ((h.issued d).mp (.inr ⟨x, hx⟩))
    · intro hd
      by_cases hdc : d = c
      · exact .inr ⟨a, by rw [TreeMap.getElem?_insert, if_pos rfl, hdc]⟩
      · have hne : value d ≠ next := fun heq => hdc (hvalue (heq.trans hc.symm))
        rcases (h.issued d).mpr (by omega) with hd | ⟨x, hx⟩
        · exact .inl hd
        · refine .inr ⟨x, ?_⟩
          rw [TreeMap.getElem?_insert, if_neg, hx]
          rintro rfl
          exact ha (TreeMap.mem_of_get hx)

omit [DecidableEq K] in
theorem size_eq (h : Allocated value used free next) (hvalue : Function.Injective value)
    (hpos : ∀ c, 0 < value c) (hsurj : ∀ n, 0 < n → n < next → ∃ c, value c = n)
    (hnext : 0 < next) : used.size + free.size + 1 = next := by
  have hused : (used.toList.map Prod.snd).Nodup := by
    refine List.Nodup.map_on ?_ ?_
    · rintro ⟨x, c⟩ hx ⟨y, d⟩ hy hcd
      cases hcd
      rw [Std.ExtTreeMap.mem_toList_iff_getElem?_eq_some] at hx hy
      rw [h.injective x y c hx hy]
    · exact List.Nodup.of_map Prod.fst (by
        rw [Std.ExtTreeMap.map_fst_toList_eq_keys]
        exact Std.ExtTreeMap.nodup_keys)
  have hnodup : ((used.toList.map Prod.snd ++ free.toList).map value).Nodup := by
    refine List.Nodup.map hvalue (List.nodup_append'.mpr ⟨hused, TreeSet.nodup_toList free, ?_⟩)
    intro c hc hfree
    obtain ⟨⟨x, d⟩, hx, rfl⟩ := List.mem_map.mp hc
    rw [Std.ExtTreeMap.mem_toList_iff_getElem?_eq_some] at hx
    exact h.disjoint x d hx (Std.ExtTreeSet.mem_toList.mp hfree)
  have hmem : ∀ c, c ∈ used.toList.map Prod.snd ++ free.toList ↔ value c < next := by
    intro c
    rw [← h.issued, List.mem_append, Std.ExtTreeSet.mem_toList, List.mem_map, or_comm]
    refine or_congr_right ⟨?_, ?_⟩
    · rintro ⟨⟨x, d⟩, hx, rfl⟩
      exact ⟨x, Std.ExtTreeMap.mem_toList_iff_getElem?_eq_some.mp hx⟩
    · rintro ⟨x, hx⟩
      exact ⟨(x, c), Std.ExtTreeMap.mem_toList_iff_getElem?_eq_some.mpr hx, rfl⟩
  -- both lists enumerate the numbers from one up to the counter
  have hperm : ((used.toList.map Prod.snd ++ free.toList).map value).Perm
      (List.range' 1 (next - 1)) := by
    refine (List.perm_ext_iff_of_nodup hnodup List.nodup_range').mpr fun n => ?_
    rw [List.mem_map, List.mem_range'_1]
    constructor
    · rintro ⟨c, hc, rfl⟩
      have := hpos c
      have := (hmem c).mp hc
      omega
    · intro hn
      obtain ⟨c, rfl⟩ := hsurj n (by omega) (by omega)
      exact ⟨c, (hmem c).mpr (by omega), rfl⟩
  have hlength := hperm.length_eq
  rw [List.length_map, List.length_append, List.length_map, Std.ExtTreeMap.length_toList,
    Std.ExtTreeSet.length_toList, List.length_range'] at hlength
  omega

end Allocated

end Cogniform
