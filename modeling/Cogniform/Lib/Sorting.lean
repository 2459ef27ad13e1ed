import Mathlib.Data.List.Destutter
import Mathlib.Data.List.Sort
import Mathlib.Order.Compare

/-!
# Sorting by a comparison

`sort_by` and `dedup` of a vector, for a comparison that is transitive and oriented. Sorting is
stable, so it is determined by the order only where elements that compare equal are equal.
-/

namespace Cogniform

namespace Sorting

variable {α : Type} {cmp : α → α → Ordering} [Std.TransCmp cmp]

omit [Std.TransCmp cmp] in
theorem perm_sort (items : List α) :
    (items.insertionSort fun a b => (cmp a b).isLE).Perm items :=
  List.perm_insertionSort _ items

theorem pairwise_sort (items : List α) :
    (items.insertionSort fun a b => (cmp a b).isLE).Pairwise fun a b => (cmp a b).isLE := by
  have : Std.Total fun a b : α => ((cmp a b).isLE : Prop) := ⟨fun a b => by
    have hswap : cmp b a = (cmp a b).swap := Std.OrientedCmp.eq_swap
    rw [hswap]
    cases cmp a b <;> simp⟩
  have : IsTrans α fun a b => ((cmp a b).isLE : Prop) :=
    ⟨fun _ _ _ => Std.TransCmp.isLE_trans⟩
  exact List.pairwise_insertionSort _ items

theorem isLE_antisymm {a b : α} (hab : (cmp a b).isLE) (hba : (cmp b a).isLE) : cmp a b = .eq := by
  have hswap : cmp b a = (cmp a b).swap := Std.OrientedCmp.eq_swap
  rw [hswap] at hba
  cases h : cmp a b with
  | lt => rw [h] at hba; cases hba
  | eq => rfl
  | gt => rw [h] at hab; cases hab

theorem sort_eq_of_perm {items items' : List α} (hperm : items'.Perm items)
    (heq : ∀ a ∈ items, ∀ b ∈ items, cmp a b = .eq → a = b) :
    items'.insertionSort (fun a b => (cmp a b).isLE) =
      items.insertionSort fun a b => (cmp a b).isLE := by
  refine List.Perm.eq_of_pairwise (fun a b ha hb hab hba => ?_) (pairwise_sort items')
    (pairwise_sort items) ((perm_sort items').trans (hperm.trans (perm_sort items).symm))
  exact heq a (hperm.mem_iff.mp ((perm_sort items').mem_iff.mp ha)) b
    ((perm_sort items).mem_iff.mp hb) (isLE_antisymm hab hba)

omit [Std.TransCmp cmp] in
theorem lt_of_isLE_of_ne {a b : α} (hle : (cmp a b).isLE) (hne : cmp a b ≠ .eq) :
    cmp a b = .lt := by
  cases h : cmp a b with
  | lt => rfl
  | eq => exact absurd h hne
  | gt => rw [h] at hle; cases hle

theorem pairwise_lt_sort {items : List α} (hne : items.Pairwise fun a b => cmp a b ≠ .eq) :
    (items.insertionSort fun a b => (cmp a b).isLE).Pairwise fun a b => cmp a b = .lt := by
  have hsymm : ∀ {a b : α}, cmp a b ≠ .eq → cmp b a ≠ .eq := fun h heq =>
    h (Std.OrientedCmp.eq_comm.mp heq)
  have hperm : (items.insertionSort fun a b => (cmp a b).isLE).Perm items := perm_sort items
  have hne' := (hperm.pairwise_iff hsymm).mpr hne
  exact ((pairwise_sort items).and hne').imp fun h => lt_of_isLE_of_ne h.1 h.2

section Dedup

variable [DecidableEq α]

theorem dedup_sort (heq : ∀ a b, cmp a b = .eq → a = b) (items : List α) :
    (items.insertionSort fun a b => (cmp a b).isLE).destutter (· ≠ ·) =
      (items.insertionSort fun a b => (cmp a b).isLE).dedup := by
  have : Std.Antisymm fun a b : α => ((cmp a b).isLE : Prop) :=
    ⟨fun a b hab hba => heq a b (isLE_antisymm hab hba)⟩
  exact (pairwise_sort items).destutter_eq_dedup

theorem mem_dedup_sort (heq : ∀ a b, cmp a b = .eq → a = b) {items : List α} {a : α} :
    a ∈ (items.insertionSort fun a b => (cmp a b).isLE).destutter (· ≠ ·) ↔ a ∈ items := by
  rw [dedup_sort heq, List.mem_dedup]
  exact (perm_sort items).mem_iff

theorem pairwise_lt_dedup (heq : ∀ a b, cmp a b = .eq → a = b) (items : List α) :
    ((items.insertionSort fun a b => (cmp a b).isLE).destutter (· ≠ ·)).Pairwise
      fun a b => cmp a b = .lt := by
  have hle : (items.insertionSort fun a b => (cmp a b).isLE).dedup.Pairwise
      fun a b => (cmp a b).isLE := (pairwise_sort items).sublist (List.dedup_sublist _)
  rw [dedup_sort heq]
  exact (hle.and (List.nodup_dedup _)).imp fun {a b} h =>
    lt_of_isLE_of_ne h.1 fun hab => h.2 (heq a b hab)

end Dedup

end Sorting

end Cogniform
