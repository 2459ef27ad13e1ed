import Cogniform.Lib.Exec
import Cogniform.Lib.TreeMap
import Mathlib.Algebra.Order.BigOperators.Group.List
import Mathlib.Algebra.Order.Ring.Nat
import Mathlib.Data.List.Nodup

/-!
# Weighed collections

A counter kept beside a queue or a map is exact if it is the summed weight of what the
collection holds. These are the sums, and what each update of the collection does to them.
-/

namespace Cogniform

section

variable {α : Type}

def weigh (w : α → ℕ) (l : List α) : ℕ := (l.map w).sum

variable {w : α → ℕ}

@[simp] theorem weigh_nil : weigh w [] = 0 := rfl

@[simp] theorem weigh_cons (a : α) (l : List α) : weigh w (a :: l) = w a + weigh w l := by
  rw [weigh, List.map_cons, List.sum_cons, weigh]

@[simp] theorem weigh_append (l l' : List α) : weigh w (l ++ l') = weigh w l + weigh w l' := by
  rw [weigh, List.map_append, List.sum_append, weigh, weigh]

theorem weigh_perm {l l' : List α} (h : l.Perm l') : weigh w l = weigh w l' :=
  (h.map w).sum_eq

theorem le_weigh {a : α} {l : List α} (h : a ∈ l) : w a ≤ weigh w l :=
  List.le_sum_of_mem (List.mem_map_of_mem h)

theorem weigh_filter_add_filter_not (w : α → ℕ) (p : α → Bool) (l : List α) :
    weigh w (l.filter p) + weigh w (l.filter fun a => !p a) = weigh w l := by
  rw [← weigh_append]
  exact weigh_perm (List.filter_append_perm p l)

/-- `checked_add`, at a width. -/
def addChecked (width a b : ℕ) : Option ℕ := if a + b < 2 ^ width then some (a + b) else none

/-- `checked_sub`. -/
def subChecked (a b : ℕ) : Option ℕ := if b ≤ a then some (a - b) else none

theorem addChecked_of_lt {width a b : ℕ} (h : a + b < 2 ^ width) :
    addChecked width a b = some (a + b) := if_pos h

theorem subChecked_of_le {a b : ℕ} (h : b ≤ a) : subChecked a b = some (a - b) := if_pos h

structure Released (α : Type) where
  kept : List α
  number : ℕ
  weight : ℕ

section

variable {ε : Type} (countMessage weightMessage : String) (p : α → Bool) (w : α → ℕ)

/-- Take one element out, if it has the property. The number is counted in 32 bits and the weight in
64; an overflow is a panic. -/
def releaseOne (released : Released α) (a : α) : Exec ε (Released α) :=
  if p a then do
    let number ← Exec.expect countMessage (addChecked 32 released.number 1)
    let weight ← Exec.expect weightMessage (addChecked 64 released.weight (w a))
    .ok { released with number, weight }
  else .ok { released with kept := released.kept ++ [a] }

def release (l : List α) : Exec ε (Released α) :=
  l.foldlM (releaseOne countMessage weightMessage p w) ⟨[], 0, 0⟩

end

theorem release_eq_ok {ε : Type} {countMessage weightMessage : String} {p : α → Bool} {l : List α}
    (hnumber : (l.filter p).length < 2 ^ 32) (hweight : weigh w (l.filter p) < 2 ^ 64) :
    (release countMessage weightMessage p w l : Exec ε (Released α)) =
      .ok ⟨l.filter fun a => !p a, (l.filter p).length, weigh w (l.filter p)⟩ := by
  -- the loop from any intermediate state whose totals still fit
  suffices h : ∀ kept number weight, number + (l.filter p).length < 2 ^ 32 →
      weight + weigh w (l.filter p) < 2 ^ 64 →
      (l.foldlM (releaseOne countMessage weightMessage p w) ⟨kept, number, weight⟩ : Exec ε _) =
        .ok ⟨kept ++ l.filter fun a => !p a, number + (l.filter p).length,
          weight + weigh w (l.filter p)⟩ by
    rw [release, h [] 0 0 (by omega) (by omega)]
    simp only [List.nil_append, Nat.zero_add]
  clear hnumber hweight
  induction l with
  | nil =>
    intro kept number weight _ _
    simp
  | cons a l ih =>
    intro kept number weight hnumber hweight
    rw [List.foldlM_cons, releaseOne]
    dsimp only
    by_cases hp : p a = true
    · rw [List.filter_cons_of_pos hp] at hnumber hweight ⊢
      rw [List.length_cons] at hnumber ⊢
      rw [weigh_cons] at hweight ⊢
      rw [List.filter_cons_of_neg (by simp [hp]), if_pos hp, addChecked_of_lt (by omega),
        Exec.expect_some, Exec.ok_bind, addChecked_of_lt (by omega), Exec.expect_some,
        Exec.ok_bind, Exec.ok_bind, ih _ _ _ (by omega) (by omega), Nat.add_assoc,
        Nat.add_assoc, Nat.add_comm 1]
    · rw [List.filter_cons_of_neg hp] at hnumber hweight ⊢
      rw [List.filter_cons_of_pos (by simp [hp]), if_neg hp, Exec.ok_bind,
        ih _ _ _ hnumber hweight, List.append_assoc, List.singleton_append]

end

variable {K V : Type} [Ord K] [Std.TransOrd K] [Std.LawfulEqOrd K] [DecidableEq K]

/-! ### Maps -/

namespace TreeMap

variable {m : Std.ExtTreeMap K V} {k : K} {v : V} {w : K → V → ℕ}

def total (w : K → V → ℕ) (m : Std.ExtTreeMap K V) : ℕ := weigh (fun e => w e.1 e.2) m.toList

omit [DecidableEq K] in
theorem mem_toList {e : K × V} : e ∈ m.toList ↔ m[e.1]? = some e.2 :=
  Std.ExtTreeMap.mem_toList_iff_getElem?_eq_some

omit [Std.LawfulEqOrd K] [DecidableEq K] in
theorem nodup_toList (m : Std.ExtTreeMap K V) : m.toList.Nodup := by
  refine List.Nodup.of_map Prod.fst ?_
  rw [Std.ExtTreeMap.map_fst_toList_eq_keys]
  exact Std.ExtTreeMap.nodup_keys

theorem toList_insert_perm (h : k ∉ m) (v : V) :
    (m.insert k v).toList.Perm ((k, v) :: m.toList) := by
  have hnew : (k, v) ∉ m.toList := by
    rw [mem_toList, not_mem_iff.mp h]
    simp
  rw [List.perm_ext_iff_of_nodup (nodup_toList _) (List.nodup_cons.mpr ⟨hnew, nodup_toList m⟩)]
  rintro ⟨a, b⟩
  rw [List.mem_cons, mem_toList, mem_toList, getElem?_insert]
  split
  · rename_i heq
    cases heq
    simp [not_mem_iff.mp h, eq_comm]
  · rename_i hne
    simp [hne]

omit [DecidableEq K] in
@[simp] theorem total_empty : total w (∅ : Std.ExtTreeMap K V) = 0 := by
  have h : (∅ : Std.ExtTreeMap K V).toList = [] := by
    refine List.eq_nil_iff_forall_not_mem.mpr fun e he => ?_
    rw [mem_toList, Std.ExtTreeMap.getElem?_empty] at he
    cases he
  rw [total, h, weigh_nil]

theorem total_insert (h : k ∉ m) (v : V) : total w (m.insert k v) = w k v + total w m := by
  rw [total, weigh_perm (toList_insert_perm h v), weigh_cons, total]

theorem insert_erase (h : m[k]? = some v) : (m.erase k).insert k v = m := by
  refine Std.ExtTreeMap.ext_getElem? fun a => ?_
  rw [getElem?_insert, getElem?_erase]
  split
  · rename_i heq
    rw [heq, h]
  · rfl

theorem total_erase (h : m[k]? = some v) : w k v + total w (m.erase k) = total w m := by
  rw [← total_insert (fun hmem => (mem_erase.mp hmem).1 rfl) v, insert_erase h]

theorem total_modify (h : m[k]? = some v) (v' : V) :
    total w (m.insert k v') + w k v = total w m + w k v' := by
  have hinsert : (m.erase k).insert k v' = m.insert k v' := by
    refine Std.ExtTreeMap.ext_getElem? fun a => ?_
    rw [getElem?_insert, getElem?_insert, getElem?_erase]
    split <;> rfl
  have hnew : k ∉ m.erase k := fun hmem => (mem_erase.mp hmem).1 rfl
  rw [← hinsert, total_insert hnew, ← total_erase h]
  omega

end TreeMap

end Cogniform
