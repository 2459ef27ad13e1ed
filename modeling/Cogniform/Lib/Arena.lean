import Std.Data.ExtTreeMap
import Mathlib.Logic.Basic
import Mathlib.Data.Nat.Notation

/-!
# Arenas with fresh handles

A store that hands out a handle for every record put into it and never hands out the same handle
twice. It is what an entity-component store looks like from outside: a map from handles to records
with a supply of fresh ones. Handles are numbers here; only their identity matters.
-/

namespace Cogniform

structure Arena (α : Type) where
  next : ℕ
  slots : Std.ExtTreeMap ℕ α
  fresh : ∀ h ∈ slots, h < next

namespace Arena

variable {α : Type}

def empty : Arena α := ⟨0, ∅, by simp⟩

def len (arena : Arena α) : ℕ := arena.slots.size

def get? (arena : Arena α) (handle : ℕ) : Option α := arena.slots[handle]?

def spawn (arena : Arena α) (record : α) : ℕ × Arena α :=
  (arena.next, ⟨arena.next + 1, arena.slots.insert arena.next record, by
    intro h hmem
    rcases Std.ExtTreeMap.mem_insert.mp hmem with heq | hmem
    · rw [← Std.LawfulEqCmp.eq_of_compare heq]
      exact Nat.lt_succ_self _
    · exact Nat.lt_succ_of_lt (arena.fresh h hmem)⟩)

/-- Take a record out, or `none` when the handle is not in use. -/
def despawn (arena : Arena α) (handle : ℕ) : Option (Arena α) :=
  if handle ∈ arena.slots then
    some ⟨arena.next, arena.slots.erase handle, fun h hmem =>
      arena.fresh h (Std.ExtTreeMap.mem_of_mem_erase hmem)⟩
  else none

/-- Change a record in place, or `none` when the handle is not in use or the change is refused. -/
def update (arena : Arena α) (handle : ℕ) (change : α → Option α) : Option (Arena α) :=
  match hget : arena.slots[handle]? with
  | none => none
  | some record =>
    (change record).map fun record' =>
      ⟨arena.next, arena.slots.insert handle record', by
        intro h hmem
        rcases Std.ExtTreeMap.mem_insert.mp hmem with heq | hmem
        · rw [← Std.LawfulEqCmp.eq_of_compare heq]
          exact arena.fresh handle
            (Std.ExtTreeMap.mem_iff_isSome_getElem?.mpr (by rw [hget]; rfl))
        · exact arena.fresh h hmem⟩

variable {arena arena' : Arena α} {handle : ℕ}

theorem get?_lt {record : α} (h : arena.get? handle = some record) : handle < arena.next :=
  arena.fresh handle (Std.ExtTreeMap.mem_iff_isSome_getElem?.mpr (by rw [get?] at h; rw [h]; rfl))

@[simp] theorem get?_empty : (empty : Arena α).get? handle = none := by simp [get?, empty]

@[simp] theorem len_empty : (empty : Arena α).len = 0 := by simp [len, empty]

@[simp] theorem spawn_fst (record : α) : (arena.spawn record).1 = arena.next := rfl

theorem get?_spawn (record : α) :
    (arena.spawn record).2.get? handle =
      if handle = arena.next then some record else arena.get? handle := by
  simp only [spawn, get?, Std.ExtTreeMap.getElem?_insert, Std.LawfulEqCmp.compare_eq_iff_eq]
  rcases eq_or_ne handle arena.next with rfl | hne
  · simp
  · simp [hne, hne.symm]

theorem len_spawn (record : α) : (arena.spawn record).2.len = arena.len + 1 := by
  have hnew : arena.next ∉ arena.slots := fun h => Nat.lt_irrefl _ (arena.fresh _ h)
  rw [len, len, spawn, Std.ExtTreeMap.size_insert, if_neg]
  rwa [Std.ExtTreeMap.contains_iff_mem]

theorem despawn_eq_some :
    arena.despawn handle = some arena' →
      (∃ record, arena.get? handle = some record) ∧ arena'.len + 1 = arena.len ∧
        ∀ h, arena'.get? h = if h = handle then none else arena.get? h := by
  intro h
  rw [despawn] at h
  split at h
  · rename_i hmem
    cases h
    have hsome := Std.ExtTreeMap.mem_iff_isSome_getElem?.mp hmem
    have hpos : 0 < arena.slots.size := by
      rw [Nat.pos_iff_ne_zero]
      intro hzero
      rw [Std.ExtTreeMap.eq_empty_iff_size_eq_zero.mpr hzero] at hmem
      exact Std.ExtTreeMap.not_mem_empty hmem
    refine ⟨Option.isSome_iff_exists.mp hsome, ?_, fun h => ?_⟩
    · rw [len, len, Std.ExtTreeMap.size_erase, if_pos (Std.ExtTreeMap.contains_iff_mem.mpr hmem)]
      exact Nat.sub_add_cancel hpos
    · simp only [get?, Std.ExtTreeMap.getElem?_erase, Std.LawfulEqCmp.compare_eq_iff_eq]
      rcases eq_or_ne h handle with rfl | hne
      · simp
      · simp [hne, hne.symm]
  · cases h

theorem despawn_isSome {record : α} (h : arena.get? handle = some record) :
    (arena.despawn handle).isSome := by
  rw [despawn, if_pos (Std.ExtTreeMap.mem_iff_isSome_getElem?.mpr (by rw [get?] at h; rw [h]; rfl))]
  rfl

theorem update_eq_some {change : α → Option α} :
    arena.update handle change = some arena' →
      ∃ record record', arena.get? handle = some record ∧ change record = some record' ∧
        arena'.len = arena.len ∧
          ∀ h, arena'.get? h = if h = handle then some record' else arena.get? h := by
  intro h
  rw [update] at h
  split at h
  · cases h
  · rename_i record hget
    obtain ⟨record', hchange, rfl⟩ := Option.map_eq_some_iff.mp h
    have hmem : handle ∈ arena.slots :=
      Std.ExtTreeMap.mem_iff_isSome_getElem?.mpr (by rw [hget]; rfl)
    refine ⟨record, record', hget, hchange, ?_, fun h => ?_⟩
    · rw [len, len, Std.ExtTreeMap.size_insert, if_pos (Std.ExtTreeMap.contains_iff_mem.mpr hmem)]
    · simp only [get?, Std.ExtTreeMap.getElem?_insert, Std.LawfulEqCmp.compare_eq_iff_eq]
      rcases eq_or_ne h handle with rfl | hne
      · simp
      · simp [hne, hne.symm]

theorem update_isSome {change : α → Option α} {record record' : α}
    (hget : arena.get? handle = some record) (hchange : change record = some record') :
    (arena.update handle change).isSome := by
  rw [update]
  split
  · rename_i h
    rw [get?, h] at hget
    cases hget
  · rename_i record₀ h
    rw [get?, h] at hget
    cases hget
    rw [hchange]
    rfl

end Arena

end Cogniform
