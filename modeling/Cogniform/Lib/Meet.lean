import Cogniform.Lib.Exec
import Mathlib.Order.Bounds.Basic
import Mathlib.Order.Hom.Basic

/-!
# Partial meets

An operation on `α` may fail, and some values of `α` are not valid. If its result on valid values is
valid and is read, by an order embedding into a semilattice, as the meet of what its arguments are
read as, then it has the laws of a meet.
-/

namespace Cogniform

variable {α β ε : Type} [PartialOrder α] [SemilatticeInf β]

/-- On valid values `meet` returns a valid value, read as the meet of the values of its arguments. -/
structure IsPartialMeet (valid : α → Prop) (value : α ↪o β) (meet : α → α → Except ε α) : Prop where
  exists_meet : ∀ {a b}, valid a → valid b →
    ∃ c, meet a b = .ok c ∧ valid c ∧ value c = value a ⊓ value b

namespace IsPartialMeet

variable {valid : α → Prop} {value : α ↪o β} {meet : α → α → Except ε α} {a b c : α}

theorem eq_ok_iff (h : IsPartialMeet valid value meet) (ha : valid a) (hb : valid b) :
    meet a b = .ok c ↔ value c = value a ⊓ value b := by
  obtain ⟨d, hmeet, -, hvalue⟩ := h.exists_meet ha hb
  rw [hmeet, Except.ok.injEq, ← hvalue, value.injective.eq_iff]
  exact eq_comm

theorem valid_of_eq_ok (h : IsPartialMeet valid value meet) (ha : valid a) (hb : valid b)
    (hmeet : meet a b = .ok c) : valid c := by
  obtain ⟨d, hmeet', hd, -⟩ := h.exists_meet ha hb
  rw [hmeet', Except.ok.injEq] at hmeet
  rwa [← hmeet]

theorem comm (h : IsPartialMeet valid value meet) (ha : valid a) (hb : valid b) :
    meet a b = meet b a := by
  obtain ⟨c, hmeet, -, hvalue⟩ := h.exists_meet ha hb
  rw [hmeet, eq_comm, h.eq_ok_iff hb ha, hvalue, inf_comm]

theorem self (h : IsPartialMeet valid value meet) (ha : valid a) : meet a a = .ok a := by
  rw [h.eq_ok_iff ha ha, inf_idem]

theorem assoc (h : IsPartialMeet valid value meet) (ha : valid a) (hb : valid b) (hc : valid c) :
    (meet a b >>= fun ab => meet ab c) = (meet b c >>= meet a) := by
  obtain ⟨ab, hab, hvalid, habValue⟩ := h.exists_meet ha hb
  obtain ⟨bc, hbc, hvalid', hbcValue⟩ := h.exists_meet hb hc
  obtain ⟨abc, habc, -, habcValue⟩ := h.exists_meet hvalid hc
  rw [hab, hbc]
  change meet ab c = meet a bc
  rw [habc, eq_comm, h.eq_ok_iff ha hvalid', habcValue, habValue, hbcValue, inf_assoc]

theorem le_left (h : IsPartialMeet valid value meet) (ha : valid a) (hb : valid b)
    (hmeet : meet a b = .ok c) : c ≤ a := by
  rw [← value.le_iff_le, (h.eq_ok_iff ha hb).mp hmeet]
  exact inf_le_left

theorem le_right (h : IsPartialMeet valid value meet) (ha : valid a) (hb : valid b)
    (hmeet : meet a b = .ok c) : c ≤ b := by
  rw [← value.le_iff_le, (h.eq_ok_iff ha hb).mp hmeet]
  exact inf_le_right

theorem isGreatest (h : IsPartialMeet valid value meet) (ha : valid a) (hb : valid b)
    (hmeet : meet a b = .ok c) : IsGreatest {d | valid d ∧ d ≤ a ∧ d ≤ b} c := by
  refine ⟨⟨h.valid_of_eq_ok ha hb hmeet, h.le_left ha hb hmeet, h.le_right ha hb hmeet⟩, ?_⟩
  rintro d ⟨-, hda, hdb⟩
  rw [← value.le_iff_le, (h.eq_ok_iff ha hb).mp hmeet]
  exact le_inf (value.le_iff_le.mpr hda) (value.le_iff_le.mpr hdb)

end IsPartialMeet

end Cogniform
