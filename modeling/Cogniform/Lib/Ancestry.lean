import Cogniform.Lib.Forest
import Mathlib.Data.Set.Card

/-!
# Counting ancestors

The depth of a node is the number of its proper ancestors, counted as a set.
-/

namespace Cogniform

namespace Forest

variable {K : Type} {parent : K → Option K}

def ancestors (parent : K → Option K) (x : K) : Set K := {a | Above parent x a}

theorem ancestors_root {x : K} (h : parent x = none) : ancestors parent x = ∅ := by
  refine Set.eq_empty_of_forall_notMem fun a ha => ?_
  obtain ⟨p, hp, -⟩ := Relation.TransGen.head'_iff.mp ha
  rw [h] at hp
  cases hp

theorem ancestors_step {x p : K} (h : parent x = some p) :
    ancestors parent x = insert p (ancestors parent p) := by
  ext a
  constructor
  · intro ha
    obtain ⟨q, hq, hqa⟩ := Relation.TransGen.head'_iff.mp ha
    rw [h] at hq
    cases hq
    rcases Relation.reflTransGen_iff_eq_or_transGen.mp hqa with rfl | hqa
    · exact Set.mem_insert _ _
    · exact Set.mem_insert_of_mem _ hqa
  · rintro (rfl | ha)
    · exact .single h
    · exact .head h ha

theorem HasDepth.not_above_self {x : K} {n : ℕ} (hx : HasDepth parent x n) :
    ¬ Above parent x x := by
  intro habove
  obtain ⟨m, hm, hxm⟩ := hx.lt_of_above habove
  exact absurd (hx.unique hxm) hm.ne'

theorem Above.closed {S : K → Prop} {r : K → K → Prop}
    (hstep : ∀ x p, parent x = some p → S x → S p ∧ r x p) {x y : K} (h : Above parent x y)
    (hx : S x) : S y ∧ Relation.TransGen r x y := by
  induction h with
  | single hp =>
    obtain ⟨hy, hr⟩ := hstep _ _ hp hx
    exact ⟨hy, .single hr⟩
  | tail _ hp ih =>
    obtain ⟨hy, hr⟩ := hstep _ _ hp ih.1
    exact ⟨hy, ih.2.tail hr⟩

theorem HasDepth.ancestors {x : K} {n : ℕ} (hx : HasDepth parent x n) :
    (ancestors parent x).Finite ∧ (Forest.ancestors parent x).ncard = n := by
  induction hx with
  | root h =>
    rw [ancestors_root h]
    exact ⟨Set.finite_empty, Set.ncard_empty _⟩
  | @step x p n h hp ih =>
    obtain ⟨hfinite, hcard⟩ := ih
    have hnew : p ∉ Forest.ancestors parent p := hp.not_above_self
    rw [ancestors_step h]
    exact ⟨hfinite.insert p, by rw [Set.ncard_insert_of_notMem hnew hfinite, hcard]⟩

end Forest

end Cogniform
