import Mathlib.Data.List.Forall2

/-!
# Unambiguous texts

A relation between values and texts is unambiguous if the value can be told from the front of any
text, whatever follows it. Unlike plain injectivity this survives concatenation. The relation may be
the graph of an encoder that can fail.
-/

namespace Cogniform

variable {α γ : Type} {R : α → List γ → Prop}

def Unambiguous (R : α → List γ → Prop) : Prop :=
  ∀ ⦃a b : α⦄ ⦃u v x y : List γ⦄, R a u → R b v → u ++ x = v ++ y → a = b ∧ x = y

namespace Unambiguous

theorem of_length {width : ℕ} (hlength : ∀ a u, R a u → u.length = width)
    (hinjective : ∀ a b u, R a u → R b u → a = b) : Unambiguous R := by
  intro a b u v x y ha hb heq
  obtain ⟨rfl, rfl⟩ := List.append_inj heq ((hlength a u ha).trans (hlength b v hb).symm)
  exact ⟨hinjective a b u ha hb, rfl⟩

theorem flatten (h : Unambiguous R) {as bs : List α} {us vs : List (List γ)} {x y : List γ}
    (has : List.Forall₂ R as us) (hbs : List.Forall₂ R bs vs) (hlength : as.length = bs.length)
    (heq : us.flatten ++ x = vs.flatten ++ y) : as = bs ∧ x = y := by
  induction has generalizing bs vs with
  | nil =>
    cases hbs with
    | nil => exact ⟨rfl, heq⟩
    | cons _ _ => cases hlength
  | cons ha _ ih =>
    cases hbs with
    | nil => cases hlength
    | cons hb hbs =>
      rw [List.flatten_cons, List.flatten_cons, List.append_assoc, List.append_assoc] at heq
      obtain ⟨rfl, heq⟩ := h ha hb heq
      obtain ⟨rfl, heq⟩ := ih hbs (Nat.succ.inj hlength) heq
      exact ⟨rfl, heq⟩

end Unambiguous

end Cogniform
