import Cogniform.Lib.Exec

/-!
# Scanning with a cursor

A loop that moves a cursor through an input until it reaches the end or an item is refused. What it
has accumulated so far is kept when an item is refused: the refusal is part of the result, not a
failure of the loop.
-/

namespace Cogniform

variable {σ ε ε' : Type}

/-- Take items at the cursor while it is below `limit`. -/
def scan (limit : ℕ) (item : σ → ℕ → Exec ε (σ × ℕ)) :
    ℕ → σ → ℕ → Exec ε' (σ × ℕ × Option ε)
  | 0, _, _ => .error .diverge
  | fuel + 1, state, cursor =>
    if cursor < limit then
      match item state cursor with
      | .ok (state, cursor) => scan limit item fuel state cursor
      | .error (.error refusal) => .ok (state, cursor, some refusal)
      | .error (.panic message) => .error (.panic message)
      | .error .diverge => .error .diverge
    else .ok (state, cursor, none)

/-- **The scan rule.** If under the invariant every item either moves the cursor forward and keeps
the invariant or is refused, the loop ends, and it ends in the invariant, at the end of the input or
at an item that is refused. -/
theorem scan_spec {limit : ℕ} {item : σ → ℕ → Exec ε (σ × ℕ)} (P : σ → ℕ → Prop)
    (hitem : ∀ state cursor, P state cursor → cursor < limit →
      (∃ state' cursor', item state cursor = .ok (state', cursor') ∧ cursor < cursor' ∧
        P state' cursor') ∨ ∃ refusal, item state cursor = Exec.fail refusal) :
    ∀ {fuel : ℕ} {state : σ} {cursor : ℕ}, limit - cursor < fuel → P state cursor →
      ∃ final stop tail,
        (scan limit item fuel state cursor : Exec ε' (σ × ℕ × Option ε)) =
          .ok (final, stop, tail) ∧ P final stop ∧
        match tail with
        | none => limit ≤ stop
        | some refusal => stop < limit ∧ item final stop = Exec.fail refusal := by
  intro fuel
  induction fuel with
  | zero => intro state cursor hfuel; omega
  | succ fuel ih =>
    intro state cursor hfuel hP
    rw [scan]
    by_cases hlt : cursor < limit
    · rw [if_pos hlt]
      rcases hitem state cursor hP hlt with ⟨state', cursor', heq, hmove, hP'⟩ | ⟨refusal, heq⟩
      · rw [heq]
        exact ih (by omega) hP'
      · rw [heq]
        exact ⟨state, cursor, some refusal, rfl, hP, hlt, heq⟩
    · rw [if_neg hlt]
      exact ⟨state, cursor, none, rfl, hP, Nat.not_lt.mp hlt⟩

end Cogniform
