import Cogniform.Lib.Exec

/-!
# Methods that change their receiver

A method that takes its receiver by mutable reference may change it and still return an error; the
changes stay. `Call` keeps the receiver and the outcome side by side, and its `do` notation is the
`?` of the source.
-/

namespace Cogniform

def Call (σ ε α : Type) : Type := σ → σ × Exec ε α

namespace Call

variable {σ τ ε δ α β : Type}

instance : Monad (Call σ ε) where
  pure a := fun s => (s, .ok a)
  bind x f := fun s =>
    match x s with
    | (s', .ok a) => f a s'
    | (s', .error abort) => (s', .error abort)

def get : Call σ ε σ := fun s => (s, .ok s)

def modify (f : σ → σ) : Call σ ε Unit := fun s => (f s, .ok ())

/-- Look at the receiver. -/
def gets (x : σ → Exec ε α) : Call σ ε α := fun s => (s, x s)

def lift (x : Exec ε α) : Call σ ε α := fun s => (s, x)

def fail (e : ε) : Call σ ε α := lift (Exec.fail e)

/-- Call a method of a field and look at its `Result`. A panic or a divergence goes through. -/
def on (field : σ → τ) (set : σ → τ → σ) (x : Call τ δ α) : Call σ ε (Except δ α) := fun s =>
  let called := x (field s)
  (set s called.1,
    match called.2 with
    | .ok a => .ok (.ok a)
    | .error (.error e) => .ok (.error e)
    | .error (.panic message) => .error (.panic message)
    | .error .diverge => .error .diverge)

@[simp] theorem pure_apply (a : α) (s : σ) : (pure a : Call σ ε α) s = (s, .ok a) := rfl

@[simp] theorem get_apply (s : σ) : (get : Call σ ε σ) s = (s, .ok s) := rfl

@[simp] theorem modify_apply (f : σ → σ) (s : σ) : (modify f : Call σ ε Unit) s = (f s, .ok ()) :=
  rfl

@[simp] theorem lift_apply (x : Exec ε α) (s : σ) : (lift x : Call σ ε α) s = (s, x) := rfl

@[simp] theorem fail_apply (e : ε) (s : σ) : (fail e : Call σ ε α) s = (s, Exec.fail e) := rfl

@[simp] theorem pure_bind (a : α) (f : α → Call σ ε β) : (pure a >>= f) = f a := rfl

@[simp] theorem get_bind (f : σ → Call σ ε β) (s : σ) : (get >>= f) s = f s s := rfl

@[simp] theorem modify_bind (g : σ → σ) (f : Unit → Call σ ε β) (s : σ) :
    (modify g >>= f) s = f () (g s) := rfl

@[simp] theorem lift_ok_bind (a : α) (f : α → Call σ ε β) (s : σ) :
    (lift (.ok a) >>= f) s = f a s := rfl

theorem bind_ok {x : Call σ ε α} {f : α → Call σ ε β} {s s' : σ} {a : α} (h : x s = (s', .ok a)) :
    (x >>= f) s = f a s' := by
  change (match x s with
    | (s', .ok a) => f a s'
    | (s', .error abort) => (s', .error abort)) = _
  rw [h]

theorem bind_error {x : Call σ ε α} {f : α → Call σ ε β} {s s' : σ} {abort : Abort ε}
    (h : x s = (s', .error abort)) : (x >>= f) s = (s', .error abort) := by
  change (match x s with
    | (s', .ok a) => f a s'
    | (s', .error abort) => (s', .error abort)) = _
  rw [h]

theorem not_returns_bind {x : Call σ ε α} {s : σ} (h : ¬(x s).2.Returns) (f : α → Call σ ε β) :
    ¬((x >>= f) s).2.Returns := by
  match hx : x s with
  | (s', .ok a) =>
    rw [hx] at h
    exact absurd (.ok a) h
  | (s', .error (.error e)) =>
    rw [hx] at h
    exact absurd (.fail e) h
  | (s', .error (.panic message)) =>
    rw [bind_error hx]
    exact Exec.not_returns_panic message
  | (s', .error .diverge) =>
    rw [bind_error hx]
    exact Exec.not_returns_diverge

def Preserves (P : σ → Prop) (x : Call σ ε α) : Prop := ∀ s, P s → P (x s).1

namespace Preserves

variable {P : σ → Prop}

theorem pure (a : α) : Preserves P (Pure.pure a : Call σ ε α) := fun _ h => h

theorem lift (x : Exec ε α) : Preserves P (Call.lift x) := fun _ h => h

theorem fail (e : ε) : Preserves P (Call.fail e : Call σ ε α) := fun _ h => h

theorem modify {f : σ → σ} (h : ∀ s, P s → P (f s)) : Preserves P (Call.modify f : Call σ ε Unit) :=
  h

theorem bind {x : Call σ ε α} {f : α → Call σ ε β} (hx : Preserves P x)
    (hf : ∀ a, Preserves P (f a)) : Preserves P (x >>= f) := by
  intro s hs
  have hs' := hx s hs
  match heq : x s with
  | (s', .ok a) =>
    rw [heq] at hs'
    rw [bind_ok heq]
    exact hf a s' hs'
  | (s', .error abort) =>
    rw [heq] at hs'
    rw [bind_error heq]
    exact hs'

theorem get {f : σ → Call σ ε β} (hf : ∀ s, Preserves P (f s)) : Preserves P (Call.get >>= f) :=
  fun s hs => hf s s hs

end Preserves

/-- From a receiver with `P` the call ends with `Q` if it returns a value, and with `E` if it is
aborted. -/
def Spec (P : σ → Prop) (x : Call σ ε α) (Q : α → σ → Prop) (E : Abort ε → σ → Prop) : Prop :=
  ∀ s, P s → (∀ a, (x s).2 = .ok a → Q a (x s).1) ∧
    ∀ abort, (x s).2 = .error abort → E abort (x s).1

namespace Spec

variable {P : σ → Prop} {Q : β → σ → Prop} {R : α → σ → Prop} {E : Abort ε → σ → Prop}

theorem pure {b : β} (h : ∀ s, P s → Q b s) : Spec P (Pure.pure b : Call σ ε β) Q E := by
  intro s hs
  refine ⟨fun a ha => ?_, fun abort habort => (by cases habort)⟩
  cases ha
  exact h s hs

theorem gets {x : σ → Exec ε β} (hok : ∀ s b, P s → x s = .ok b → Q b s)
    (hstop : ∀ s abort, P s → x s = .error abort → E abort s) : Spec P (Call.gets x) Q E :=
  fun s hs => ⟨fun b => hok s b hs, fun abort => hstop s abort hs⟩

theorem fail {e : ε} (h : ∀ s, P s → E (.error e) s) : Spec P (Call.fail e : Call σ ε β) Q E := by
  refine gets (fun _ _ _ hok => (by cases hok)) fun s abort hs habort => ?_
  cases habort
  exact h s hs

theorem bind {x : Call σ ε α} {f : α → Call σ ε β} (hx : Spec P x R E)
    (hf : ∀ a, Spec (R a) (f a) Q E) : Spec P (x >>= f) Q E := by
  intro s hs
  obtain ⟨hok, hstop⟩ := hx s hs
  match heq : x s with
  | (s', .ok a) =>
    rw [heq] at hok
    rw [bind_ok heq]
    exact hf a s' (hok a rfl)
  | (s', .error abort) =>
    rw [heq] at hstop
    rw [bind_error heq]
    refine ⟨fun b hb => (by cases hb), fun abort' habort => ?_⟩
    cases habort
    exact hstop abort rfl

theorem cond {c : Prop} [Decidable c] {x y : Call σ ε β} (hpos : c → Spec P x Q E)
    (hneg : ¬c → Spec P y Q E) : Spec P (if c then x else y) Q E := by
  split
  · exact hpos ‹_›
  · exact hneg ‹_›

theorem mono {P' : σ → Prop} {x : Call σ ε β} (h : Spec P x Q E) (hP : ∀ s, P' s → P s) :
    Spec P' x Q E :=
  fun s hs => h s (hP s hs)

end Spec

end Call

end Cogniform
