import Mathlib.Data.List.Forall2
import Mathlib.Data.Nat.Notation

/-!
# Computations that may fail, panic or hang

A call may return `Err`, but it may also panic, or loop for ever. `Exec` keeps the three apart. An
`error` is a value the caller handles; a `panic` and a `diverge` are what a proof has to exclude.
-/

namespace Cogniform

inductive Abort (ε : Type) where
  | error (e : ε)
  | panic (message : String)
  | diverge
  deriving DecidableEq

abbrev Exec (ε α : Type) := Except (Abort ε) α

namespace Exec

variable {ε ε' α β σ : Type}

/-- Return `Err e`. -/
def fail (e : ε) : Exec ε α := .error (.error e)

def failure? : Exec ε α → Option ε
  | .error (.error e) => some e
  | _ => none

theorem eq_fail_of_failure? {x : Exec ε α} {e : ε} (h : x.failure? = some e) : x = fail e := by
  cases x with
  | ok a => cases h
  | error abort =>
    cases abort with
    | error e' =>
      cases h
      rfl
    | panic message => cases h
    | diverge => cases h

def expect (message : String) : Option α → Exec ε α
  | some a => .ok a
  | none => .error (.panic message)

def okOr (e : ε) : Option α → Exec ε α
  | some a => .ok a
  | none => fail e

/-- `Result::map_err`. A panic and a divergence are not errors and pass through. -/
def mapError (f : ε → ε') : Exec ε α → Exec ε' α
  | .ok a => .ok a
  | .error (.error e) => fail (f e)
  | .error (.panic message) => .error (.panic message)
  | .error .diverge => .error .diverge

/-- Lift a plain `Result`. -/
def ofExcept : Except ε α → Exec ε α
  | .ok a => .ok a
  | .error e => fail e

@[simp] theorem pure_eq_ok (a : α) : (pure a : Exec ε α) = .ok a := rfl

@[simp] theorem ok_bind (a : α) (f : α → Exec ε β) : (Except.ok a >>= f) = f a := rfl

@[simp] theorem error_bind (e : Abort ε) (f : α → Exec ε β) :
    ((Except.error e : Exec ε α) >>= f) = .error e := rfl

theorem bind_eq_ok {x : Except ε α} {f : α → Except ε β} {b : β} :
    (x >>= f) = .ok b ↔ ∃ a, x = .ok a ∧ f a = .ok b := by
  cases x with
  | ok a =>
    constructor
    · exact fun h => ⟨a, rfl, h⟩
    · rintro ⟨_, ⟨⟩, h⟩
      exact h
  | error e =>
    constructor
    · intro h
      cases h
    · rintro ⟨_, ⟨⟩, _⟩

theorem check_eq_ok {c : Prop} [Decidable c] {e : ε} {x : Except ε α} {a : α} :
    (if c then .error e else x) = .ok a ↔ ¬c ∧ x = .ok a := by
  split
  · rename_i h
    exact iff_of_false (by simp) fun hx => hx.1 h
  · rename_i h
    exact (and_iff_right h).symm

theorem bind_eq_error {x : Except ε α} {f : α → Except ε β} {e : ε} :
    (x >>= f) = .error e ↔ x = .error e ∨ ∃ a, x = .ok a ∧ f a = .error e := by
  cases x with
  | ok a =>
    refine ⟨fun h => .inr ⟨a, rfl, h⟩, ?_⟩
    rintro (h | ⟨_, ha, h⟩)
    · cases h
    · cases ha
      exact h
  | error _ =>
    refine ⟨fun h => .inl ?_, ?_⟩
    · cases h
      rfl
    · rintro (h | ⟨_, ha, -⟩)
      · cases h
        rfl
      · cases ha

@[simp] theorem expect_some (message : String) (a : α) :
    (expect message (some a) : Exec ε α) = .ok a := rfl

theorem okOr_eq_ok {e : ε} {o : Option α} {a : α} :
    (okOr e o : Exec ε α) = .ok a ↔ o = some a := by
  cases o <;> simp [okOr, fail]

@[simp] theorem okOr_some (e : ε) (a : α) : (okOr e (some a) : Exec ε α) = .ok a := rfl

theorem mapError_eq_ok {f : ε → ε'} {x : Exec ε α} {a : α} :
    mapError f x = .ok a ↔ x = .ok a := by
  match x with
  | .ok _ => simp [mapError]
  | .error (.error _) => simp [mapError, fail]
  | .error (.panic _) => simp [mapError]
  | .error .diverge => simp [mapError]

theorem exceptMapError_eq_ok {f : ε → ε'} {x : Except ε α} {a : α} :
    x.mapError f = .ok a ↔ x = .ok a := by
  cases x <;> simp [Except.mapError]

theorem mapError_eq_fail {f : ε → ε'} {x : Exec ε α} {e' : ε'} :
    mapError f x = fail e' ↔ ∃ e, x = fail e ∧ f e = e' := by
  match x with
  | .ok _ => simp [mapError, fail]
  | .error (.error _) => simp [mapError, fail]
  | .error (.panic _) => simp [mapError, fail]
  | .error .diverge => simp [mapError, fail]

theorem map_eq_ok {f : α → β} {x : Exec ε α} {b : β} :
    x.map f = .ok b ↔ ∃ a, x = .ok a ∧ f a = b := by
  cases x <;> simp [Except.map]

theorem map_eq_fail {f : α → β} {x : Exec ε α} {e : ε} : x.map f = fail e ↔ x = fail e := by
  cases x <;> simp [Except.map, fail]

theorem ofExcept_eq_ok {x : Except ε α} {a : α} : ofExcept x = .ok a ↔ x = .ok a := by
  cases x <;> simp [ofExcept, fail]

@[simp] theorem mapError_ok (f : ε → ε') (a : α) : mapError f (.ok a : Exec ε α) = .ok a := rfl

theorem mapM_eq_ok {f : α → Exec ε β} {l : List α} :
    ∀ {bs : List β}, l.mapM f = .ok bs ↔ List.Forall₂ (fun a b => f a = .ok b) l bs := by
  induction l with
  | nil =>
    intro bs
    rw [List.mapM_nil, List.forall₂_nil_left_iff, pure_eq_ok, Except.ok.injEq, eq_comm]
  | cons a l ih =>
    intro bs
    rw [List.mapM_cons, bind_eq_ok, List.forall₂_cons_left_iff]
    constructor
    · rintro ⟨b, hb, h⟩
      obtain ⟨rest, hrest, h⟩ := bind_eq_ok.mp h
      cases h
      exact ⟨b, rest, hb, ih.mp hrest, rfl⟩
    · rintro ⟨b, rest, hb, hrest, rfl⟩
      exact ⟨b, hb, bind_eq_ok.mpr ⟨rest, ih.mpr hrest, rfl⟩⟩

theorem exists_mapM_ok {f : α → Exec ε β} {l : List α} (h : ∀ a ∈ l, ∃ b, f a = .ok b) :
    ∃ bs, l.mapM f = .ok bs := by
  induction l with
  | nil => exact ⟨[], rfl⟩
  | cons a l ih =>
    obtain ⟨b, hb⟩ := h a (List.mem_cons_self ..)
    obtain ⟨bs, hbs⟩ := ih fun x hx => h x (List.mem_cons_of_mem _ hx)
    exact ⟨b :: bs, by rw [List.mapM_cons, hb, ok_bind, hbs]; rfl⟩

/-! ### Errors -/

def FailsWith (P : ε → Prop) (x : Exec ε α) : Prop := ∀ e, x = fail e → P e

namespace FailsWith

variable {P : ε → Prop}

theorem ok (a : α) : FailsWith P (.ok a : Exec ε α) := fun _ h => by cases h

theorem panic (message : String) : FailsWith P (.error (.panic message) : Exec ε α) :=
  fun _ h => by cases h

theorem diverge : FailsWith P (.error .diverge : Exec ε α) := fun _ h => by cases h

theorem fail {e : ε} (h : P e) : FailsWith P (Exec.fail e : Exec ε α) :=
  fun _ heq => by cases heq; exact h

theorem okOr {e : ε} (h : P e) (o : Option α) : FailsWith P (Exec.okOr e o) := by
  cases o with
  | none => exact fail h
  | some a => exact ok a

theorem bind {x : Exec ε α} {f : α → Exec ε β} (hx : FailsWith P x)
    (hf : ∀ a, x = .ok a → FailsWith P (f a)) : FailsWith P (x >>= f) := by
  intro e he
  rcases bind_eq_error.mp he with he | ⟨a, ha, he⟩
  · exact hx e he
  · exact hf a ha e he

theorem foldlM {step : σ → α → Exec ε σ} (hstep : ∀ s a, FailsWith P (step s a)) (l : List α) :
    ∀ s, FailsWith P (l.foldlM step s) := by
  induction l with
  | nil => exact fun s => ok s
  | cons a l ih =>
    intro s
    rw [List.foldlM_cons]
    exact (hstep s a).bind fun s' _ => ih s'

theorem mapM {f : α → Exec ε β} (hf : ∀ a, FailsWith P (f a)) (l : List α) :
    FailsWith P (l.mapM f) := by
  induction l with
  | nil => exact ok []
  | cons a l ih =>
    rw [List.mapM_cons]
    exact (hf a).bind fun b _ => ih.bind fun bs _ => ok (b :: bs)

theorem mapError {x : Exec ε α} {f : ε → ε'} {Q : ε' → Prop} (hx : FailsWith P x)
    (hf : ∀ e, P e → Q (f e)) : FailsWith Q (x.mapError f) := by
  intro e he
  match x, he with
  | .error (.error e'), he =>
    cases he
    exact hf e' (hx e' rfl)

end FailsWith

/-! ### Calls that return -/

theorem exists_ok_of_any {ε α : Type} {x : Except ε α} {p : α → Bool} (h : x.toOption.any p) :
    ∃ a, x = .ok a ∧ p a := by
  cases x with
  | error abort => cases h
  | ok a => exact ⟨a, rfl, h⟩

theorem eq_ok_of_get {ε α : Type} {x : Except ε α} (h : x.toOption.isSome) :
    x = .ok (x.toOption.get h) := by
  cases x with
  | error abort => cases h
  | ok a => rfl

def Returns (x : Exec ε α) : Prop := (∃ a, x = .ok a) ∨ ∃ e, x = fail e

theorem not_returns_panic (message : String) : ¬Returns (.error (.panic message) : Exec ε α) := by
  rintro (⟨_, h⟩ | ⟨_, h⟩) <;> cases h

theorem not_returns_diverge : ¬Returns (.error .diverge : Exec ε α) := by
  rintro (⟨_, h⟩ | ⟨_, h⟩) <;> cases h

namespace Returns

theorem ok (a : α) : Returns (.ok a : Exec ε α) := .inl ⟨a, rfl⟩

theorem fail (e : ε) : Returns (Exec.fail e : Exec ε α) := .inr ⟨e, rfl⟩

theorem of_isSome {x : Exec ε α} (h : x.toOption.isSome) : Returns x := by
  cases x with
  | error abort => cases h
  | ok a => exact ok a

theorem bind {x : Exec ε α} {f : α → Exec ε β} (hx : Returns x)
    (hf : ∀ a, x = .ok a → Returns (f a)) : Returns (x >>= f) := by
  rcases hx with ⟨a, ha⟩ | ⟨e, he⟩
  · rw [ha]
    exact hf a ha
  · rw [he]
    exact fail e

theorem okOr (e : ε) (o : Option α) : Returns (Exec.okOr e o) := by
  cases o with
  | none => exact fail e
  | some a => exact ok a

theorem ofExcept (x : Except ε α) : Returns (Exec.ofExcept x) := by
  cases x with
  | error e => exact fail e
  | ok a => exact ok a

theorem exists_ofExcept {x : Exec ε α} (h : Returns x) :
    ∃ result : Except ε α, x = Exec.ofExcept result := by
  rcases h with ⟨a, rfl⟩ | ⟨e, rfl⟩
  · exact ⟨.ok a, rfl⟩
  · exact ⟨.error e, rfl⟩

theorem mapError {x : Exec ε α} (f : ε → ε') (hx : Returns x) : Returns (x.mapError f) := by
  rcases hx with ⟨a, rfl⟩ | ⟨e, rfl⟩
  · exact ok a
  · exact fail (f e)

theorem of_mapError {x : Exec ε α} {f : ε → ε'} (h : Returns (x.mapError f)) : Returns x := by
  match x with
  | .ok a => exact ok a
  | .error (.error e) => exact fail e
  | .error (.panic message) => exact absurd h (not_returns_panic message)
  | .error .diverge => exact absurd h not_returns_diverge

theorem of_map {x : Exec ε α} {f : α → β} (h : Returns (x.map f)) : Returns x := by
  cases x with
  | ok a => exact ok a
  | error abort =>
    rcases h with ⟨_, h⟩ | ⟨e, h⟩
    · cases h
    · cases h
      exact fail e

end Returns

end Exec

end Cogniform
