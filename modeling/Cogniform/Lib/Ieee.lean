import Mathlib.Data.Nat.Log
import Mathlib.Data.Nat.Sqrt
import Mathlib.Tactic.Ring

/-!
# Binary interchange formats

Floating-point numbers as bit patterns, with the operations rounded to nearest, ties to even. A
value is a sign and a magnitude *code*: the exponent field followed by the fraction field, read as
one number, so that codes are ordered as the values they stand for. Every finite value is a whole
number of *units*, the smallest positive subnormal; exact results are rationals counted in units,
and `Binary.round` is the only place where rounding happens.
-/

namespace Cogniform

structure Format where
  exponentBits : ℕ
  fractionBits : ℕ
  deriving DecidableEq

namespace Format

abbrev binary32 : Format := ⟨8, 23⟩

abbrev binary64 : Format := ⟨11, 52⟩

variable (f : Format)

/-- The smallest positive subnormal is `2 ^ (-scale)`. -/
def scale : ℕ := 2 ^ (f.exponentBits - 1) - 2 + f.fractionBits

def infinityCode : ℕ := (2 ^ f.exponentBits - 1) * 2 ^ f.fractionBits

def units (code : ℕ) : ℕ :=
  let field := code / 2 ^ f.fractionBits
  let fraction := code % 2 ^ f.fractionBits
  if field = 0 then fraction else (2 ^ f.fractionBits + fraction) * 2 ^ (field - 1)

/-- The code nearest to `n / d` units, ties to even, before the overflow test. -/
def roundCode (n d : ℕ) : ℕ :=
  let shift := Nat.log2 (n / d) - f.fractionBits
  let divisor := d * 2 ^ shift
  let quotient := n / divisor
  let remainder := n % divisor
  let up := divisor < 2 * remainder ∨ (divisor = 2 * remainder ∧ quotient % 2 = 1)
  shift * 2 ^ f.fractionBits + (if up then quotient + 1 else quotient)

theorem units_lt_units_succ (code : ℕ) : f.units code < f.units (code + 1) := by
  have hpos : 0 < 2 ^ f.fractionBits := Nat.two_pow_pos _
  have hlt := Nat.mod_lt code hpos
  have hsplit := Nat.div_add_mod code (2 ^ f.fractionBits)
  simp only [units]
  rcases Nat.lt_or_ge (code % 2 ^ f.fractionBits + 1) (2 ^ f.fractionBits) with h | h
  · -- the increment stays inside the fraction field
    have hmod : (code + 1) % 2 ^ f.fractionBits = code % 2 ^ f.fractionBits + 1 := by
      rw [Nat.add_mod, Nat.mod_eq_of_lt (a := 1) (by omega), Nat.mod_eq_of_lt h]
    have hdiv : (code + 1) / 2 ^ f.fractionBits = code / 2 ^ f.fractionBits := by
      refine Nat.div_eq_of_lt_le ?_ ?_
      · rw [Nat.mul_comm]; omega
      · rw [Nat.mul_comm, Nat.mul_add]; omega
    rw [hmod, hdiv]
    split
    · omega
    · exact Nat.mul_lt_mul_of_pos_right (by omega) (Nat.two_pow_pos _)
  · -- the fraction wraps and the exponent field takes the carry
    have hfull : code + 1 = 2 ^ f.fractionBits * (code / 2 ^ f.fractionBits + 1) := by
      rw [Nat.mul_add]; omega
    have hmod : (code + 1) % 2 ^ f.fractionBits = 0 := by rw [hfull]; exact Nat.mul_mod_right ..
    have hdiv : (code + 1) / 2 ^ f.fractionBits = code / 2 ^ f.fractionBits + 1 := by
      rw [hfull]; exact Nat.mul_div_cancel_left _ hpos
    rw [hmod, hdiv, if_neg (Nat.succ_ne_zero _), Nat.add_sub_cancel, Nat.add_zero]
    split
    · rename_i h0; rw [h0, pow_zero]; omega
    · rename_i h0
      obtain ⟨e, he⟩ := Nat.exists_eq_succ_of_ne_zero h0
      rw [he, Nat.succ_sub_one, Nat.succ_eq_add_one, pow_succ']
      calc (2 ^ f.fractionBits + code % 2 ^ f.fractionBits) * 2 ^ e
          < (2 ^ f.fractionBits * 2) * 2 ^ e :=
            Nat.mul_lt_mul_of_pos_right (by omega) (Nat.two_pow_pos _)
        _ = 2 ^ f.fractionBits * (2 * 2 ^ e) := by ring

theorem units_strictMono : StrictMono f.units := strictMono_nat_of_lt_succ f.units_lt_units_succ

end Format

structure Binary (f : Format) where
  negative : Bool
  code : ℕ
  code_lt : code < 2 ^ (f.exponentBits + f.fractionBits)
  deriving DecidableEq

def Binary.lit {f : Format} (code : ℕ)
    (h : (code < 2 ^ (f.exponentBits + f.fractionBits) : Bool) = true := by exact Eq.refl true) :
    Binary f :=
  ⟨false, code, of_decide_eq_true h⟩

namespace Binary

variable {f g : Format}

def toBits (x : Binary f) : ℕ :=
  x.negative.toNat * 2 ^ (f.exponentBits + f.fractionBits) + x.code

def ofBits (bits : ℕ) : Binary f :=
  ⟨bits / 2 ^ (f.exponentBits + f.fractionBits) % 2 = 1,
    bits % 2 ^ (f.exponentBits + f.fractionBits), Nat.mod_lt _ (Nat.two_pow_pos _)⟩

theorem toBits_lt (x : Binary f) : x.toBits < 2 ^ (f.exponentBits + f.fractionBits + 1) := by
  have hcode := x.code_lt
  rw [toBits, pow_succ]
  cases x.negative <;> simp <;> omega

theorem ofBits_toBits (x : Binary f) : ofBits x.toBits = x := by
  obtain ⟨negative, code, hcode⟩ := x
  have hdiv : (negative.toNat * 2 ^ (f.exponentBits + f.fractionBits) + code) /
      2 ^ (f.exponentBits + f.fractionBits) = negative.toNat := by
    rw [Nat.mul_comm, Nat.mul_add_div (Nat.two_pow_pos _), Nat.div_eq_of_lt hcode, Nat.add_zero]
  have hmod : (negative.toNat * 2 ^ (f.exponentBits + f.fractionBits) + code) %
      2 ^ (f.exponentBits + f.fractionBits) = code := by
    rw [Nat.mul_comm, Nat.mul_add_mod, Nat.mod_eq_of_lt hcode]
  simp only [ofBits, toBits, hdiv, hmod]
  cases negative <;> rfl

theorem toBits_ofBits {bits : ℕ} (h : bits < 2 ^ (f.exponentBits + f.fractionBits + 1)) :
    (ofBits bits : Binary f).toBits = bits := by
  have hsplit := Nat.div_add_mod bits (2 ^ (f.exponentBits + f.fractionBits))
  have hsign : bits / 2 ^ (f.exponentBits + f.fractionBits) < 2 := by
    rw [Nat.div_lt_iff_lt_mul (Nat.two_pow_pos _), Nat.mul_comm]
    rwa [pow_succ] at h
  rw [toBits, ofBits]
  rcases Nat.lt_or_ge (bits / 2 ^ (f.exponentBits + f.fractionBits)) 1 with hzero | hone
  · rw [Nat.lt_one_iff.mp hzero] at hsplit ⊢
    simpa using hsplit
  · rw [show bits / 2 ^ (f.exponentBits + f.fractionBits) = 1 by omega] at hsplit ⊢
    simpa using hsplit

def ofCode (negative : Bool) (code : ℕ) : Binary f :=
  ⟨negative, min code f.infinityCode, by
    refine Nat.lt_of_le_of_lt (Nat.min_le_right _ _) ?_
    rw [Format.infinityCode, pow_add]
    exact Nat.mul_lt_mul_of_pos_right (by have := Nat.two_pow_pos f.exponentBits; omega)
      (Nat.two_pow_pos _)⟩

def zero : Binary f := ofCode false 0

def nan : Binary f :=
  ⟨false, 2 ^ (f.exponentBits + f.fractionBits) - 1, by
    have := Nat.two_pow_pos (f.exponentBits + f.fractionBits); omega⟩

/-- `is_finite`: neither infinite nor NaN. -/
def isFinite (x : Binary f) : Bool := x.code < f.infinityCode

def isNaN (x : Binary f) : Bool := f.infinityCode < x.code

def units (x : Binary f) : ℤ := if x.negative then -(f.units x.code : ℤ) else f.units x.code

/-- Round `n / d` units to nearest, ties to even, overflowing to infinity. -/
def round (negative : Bool) (n d : ℕ) : Binary f := ofCode negative (f.roundCode n d)

/-- The whole number `n`. -/
def ofNat (n : ℕ) : Binary f := round false (n * 2 ^ f.scale) 1

def neg (x : Binary f) : Binary f := { x with negative := !x.negative }

def add (x y : Binary f) : Binary f :=
  if x.isNaN || y.isNaN then nan
  else if !x.isFinite then (if !y.isFinite && x.negative != y.negative then nan else x)
  else if !y.isFinite then y
  else
    let sum := x.units + y.units
    if sum = 0 then { zero with negative := x.negative && y.negative }
    else round (sum < 0) sum.natAbs 1

def sub (x y : Binary f) : Binary f := add x y.neg

def mul (x y : Binary f) : Binary f :=
  let sign := x.negative != y.negative
  if x.isNaN || y.isNaN then nan
  else if !x.isFinite || !y.isFinite then
    if x.code = 0 || y.code = 0 then nan else ofCode sign f.infinityCode
  else round sign (f.units x.code * f.units y.code) (2 ^ f.scale)

/-- `mul_add`: `x * y + z`, rounded once. -/
def mulAdd (x y z : Binary f) : Binary f :=
  let sign := x.negative != y.negative
  if x.isNaN || y.isNaN || z.isNaN then nan
  else if !x.isFinite || !y.isFinite then
    if x.code = 0 || y.code = 0 || (!z.isFinite && z.negative != sign) then nan
    else ofCode sign f.infinityCode
  else if !z.isFinite then z
  else
    let sum := x.units * y.units + z.units * 2 ^ f.scale
    if sum = 0 then { zero with negative := sign && z.negative }
    else round (sum < 0) sum.natAbs (2 ^ f.scale)

def abs (x : Binary f) : Binary f := { x with negative := false }

def div (x y : Binary f) : Binary f :=
  let sign := x.negative != y.negative
  if x.isNaN || y.isNaN then nan
  else if !x.isFinite then (if !y.isFinite then nan else ofCode sign f.infinityCode)
  else if !y.isFinite then ofCode sign 0
  else if y.code = 0 then (if x.code = 0 then nan else ofCode sign f.infinityCode)
  else round sign (f.units x.code * 2 ^ f.scale) (f.units y.code)

def recip (x : Binary f) : Binary f := div (ofNat 1) x

/-- Square root. Below the integer root only whether it is exact matters, so one more bit of
numerator is enough for the rounding. -/
def sqrt (x : Binary f) : Binary f :=
  if x.isNaN then nan
  else if x.code = 0 then x
  else if x.negative then nan
  else if !x.isFinite then x
  else
    let square := f.units x.code * 2 ^ f.scale
    let root := Nat.sqrt square
    round false (2 * root + if root * root = square then 0 else 1) 2

def convert (x : Binary f) : Binary g :=
  if x.isNaN then nan
  else if !x.isFinite then ofCode x.negative g.infinityCode
  else round x.negative (f.units x.code * 2 ^ g.scale) (2 ^ f.scale)

def rank (x : Binary f) : ℤ :=
  if x.isFinite then x.units
  else if x.negative then -(f.units f.infinityCode : ℤ) else f.units f.infinityCode

/-- IEEE `==`: false on NaN, and the two zeros are equal. -/
def feq (x y : Binary f) : Bool := !x.isNaN && !y.isNaN && x.rank == y.rank

/-- IEEE `<`. -/
def flt (x y : Binary f) : Bool := !x.isNaN && !y.isNaN && decide (x.rank < y.rank)

/-- IEEE `<=`. -/
def fle (x y : Binary f) : Bool := !x.isNaN && !y.isNaN && decide (x.rank ≤ y.rank)

theorem isNaN_eq_false_of_isFinite {x : Binary f} (h : x.isFinite) : x.isNaN = false := by
  simp only [isFinite, decide_eq_true_eq] at h
  simpa [isNaN] using Nat.le_of_lt h

theorem units_code_ne_zero {x : Binary f} (h : x ≠ { zero with negative := true })
    (hneg : x.negative = true) : f.units x.code ≠ 0 := by
  intro hz
  have hcode : x.code = 0 :=
    f.units_strictMono.injective (by rw [hz]; simp [Format.units])
  apply h
  obtain ⟨negative, code, hlt⟩ := x
  simp_all [zero, ofCode]

/-- **Equality of validated values.** Two finite values, neither of them negative zero, compare
equal exactly when they are the same pattern. -/
theorem feq_iff_eq {x y : Binary f} (hx : x.isFinite) (hy : y.isFinite)
    (hx0 : x ≠ { zero with negative := true }) (hy0 : y ≠ { zero with negative := true }) :
    x.feq y = true ↔ x = y := by
  have hinj := f.units_strictMono.injective
  simp only [feq, isNaN_eq_false_of_isFinite hx, isNaN_eq_false_of_isFinite hy, rank, hx, hy,
    Bool.not_false, Bool.true_and, if_true, beq_iff_eq]
  constructor
  · intro h
    have hsx := units_code_ne_zero hx0
    have hsy := units_code_ne_zero hy0
    obtain ⟨sx, cx, hcx⟩ := x
    obtain ⟨sy, cy, hcy⟩ := y
    simp only [units] at h hsx hsy
    cases sx <;> cases sy <;> simp at h hsx hsy
    · simpa using hinj h
    · omega
    · omega
    · simpa using hinj h
  · rintro rfl; rfl

end Binary

end Cogniform
