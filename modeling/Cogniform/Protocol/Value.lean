import Cogniform.Lib.Ieee
import Std.Data.ExtTreeMap
import Std.Data.ExtTreeSet

/-!
# Scalar protocol values

Each type carries its own validity: identifiers are non-zero, numeric bounds are non-zero and fit
their width, texts are non-empty and free of NUL, and floating-point values are finite with negative
zero normalised away. The opaque identifiers of the source come from one macro; they are one type
here, indexed by their name.
-/

namespace Cogniform

/-! ### Integers of fixed width -/

/-- `u64::saturating_add`. -/
def satAdd (a b : ℕ) : ℕ := min (a + b) (2 ^ 64 - 1)

theorem satAdd_le (a b : ℕ) : satAdd a b ≤ 2 ^ 64 - 1 := Nat.min_le_right _ _

theorem satAdd_satAdd (a b c : ℕ) : satAdd (satAdd a b) c = satAdd a (b + c) := by
  simp only [satAdd]
  omega

theorem foldl_satAdd {α : Type} (size : α → ℕ) (items : List α) :
    ∀ {total : ℕ}, total ≤ 2 ^ 64 - 1 →
      items.foldl (fun total item => satAdd total (size item)) total =
        min (total + (items.map size).sum) (2 ^ 64 - 1) := by
  induction items with
  | nil =>
    intro total htotal
    exact (Nat.min_eq_left htotal).symm
  | cons item items ih =>
    intro total htotal
    rw [List.foldl_cons, ih (satAdd_le _ _), List.map_cons, List.sum_cons, satAdd]
    omega

/-- `u64::saturating_mul`. -/
def satMul (a b : ℕ) : ℕ := min (a * b) (2 ^ 64 - 1)

/-- `u32::try_from(length).unwrap_or(u32::MAX)`. -/
def count (length : ℕ) : ℕ := min length (2 ^ 32 - 1)

/-- `u64::try_from(length).unwrap_or(u64::MAX)`. -/
def count64 (length : ℕ) : ℕ := min length (2 ^ 64 - 1)

/-- `u64::checked_add(1)`. -/
def checkedSucc (n : UInt64) : Option UInt64 := if n.toNat + 1 < 2 ^ 64 then some (n + 1) else none

theorem checkedSucc_eq_some {n m : UInt64} :
    checkedSucc n = some m ↔ m.toNat = n.toNat + 1 := by
  have hm := m.toNat_lt
  rw [checkedSucc]
  split
  · rename_i h
    rw [Option.some.injEq, ← UInt64.toNat_inj, UInt64.toNat_add]
    have h1 : (1 : UInt64).toNat = 1 := rfl
    rw [h1, Nat.mod_eq_of_lt h]
    exact eq_comm
  · simp only [reduceCtorEq, false_iff]
    omega

structure NonZero (width : ℕ) where
  get : ℕ
  pos : 0 < get
  lt : get < 2 ^ width
  deriving DecidableEq

def NonZero.lit {width : ℕ} (n : ℕ)
    (h : (0 < n && n < 2 ^ width) = true := by exact Eq.refl true) : NonZero width :=
  have h := Bool.and_eq_true_iff.mp h
  ⟨n, of_decide_eq_true h.1, of_decide_eq_true h.2⟩

namespace NonZero

variable {width : ℕ}

theorem get_injective : Function.Injective (NonZero.get : NonZero width → ℕ) := by
  rintro ⟨x, _, _⟩ ⟨y, _, _⟩ rfl; rfl

instance : Ord (NonZero width) := ⟨fun a b => compare a.get b.get⟩

instance : Std.TransOrd (NonZero width) where
  eq_swap := Std.OrientedOrd.eq_swap (α := ℕ)
  isLE_trans := Std.TransOrd.isLE_trans (α := ℕ)

instance : Std.LawfulEqOrd (NonZero width) where
  eq_of_compare h := get_injective (Std.LawfulEqOrd.eq_of_compare (α := ℕ) h)

end NonZero

abbrev NonZeroU16 := NonZero 16
abbrev NonZeroU32 := NonZero 32
abbrev NonZeroU64 := NonZero 64

instance : Std.TransOrd NonZeroU64 := inferInstance

/-- `NonZeroU64::get`, as the machine integer. -/
def NonZero.toUInt64 (n : NonZeroU64) : UInt64 := UInt64.ofNat n.get

@[simp] theorem NonZero.toNat_toUInt64 (n : NonZeroU64) : n.toUInt64.toNat = n.get := by
  rw [toUInt64, UInt64.toNat_ofNat', Nat.mod_eq_of_lt n.lt]

/-- `value.checked_add(1).and_then(NonZeroU64::new)`. -/
def checkedSuccNonZero (n : UInt64) : Option NonZeroU64 :=
  if h : n.toNat + 1 < 2 ^ 64 then some ⟨n.toNat + 1, Nat.succ_pos _, h⟩ else none

theorem checkedSuccNonZero_eq_some {n : UInt64} {m : NonZeroU64} :
    checkedSuccNonZero n = some m ↔ m.get = n.toNat + 1 := by
  have hm := m.lt
  rw [checkedSuccNonZero]
  split
  · rw [Option.some.injEq]
    refine ⟨fun h => by rw [← h], fun h => ?_⟩
    obtain ⟨_, _, _⟩ := m
    cases h
    rfl
  · simp only [reduceCtorEq, false_iff]
    omega

/-! ### Identifiers -/

inductive IdName where
  | stableEntity | transaction | idempotency | observation | imagination | procedure
  deriving DecidableEq

structure OpaqueId (name : IdName) where
  get : ℕ
  ne_zero : get ≠ 0
  lt : get < 2 ^ 128
  deriving DecidableEq

def OpaqueId.lit {name : IdName} (n : ℕ)
    (h : (n != 0 && n < 2 ^ 128) = true := by exact Eq.refl true) : OpaqueId name :=
  have h := Bool.and_eq_true_iff.mp h
  ⟨n, bne_iff_ne.mp h.1, of_decide_eq_true h.2⟩

/-- `StableEntityId::new` and its siblings: zero is refused. -/
def OpaqueId.new? {name : IdName} (value : ℕ) : Option (OpaqueId name) :=
  if h : value ≠ 0 ∧ value < 2 ^ 128 then some ⟨value, h.1, h.2⟩ else none

theorem OpaqueId.new?_eq_some {name : IdName} {value : ℕ} {id : OpaqueId name} :
    OpaqueId.new? value = some id ↔ id.get = value := by
  rw [OpaqueId.new?]
  split
  · rw [Option.some.injEq]
    refine ⟨fun h => by rw [← h], fun h => ?_⟩
    cases id
    cases h
    rfl
  · rename_i hbad
    refine iff_of_false (by simp) ?_
    rintro rfl
    exact hbad ⟨id.ne_zero, id.lt⟩

abbrev StableEntityId := OpaqueId .stableEntity
abbrev TransactionId := OpaqueId .transaction
abbrev IdempotencyKey := OpaqueId .idempotency
abbrev ObservationId := OpaqueId .observation
abbrev ImaginationId := OpaqueId .imagination

namespace OpaqueId

variable {name : IdName}

theorem get_injective : Function.Injective (OpaqueId.get : OpaqueId name → ℕ) := by
  rintro ⟨x, _, _⟩ ⟨y, _, _⟩ rfl; rfl

instance : Ord (OpaqueId name) := ⟨fun a b => compare a.get b.get⟩

instance : Std.TransOrd (OpaqueId name) where
  eq_swap := Std.OrientedOrd.eq_swap (α := ℕ)
  isLE_trans := Std.TransOrd.isLE_trans (α := ℕ)

instance : Std.LawfulEqOrd (OpaqueId name) where
  eq_of_compare h := get_injective (Std.LawfulEqOrd.eq_of_compare (α := ℕ) h)

end OpaqueId

structure SceneRevision where
  get : UInt64
  deriving DecidableEq

namespace SceneRevision

def initial : SceneRevision := ⟨0⟩

/-- The next revision, or `none` on overflow. -/
def checkedNext (r : SceneRevision) : Option SceneRevision := (checkedSucc r.get).map SceneRevision.mk

theorem checkedNext_eq_some {r s : SceneRevision} :
    r.checkedNext = some s ↔ s.get.toNat = r.get.toNat + 1 := by
  rw [checkedNext, Option.map_eq_some_iff]
  constructor
  · rintro ⟨n, hn, rfl⟩; exact checkedSucc_eq_some.mp hn
  · intro h; exact ⟨s.get, checkedSucc_eq_some.mpr h, rfl⟩

end SceneRevision

structure FrameId where
  get : UInt64
  ne_zero : get ≠ 0
  deriving DecidableEq

def FrameId.lit (n : UInt64) (h : (n != 0) = true := by exact Eq.refl true) : FrameId :=
  ⟨n, bne_iff_ne.mp h⟩

def FrameId.new? (value : UInt64) : Option FrameId :=
  if h : value ≠ 0 then some ⟨value, h⟩ else none

structure SchemaVersion where
  get : UInt16
  ne_zero : get ≠ 0
  deriving DecidableEq

def SchemaVersion.v1 : SchemaVersion := ⟨1, by decide⟩

structure SceneText where
  value : String
  ne_empty : value ≠ ""
  no_nul : '\x00' ∉ value.toList
  deriving DecidableEq

def SceneText.lit (value : String)
    (h : (value != "" && !value.toList.contains '\x00') = true := by exact Eq.refl true) :
    SceneText :=
  have h := Bool.and_eq_true_iff.mp h
  ⟨value, bne_iff_ne.mp h.1, by simpa using h.2⟩

def SceneText.lenBytes (text : SceneText) : ℕ := text.value.utf8ByteSize

theorem SceneText.value_injective : Function.Injective SceneText.value := by
  rintro ⟨left, _, _⟩ ⟨right, _, _⟩ rfl
  rfl

instance : Ord SceneText := ⟨fun a b => compare a.value b.value⟩

instance : Std.TransOrd SceneText where
  eq_swap := Std.OrientedOrd.eq_swap (α := String)
  isLE_trans := Std.TransOrd.isLE_trans (α := String)

instance : Std.LawfulEqOrd SceneText where
  eq_of_compare h := SceneText.value_injective (Std.LawfulEqOrd.eq_of_compare (α := String) h)

/-! ### Floating-point values -/

abbrev F32 := Binary Format.binary32
abbrev F64 := Binary Format.binary64

def F32.literal (numerator denominator : ℕ) : F32 :=
  Binary.round false (numerator * 2 ^ Format.binary32.scale) denominator

structure FloatValue (admits : F32 → Bool) where
  get : F32
  finite : get.isFinite = true
  admitted : admits get = true
  normalized : get ≠ { Binary.zero with negative := true }

def FloatValue.lit {admits : F32 → Bool} (value : F32)
    (h : (value.isFinite && admits value && value != { Binary.zero with negative := true }) = true
      := by exact Eq.refl true) : FloatValue admits :=
  have h := Bool.and_eq_true_iff.mp h
  have hadmitted := Bool.and_eq_true_iff.mp h.1
  ⟨value, hadmitted.1, hadmitted.2, bne_iff_ne.mp h.2⟩

abbrev FiniteF32 := FloatValue fun _ => true
abbrev PositiveF32 := FloatValue fun value => Binary.zero.flt value
abbrev NonNegativeF32 := FloatValue fun value => Binary.zero.fle value
abbrev UnitF32 := FloatValue fun value => Binary.zero.fle value && value.fle (Binary.ofNat 1)

instance {admits : F32 → Bool} : BEq (FloatValue admits) := ⟨fun a b => a.get.feq b.get⟩

instance {admits : F32 → Bool} : LawfulBEq (FloatValue admits) where
  rfl {a} := (Binary.feq_iff_eq a.finite a.finite a.normalized a.normalized).mpr rfl
  eq_of_beq {a b} h := by
    have := (Binary.feq_iff_eq a.finite b.finite a.normalized b.normalized).mp h
    cases a; cases b; cases this; rfl

instance {admits : F32 → Bool} : DecidableEq (FloatValue admits) := instDecidableEqOfLawfulBEq

/-- `FiniteF32::new` and its siblings. They test a value before they normalise it; a test compares
numbers, so it does not tell the two zeros apart. -/
def FloatValue.new? {admits : F32 → Bool} (value : F32) : Option (FloatValue admits) :=
  let normal := if value.feq Binary.zero then Binary.zero else value
  if h : normal.isFinite = true ∧ admits normal = true then
    some ⟨normal, h.1, h.2, by
      intro hneg
      simp only [normal] at hneg
      split at hneg
      · cases hneg
      · rename_i hzero
        rw [hneg] at hzero
        exact hzero rfl⟩
  else none

end Cogniform
