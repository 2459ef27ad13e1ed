import Mathlib.Data.Nat.Notation
import Mathlib.Data.List.Induction
import Mathlib.Tactic.Ring

/-!
# Bytes

Integers of a fixed number of bytes, most significant byte first, and the fields of a fixed layout.
Bytes are lists here, so that a stream can be taken apart by its prefixes.
-/

namespace Cogniform

def asciiBytes (text : String) : List UInt8 := text.toList.map fun c => UInt8.ofNat c.toNat

theorem toList_loop_eq (bytes : ByteArray) (position : ℕ) (read : List UInt8) :
    ByteArray.toList.loop bytes position read =
      read.reverse ++ bytes.data.toList.drop position := by
  induction position, read using ByteArray.toList.loop.induct bytes with
  | case1 position read hlt ih =>
    have hlt' : position < bytes.data.toList.length := by simpa using hlt
    have hget : bytes.get! position = bytes.data.toList[position] := by
      rw [ByteArray.get!, Array.getElem_toList]
      exact getElem!_pos bytes.data position (by simpa using hlt)
    rw [ByteArray.toList.loop, if_pos hlt, ih, List.drop_eq_getElem_cons hlt', hget]
    simp
  | case2 position read hge =>
    have hge' : bytes.data.toList.length ≤ position := by simpa using hge
    rw [ByteArray.toList.loop, if_neg hge, List.drop_eq_nil_of_le hge', List.append_nil]

theorem toUTF8_toList_injective :
    Function.Injective fun text : String => text.toUTF8.toList := by
  intro left right h
  have hdata : ∀ bytes : ByteArray, bytes.toList = bytes.data.toList :=
    fun bytes => toList_loop_eq bytes 0 []
  dsimp only at h
  rw [hdata, hdata] at h
  exact String.toByteArray_inj.mp (ByteArray.ext (Array.toList_inj.mp h))

/-- The low `width` bytes of a number, most significant first. -/
def bigEndian : ℕ → ℕ → List UInt8
  | 0, _ => []
  | width + 1, n => bigEndian width (n / 256) ++ [UInt8.ofNat n]

def ofBigEndian (bytes : List UInt8) : ℕ :=
  bytes.foldl (fun value byte => value * 256 + byte.toNat) 0

@[simp] theorem length_bigEndian (width n : ℕ) : (bigEndian width n).length = width := by
  induction width generalizing n with
  | zero => rfl
  | succ width ih => simp [bigEndian, ih]

theorem ofBigEndian_concat (bytes : List UInt8) (byte : UInt8) :
    ofBigEndian (bytes ++ [byte]) = ofBigEndian bytes * 256 + byte.toNat := by
  simp [ofBigEndian]

theorem ofBigEndian_lt (bytes : List UInt8) : ofBigEndian bytes < 256 ^ bytes.length := by
  induction bytes using List.reverseRecOn with
  | nil => simp [ofBigEndian]
  | append_singleton bytes byte ih =>
    have hbyte := byte.toNat_lt
    rw [ofBigEndian_concat, List.length_append, List.length_singleton, pow_succ]
    omega

theorem ofBigEndian_bigEndian {width n : ℕ} (h : n < 256 ^ width) :
    ofBigEndian (bigEndian width n) = n := by
  induction width generalizing n with
  | zero =>
    rw [pow_zero, Nat.lt_one_iff] at h
    simp [bigEndian, ofBigEndian, h]
  | succ width ih =>
    have hdiv : n / 256 < 256 ^ width := by
      rw [pow_succ] at h
      omega
    rw [bigEndian, ofBigEndian_concat, ih hdiv, UInt8.toNat_ofNat']
    omega

theorem bigEndian_ofBigEndian {width : ℕ} {bytes : List UInt8} (h : bytes.length = width) :
    bigEndian width (ofBigEndian bytes) = bytes := by
  induction bytes using List.reverseRecOn generalizing width with
  | nil =>
    subst h
    rfl
  | append_singleton bytes byte ih =>
    rw [List.length_append, List.length_singleton] at h
    subst h
    have hbyte := byte.toNat_lt
    have hdiv : (ofBigEndian bytes * 256 + byte.toNat) / 256 = ofBigEndian bytes := by omega
    have hlow : UInt8.ofNat (ofBigEndian bytes * 256 + byte.toNat) = byte := by
      rw [← UInt8.toNat_inj, UInt8.toNat_ofNat']
      omega
    rw [ofBigEndian_concat, bigEndian, hdiv, hlow, ih rfl]

def bytesAt (encoded : List UInt8) (offset width : ℕ) : List UInt8 :=
  (encoded.drop offset).take width

section

variable {encoded : List UInt8}

theorem bytesAt_append_drop (encoded : List UInt8) (offset width : ℕ) {next : ℕ}
    (h : offset + width = next) :
    bytesAt encoded offset width ++ encoded.drop next = encoded.drop offset := by
  rw [bytesAt, ← h, ← List.drop_drop, List.take_append_drop]

theorem bytesAt_take {offset width n : ℕ} (h : offset + width ≤ n) :
    bytesAt (encoded.take n) offset width = bytesAt encoded offset width := by
  rw [bytesAt, bytesAt, List.drop_take, List.take_take, min_eq_left (by omega)]

theorem bytesAt_one {offset : ℕ} (h : offset < encoded.length) :
    bytesAt encoded offset 1 = [encoded.getD offset 0] := by
  rw [bytesAt, List.drop_eq_getElem_cons h, List.getD_eq_getElem?_getD, List.getElem?_eq_getElem h]
  rfl

theorem length_bytesAt {offset width : ℕ} (h : offset + width ≤ encoded.length) :
    (bytesAt encoded offset width).length = width := by
  rw [bytesAt, List.length_take, List.length_drop]
  omega

theorem bytesAt_of_drop {offset width next : ℕ} {field rest : List UInt8}
    (h : encoded.drop offset = field ++ rest) (hwidth : field.length = width)
    (hnext : offset + width = next) :
    bytesAt encoded offset width = field ∧ encoded.drop next = rest := by
  rw [bytesAt, ← hnext, ← List.drop_drop, h]
  exact ⟨List.take_left' hwidth, List.drop_left' hwidth⟩

end

end Cogniform
