import Cogniform.Lib.Bytes
import Cogniform.Lib.Exec

/-!
# Base64 text of resources

The server packs three bytes into four symbols by hand; a rest of one or two bytes is filled up with
pads. The size of the text is computed beforehand, and the memory for it reserved. The decoder is
that of RFC 4648, section 4, and is not the server's.
-/

namespace Cogniform

namespace Rfc4648

def pad : UInt8 := 61

def value (symbol : UInt8) : Option ℕ :=
  if 65 ≤ symbol ∧ symbol ≤ 90 then some (symbol.toNat - 65)
  else if 97 ≤ symbol ∧ symbol ≤ 122 then some (symbol.toNat - 97 + 26)
  else if 48 ≤ symbol ∧ symbol ≤ 57 then some (symbol.toNat - 48 + 52)
  else if symbol = 43 then some 62
  else if symbol = 47 then some 63
  else none

def decodeLast (a b c : UInt8) : Option (List UInt8) := do
  let first ← value a
  let second ← value b
  if c = pad then
    if second % 16 = 0 then some [.ofNat (first * 4 + second / 16)] else none
  else
    let third ← value c
    if third % 4 = 0 then
      some [.ofNat (first * 4 + second / 16), .ofNat (second % 16 * 16 + third / 4)]
    else none

def decodeGroup (a b c d : UInt8) : Option (List UInt8) := do
  let first ← value a
  let second ← value b
  let third ← value c
  let fourth ← value d
  some [.ofNat (first * 4 + second / 16), .ofNat (second % 16 * 16 + third / 4),
    .ofNat (third % 4 * 64 + fourth)]

def decode : List UInt8 → Option (List UInt8)
  | [] => some []
  | a :: b :: c :: d :: rest =>
    if d = pad then if rest = [] then decodeLast a b c else none
    else do
      let bytes ← decodeGroup a b c d
      let rest ← decode rest
      some (bytes ++ rest)
  | _ => none

end Rfc4648

def base64Alphabet : List UInt8 :=
  asciiBytes "ABCDEFGHIJKLMNOPQRSTUVWXYZabcdefghijklmnopqrstuvwxyz0123456789+/"

def base64Symbol (bits shift : UInt32) : Exec Unit UInt8 :=
  Exec.expect "index out of bounds" base64Alphabet[((bits >>> shift) &&& 0x3f).toNat]?

/-- The loop of `base64_encode` over groups of three bytes, and its rest. -/
def base64Chunks : List UInt8 → List UInt8 → Exec Unit (List UInt8)
  | encoded, first :: second :: third :: rest => do
    let bits := first.toUInt32 <<< 16 ||| second.toUInt32 <<< 8 ||| third.toUInt32
    let symbols ← [18, 12, 6, 0].mapM (base64Symbol bits)
    base64Chunks (encoded ++ symbols) rest
  | encoded, [first, second] => do
    let bits := first.toUInt32 <<< 16 ||| second.toUInt32 <<< 8
    let symbols ← [18, 12, 6].mapM (base64Symbol bits)
    .ok (encoded ++ symbols ++ [61])
  | encoded, [first] => do
    let bits := first.toUInt32 <<< 16
    let symbols ← [18, 12].mapM (base64Symbol bits)
    .ok (encoded ++ symbols ++ [61, 61])
  | encoded, [] => .ok encoded

/-- `base64_encoded_len`: every step is checked in 64 bits. -/
def base64EncodedLen (inputLen : ℕ) : Exec Unit ℕ :=
  if inputLen + 2 < 2 ^ 64 then
    if (inputLen + 2) / 3 * 4 < 2 ^ 64 then .ok ((inputLen + 2) / 3 * 4) else Exec.fail ()
  else Exec.fail ()

/-- `base64_encode`, where `reserves` says which texts there is memory for. -/
def base64Encode (reserves : ℕ → Bool) (input : List UInt8) : Exec Unit (List UInt8) := do
  let encodedLen ← base64EncodedLen input.length
  if reserves encodedLen then
    let encoded ← base64Chunks [] input
    if encoded.length = encodedLen then .ok encoded
    else .error (.panic "assertion failed: encoded.len() == encoded_len")
  else Exec.fail ()

theorem base64Symbol_eq_ok (bits shift : UInt32) (power : ℕ)
    (hpower : 2 ^ (shift.toNat % 32) = power) :
    ∃ symbol, base64Symbol bits shift = .ok symbol ∧ symbol ∈ base64Alphabet ∧
      symbol ≠ Rfc4648.pad ∧ Rfc4648.value symbol = some (bits.toNat / power % 64) := by
  have htable : ∀ index : Fin 64, ∃ symbol, base64Alphabet[index.val]? = some symbol ∧
      symbol ≠ Rfc4648.pad ∧ Rfc4648.value symbol = some index.val := by
    decide +kernel
  have hindex : ((bits >>> shift) &&& 0x3f).toNat = bits.toNat / power % 64 := by
    rw [UInt32.toNat_and, UInt32.toNat_shiftRight, Nat.shiftRight_eq_div_pow, hpower]
    exact Nat.and_two_pow_sub_one_eq_mod _ 6
  obtain ⟨symbol, hget, hpad, hvalue⟩ := htable ⟨_, Nat.mod_lt (bits.toNat / power) (by decide)⟩
  refine ⟨symbol, ?_, List.mem_of_getElem? hget, hpad, hvalue⟩
  rw [base64Symbol, hindex, hget, Exec.expect_some]

theorem toNat_bits (first second third : UInt8) :
    (first.toUInt32 <<< 16 ||| second.toUInt32 <<< 8 ||| third.toUInt32).toNat =
      first.toNat * 65536 + second.toNat * 256 + third.toNat := by
  have hfirst := first.toNat_lt
  have hsecond := second.toNat_lt
  have hthird := third.toNat_lt
  have hlow : (second.toUInt32 <<< 8 ||| third.toUInt32).toNat =
      second.toNat * 256 + third.toNat := by
    simp only [UInt32.toNat_or, UInt32.toNat_shiftLeft, UInt8.toNat_toUInt32]
    change second.toNat <<< 8 % 2 ^ 32 ||| third.toNat = _
    rw [Nat.shiftLeft_eq, Nat.mod_eq_of_lt (by omega), ← Nat.shiftLeft_eq,
      ← Nat.shiftLeft_add_eq_or_of_lt hthird, Nat.shiftLeft_eq]
  rw [UInt32.or_assoc, UInt32.toNat_or, hlow, UInt32.toNat_shiftLeft, UInt8.toNat_toUInt32]
  change first.toNat <<< 16 % 2 ^ 32 ||| (second.toNat * 256 + third.toNat) = _
  rw [Nat.shiftLeft_eq, Nat.mod_eq_of_lt (by omega), ← Nat.shiftLeft_eq,
    ← Nat.shiftLeft_add_eq_or_of_lt (by omega), Nat.shiftLeft_eq, Nat.add_assoc]

theorem base64Chunks_eq_ok (encoded input : List UInt8) : ∃ body pads,
    base64Chunks encoded input = .ok (encoded ++ (body ++ List.replicate pads Rfc4648.pad)) ∧
      (∀ symbol ∈ body, symbol ∈ base64Alphabet) ∧ pads ≤ 2 ∧
      body.length + pads = (input.length + 2) / 3 * 4 ∧
      Rfc4648.decode (body ++ List.replicate pads Rfc4648.pad) = some input := by
  induction encoded, input using base64Chunks.induct with
  | case1 encoded first second third rest ih =>
    have hbits := toNat_bits first second third
    rw [base64Chunks]
    generalize first.toUInt32 <<< 16 ||| second.toUInt32 <<< 8 ||| third.toUInt32 = bits at hbits ⊢
    obtain ⟨a, ha, hma, -, hva⟩ := base64Symbol_eq_ok bits 18 262144 rfl
    obtain ⟨b, hb, hmb, -, hvb⟩ := base64Symbol_eq_ok bits 12 4096 rfl
    obtain ⟨c, hc, hmc, -, hvc⟩ := base64Symbol_eq_ok bits 6 64 rfl
    obtain ⟨d, hd, hmd, hpad, hvd⟩ := base64Symbol_eq_ok bits 0 1 rfl
    obtain ⟨body, pads, hchunks, hmem, hle, hlength, hdecode⟩ := ih [a, b, c, d]
    refine ⟨a :: b :: c :: d :: body, pads, ?_, ?_, hle, ?_, ?_⟩
    · simp [ha, hb, hc, hd, hchunks]
    · simpa [hma, hmb, hmc, hmd] using hmem
    · simp only [List.length_cons]
      omega
    · have hgroup : Rfc4648.decodeGroup a b c d = some [first, second, third] := by
        simp only [Rfc4648.decodeGroup, hva, hvb, hvc, hvd, Option.bind_eq_bind, Option.bind_some,
          Option.some.injEq, List.cons.injEq, and_true, ← UInt8.toNat_inj, UInt8.toNat_ofNat', hbits]
        have hfirst := first.toNat_lt
        have hsecond := second.toNat_lt
        have hthird := third.toNat_lt
        omega
      simp [Rfc4648.decode, hpad, hgroup, hdecode]
  | case2 encoded first second =>
    have hbits := toNat_bits first second 0
    rw [base64Chunks]
    rw [show (0 : UInt8).toUInt32 = 0 from rfl, UInt32.or_zero] at hbits
    generalize first.toUInt32 <<< 16 ||| second.toUInt32 <<< 8 = bits at hbits ⊢
    obtain ⟨a, ha, hma, -, hva⟩ := base64Symbol_eq_ok bits 18 262144 rfl
    obtain ⟨b, hb, hmb, -, hvb⟩ := base64Symbol_eq_ok bits 12 4096 rfl
    obtain ⟨c, hc, hmc, hpad, hvc⟩ := base64Symbol_eq_ok bits 6 64 rfl
    refine ⟨[a, b, c], 1, ?_, ?_, by decide, by simp, ?_⟩
    · simp [ha, hb, hc, Rfc4648.pad]
    · simp [hma, hmb, hmc]
    · have hfirst := first.toNat_lt
      have hsecond := second.toNat_lt
      simp [Rfc4648.decode, Rfc4648.decodeLast, hva, hvb, hvc, hpad, ← UInt8.toNat_inj, hbits]
      omega
  | case3 encoded first =>
    have hbits := toNat_bits first 0 0
    rw [base64Chunks]
    rw [show (0 : UInt8).toUInt32 = 0 from rfl, UInt32.zero_shiftLeft, UInt32.or_zero,
      UInt32.or_zero] at hbits
    generalize first.toUInt32 <<< 16 = bits at hbits ⊢
    obtain ⟨a, ha, hma, -, hva⟩ := base64Symbol_eq_ok bits 18 262144 rfl
    obtain ⟨b, hb, hmb, -, hvb⟩ := base64Symbol_eq_ok bits 12 4096 rfl
    refine ⟨[a, b], 2, ?_, ?_, by decide, by simp, ?_⟩
    · simp [ha, hb, Rfc4648.pad]
    · simp [hma, hmb]
    · have hfirst := first.toNat_lt
      simp [Rfc4648.decode, Rfc4648.decodeLast, hva, hvb, ← UInt8.toNat_inj, hbits]
      omega
  | case4 encoded => exact ⟨[], 0, by simp [base64Chunks], by simp, by omega, rfl, rfl⟩

/-- **The text is faithful.** There is a text of symbols and at most two pads that decodes to the
input. It has the length computed beforehand, which is defined for every slice, and it is the
result if there is memory for it. -/
theorem base64Encode_faithful (reserves : ℕ → Bool) (input : List UInt8) : ∃ body pads,
    (∀ symbol ∈ body, symbol ∈ base64Alphabet) ∧ pads ≤ 2 ∧
      Rfc4648.decode (body ++ List.replicate pads Rfc4648.pad) = some input ∧
      (∀ encodedLen, base64EncodedLen input.length = .ok encodedLen →
        (body ++ List.replicate pads Rfc4648.pad).length = encodedLen) ∧
      (input.length < 2 ^ 63 → ∃ encodedLen, base64EncodedLen input.length = .ok encodedLen) ∧
      base64Encode reserves input = (base64EncodedLen input.length >>= fun encodedLen =>
        if reserves encodedLen then .ok (body ++ List.replicate pads Rfc4648.pad)
        else Exec.fail ()) := by
  obtain ⟨body, pads, hchunks, hmem, hle, hlength, hdecode⟩ := base64Chunks_eq_ok [] input
  rw [List.nil_append] at hchunks
  have hlen : ∀ encodedLen, base64EncodedLen input.length = .ok encodedLen →
      (body ++ List.replicate pads Rfc4648.pad).length = encodedLen := by
    intro encodedLen h
    rw [base64EncodedLen] at h
    split_ifs at h
    · cases h
      rw [List.length_append, List.length_replicate, hlength]
    · cases h
    · cases h
  refine ⟨body, pads, hmem, hle, hdecode, hlen, fun hslice => ?_, ?_⟩
  · rw [base64EncodedLen, if_pos (by omega), if_pos (by omega)]
    exact ⟨_, rfl⟩
  · rw [base64Encode]
    cases h : base64EncodedLen input.length with
    | error abort => rfl
    | ok encodedLen =>
      rw [Exec.ok_bind, Exec.ok_bind, hchunks, Exec.ok_bind, if_pos (hlen encodedLen h)]

example : base64Encode (fun _ => true) (asciiBytes "fooba") = .ok (asciiBytes "Zm9vYmE=") := by
  decide +kernel

end Cogniform
