import Cogniform.Lib.Exec
import Cogniform.Lib.Json
import Cogniform.Protocol.Message

/-!
# Bounded canonical JSON

Messages are encoded as one JSON line. Encoding validates first and bounds the result; decoding
bounds size and nesting before it parses, and validates what it parsed. Serialization and parsing
themselves are third-party code: they enter as a `Serde`, a pair of functions about which nothing is
assumed here.
-/

namespace Cogniform

inductive JsonErrorCategory where
  | syntaxError | data | endOfFile | io
  deriving DecidableEq

structure JsonError where
  category : JsonErrorCategory
  line : ℕ
  column : ℕ
  deriving DecidableEq

inductive CodecError where
  | encodedSizeExceeded (actual limit : ℕ)
  | nestingLimitExceeded (actual limit : ℕ)
  | malformedJson (error : JsonError)
  | invalidMessage (error : ValidationError)
  | serializationFailed
  deriving DecidableEq

structure Serde (α : Type) where
  toVec : α → Option (List UInt8)
  fromSlice : List UInt8 → Except JsonError α

def Serde.Injective {α : Type} (serde : Serde α) : Prop :=
  ∀ left right bytes, serde.toVec left = some bytes → serde.toVec right = some bytes → left = right

def enforceEncodedSize (encodedLen : ℕ) (limits : RuntimeLimits) : Except CodecError Unit :=
  if limits.maxEncodedBytes.get < count64 encodedLen then
    .error (.encodedSizeExceeded (count64 encodedLen) limits.maxEncodedBytes.get)
  else .ok ()

structure NestingScan where
  depth : ℕ
  inString : Bool
  escaped : Bool

def NestingScan.next {ε : Type} (exceeded : ℕ → ℕ → ε) (limit : ℕ) (scan : NestingScan)
    (byte : UInt8) : Except ε NestingScan :=
  if scan.inString then
    if scan.escaped then .ok { scan with escaped := false }
    else if byte = 92 then .ok { scan with escaped := true }
    else if byte = 34 then .ok { scan with inString := false }
    else .ok scan
  else if byte = 34 then .ok { scan with inString := true }
  else if byte = 123 ∨ byte = 91 then
    let depth := min (scan.depth + 1) (2 ^ 16 - 1)
    if limit < depth then .error (exceeded depth limit)
    else .ok { scan with depth := depth }
  else if byte = 125 ∨ byte = 93 then .ok { scan with depth := scan.depth - 1 }
  else .ok scan

def enforceNestingDepth {ε : Type} (exceeded : ℕ → ℕ → ε) (limit : ℕ) (encoded : List UInt8) :
    Except ε Unit := do
  let _ ← encoded.foldlM (NestingScan.next exceeded limit) ⟨0, false, false⟩
  .ok ()

/-- `enforce_nesting` of the protocol's codec. -/
def enforceNesting (encoded : List UInt8) (limits : RuntimeLimits) : Except CodecError Unit :=
  enforceNestingDepth .nestingLimitExceeded limits.maxJsonNestingDepth.get encoded

section Nesting

variable {ε : Type} {exceeded : ℕ → ℕ → ε} {limit : ℕ}

theorem NestingScan.next_error {scan : NestingScan} {byte : UInt8} {error : ε}
    (h : scan.next exceeded limit byte = .error error) : ∃ depth, error = exceeded depth limit := by
  simp only [NestingScan.next] at h
  split_ifs at h
  cases h
  exact ⟨_, rfl⟩

theorem enforceNestingDepth_error {encoded : List UInt8} {error : ε}
    (h : enforceNestingDepth exceeded limit encoded = .error error) :
    ∃ depth, error = exceeded depth limit := by
  have hscan : ∀ (text : List UInt8) (scan : NestingScan),
      text.foldlM (NestingScan.next exceeded limit) scan = .error error →
        ∃ depth, error = exceeded depth limit := by
    intro text
    induction text with
    | nil => exact fun _ h => nomatch h
    | cons byte text ih =>
      intro scan h
      rw [List.foldlM_cons] at h
      rcases Exec.bind_eq_error.mp h with hnext | ⟨next, -, hrest⟩
      · exact NestingScan.next_error hnext
      · exact ih next hrest
  rcases Exec.bind_eq_error.mp h with hfold | ⟨_, -, hend⟩
  · exact hscan encoded _ hfold
  · cases hend

def NestingScan.ofNesting (scan : Nesting) : NestingScan :=
  ⟨scan.depth, scan.inString, scan.escaped⟩

theorem NestingScan.next_eq {scan : Nesting} (hlimit : limit < 2 ^ 16 - 1)
    (hdepth : scan.depth ≤ scan.peak) (hpeak : scan.peak ≤ limit) (byte : UInt8) :
    NestingScan.next exceeded limit (.ofNesting scan) byte =
      if (scan.next byte).peak ≤ limit then .ok (.ofNesting (scan.next byte))
      else .error (exceeded (scan.depth + 1) limit) := by
  have hmin : min (scan.depth + 1) (2 ^ 16 - 1) = scan.depth + 1 := by omega
  simp only [NestingScan.next, NestingScan.ofNesting, hmin]
  grind [Nesting.next, NestingScan.ofNesting]

theorem Nesting.depth_le_peak_next {scan : Nesting} (h : scan.depth ≤ scan.peak) (byte : UInt8) :
    (scan.next byte).depth ≤ (scan.next byte).peak := by
  grind [Nesting.next]

theorem Nesting.peak_le_next (scan : Nesting) (byte : UInt8) :
    scan.peak ≤ (scan.next byte).peak := by
  grind [Nesting.next]

theorem Nesting.peak_le_foldl (scan : Nesting) (text : List UInt8) :
    scan.peak ≤ (text.foldl Nesting.next scan).peak := by
  induction text generalizing scan with
  | nil => exact le_rfl
  | cons byte text ih => exact (scan.peak_le_next byte).trans (ih _)

theorem foldlM_next_iff {text : List UInt8} (hlimit : limit < 2 ^ 16 - 1) :
    ∀ scan : Nesting, scan.depth ≤ scan.peak → scan.peak ≤ limit →
      ((∃ final, text.foldlM (NestingScan.next exceeded limit) (.ofNesting scan) = .ok final) ↔
        (text.foldl Nesting.next scan).peak ≤ limit) := by
  induction text with
  | nil =>
    intro scan _ hpeak
    exact iff_of_true ⟨_, rfl⟩ hpeak
  | cons byte text ih =>
    intro scan hdepth hpeak
    rw [List.foldlM_cons, NestingScan.next_eq hlimit hdepth hpeak, List.foldl_cons]
    by_cases hnext : (scan.next byte).peak ≤ limit
    · rw [if_pos hnext]
      exact ih _ (Nesting.depth_le_peak_next hdepth byte) hnext
    · rw [if_neg hnext]
      refine iff_of_false (fun ⟨final, hfinal⟩ => nomatch hfinal) fun hle => hnext ?_
      exact (Nesting.peak_le_foldl _ text).trans hle

theorem foldlM_next_saturated {text : List UInt8} (hlimit : 2 ^ 16 - 1 ≤ limit) :
    ∀ scan, ∃ final, text.foldlM (NestingScan.next exceeded limit) scan = .ok final := by
  induction text with
  | nil => exact fun scan => ⟨scan, rfl⟩
  | cons byte text ih =>
    intro scan
    have hnext : ∃ scan', NestingScan.next exceeded limit scan byte = .ok scan' := by
      have hmin : ¬limit < min (scan.depth + 1) (2 ^ 16 - 1) := by omega
      simp only [NestingScan.next, if_neg hmin]
      split_ifs <;> exact ⟨_, rfl⟩
    obtain ⟨scan', hscan⟩ := hnext
    rw [List.foldlM_cons, hscan]
    exact ih scan'

theorem enforceNestingDepth_iff {encoded : List UInt8} (hlimit : limit < 2 ^ 16) :
    enforceNestingDepth exceeded limit encoded = .ok () ↔
      limit = 2 ^ 16 - 1 ∨ (Nesting.ofText encoded).peak ≤ limit := by
  have hok : enforceNestingDepth exceeded limit encoded = .ok () ↔ ∃ final, encoded.foldlM
      (NestingScan.next exceeded limit) ⟨0, false, false⟩ = .ok final := by
    rw [enforceNestingDepth, Exec.bind_eq_ok]
    exact ⟨fun ⟨final, hfinal, _⟩ => ⟨final, hfinal⟩, fun ⟨final, hfinal⟩ => ⟨final, hfinal, rfl⟩⟩
  rw [hok]
  by_cases hbelow : limit < 2 ^ 16 - 1
  · rw [or_iff_right (by omega)]
    exact foldlM_next_iff hbelow ⟨0, 0, false, false⟩ le_rfl (Nat.zero_le _)
  · exact iff_of_true (foldlM_next_saturated (by omega) _) (.inl (by omega))

theorem enforceNestingDepth_write_iff {value : Json} (hlimit : limit < 2 ^ 16) :
    enforceNestingDepth exceeded limit (value.write ++ [10]) = .ok () ↔
      limit = 2 ^ 16 - 1 ∨ value.depth ≤ limit := by
  have hnests : Nests (value.write ++ [10]) value.depth := by
    have hfeed : Nests [10] 0 := .of_plain (by decide)
    simpa using value.nests_write.append hfeed
  rw [enforceNestingDepth_iff hlimit, Nesting.ofText, hnests 0 0 le_rfl]
  simp

theorem enforceNesting_write_iff {value : Json} {limits : RuntimeLimits} :
    enforceNesting (value.write ++ [10]) limits = .ok () ↔
      limits.maxJsonNestingDepth.get = 2 ^ 16 - 1 ∨
        value.depth ≤ limits.maxJsonNestingDepth.get :=
  enforceNestingDepth_write_iff limits.maxJsonNestingDepth.lt

end Nesting

section Codec

variable {α : Type} (serde : Serde α) (validate : α → RuntimeLimits → Except ValidationError Unit)

def encode (value : α) (limits : RuntimeLimits) : Except CodecError (List UInt8) :=
  match validate value limits with
  | .error error => .error (.invalidMessage error)
  | .ok () =>
    match serde.toVec value with
    | none => .error .serializationFailed
    | some bytes => do
      let encoded := bytes ++ [10]
      enforceEncodedSize encoded.length limits
      .ok encoded

def decode (encoded : List UInt8) (limits : RuntimeLimits) : Except CodecError α := do
  enforceEncodedSize encoded.length limits
  enforceNesting encoded limits
  match serde.fromSlice encoded with
  | .error error => .error (.malformedJson error)
  | .ok value =>
    match validate value limits with
    | .error error => .error (.invalidMessage error)
    | .ok () => .ok value

variable {serde validate}

theorem encode_eq_ok {value : α} {limits : RuntimeLimits} {encoded : List UInt8} :
    encode serde validate value limits = .ok encoded ↔
      validate value limits = .ok () ∧ enforceEncodedSize encoded.length limits = .ok () ∧
        ∃ bytes, serde.toVec value = some bytes ∧ encoded = bytes ++ [10] := by
  cases hvalid : validate value limits with
  | error error => simp [encode, hvalid]
  | ok _ =>
    cases hbytes : serde.toVec value with
    | none => simp [encode, hvalid, hbytes]
    | some bytes =>
      simp only [encode, hvalid, hbytes, Exec.bind_eq_ok, Except.ok.injEq, true_and,
        Option.some.injEq, exists_eq_left']
      constructor
      · rintro ⟨⟨⟩, hsize, rfl⟩
        exact ⟨hsize, rfl⟩
      · rintro ⟨hsize, rfl⟩
        exact ⟨(), hsize, rfl⟩

theorem encode_ok {value : α} {limits : RuntimeLimits} {encoded : List UInt8}
    (h : encode serde validate value limits = .ok encoded) :
    validate value limits = .ok () ∧
      ∃ bytes, serde.toVec value = some bytes ∧ encoded = bytes ++ [10] := by
  obtain ⟨hvalid, -, hbytes⟩ := encode_eq_ok.mp h
  exact ⟨hvalid, hbytes⟩

theorem decode_eq_ok {value : α} {limits : RuntimeLimits} {encoded : List UInt8} :
    decode serde validate encoded limits = .ok value ↔
      enforceEncodedSize encoded.length limits = .ok () ∧ enforceNesting encoded limits = .ok () ∧
        serde.fromSlice encoded = .ok value ∧ validate value limits = .ok () := by
  simp only [decode, Exec.bind_eq_ok]
  constructor
  · rintro ⟨⟨⟩, hsize, ⟨⟩, hnesting, h⟩
    refine ⟨hsize, hnesting, ?_⟩
    split at h
    · cases h
    rename_i parsed hparsed
    split at h
    · cases h
    rename_i hvalid
    cases h
    exact ⟨hparsed, hvalid⟩
  · rintro ⟨hsize, hnesting, hparsed, hvalid⟩
    refine ⟨(), hsize, (), hnesting, ?_⟩
    simp only [hparsed, hvalid]

theorem encode_injective (hserde : serde.Injective) {left right : α} {limits : RuntimeLimits}
    {encoded : List UInt8} (hleft : encode serde validate left limits = .ok encoded)
    (hright : encode serde validate right limits = .ok encoded) : left = right := by
  obtain ⟨-, bytes, hbytes, rfl⟩ := encode_ok hleft
  obtain ⟨-, bytes', hbytes', heq⟩ := encode_ok hright
  rw [List.append_cancel_right heq] at hbytes
  exact hserde left right bytes' hbytes hbytes'

structure Serde.RoundTrips (serde : Serde α) (json : Json) (value : α) : Prop where
  written : serde.toVec value = some json.write
  read : serde.fromSlice (json.write ++ [10]) = .ok value

def Serde.single (json : α → Json) (known : α) : Serde α where
  toVec value := some (json value).write
  fromSlice encoded :=
    if encoded = (json known).write ++ [10] then .ok known else .error ⟨.syntaxError, 1, 1⟩

theorem Serde.roundTrips_single (json : α → Json) (known : α) :
    (Serde.single json known).RoundTrips (json known) known := ⟨rfl, if_pos rfl⟩

/-- **What is encoded can be decoded under the same limits if it does not nest too deeply, and only
then.** Size and validity were checked by the encoder; nesting was not. -/
theorem decode_encode_iff {value : α} {json : Json} {limits : RuntimeLimits} {encoded : List UInt8}
    (hserde : serde.RoundTrips json value)
    (h : encode serde validate value limits = .ok encoded) :
    decode serde validate encoded limits = .ok value ↔
      limits.maxJsonNestingDepth.get = 2 ^ 16 - 1 ∨
        json.depth ≤ limits.maxJsonNestingDepth.get := by
  obtain ⟨hvalid, hsize, bytes, hbytes, rfl⟩ := encode_eq_ok.mp h
  obtain rfl : json.write = bytes := Option.some.inj (hserde.written.symm.trans hbytes)
  rw [← enforceNesting_write_iff, decode_eq_ok]
  constructor
  · rintro ⟨-, hnesting, -, -⟩
    exact hnesting
  · intro hnesting
    exact ⟨hsize, hnesting, hserde.read, hvalid⟩

end Codec

def ScenePatch.toCanonicalJson (serde : Serde ScenePatch) (patch : ScenePatch)
    (limits : RuntimeLimits) : Except CodecError (List UInt8) :=
  encode serde ScenePatch.validate patch limits

def ScenePatch.fromJson (serde : Serde ScenePatch) (encoded : List UInt8)
    (limits : RuntimeLimits) : Except CodecError ScenePatch :=
  decode serde ScenePatch.validate encoded limits

def ApplyReceipt.toCanonicalJson (serde : Serde ApplyReceipt) (receipt : ApplyReceipt)
    (limits : RuntimeLimits) : Except CodecError (List UInt8) :=
  encode serde ApplyReceipt.validate receipt limits

end Cogniform
