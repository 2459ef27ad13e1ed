import Cogniform.Lib.Record
import Cogniform.Observation.Payload
import Cogniform.Protocol.RoundTrip

/-!
# Payload envelopes

A payload travels as one byte string: a fixed header, a digest and the items, each in a fixed number
of bytes. The digest covers the canonical bytes of the metadata too, so an envelope belongs to its
metadata. The decoder's checks leave exactly the strings that the encoder writes. Whether memory can
be reserved is left open.
-/

namespace Cogniform

/-! ### The layout -/

namespace ObservationPayload

def magic : List UInt8 := asciiBytes "COGOBS01"

/-- `OBSERVATION_PAYLOAD_ENVELOPE_VERSION`. -/
def envelopeVersion : ℕ := 1

def versionOffset : ℕ := 8

def kindOffset : ℕ := versionOffset + 2

def reservedOffset : ℕ := kindOffset + 1

def countOffset : ℕ := reservedOffset + 1

def lengthOffset : ℕ := countOffset + 8

def digestOffset : ℕ := lengthOffset + 8

/-- `OBSERVATION_PAYLOAD_ENVELOPE_HEADER_BYTES`. -/
def envelopeHeaderBytes : ℕ := digestOffset + 32

def kind : ObservationPayload → ObservationKind
  | .color _ => .color
  | .depth _ => .depth
  | .normal _ => .normal
  | .entityId _ => .entityId
  | .visibility _ => .visibility

def length : ObservationPayload → ℕ
  | .color pixels => pixels.length
  | .depth values => values.length
  | .normal values => values.length
  | .entityId values => values.length
  | .visibility entries => entries.length

def itemCount (payload : ObservationPayload) : ℕ := count64 payload.length

end ObservationPayload

open ObservationPayload hiding color depth normal entityId visibility

def ObservationKind.itemBytes : ObservationKind → ℕ
  | .color | .depth => 4
  | .normal => 13
  | .entityId => 17
  | .visibility => 24

def ObservationKind.encodeKind : ObservationKind → UInt8
  | .color => 1
  | .depth => 2
  | .normal => 3
  | .entityId => 4
  | .visibility => 5

def ObservationKind.decodeKind (encoded : UInt8) :
    Except ObservationEnvelopeError ObservationKind :=
  match encoded with
  | 1 => .ok .color
  | 2 => .ok .depth
  | 3 => .ok .normal
  | 4 => .ok .entityId
  | 5 => .ok .visibility
  | found => .error (.unsupportedKind found)

theorem ObservationKind.decodeKind_eq_ok {encoded : UInt8} {kind : ObservationKind} :
    decodeKind encoded = .ok kind ↔ kind.encodeKind = encoded := by
  constructor
  · intro h
    unfold decodeKind at h
    split at h <;> cases h <;> rfl
  · rintro rfl
    cases kind <;> rfl

theorem ObservationKind.itemBytes_pos (kind : ObservationKind) : 0 < kind.itemBytes := by
  cases kind <;> decide

namespace PayloadEnvelope

def invalidValue (kind : ObservationKind) (index : ℕ) : ObservationEnvelopeError :=
  .invalidPayloadValue kind (count64 index)

/-! ### Values -/

def canonicalF32 (value : F32) : Bool :=
  value.isFinite && value.toBits != (Binary.zero : F32).neg.toBits

def validDepth (value : F32) : Bool :=
  canonicalF32 value && (Binary.zero.fle value && value.fle (.ofNat 1))

/-- `OBSERVATION_NORMAL_LENGTH_SQUARED_TOLERANCE`. -/
def normalLengthSquaredTolerance : F32 := F32.literal 1 1000

def validNormal (value : Vector F32 3) : Bool :=
  canonicalF32 value[0] && canonicalF32 value[1] && canonicalF32 value[2] &&
    let lengthSquared :=
      value[0].mulAdd value[0] (value[1].mulAdd value[1] (value[2].mul value[2]))
    lengthSquared.isFinite &&
      !normalLengthSquaredTolerance.flt (lengthSquared.sub (.ofNat 1)).abs

structure VisibilityState where
  previous : Option StableEntityId
  visiblePixels : ℕ

def VisibilityState.initial : VisibilityState := ⟨none, 0⟩

/-- One entry of a visibility payload: it counts pixels, its entity follows the one before, and the
sum fits 64 bits. -/
def VisibilityState.next (state : VisibilityState) (index : ℕ) (entry : EntityVisibility) :
    Except ObservationEnvelopeError VisibilityState :=
  if entry.visiblePixels = 0 ∨
      state.previous.any (fun entityId => entry.entityId.get ≤ entityId.get) then
    .error (invalidValue .visibility index)
  else if state.visiblePixels + entry.visiblePixels.toNat < 2 ^ 64 then
    .ok ⟨some entry.entityId, state.visiblePixels + entry.visiblePixels.toNat⟩
  else .error .sizeOverflow

def enforceVisiblePixels (state : VisibilityState) (limits : RuntimeLimits) :
    Except ObservationEnvelopeError Unit :=
  if limits.maxObservationPixels.get < state.visiblePixels then
    .error (.visibilityPixelLimitExceeded state.visiblePixels limits.maxObservationPixels.get)
  else .ok ()

def validateEach {α : Type} (kind : ObservationKind) (valid : α → Bool) :
    ℕ → List α → Except ObservationEnvelopeError Unit
  | _, [] => .ok ()
  | index, value :: values =>
    if valid value then validateEach kind valid (index + 1) values
    else .error (invalidValue kind index)

def validateVisibility : ℕ → VisibilityState → List EntityVisibility →
    Except ObservationEnvelopeError VisibilityState
  | _, state, [] => .ok state
  | index, state, entry :: entries => do
    let state ← state.next index entry
    validateVisibility (index + 1) state entries

def validateValues (limits : RuntimeLimits) :
    ObservationPayload → Except ObservationEnvelopeError Unit
  | .color _ => .ok ()
  | .entityId _ => .ok ()
  | .depth values => validateEach .depth validDepth 0 values
  | .normal values => validateEach .normal (fun value => value.all validNormal) 0 values
  | .visibility entries => do
    let state ← validateVisibility 0 .initial entries
    enforceVisiblePixels state limits

/-! ### Records -/

abbrev ItemCodec (α : Type) := RecordCodec ObservationEnvelopeError Unit α

def itemStep {α : Type} (valid : α → Bool) (_ : Unit) (item : α) : Option Unit :=
  if valid item then some () else none

def f32At (chunk : List UInt8) (offset : ℕ) : F32 := .ofBits (ofBigEndian (bytesAt chunk offset 4))

/-- One record of `decode_normals`. -/
def decodeNormal (index : ℕ) (chunk : List UInt8) :
    Except ObservationEnvelopeError (Option (Vector F32 3)) :=
  match chunk.getD 0 0 with
  | 0 => if (chunk.drop 1).any (· ≠ 0) then .error .nonCanonicalEncoding else .ok none
  | 1 =>
    let value := #v[f32At chunk 1, f32At chunk 5, f32At chunk 9]
    if validNormal value then .ok (some value) else .error (invalidValue .normal index)
  | _ => .error .nonCanonicalEncoding

def encodeNormal : Option (Vector F32 3) → List UInt8
  | none => List.replicate 13 0
  | some value =>
    1 :: (bigEndian 4 value[0].toBits ++ (bigEndian 4 value[1].toBits ++
      bigEndian 4 value[2].toBits))

/-- One record of `decode_entity_ids`. -/
def decodeEntityId (index : ℕ) (chunk : List UInt8) :
    Except ObservationEnvelopeError (Option StableEntityId) :=
  match chunk.getD 0 0 with
  | 0 => if (chunk.drop 1).any (· ≠ 0) then .error .nonCanonicalEncoding else .ok none
  | 1 =>
    match OpaqueId.new? (ofBigEndian (bytesAt chunk 1 16)) with
    | none => .error (invalidValue .entityId index)
    | some entityId => .ok (some entityId)
  | _ => .error .nonCanonicalEncoding

def encodeEntityId : Option StableEntityId → List UInt8
  | none => List.replicate 17 0
  | some entityId => 1 :: bigEndian 16 entityId.get

/-- One record of `decode_visibility`. -/
def decodeVisibilityEntry (index : ℕ) (state : VisibilityState) (chunk : List UInt8) :
    Except ObservationEnvelopeError (EntityVisibility × VisibilityState) :=
  match OpaqueId.new? (ofBigEndian (bytesAt chunk 0 16)) with
  | none => .error (invalidValue .visibility index)
  | some entityId => do
    let entry : EntityVisibility := ⟨entityId, .ofNat (ofBigEndian (bytesAt chunk 16 8))⟩
    let state ← state.next index entry
    .ok (entry, state)

def encodeVisibilityEntry (entry : EntityVisibility) : List UInt8 :=
  bigEndian 16 entry.entityId.get ++ bigEndian 8 entry.visiblePixels.toNat

section

theorem toBits_lt_256 (value : F32) : value.toBits < 256 ^ 4 := value.toBits_lt

theorem f32At_of_bytesAt {chunk : List UInt8} {offset : ℕ} {value : F32}
    (h : bytesAt chunk offset 4 = bigEndian 4 value.toBits) : f32At chunk offset = value := by
  rw [f32At, h, ofBigEndian_bigEndian (toBits_lt_256 value), Binary.ofBits_toBits]

theorem bigEndian_f32At {chunk : List UInt8} {offset : ℕ} (h : offset + 4 ≤ chunk.length) :
    bigEndian 4 (f32At chunk offset).toBits = bytesAt chunk offset 4 := by
  have hlength : (bytesAt chunk offset 4).length = 4 := length_bytesAt h
  have hlt := ofBigEndian_lt (bytesAt chunk offset 4)
  rw [hlength] at hlt
  rw [f32At, Binary.toBits_ofBits hlt, bigEndian_ofBigEndian hlength]

theorem bigEndian_bytesAt {chunk : List UInt8} {offset width : ℕ}
    (h : offset + width ≤ chunk.length) :
    bigEndian width (ofBigEndian (bytesAt chunk offset width)) = bytesAt chunk offset width :=
  bigEndian_ofBigEndian (length_bytesAt h)

theorem eq_cons_of_getD {chunk : List UInt8} {marker : UInt8} (h : 0 < chunk.length)
    (hmarker : chunk.getD 0 0 = marker) : chunk = marker :: chunk.drop 1 := by
  obtain ⟨first, rest, rfl⟩ := List.exists_cons_of_length_pos h
  cases hmarker
  rfl

theorem eq_replicate_of_getD {chunk : List UInt8} {width : ℕ} (h : chunk.length = width + 1)
    (hmarker : chunk.getD 0 0 = 0) (hzero : ¬(chunk.drop 1).any (· ≠ 0)) :
    List.replicate (width + 1) 0 = chunk := by
  rw [eq_cons_of_getD (by omega) hmarker, List.replicate_succ]
  congr 1
  symm
  rw [List.eq_replicate_iff]
  refine ⟨by rw [List.length_drop]; omega, fun byte hbyte => ?_⟩
  by_contra hne
  exact hzero (List.any_eq_true.mpr ⟨byte, hbyte, decide_eq_true hne⟩)

theorem itemStep_eq_some {α : Type} {valid : α → Bool} {item : α} {s s' : Unit} :
    itemStep valid s item = some s' ↔ valid item = true := by
  rw [itemStep]
  cases valid item <;> simp

end

/-! #### Colors -/

/-- `decode_color`. -/
def colorCodec : ItemCodec (Vector UInt8 4) where
  width := 4
  width_pos := by decide
  encode pixel := pixel.toList
  decode _ _ chunk := .ok (.ofFn fun i => chunk.getD i 0, ())
  step := itemStep fun _ => true
  length_encode pixel := Vector.length_toList
  decode_encode := by
    intro index s s' pixel h
    refine congrArg (fun pixel => Except.ok (pixel, s')) (Vector.ext fun i hi => ?_)
    rw [Vector.getElem_ofFn, List.getD_eq_getElem?_getD, Vector.getElem?_toList,
      Vector.getElem?_eq_getElem hi]
    rfl
  encode_decode := by
    intro index s s' pixel chunk hlength h
    cases h
    refine ⟨List.ext_getElem (by rw [Vector.length_toList, hlength]) fun i hi hi' => ?_, rfl⟩
    rw [Vector.getElem_toList, Vector.getElem_ofFn, List.getD_eq_getElem?_getD,
      List.getElem?_eq_getElem hi']
    rfl

/-! #### Depths -/

/-- `decode_depth`. -/
def depthCodec : ItemCodec F32 where
  width := 4
  width_pos := by decide
  encode value := bigEndian 4 value.toBits
  decode index _ chunk :=
    let value := f32At chunk 0
    if validDepth value then .ok (value, ()) else .error (invalidValue .depth index)
  step := itemStep validDepth
  length_encode _ := length_bigEndian ..
  decode_encode := by
    intro index s s' value h
    have hread : f32At (bigEndian 4 value.toBits) 0 = value :=
      f32At_of_bytesAt (List.take_of_length_le (Nat.le_of_eq (length_bigEndian ..)))
    rw [hread]
    exact if_pos (itemStep_eq_some.mp h)
  encode_decode := by
    intro index s s' value chunk hlength h
    dsimp only at h
    split at h
    · rename_i hvalid
      cases h
      refine ⟨?_, itemStep_eq_some.mpr hvalid⟩
      rw [bigEndian_f32At (by omega)]
      exact List.take_of_length_le (Nat.le_of_eq hlength)
    · cases h

/-! #### Normals -/

theorem length_encodeNormal (value : Option (Vector F32 3)) : (encodeNormal value).length = 13 := by
  cases value with
  | none => rfl
  | some value => simp [encodeNormal]

theorem decodeNormal_encodeNormal {value : Option (Vector F32 3)} (index : ℕ)
    (h : value.all validNormal) : decodeNormal index (encodeNormal value) = .ok value := by
  cases value with
  | none => rfl
  | some value =>
    have hdrop : (encodeNormal (some value)).drop 1 = bigEndian 4 value[0].toBits ++
        (bigEndian 4 value[1].toBits ++ bigEndian 4 value[2].toBits) := rfl
    obtain ⟨hx, hdrop⟩ := bytesAt_of_drop hdrop (length_bigEndian ..) (rfl : 1 + 4 = 5)
    obtain ⟨hy, hdrop⟩ := bytesAt_of_drop hdrop (length_bigEndian ..) (rfl : 5 + 4 = 9)
    rw [← List.append_nil (bigEndian 4 value[2].toBits)] at hdrop
    obtain ⟨hz, -⟩ := bytesAt_of_drop hdrop (length_bigEndian ..) (rfl : 9 + 4 = 13)
    have hvalue : #v[f32At (encodeNormal (some value)) 1, f32At (encodeNormal (some value)) 5,
        f32At (encodeNormal (some value)) 9] = value := by
      rw [f32At_of_bytesAt hx, f32At_of_bytesAt hy, f32At_of_bytesAt hz]
      refine Vector.ext fun i hi => ?_
      match i, hi with
      | 0, _ => rfl
      | 1, _ => rfl
      | 2, _ => rfl
    have hmarker : (encodeNormal (some value)).getD 0 0 = 1 := rfl
    unfold decodeNormal
    rw [hmarker]
    dsimp only
    rw [hvalue]
    exact if_pos h

theorem encodeNormal_of_decodeNormal {index : ℕ} {chunk : List UInt8}
    {value : Option (Vector F32 3)} (hlength : chunk.length = 13)
    (h : decodeNormal index chunk = .ok value) :
    encodeNormal value = chunk ∧ value.all validNormal = true := by
  unfold decodeNormal at h
  split at h
  · rename_i hmarker
    split at h
    · cases h
    · rename_i hzero
      cases h
      exact ⟨eq_replicate_of_getD hlength hmarker hzero, rfl⟩
  · rename_i hmarker
    dsimp only at h
    split at h
    · rename_i hvalid
      cases h
      refine ⟨?_, hvalid⟩
      have hrest := bytesAt_append_drop chunk 9 4 rfl
      rw [List.drop_eq_nil_of_le (Nat.le_of_eq hlength), List.append_nil] at hrest
      have hall : bytesAt chunk 1 4 ++ (bytesAt chunk 5 4 ++ bytesAt chunk 9 4) = chunk.drop 1 := by
        rw [hrest, bytesAt_append_drop chunk 5 4 rfl, bytesAt_append_drop chunk 1 4 rfl]
      calc encodeNormal (some #v[f32At chunk 1, f32At chunk 5, f32At chunk 9])
          = 1 :: (bigEndian 4 (f32At chunk 1).toBits ++ (bigEndian 4 (f32At chunk 5).toBits ++
              bigEndian 4 (f32At chunk 9).toBits)) := rfl
        _ = 1 :: chunk.drop 1 := by
          rw [bigEndian_f32At (by omega), bigEndian_f32At (by omega), bigEndian_f32At (by omega),
            hall]
        _ = chunk := (eq_cons_of_getD (by omega) hmarker).symm
    · cases h
  · cases h

/-- `decode_normals`. -/
def normalCodec : ItemCodec (Option (Vector F32 3)) where
  width := 13
  width_pos := by decide
  encode := encodeNormal
  decode index _ chunk := do
    let value ← decodeNormal index chunk
    .ok (value, ())
  step := itemStep fun value => value.all validNormal
  length_encode := length_encodeNormal
  decode_encode := by
    intro index s s' value h
    rw [decodeNormal_encodeNormal index (itemStep_eq_some.mp h)]
    rfl
  encode_decode := by
    intro index s s' value chunk hlength h
    obtain ⟨read, hread, h⟩ := Exec.bind_eq_ok.mp h
    cases h
    obtain ⟨hencode, hvalid⟩ := encodeNormal_of_decodeNormal hlength hread
    exact ⟨hencode, itemStep_eq_some.mpr hvalid⟩

/-! #### Entities -/

theorem entityId_lt_256 (id : StableEntityId) : id.get < 256 ^ 16 := id.lt

theorem length_encodeEntityId (value : Option StableEntityId) :
    (encodeEntityId value).length = 17 := by
  cases value with
  | none => rfl
  | some id => rw [encodeEntityId, List.length_cons, length_bigEndian]

theorem decodeEntityId_encodeEntityId (index : ℕ) (value : Option StableEntityId) :
    decodeEntityId index (encodeEntityId value) = .ok value := by
  cases value with
  | none => rfl
  | some id =>
    have hmarker : (encodeEntityId (some id)).getD 0 0 = 1 := rfl
    have hid : bytesAt (encodeEntityId (some id)) 1 16 = bigEndian 16 id.get :=
      List.take_of_length_le (Nat.le_of_eq (length_bigEndian ..))
    unfold decodeEntityId
    rw [hmarker, hid, ofBigEndian_bigEndian (entityId_lt_256 id), OpaqueId.new?_eq_some.mpr rfl]
    rfl

theorem encodeEntityId_of_decodeEntityId {index : ℕ} {chunk : List UInt8}
    {value : Option StableEntityId} (hlength : chunk.length = 17)
    (h : decodeEntityId index chunk = .ok value) : encodeEntityId value = chunk := by
  unfold decodeEntityId at h
  split at h
  · rename_i hmarker
    split at h
    · cases h
    · rename_i hzero
      cases h
      exact eq_replicate_of_getD hlength hmarker hzero
  · rename_i hmarker
    split at h
    · cases h
    · rename_i id hid
      cases h
      have hrest := bytesAt_append_drop chunk 1 16 rfl
      rw [List.drop_eq_nil_of_le (Nat.le_of_eq hlength), List.append_nil] at hrest
      rw [encodeEntityId, OpaqueId.new?_eq_some.mp hid, bigEndian_bytesAt (by omega), hrest,
        ← eq_cons_of_getD (by omega) hmarker]
  · cases h

/-- `decode_entity_ids`. -/
def entityIdCodec : ItemCodec (Option StableEntityId) where
  width := 17
  width_pos := by decide
  encode := encodeEntityId
  decode index _ chunk := do
    let value ← decodeEntityId index chunk
    .ok (value, ())
  step := itemStep fun _ => true
  length_encode := length_encodeEntityId
  decode_encode := by
    intro index s s' value h
    rw [decodeEntityId_encodeEntityId]
    rfl
  encode_decode := by
    intro index s s' value chunk hlength h
    obtain ⟨read, hread, h⟩ := Exec.bind_eq_ok.mp h
    cases h
    exact ⟨encodeEntityId_of_decodeEntityId hlength hread, rfl⟩

/-! #### Visibility -/

theorem VisibilityState.next_congr {state next : VisibilityState} {index : ℕ}
    {entry : EntityVisibility} (h : state.next index entry = .ok next) (other : ℕ) :
    state.next other entry = .ok next := by
  rw [VisibilityState.next] at h ⊢
  split_ifs at h ⊢ with hbad
  · exact h

/-- `decode_visibility`. -/
def visibilityCodec :
    RecordCodec ObservationEnvelopeError VisibilityState EntityVisibility where
  width := 24
  width_pos := by decide
  encode := encodeVisibilityEntry
  decode := decodeVisibilityEntry
  step state entry := (state.next 0 entry).toOption
  length_encode entry := by
    rw [encodeVisibilityEntry, List.length_append, length_bigEndian, length_bigEndian]
  decode_encode := by
    intro index state state' entry h
    have hnext : state.next index entry = .ok state' := by
      cases hzero : state.next 0 entry with
      | error e =>
        rw [hzero] at h
        cases h
      | ok next =>
        rw [hzero] at h
        cases h
        exact VisibilityState.next_congr hzero index
    have hdrop : (encodeVisibilityEntry entry).drop 0 = bigEndian 16 entry.entityId.get ++
      (bigEndian 8 entry.visiblePixels.toNat ++ []) := by rw [List.append_nil]; rfl
    obtain ⟨hid, hdrop⟩ := bytesAt_of_drop hdrop (length_bigEndian ..) (rfl : 0 + 16 = 16)
    obtain ⟨hpixels, -⟩ := bytesAt_of_drop hdrop (length_bigEndian ..) (rfl : 16 + 8 = 24)
    have hentry : (⟨entry.entityId, .ofNat entry.visiblePixels.toNat⟩ : EntityVisibility) =
        entry := by rw [UInt64.ofNat_toNat]
    rw [decodeVisibilityEntry, hid, hpixels, ofBigEndian_bigEndian (entityId_lt_256 _),
      ofBigEndian_bigEndian entry.visiblePixels.toNat_lt, OpaqueId.new?_eq_some.mpr rfl]
    dsimp only
    rw [hentry, hnext]
    rfl
  encode_decode := by
    intro index state state' entry chunk hlength h
    rw [decodeVisibilityEntry] at h
    split at h
    · cases h
    · rename_i id hid
      obtain ⟨next, hnext, h⟩ := Exec.bind_eq_ok.mp h
      cases h
      have hlt : ofBigEndian (bytesAt chunk 16 8) < 2 ^ 64 := by
        have hlt := ofBigEndian_lt (bytesAt chunk 16 8)
        rwa [length_bytesAt (by omega)] at hlt
      have hrest := bytesAt_append_drop chunk 16 8 rfl
      rw [List.drop_eq_nil_of_le (Nat.le_of_eq hlength), List.append_nil] at hrest
      refine ⟨?_, by rw [VisibilityState.next_congr hnext 0]; rfl⟩
      rw [encodeVisibilityEntry, OpaqueId.new?_eq_some.mp hid, UInt64.toNat_ofNat',
        Nat.mod_eq_of_lt hlt, bigEndian_bytesAt (by omega), bigEndian_bytesAt (by omega), hrest,
        bytesAt_append_drop chunk 0 16 rfl]
      rfl

/-! ### Payloads -/

structure EnvelopeExternals where
  sha256 : List UInt8 → Digest
  metadataJson : Serde ObservationMetadata
  reservesBytes : ℕ → Bool
  reservesItems : ObservationKind → ℕ → Bool

def appendPayload : ObservationPayload → List UInt8
  | .color pixels => colorCodec.encodeAll pixels
  | .depth values => depthCodec.encodeAll values
  | .normal values => normalCodec.encodeAll values
  | .entityId values => entityIdCodec.encodeAll values
  | .visibility entries => visibilityCodec.encodeAll entries

theorem length_appendPayload (payload : ObservationPayload) :
    (appendPayload payload).length = payload.length * payload.kind.itemBytes := by
  cases payload <;> exact RecordCodec.length_encodeAll _

section

variable (ext : EnvelopeExternals)

def reservedVec (kind : ObservationKind) (itemCount : ℕ) : Except ObservationEnvelopeError Unit :=
  if ext.reservesItems kind itemCount then .ok () else .error .allocationFailed

/-- The items of each kind: `decode_color` and its siblings after memory is reserved. -/
def decodeItems (limits : RuntimeLimits) (payload : List UInt8) :
    ObservationKind → Except ObservationEnvelopeError ObservationPayload
  | .color => do
    let (values, _) ← colorCodec.decodeAll () payload
    .ok (.color values)
  | .depth => do
    let (values, _) ← depthCodec.decodeAll () payload
    .ok (.depth values)
  | .normal => do
    let (values, _) ← normalCodec.decodeAll () payload
    .ok (.normal values)
  | .entityId => do
    let (values, _) ← entityIdCodec.decodeAll () payload
    .ok (.entityId values)
  | .visibility => do
    let (values, state) ← visibilityCodec.decodeAll .initial payload
    enforceVisiblePixels state limits
    .ok (.visibility values)

def decodeValues (kind : ObservationKind) (itemCount : ℕ) (payload : List UInt8)
    (limits : RuntimeLimits) : Except ObservationEnvelopeError ObservationPayload := do
  reservedVec ext kind itemCount
  decodeItems limits payload kind

def canonicalMetadata (metadata : ObservationMetadata) (limits : RuntimeLimits) :
    Except ObservationEnvelopeError (List UInt8) :=
  (encode ext.metadataJson ObservationMetadata.validate metadata limits).mapError
    fun _ => .invalidMetadata

def integrityDigest (header metadata payload : List UInt8) : List UInt8 :=
  (ext.sha256 (header ++ (metadata ++ payload))).toList

end

def validateCount (metadata : ObservationMetadata) (kind : ObservationKind) (itemCount : ℕ)
    (runtimeLimits : RuntimeLimits) (payloadLimits : ObservationPayloadLimits) :
    Except ObservationEnvelopeError Unit :=
  if kind = .visibility then
    let limit := payloadLimits.maxVisibilityEntries.get
    if limit < itemCount then .error (.visibilityEntryLimitExceeded itemCount limit) else .ok ()
  else
    match metadata.dimensions with
    | none => .error .invalidMetadata
    | some dimensions =>
      let expected := dimensions.pixelCount
      if itemCount ≠ expected then .error (.itemCountMismatch expected itemCount)
      else if runtimeLimits.maxObservationPixels.get < itemCount then
        .error (.itemCountMismatch runtimeLimits.maxObservationPixels.get itemCount)
      else .ok ()

def encodedPayloadBytes (kind : ObservationKind) (itemCount : ℕ) :
    Except ObservationEnvelopeError ℕ :=
  if itemCount * kind.itemBytes < 2 ^ 64 then .ok (itemCount * kind.itemBytes)
  else .error .sizeOverflow

def totalEnvelopeBytes (payloadBytes : ℕ) : Except ObservationEnvelopeError ℕ :=
  if envelopeHeaderBytes + payloadBytes < 2 ^ 64 then .ok (envelopeHeaderBytes + payloadBytes)
  else .error .sizeOverflow

def enforceEnvelopeLimit (actual : ℕ) (limits : ObservationPayloadLimits) :
    Except ObservationEnvelopeError Unit :=
  if limits.maxEnvelopeBytes.get < actual then
    .error (.envelopeLimitExceeded actual limits.maxEnvelopeBytes.get)
  else .ok ()

/-- `append_header_prefix`. -/
def headerPrefix (kind : ObservationKind) (itemCount payloadBytes : ℕ) : List UInt8 :=
  magic ++ (bigEndian 2 envelopeVersion ++ ([kind.encodeKind] ++ ([0] ++
    (bigEndian 8 itemCount ++ bigEndian 8 payloadBytes))))

section

variable (ext : EnvelopeExternals) (metadata : ObservationMetadata)
  (runtimeLimits : RuntimeLimits) (payloadLimits : ObservationPayloadLimits)

def encodePayload (payload : ObservationPayload) :
    Except ObservationEnvelopeError (List UInt8) := do
  let metadataJson ← canonicalMetadata ext metadata runtimeLimits
  let kind := payload.kind
  if metadata.kind ≠ kind then .error (.kindMismatch metadata.kind kind)
  else do
    let itemCount := payload.itemCount
    validateCount metadata kind itemCount runtimeLimits payloadLimits
    validateValues runtimeLimits payload
    let payloadBytes ← encodedPayloadBytes kind itemCount
    let envelopeBytes ← totalEnvelopeBytes payloadBytes
    enforceEnvelopeLimit envelopeBytes payloadLimits
    if !ext.reservesBytes envelopeBytes then .error .allocationFailed
    else
      let header := headerPrefix kind itemCount payloadBytes
      let values := appendPayload payload
      .ok (header ++ (integrityDigest ext header metadataJson values ++ values))

/-- The checks of `decode_payload` that look at the envelope alone, and what its header says: the
kind and the number of items. -/
def decodeHeader (encoded : List UInt8) :
    Except ObservationEnvelopeError (ObservationKind × ℕ) := do
  let actualBytes := count64 encoded.length
  enforceEnvelopeLimit actualBytes payloadLimits
  if actualBytes < envelopeHeaderBytes then .error (.truncated envelopeHeaderBytes actualBytes)
  else if bytesAt encoded 0 magic.length ≠ magic then .error .invalidMagic
  else
    let version := ofBigEndian (bytesAt encoded versionOffset 2)
    if version ≠ envelopeVersion then .error (.unsupportedVersion version)
    else do
      let kind ← ObservationKind.decodeKind (encoded.getD kindOffset 0)
      if encoded.getD reservedOffset 0 ≠ 0 then .error .nonCanonicalEncoding
      else do
        let itemCount := ofBigEndian (bytesAt encoded countOffset 8)
        let payloadBytes := ofBigEndian (bytesAt encoded lengthOffset 8)
        let expectedTotal ← totalEnvelopeBytes payloadBytes
        if actualBytes < expectedTotal then .error (.truncated expectedTotal actualBytes)
        else if expectedTotal < actualBytes then .error (.trailingBytes expectedTotal actualBytes)
        else do
          let requiredPayloadBytes ← encodedPayloadBytes kind itemCount
          if payloadBytes ≠ requiredPayloadBytes then
            .error (.payloadLengthMismatch requiredPayloadBytes payloadBytes)
          else .ok (kind, itemCount)

def decodePayload (encoded : List UInt8) : Except ObservationEnvelopeError ObservationPayload := do
  let (kind, itemCount) ← decodeHeader payloadLimits encoded
  let metadataJson ← canonicalMetadata ext metadata runtimeLimits
  if metadata.kind ≠ kind then .error (.kindMismatch metadata.kind kind)
  else do
    validateCount metadata kind itemCount runtimeLimits payloadLimits
    let payload := encoded.drop envelopeHeaderBytes
    let digest := integrityDigest ext (encoded.take digestOffset) metadataJson payload
    if digest ≠ bytesAt encoded digestOffset 32 then .error .integrityMismatch
    else do
      let decoded ← decodeValues ext kind itemCount payload runtimeLimits
      validateValues runtimeLimits decoded
      .ok decoded

end

/-! ### Values that are read -/

section

variable {ext : EnvelopeExternals} {metadata : ObservationMetadata}
  {runtimeLimits : RuntimeLimits} {payloadLimits : ObservationPayloadLimits}
  {payload : ObservationPayload}

theorem validateEach_eq_ok {α : Type} {kind : ObservationKind} {valid : α → Bool} {index : ℕ}
    {values : List α} :
    validateEach kind valid index values = .ok () ↔ ∀ value ∈ values, valid value = true := by
  induction values generalizing index with
  | nil => simp [validateEach]
  | cons value values ih =>
    rw [validateEach, List.forall_mem_cons]
    split
    · rename_i hvalid
      rw [ih, and_iff_right hvalid]
    · rename_i hvalid
      exact iff_of_false (by simp) fun h => hvalid h.1

theorem foldlM_itemStep {α : Type} {valid : α → Bool} {items : List α} {s s' : Unit} :
    items.foldlM (itemStep valid) s = some s' ↔ ∀ item ∈ items, valid item = true := by
  induction items with
  | nil => simp
  | cons item items ih =>
    rw [List.foldlM_cons, List.forall_mem_cons, ← ih, ← @itemStep_eq_some _ _ _ s (),
      Option.bind_eq_bind, Option.bind_eq_some_iff]
    exact ⟨fun ⟨_, hstep, hrest⟩ => ⟨hstep, hrest⟩, fun ⟨hstep, hrest⟩ => ⟨(), hstep, hrest⟩⟩

theorem validateVisibility_eq_ok {index : ℕ} {state last : VisibilityState}
    {entries : List EntityVisibility} :
    validateVisibility index state entries = .ok last ↔
      entries.foldlM visibilityCodec.step state = some last := by
  induction entries generalizing index state with
  | nil => simp [validateVisibility]
  | cons entry entries ih =>
    rw [validateVisibility, Exec.bind_eq_ok, List.foldlM_cons, Option.bind_eq_bind,
      Option.bind_eq_some_iff]
    refine exists_congr fun next => and_congr ⟨fun h => ?_, fun h => ?_⟩ ih
    · show (state.next 0 entry).toOption = some next
      rw [VisibilityState.next_congr h 0]
      rfl
    · replace h : (state.next 0 entry).toOption = some next := h
      cases hzero : state.next 0 entry with
      | error e =>
        rw [hzero] at h
        cases h
      | ok next' =>
        rw [hzero] at h
        cases h
        exact VisibilityState.next_congr hzero index

theorem decodeAll_bind_eq_ok {α : Type} {codec : ItemCodec α} {valid : α → Bool}
    (hstep : codec.step = itemStep valid) {make : List α → ObservationPayload} {count : ℕ}
    {bytes : List UInt8} (hlength : bytes.length = count * codec.width) :
    (do
      let (values, _) ← codec.decodeAll () bytes
      .ok (make values) : Except ObservationEnvelopeError ObservationPayload) = .ok payload ↔
      ∃ values, make values = payload ∧ codec.encodeAll values = bytes ∧
        ∀ value ∈ values, valid value = true := by
  rw [Exec.bind_eq_ok]
  constructor
  · rintro ⟨⟨values, s⟩, hread, h⟩
    cases h
    obtain ⟨hbytes, hfold⟩ := (RecordCodec.decodeAll_eq_ok hlength).mp hread
    rw [hstep] at hfold
    exact ⟨values, rfl, hbytes, foldlM_itemStep.mp hfold⟩
  · rintro ⟨values, rfl, hbytes, hvalid⟩
    refine ⟨(values, ()), (RecordCodec.decodeAll_eq_ok hlength).mpr ⟨hbytes, ?_⟩, rfl⟩
    rw [hstep]
    exact foldlM_itemStep.mpr hvalid

theorem decodeItems_eq_ok {kind : ObservationKind} {count : ℕ} {bytes : List UInt8}
    (hlength : bytes.length = count * kind.itemBytes) :
    decodeItems runtimeLimits bytes kind = .ok payload ↔
      payload.kind = kind ∧ appendPayload payload = bytes ∧
        validateValues runtimeLimits payload = .ok () := by
  cases kind with
  | color =>
    have hstep : colorCodec.step = itemStep fun _ => true := rfl
    rw [decodeItems, decodeAll_bind_eq_ok hstep hlength]
    constructor
    · rintro ⟨values, rfl, hbytes, -⟩
      exact ⟨rfl, hbytes, rfl⟩
    · rintro ⟨hkind, hbytes, -⟩
      cases payload <;> cases hkind
      exact ⟨_, rfl, hbytes, fun _ _ => rfl⟩
  | depth =>
    rw [decodeItems, decodeAll_bind_eq_ok rfl hlength]
    constructor
    · rintro ⟨values, rfl, hbytes, hvalid⟩
      exact ⟨rfl, hbytes, validateEach_eq_ok.mpr hvalid⟩
    · rintro ⟨hkind, hbytes, hvalid⟩
      cases payload <;> cases hkind
      exact ⟨_, rfl, hbytes, validateEach_eq_ok.mp hvalid⟩
  | normal =>
    rw [decodeItems, decodeAll_bind_eq_ok rfl hlength]
    constructor
    · rintro ⟨values, rfl, hbytes, hvalid⟩
      exact ⟨rfl, hbytes, validateEach_eq_ok.mpr hvalid⟩
    · rintro ⟨hkind, hbytes, hvalid⟩
      cases payload <;> cases hkind
      exact ⟨_, rfl, hbytes, validateEach_eq_ok.mp hvalid⟩
  | entityId =>
    have hstep : entityIdCodec.step = itemStep fun _ => true := rfl
    rw [decodeItems, decodeAll_bind_eq_ok hstep hlength]
    constructor
    · rintro ⟨values, rfl, hbytes, -⟩
      exact ⟨rfl, hbytes, rfl⟩
    · rintro ⟨hkind, hbytes, -⟩
      cases payload <;> cases hkind
      exact ⟨_, rfl, hbytes, fun _ _ => rfl⟩
  | visibility =>
    rw [decodeItems, Exec.bind_eq_ok]
    constructor
    · rintro ⟨⟨entries, state⟩, hread, h⟩
      obtain ⟨⟨⟩, hlimit, h⟩ := Exec.bind_eq_ok.mp h
      cases h
      obtain ⟨hbytes, hfold⟩ := (RecordCodec.decodeAll_eq_ok hlength).mp hread
      exact ⟨rfl, hbytes,
        Exec.bind_eq_ok.mpr ⟨state, validateVisibility_eq_ok.mpr hfold, hlimit⟩⟩
    · rintro ⟨hkind, hbytes, hvalid⟩
      cases payload <;> cases hkind
      obtain ⟨state, hstate, hlimit⟩ := Exec.bind_eq_ok.mp hvalid
      refine ⟨(_, state), (RecordCodec.decodeAll_eq_ok hlength).mpr
        ⟨hbytes, validateVisibility_eq_ok.mp hstate⟩, ?_⟩
      exact Exec.bind_eq_ok.mpr ⟨(), hlimit, rfl⟩

theorem decodeValues_appendPayload (h : validateValues runtimeLimits payload = .ok ())
    (itemCount : ℕ) :
    decodeValues ext payload.kind itemCount (appendPayload payload) runtimeLimits =
      if ext.reservesItems payload.kind itemCount then .ok payload
      else .error .allocationFailed := by
  rw [decodeValues, reservedVec]
  cases ext.reservesItems payload.kind itemCount with
  | false => rfl
  | true => exact (decodeItems_eq_ok (length_appendPayload payload)).mpr ⟨rfl, rfl, h⟩

theorem length_headerPrefix (kind : ObservationKind) (itemCount payloadBytes : ℕ) :
    (headerPrefix kind itemCount payloadBytes).length = digestOffset := by
  simp only [headerPrefix, List.length_append, length_bigEndian, List.length_singleton]
  rfl

theorem length_lt_of_validateCount {kind : ObservationKind} {n : ℕ}
    (h : validateCount metadata kind (count64 n) runtimeLimits payloadLimits = .ok ()) :
    n < 2 ^ 64 := by
  rw [validateCount] at h
  split at h
  · dsimp only at h
    split at h
    · cases h
    rename_i hlimit
    have hlt := payloadLimits.maxVisibilityEntries.lt
    rw [count64] at hlimit
    omega
  · cases hdimensions : metadata.dimensions with
    | none =>
      rw [hdimensions] at h
      cases h
    | some dimensions =>
      rw [hdimensions] at h
      dsimp only at h
      split_ifs at h with hcount
      have hpixels : dimensions.pixelCount ≤ (2 ^ 32 - 1) * (2 ^ 32 - 1) :=
        Nat.mul_le_mul (Nat.le_sub_one_of_lt dimensions.width.lt)
          (Nat.le_sub_one_of_lt dimensions.height.lt)
      rw [not_not, count64] at hcount
      omega

theorem bytesAt_headerPrefix (kind : ObservationKind) (itemCount payloadBytes : ℕ) :
    bytesAt (headerPrefix kind itemCount payloadBytes) 0 magic.length = magic ∧
      bytesAt (headerPrefix kind itemCount payloadBytes) versionOffset 2 =
        bigEndian 2 envelopeVersion ∧
      bytesAt (headerPrefix kind itemCount payloadBytes) kindOffset 1 = [kind.encodeKind] ∧
      bytesAt (headerPrefix kind itemCount payloadBytes) reservedOffset 1 = [0] ∧
      bytesAt (headerPrefix kind itemCount payloadBytes) countOffset 8 = bigEndian 8 itemCount ∧
      bytesAt (headerPrefix kind itemCount payloadBytes) lengthOffset 8 =
        bigEndian 8 payloadBytes := by
  have hdrop : (headerPrefix kind itemCount payloadBytes).drop 0 = magic ++
      (bigEndian 2 envelopeVersion ++ ([kind.encodeKind] ++ ([0] ++ (bigEndian 8 itemCount ++
        (bigEndian 8 payloadBytes ++ []))))) := by
    rw [List.append_nil]
    rfl
  obtain ⟨hmagic, hdrop⟩ := bytesAt_of_drop hdrop rfl (rfl : _ = versionOffset)
  obtain ⟨hversion, hdrop⟩ := bytesAt_of_drop hdrop (length_bigEndian ..) (rfl : _ = kindOffset)
  obtain ⟨hkind, hdrop⟩ := bytesAt_of_drop hdrop rfl (rfl : _ = reservedOffset)
  obtain ⟨hreserved, hdrop⟩ := bytesAt_of_drop hdrop rfl (rfl : _ = countOffset)
  obtain ⟨hcount, hdrop⟩ := bytesAt_of_drop hdrop (length_bigEndian ..) (rfl : _ = lengthOffset)
  obtain ⟨hlength, -⟩ := bytesAt_of_drop hdrop (length_bigEndian ..) (rfl : _ = digestOffset)
  exact ⟨hmagic, hversion, hkind, hreserved, hcount, hlength⟩

theorem take_eq_headerPrefix {encoded : List UInt8} {kind : ObservationKind}
    (hlength : envelopeHeaderBytes ≤ encoded.length)
    (hmagic : bytesAt encoded 0 magic.length = magic)
    (hversion : ofBigEndian (bytesAt encoded versionOffset 2) = envelopeVersion)
    (hkind : kind.encodeKind = encoded.getD kindOffset 0)
    (hreserved : encoded.getD reservedOffset 0 = 0) :
    encoded.take digestOffset = headerPrefix kind (ofBigEndian (bytesAt encoded countOffset 8))
      (ofBigEndian (bytesAt encoded lengthOffset 8)) := by
  have hfits {offset width : ℕ} (h : offset + width ≤ envelopeHeaderBytes) :
      offset + width ≤ encoded.length := h.trans hlength
  have hversion' : bytesAt encoded versionOffset 2 = bigEndian 2 envelopeVersion := by
    rw [← hversion, bigEndian_bytesAt (hfits (by decide))]
  have hkind' : bytesAt encoded kindOffset 1 = [kind.encodeKind] := by
    rw [bytesAt_one (hfits (by decide : kindOffset + 1 ≤ _)), hkind]
  have hreserved' : bytesAt encoded reservedOffset 1 = [0] := by
    rw [bytesAt_one (hfits (by decide : reservedOffset + 1 ≤ _)), hreserved]
  have htake {offset width : ℕ} (h : offset + width ≤ digestOffset) :
      bytesAt (encoded.take digestOffset) offset width = bytesAt encoded offset width :=
    bytesAt_take h
  -- the last field ends where the digest starts
  have hlast := bytesAt_append_drop (encoded.take digestOffset) lengthOffset 8
    (rfl : _ = digestOffset)
  rw [List.drop_eq_nil_of_le (List.length_take_le ..), List.append_nil, htake (by decide)] at hlast
  rw [headerPrefix, bigEndian_bytesAt (hfits (by decide)), bigEndian_bytesAt (hfits (by decide)),
    hlast, ← htake (by decide), bytesAt_append_drop _ countOffset 8 (rfl : _ = lengthOffset),
    ← hreserved', ← htake (by decide),
    bytesAt_append_drop _ reservedOffset 1 (rfl : _ = countOffset), ← hkind',
    ← htake (by decide), bytesAt_append_drop _ kindOffset 1 (rfl : _ = reservedOffset),
    ← hversion', ← htake (by decide),
    bytesAt_append_drop _ versionOffset 2 (rfl : _ = kindOffset)]
  nth_rewrite 1 [← hmagic]
  rw [← htake (by decide), bytesAt_append_drop _ 0 magic.length (rfl : _ = versionOffset),
    List.drop_zero]

/-- **What the checks of the header leave**: the header of so many items, a digest and as many bytes
as the items take. A length that is clipped is not that of an envelope. -/
theorem decodeHeader_eq_ok {encoded : List UInt8} {kind : ObservationKind} {itemCount : ℕ} :
    decodeHeader payloadLimits encoded = .ok (kind, itemCount) ↔
      encoded.take digestOffset = headerPrefix kind itemCount (itemCount * kind.itemBytes) ∧
        encoded.length = envelopeHeaderBytes + itemCount * kind.itemBytes ∧
        encoded.length ≤ payloadLimits.maxEnvelopeBytes.get := by
  have hheader : envelopeHeaderBytes = 60 := rfl
  have hmax := payloadLimits.maxEnvelopeBytes.lt
  constructor
  · intro h
    simp only [decodeHeader, enforceEnvelopeLimit, totalEnvelopeBytes, encodedPayloadBytes,
      Exec.bind_eq_ok, Exec.check_eq_ok] at h
    obtain ⟨⟨⟩, ⟨hlimit, -⟩, htruncated, hmagic, hversion, kind', hkind, hreserved, total, htotal,
      hshort, hlong, required, hrequired, hpayload, h⟩ := h
    split at htotal
    on_goal 2 => cases htotal
    cases htotal
    split at hrequired
    on_goal 2 => cases hrequired
    cases hrequired
    cases h
    rw [not_not] at hmagic hversion hreserved hpayload
    rw [hpayload] at hshort hlong
    rw [ObservationKind.decodeKind_eq_ok] at hkind
    -- no item size divides what a clipped length would leave for the items
    have hexact : encoded.length =
        envelopeHeaderBytes + ofBigEndian (bytesAt encoded countOffset 8) * kind.itemBytes := by
      rw [count64] at hshort hlong hlimit
      cases kind <;> simp only [ObservationKind.itemBytes] at hshort hlong ⊢ <;> omega
    refine ⟨?_, hexact, ?_⟩
    · rw [take_eq_headerPrefix (by omega) hmagic hversion hkind hreserved, hpayload]
    · rw [count64] at hlimit
      omega
  · rintro ⟨htake, hlength, hlimit⟩
    have hbytes : itemCount * kind.itemBytes < 2 ^ 64 := by omega
    have hcount : itemCount < 2 ^ 64 :=
      Nat.lt_of_le_of_lt (Nat.le_mul_of_pos_right _ kind.itemBytes_pos) hbytes
    have hactual : count64 encoded.length = encoded.length := by
      rw [count64]
      omega
    obtain ⟨hmagic, hversion, hkind, hreserved, hitems, hpayload⟩ :=
      bytesAt_headerPrefix kind itemCount (itemCount * kind.itemBytes)
    rw [← htake] at hmagic hversion hkind hreserved hitems hpayload
    rw [bytesAt_take (by decide)] at hmagic hversion hkind hreserved hitems hpayload
    rw [bytesAt_one (by rw [show kindOffset = 10 from rfl]; omega)] at hkind
    rw [bytesAt_one (by rw [show reservedOffset = 11 from rfl]; omega)] at hreserved
    have hkind' : ObservationKind.decodeKind (encoded.getD kindOffset 0) = .ok kind :=
      ObservationKind.decodeKind_eq_ok.mpr (List.singleton_inj.mp hkind).symm
    have hitems' : ofBigEndian (bigEndian 8 itemCount) = itemCount := ofBigEndian_bigEndian hcount
    have hpayload' : ofBigEndian (bigEndian 8 (itemCount * kind.itemBytes)) =
        itemCount * kind.itemBytes := ofBigEndian_bigEndian hbytes
    simp only [decodeHeader, enforceEnvelopeLimit, totalEnvelopeBytes, encodedPayloadBytes,
      Exec.bind_eq_ok, Exec.check_eq_ok, hactual, hmagic, hversion, hkind',
      List.singleton_inj.mp hreserved, hitems, hpayload, hitems', hpayload']
    refine ⟨(), ⟨Nat.not_lt.mpr hlimit, trivial⟩, by omega, not_not.mpr rfl, by decide, kind, rfl,
      not_not.mpr rfl, _, if_pos (by omega), by omega, by omega, _, if_pos hbytes, not_not.mpr rfl,
      rfl⟩

/-! ### The envelope of a payload -/

def payloadHeader (payload : ObservationPayload) : List UInt8 :=
  headerPrefix payload.kind payload.length (payload.length * payload.kind.itemBytes)

def envelope (ext : EnvelopeExternals) (metadataJson : List UInt8) (payload : ObservationPayload) :
    List UInt8 :=
  payloadHeader payload ++
    (integrityDigest ext (payloadHeader payload) metadataJson (appendPayload payload) ++
      appendPayload payload)

structure Admissible (ext : EnvelopeExternals) (metadata : ObservationMetadata)
    (runtimeLimits : RuntimeLimits) (payloadLimits : ObservationPayloadLimits)
    (metadataJson : List UInt8) (payload : ObservationPayload) : Prop where
  canonical : canonicalMetadata ext metadata runtimeLimits = .ok metadataJson
  kind_eq : metadata.kind = payload.kind
  count : validateCount metadata payload.kind payload.length runtimeLimits payloadLimits = .ok ()
  values : validateValues runtimeLimits payload = .ok ()
  length_le : envelopeHeaderBytes + payload.length * payload.kind.itemBytes ≤
    payloadLimits.maxEnvelopeBytes.get

theorem length_integrityDigest (header metadataJson values : List UInt8) :
    (integrityDigest ext header metadataJson values).length = 32 := Vector.length_toList

theorem length_envelope (metadataJson : List UInt8) (payload : ObservationPayload) :
    (envelope ext metadataJson payload).length =
      envelopeHeaderBytes + payload.length * payload.kind.itemBytes := by
  rw [envelope, payloadHeader, List.length_append, List.length_append, length_headerPrefix,
    length_integrityDigest, length_appendPayload, envelopeHeaderBytes, Nat.add_assoc]

theorem envelope_parts (metadataJson : List UInt8) (payload : ObservationPayload) :
    (envelope ext metadataJson payload).take digestOffset = payloadHeader payload ∧
      bytesAt (envelope ext metadataJson payload) digestOffset 32 =
        integrityDigest ext (payloadHeader payload) metadataJson (appendPayload payload) ∧
      (envelope ext metadataJson payload).drop envelopeHeaderBytes = appendPayload payload := by
  have hheader : (payloadHeader payload).length = digestOffset := length_headerPrefix ..
  obtain ⟨hdigest, hvalues⟩ := bytesAt_of_drop (List.drop_left' hheader)
    (length_integrityDigest ..) (rfl : _ = envelopeHeaderBytes)
  exact ⟨List.take_left' hheader, hdigest, hvalues⟩

namespace Admissible

variable {metadataJson : List UInt8}

theorem length_lt (h : Admissible ext metadata runtimeLimits payloadLimits metadataJson payload) :
    payload.length < 2 ^ 64 := by
  have hle := h.length_le
  have hlt := payloadLimits.maxEnvelopeBytes.lt
  have hmul := Nat.le_mul_of_pos_right payload.length payload.kind.itemBytes_pos
  omega

theorem itemCount_eq
    (h : Admissible ext metadata runtimeLimits payloadLimits metadataJson payload) :
    payload.itemCount = payload.length := by
  have hlt := h.length_lt
  rw [itemCount, count64]
  omega

theorem encodedPayloadBytes_eq
    (h : Admissible ext metadata runtimeLimits payloadLimits metadataJson payload) :
    encodedPayloadBytes payload.kind payload.length =
      .ok (payload.length * payload.kind.itemBytes) := by
  have hle := h.length_le
  have hlt := payloadLimits.maxEnvelopeBytes.lt
  exact if_pos (by omega)

theorem totalEnvelopeBytes_eq
    (h : Admissible ext metadata runtimeLimits payloadLimits metadataJson payload) :
    totalEnvelopeBytes (payload.length * payload.kind.itemBytes) =
      .ok (envelopeHeaderBytes + payload.length * payload.kind.itemBytes) := by
  have hle := h.length_le
  have hlt := payloadLimits.maxEnvelopeBytes.lt
  exact if_pos (by omega)

theorem encodePayload_eq
    (h : Admissible ext metadata runtimeLimits payloadLimits metadataJson payload) :
    encodePayload ext metadata runtimeLimits payloadLimits payload =
      if ext.reservesBytes (envelope ext metadataJson payload).length then
        .ok (envelope ext metadataJson payload)
      else .error .allocationFailed := by
  have hlimit : enforceEnvelopeLimit (envelopeHeaderBytes +
      payload.length * payload.kind.itemBytes) payloadLimits = .ok () :=
    if_neg (Nat.not_lt.mpr h.length_le)
  rw [encodePayload, h.canonical]
  show (if _ then _ else _) = _
  rw [if_neg (not_not.mpr h.kind_eq), h.itemCount_eq, h.count, h.values,
    h.encodedPayloadBytes_eq, length_envelope]
  show (do let envelopeBytes ← totalEnvelopeBytes _; _) = _
  rw [h.totalEnvelopeBytes_eq]
  show (do enforceEnvelopeLimit _ payloadLimits; _) = _
  rw [hlimit]
  cases ext.reservesBytes (envelopeHeaderBytes + payload.length * payload.kind.itemBytes) <;> rfl

theorem decodePayload_eq
    (h : Admissible ext metadata runtimeLimits payloadLimits metadataJson payload) :
    decodePayload ext metadata runtimeLimits payloadLimits (envelope ext metadataJson payload) =
      if ext.reservesItems payload.kind payload.length then .ok payload
      else .error .allocationFailed := by
  obtain ⟨hheader, hdigest, hvalues⟩ := @envelope_parts ext metadataJson payload
  have hread : decodeHeader payloadLimits (envelope ext metadataJson payload) =
      .ok (payload.kind, payload.length) :=
    decodeHeader_eq_ok.mpr ⟨hheader, length_envelope .., by
      rw [length_envelope]
      exact h.length_le⟩
  rw [decodePayload, hread, hheader, hdigest, hvalues]
  show (do let metadataJson ← canonicalMetadata ext metadata runtimeLimits; _) = _
  rw [h.canonical]
  show (if _ then _ else _) = _
  rw [if_neg (not_not.mpr h.kind_eq), h.count]
  show (if _ then _ else _) = _
  rw [if_neg (not_not.mpr rfl), decodeValues_appendPayload h.values]
  cases ext.reservesItems payload.kind payload.length with
  | false => rfl
  | true =>
    show (do validateValues runtimeLimits payload; _) = _
    rw [h.values]
    rfl

theorem of_encodePayload {encoded : List UInt8}
    (h : encodePayload ext metadata runtimeLimits payloadLimits payload = .ok encoded) :
    ∃ metadataJson, Admissible ext metadata runtimeLimits payloadLimits metadataJson payload ∧
      encoded = envelope ext metadataJson payload := by
  simp only [encodePayload, Exec.bind_eq_ok, Exec.check_eq_ok] at h
  obtain ⟨metadataJson, hcanonical, hkind, ⟨⟩, hcount, ⟨⟩, hvalues, bytes, hbytes, total, htotal,
    ⟨⟩, hlimit, -, h⟩ := h
  have hlength : payload.itemCount = payload.length := by
    have := length_lt_of_validateCount hcount
    rw [itemCount, count64]
    omega
  rw [hlength] at hcount hbytes h
  rw [encodedPayloadBytes] at hbytes
  split at hbytes
  on_goal 2 => cases hbytes
  cases hbytes
  rw [totalEnvelopeBytes] at htotal
  split at htotal
  on_goal 2 => cases htotal
  cases htotal
  rw [enforceEnvelopeLimit, Exec.check_eq_ok, Nat.not_lt] at hlimit
  cases h
  exact ⟨metadataJson, ⟨hcanonical, not_not.mp hkind, hcount, hvalues, hlimit.1⟩, rfl⟩

theorem of_decodePayload {encoded : List UInt8}
    (h : decodePayload ext metadata runtimeLimits payloadLimits encoded = .ok payload) :
    ∃ metadataJson, Admissible ext metadata runtimeLimits payloadLimits metadataJson payload ∧
      encoded = envelope ext metadataJson payload := by
  simp only [decodePayload, Exec.bind_eq_ok, Exec.check_eq_ok] at h
  obtain ⟨⟨kind, itemCount⟩, hread, metadataJson, hcanonical, hkind, ⟨⟩, hcount, hdigest, decoded,
    hdecoded, ⟨⟩, hvalues, h⟩ := h
  cases h
  obtain ⟨hheader, hlength, hlimit⟩ := decodeHeader_eq_ok.mp hread
  have hitems : (encoded.drop envelopeHeaderBytes).length = itemCount * kind.itemBytes := by
    rw [List.length_drop]
    omega
  obtain ⟨⟨⟩, -, hdecoded⟩ := Exec.bind_eq_ok.mp hdecoded
  obtain ⟨rfl, hbytes, -⟩ := (decodeItems_eq_ok hitems).mp hdecoded
  -- the items are as many as the header says
  have hnumber : itemCount = payload.length := by
    rw [← hbytes, length_appendPayload] at hitems
    exact (Nat.mul_right_cancel payload.kind.itemBytes_pos hitems).symm
  subst hnumber
  refine ⟨metadataJson, ⟨hcanonical, not_not.mp hkind, hcount, hvalues, hlength ▸ hlimit⟩, ?_⟩
  rw [not_not, hheader, ← hbytes] at hdigest
  rw [envelope, payloadHeader, hdigest, hbytes, ← hheader,
    bytesAt_append_drop encoded digestOffset 32 (rfl : _ = envelopeHeaderBytes),
    List.take_append_drop]

end Admissible

def digested (encoded metadataJson : List UInt8) : List UInt8 :=
  encoded.take digestOffset ++ (metadataJson ++ encoded.drop envelopeHeaderBytes)

theorem sha256_digested {encoded : List UInt8}
    (h : decodePayload ext metadata runtimeLimits payloadLimits encoded = .ok payload) :
    ∃ metadataJson, canonicalMetadata ext metadata runtimeLimits = .ok metadataJson ∧
      (ext.sha256 (digested encoded metadataJson)).toList = bytesAt encoded digestOffset 32 := by
  obtain ⟨metadataJson, hadmissible, rfl⟩ := Admissible.of_decodePayload h
  obtain ⟨hheader, hdigest, hvalues⟩ := @envelope_parts ext metadataJson payload
  refine ⟨metadataJson, hadmissible.canonical, ?_⟩
  rw [digested, hheader, hvalues, hdigest]
  rfl

/-- **Payload envelopes are canonical.** What is written is read back and what is read was written
so, whenever there is memory for it, and the length is known beforehand. Two metadata under which
one envelope is read have the same canonical bytes, if SHA-256 does not collide on them. -/
theorem payload_canonical (ext : EnvelopeExternals) (metadata : ObservationMetadata)
    (runtimeLimits : RuntimeLimits) (payloadLimits : ObservationPayloadLimits) :
    (∀ payload encoded,
      encodePayload ext metadata runtimeLimits payloadLimits payload = .ok encoded →
      decodePayload ext metadata runtimeLimits payloadLimits encoded =
        if ext.reservesItems payload.kind payload.itemCount then .ok payload
        else .error .allocationFailed) ∧
    (∀ encoded payload,
      decodePayload ext metadata runtimeLimits payloadLimits encoded = .ok payload →
      encodePayload ext metadata runtimeLimits payloadLimits payload =
        if ext.reservesBytes encoded.length then .ok encoded else .error .allocationFailed) ∧
    (∀ payload encoded,
      encodePayload ext metadata runtimeLimits payloadLimits payload = .ok encoded →
      (encodedPayloadBytes payload.kind payload.itemCount).bind totalEnvelopeBytes =
        .ok encoded.length) ∧
    ∀ metadata' runtimeLimits' payloadLimits' encoded payload payload',
      decodePayload ext metadata runtimeLimits payloadLimits encoded = .ok payload →
      decodePayload ext metadata' runtimeLimits' payloadLimits' encoded = .ok payload' →
      ∃ metadataJson metadataJson',
        canonicalMetadata ext metadata runtimeLimits = .ok metadataJson ∧
        canonicalMetadata ext metadata' runtimeLimits' = .ok metadataJson' ∧
        ((ext.sha256 (digested encoded metadataJson) = ext.sha256 (digested encoded metadataJson') →
          digested encoded metadataJson = digested encoded metadataJson') →
          metadataJson = metadataJson') := by
  refine ⟨?_, ?_, ?_, ?_⟩
  · intro payload encoded h
    obtain ⟨metadataJson, hadmissible, rfl⟩ := Admissible.of_encodePayload h
    rw [hadmissible.decodePayload_eq, hadmissible.itemCount_eq]
  · intro encoded payload h
    obtain ⟨metadataJson, hadmissible, rfl⟩ := Admissible.of_decodePayload h
    exact hadmissible.encodePayload_eq
  · intro payload encoded h
    obtain ⟨metadataJson, hadmissible, rfl⟩ := Admissible.of_encodePayload h
    rw [length_envelope, hadmissible.itemCount_eq, hadmissible.encodedPayloadBytes_eq]
    exact hadmissible.totalEnvelopeBytes_eq
  · intro metadata' runtimeLimits' payloadLimits' encoded payload payload' h h'
    obtain ⟨metadataJson, hcanonical, hdigest⟩ := sha256_digested h
    obtain ⟨metadataJson', hcanonical', hdigest'⟩ := sha256_digested h'
    refine ⟨metadataJson, metadataJson', hcanonical, hcanonical', fun hsha => ?_⟩
    have hinput := hsha (Vector.toList_inj.mp (hdigest.trans hdigest'.symm))
    exact List.append_cancel_right (List.append_cancel_left hinput)

end

def normalPayload : ObservationPayload := .normal [none, some #v[.zero, .zero, .ofNat 1]]

def normalMetadata : ObservationMetadata where
  schemaVersion := .v1
  observationId := .lit 1
  sceneRevision := .initial
  frameId := .lit 1
  cameraId := .lit 1
  kind := .normal
  dimensions := some ⟨.lit 2, .lit 1⟩
  quality := .low
  observedAtUnixMicros := 0
  productionLatencyMicros := 0
  staleness := ⟨.initial, 0⟩

/-- A digest that is the end of what was hashed, the JSON of one metadata value, and memory without
end. -/
def normalExternals : EnvelopeExternals where
  sha256 bytes := .ofFn fun i => bytes.reverse.getD i 0
  metadataJson := .single ObservationMetadata.serialize normalMetadata
  reservesBytes _ := true
  reservesItems _ _ := true

theorem payload_canonical_sample :
    ∃ encoded,
      encodePayload normalExternals normalMetadata .default .default normalPayload = .ok encoded ∧
      encoded.length = 86 ∧
      decodePayload normalExternals normalMetadata .default .default encoded =
        .ok normalPayload := by
  obtain ⟨hread, -, hlength, -⟩ :=
    payload_canonical normalExternals normalMetadata .default .default
  obtain ⟨encoded, hencoded, -⟩ := Exec.exists_ok_of_any (p := fun _ => true)
    (x := encodePayload normalExternals normalMetadata .default .default normalPayload)
    (by decide +kernel)
  refine ⟨encoded, hencoded, ?_, hread _ _ hencoded⟩
  exact (Except.ok.inj ((hlength _ _ hencoded).symm.trans (by decide : _ = Except.ok 86)))

end PayloadEnvelope

end Cogniform
