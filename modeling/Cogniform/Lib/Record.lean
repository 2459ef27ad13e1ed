import Cogniform.Lib.Bytes

/-!
# Records of fixed width

Items written one after another, each in the same number of bytes, and read one at a time, with a
state along the way. If reading one record inverts writing one item, reading all records inverts
writing all items, and what is read is all there is.
-/

namespace Cogniform

def chunks {α : Type} (width : ℕ) : ℕ → List α → List (List α)
  | 0, _ => []
  | n + 1, bytes => bytes.take width :: chunks width n (bytes.drop width)

/-- `chunks_exact`: the records of a byte string, without what is left over. -/
def chunksExact {α : Type} (width : ℕ) (bytes : List α) : List (List α) :=
  chunks width (bytes.length / width) bytes

section

variable {α : Type} {width : ℕ}

theorem flatten_chunks {n : ℕ} {bytes : List α} (h : bytes.length = n * width) :
    (chunks width n bytes).flatten = bytes := by
  induction n generalizing bytes with
  | zero =>
    rw [Nat.zero_mul] at h
    exact (List.eq_nil_of_length_eq_zero h).symm
  | succ n ih =>
    rw [Nat.succ_mul] at h
    rw [chunks, List.flatten_cons, ih (by rw [List.length_drop]; omega), List.take_append_drop]

theorem length_of_mem_chunks {n : ℕ} {bytes : List α} (h : bytes.length = n * width) :
    ∀ chunk ∈ chunks width n bytes, chunk.length = width := by
  induction n generalizing bytes with
  | zero => exact fun chunk hchunk => absurd hchunk List.not_mem_nil
  | succ n ih =>
    rw [Nat.succ_mul] at h
    intro chunk hchunk
    rcases List.mem_cons.mp hchunk with rfl | hchunk
    · rw [List.length_take]
      omega
    · exact ih (by rw [List.length_drop]; omega) chunk hchunk

theorem chunks_flatten {records : List (List α)} (h : ∀ record ∈ records, record.length = width) :
    chunks width records.length records.flatten = records := by
  induction records with
  | nil => rfl
  | cons record records ih =>
    have hrecord := h record (List.mem_cons_self ..)
    rw [List.length_cons, chunks, List.flatten_cons, List.take_left' hrecord,
      List.drop_left' hrecord, ih fun other hother => h other (List.mem_cons_of_mem _ hother)]

theorem length_flatten_records {records : List (List α)}
    (h : ∀ record ∈ records, record.length = width) :
    records.flatten.length = records.length * width := by
  induction records with
  | nil => rw [List.flatten_nil, List.length_nil, List.length_nil, Nat.zero_mul]
  | cons record records ih =>
    rw [List.flatten_cons, List.length_append, List.length_cons, Nat.succ_mul,
      h record (List.mem_cons_self ..),
      ih fun other hother => h other (List.mem_cons_of_mem _ hother), Nat.add_comm]

end

/-- How one item is written and read. The reader knows the index of the record and the state after
those before it. -/
structure RecordCodec (ε σ α : Type) where
  width : ℕ
  width_pos : 0 < width
  encode : α → List UInt8
  decode : ℕ → σ → List UInt8 → Except ε (α × σ)
  step : σ → α → Option σ
  length_encode (a : α) : (encode a).length = width
  decode_encode {index : ℕ} {s s' : σ} {a : α} :
    step s a = some s' → decode index s (encode a) = .ok (a, s')
  encode_decode {index : ℕ} {s s' : σ} {a : α} {record : List UInt8} :
    record.length = width → decode index s record = .ok (a, s') →
      encode a = record ∧ step s a = some s'

namespace RecordCodec

variable {ε σ α : Type} (codec : RecordCodec ε σ α)

def encodeAll (items : List α) : List UInt8 := items.flatMap codec.encode

def decodeFrom : ℕ → σ → List (List UInt8) → Except ε (List α × σ)
  | _, s, [] => .ok ([], s)
  | index, s, record :: records => do
    let (a, s) ← codec.decode index s record
    let (items, s) ← decodeFrom (index + 1) s records
    .ok (a :: items, s)

def decodeAll (s : σ) (bytes : List UInt8) : Except ε (List α × σ) :=
  codec.decodeFrom 0 s (chunksExact codec.width bytes)

variable {codec}

theorem length_encodeAll (items : List α) :
    (codec.encodeAll items).length = items.length * codec.width := by
  rw [encodeAll, List.flatMap_def, length_flatten_records, List.length_map]
  simpa using fun a _ => codec.length_encode a

theorem decodeFrom_map_encode {index : ℕ} {s s' : σ} {items : List α}
    (h : items.foldlM codec.step s = some s') :
    codec.decodeFrom index s (items.map codec.encode) = .ok (items, s') := by
  induction items generalizing index s with
  | nil =>
    cases h
    rfl
  | cons a items ih =>
    rw [List.foldlM_cons, Option.bind_eq_bind, Option.bind_eq_some_iff] at h
    obtain ⟨next, hnext, h⟩ := h
    rw [List.map_cons, decodeFrom, codec.decode_encode hnext]
    show (codec.decodeFrom (index + 1) next (items.map codec.encode)).bind _ = _
    rw [ih h]
    rfl

theorem map_encode_of_decodeFrom {index : ℕ} {s s' : σ} {records : List (List UInt8)}
    {items : List α} (hwidth : ∀ record ∈ records, record.length = codec.width)
    (h : codec.decodeFrom index s records = .ok (items, s')) :
    items.map codec.encode = records ∧ items.foldlM codec.step s = some s' := by
  induction records generalizing index s items with
  | nil =>
    cases h
    exact ⟨rfl, rfl⟩
  | cons record records ih =>
    rw [decodeFrom] at h
    cases hread : codec.decode index s record with
    | error e =>
      rw [hread] at h
      cases h
    | ok read =>
      obtain ⟨a, next⟩ := read
      rw [hread] at h
      replace h : (codec.decodeFrom (index + 1) next records).bind _ = _ := h
      cases hrest : codec.decodeFrom (index + 1) next records with
      | error e =>
        rw [hrest] at h
        cases h
      | ok rest =>
        obtain ⟨rest, last⟩ := rest
        rw [hrest] at h
        cases h
        obtain ⟨hencode, hstep⟩ :=
          codec.encode_decode (hwidth record (List.mem_cons_self ..)) hread
        obtain ⟨hmap, hfold⟩ :=
          ih (fun other hother => hwidth other (List.mem_cons_of_mem _ hother)) hrest
        refine ⟨congrArg₂ List.cons hencode hmap, ?_⟩
        rw [List.foldlM_cons, hstep]
        exact hfold

/-- **All records are read exactly if they are the items, written**, and every item is valid after
those before it. -/
theorem decodeAll_eq_ok {s s' : σ} {count : ℕ} {bytes : List UInt8} {items : List α}
    (hlength : bytes.length = count * codec.width) :
    codec.decodeAll s bytes = .ok (items, s') ↔
      codec.encodeAll items = bytes ∧ items.foldlM codec.step s = some s' := by
  rw [decodeAll, chunksExact, hlength, Nat.mul_div_cancel _ codec.width_pos]
  constructor
  · intro h
    obtain ⟨hmap, hfold⟩ := map_encode_of_decodeFrom (length_of_mem_chunks hlength) h
    refine ⟨?_, hfold⟩
    rw [encodeAll, List.flatMap_def, hmap, flatten_chunks hlength]
  · rintro ⟨rfl, hfold⟩
    have hcount : count = (items.map codec.encode).length := by
      rw [length_encodeAll] at hlength
      rw [List.length_map]
      exact (Nat.mul_right_cancel codec.width_pos hlength).symm
    have hwidth : ∀ record ∈ items.map codec.encode, record.length = codec.width := by
      simpa using fun a _ => codec.length_encode a
    rw [hcount, encodeAll, List.flatMap_def, chunks_flatten hwidth]
    exact decodeFrom_map_encode hfold

end RecordCodec

end Cogniform
