import Cogniform.Protocol.Codec

/-!
# Canonical lines

Compilation results and session messages are exchanged in exactly one form: what is accepted is what
the encoder writes, byte for byte. The encoder writes into a buffer of bounded size; the decoder
bounds its input first, and compares it with its own encoding at the end. The two codecs of the
source differ in their error types only.
-/

namespace Cogniform

structure SerdeWriter (α : Type) where
  toWriter : α → List (List UInt8) × Bool
  fromSlice : List UInt8 → Except JsonError α

def SerdeWriter.Writes {α : Type} (serde : SerdeWriter α) (value : α) (json : Json) : Prop :=
  (serde.toWriter value).2 = true ∧ (serde.toWriter value).1.flatten = json.write

def SerdeWriter.Line {α : Type} (serde : SerdeWriter α) (value : α) (line : List UInt8) : Prop :=
  (serde.toWriter value).2 = true ∧ line = (serde.toWriter value).1.flatten ++ [10]

def SerdeWriter.single {α : Type} [DecidableEq α] (known : α) (text : List UInt8) :
    SerdeWriter α where
  toWriter value := ([text], value = known)
  fromSlice line := if line = text ++ [10] then .ok known else .error ⟨.syntaxError, 1, 1⟩

/-- Write pieces into a buffer with a limit. A piece that does not fit ends it; the error is the size
that would have been reached. Sizes fit 64 bits, and memory within the limit can be had. -/
def boundedWrite (limit : ℕ) : List UInt8 → List (List UInt8) → Except ℕ (List UInt8)
  | written, [] => .ok written
  | written, piece :: pieces =>
    if limit < written.length + piece.length then .error (written.length + piece.length)
    else boundedWrite limit (written ++ piece) pieces

theorem boundedWrite_eq_ok {limit : ℕ} {pieces : List (List UInt8)} {bytes : List UInt8} :
    ∀ {written : List UInt8}, written.length ≤ limit →
      (boundedWrite limit written pieces = .ok bytes ↔
        bytes = written ++ pieces.flatten ∧ bytes.length ≤ limit) := by
  induction pieces with
  | nil =>
    intro written hwritten
    rw [boundedWrite, Except.ok.injEq, List.flatten_nil, List.append_nil]
    exact ⟨fun h => ⟨h.symm, h ▸ hwritten⟩, fun h => h.1.symm⟩
  | cons piece pieces ih =>
    intro written hwritten
    rw [boundedWrite]
    split
    · rename_i hfull
      refine iff_of_false (by simp) ?_
      rintro ⟨rfl, hfits⟩
      simp only [List.flatten_cons, List.length_append] at hfits
      omega
    · rename_i hfits
      rw [ih (by rw [List.length_append]; omega), List.flatten_cons, List.append_assoc]

structure LineErrors (ε : Type) where
  sizeExceeded : ℕ → ℕ → ε
  nestingExceeded : ℕ → ℕ → ε
  malformedJson : JsonError → ε
  nonCanonical : ε
  serializationFailed : ε

namespace LineErrors

variable {α ε : Type} (errors : LineErrors ε) (serde : SerdeWriter α)

def enforceSize (actual limit : ℕ) : Except ε Unit :=
  if limit < actual then .error (errors.sizeExceeded actual limit) else .ok ()

def writeLine (value : α) (limit : ℕ) : Except ε (List UInt8) :=
  match boundedWrite (limit - 1) [] (serde.toWriter value).1 with
  | .error actual => .error (errors.sizeExceeded (actual + 1) (limit - 1 + 1))
  | .ok bytes =>
    if (serde.toWriter value).2 then do
      errors.enforceSize (bytes.length + 1) limit
      .ok (bytes ++ [10])
    else .error errors.serializationFailed

def parseLine (encoded : List UInt8) : Except ε α :=
  (serde.fromSlice encoded).mapError errors.malformedJson

variable {errors serde}

theorem enforceSize_eq_ok {actual limit : ℕ} :
    errors.enforceSize actual limit = .ok () ↔ actual ≤ limit := by
  rw [enforceSize]
  split
  · exact iff_of_false (by simp) (by omega)
  · exact iff_of_true rfl (by omega)

theorem writeLine_error {value : α} {limit : ℕ} {error : ε}
    (h : errors.writeLine serde value limit = .error error) :
    (∃ actual bound, error = errors.sizeExceeded actual bound) ∨
      error = errors.serializationFailed := by
  rw [writeLine] at h
  split at h
  · cases h
    exact .inl ⟨_, _, rfl⟩
  split at h
  · rcases Exec.bind_eq_error.mp h with hsize | ⟨_, -, hend⟩
    · rw [enforceSize] at hsize
      split at hsize
      · cases hsize
        exact .inl ⟨_, _, rfl⟩
      · cases hsize
    · cases hend
  · cases h
    exact .inr rfl

theorem writeLine_eq_ok {value : α} {limit : ℕ} {encoded : List UInt8} :
    errors.writeLine serde value limit = .ok encoded ↔
      (serde.toWriter value).2 = true ∧ encoded = (serde.toWriter value).1.flatten ++ [10] ∧
        encoded.length ≤ limit := by
  rw [writeLine]
  cases hwrite : boundedWrite (limit - 1) [] (serde.toWriter value).1 with
  | error actual =>
    refine iff_of_false (by simp) ?_
    rintro ⟨-, rfl, hfits⟩
    rw [List.length_append, List.length_singleton] at hfits
    have hok : boundedWrite (limit - 1) [] (serde.toWriter value).1 =
        .ok (serde.toWriter value).1.flatten :=
      (boundedWrite_eq_ok (Nat.zero_le _)).mpr ⟨rfl, by omega⟩
    rw [hwrite] at hok
    cases hok
  | ok bytes =>
    obtain ⟨rfl, hbytes⟩ := (boundedWrite_eq_ok (Nat.zero_le _)).mp hwrite
    rw [List.nil_append] at hbytes ⊢
    dsimp only
    split
    · rename_i hcomplete
      rw [Exec.bind_eq_ok]
      constructor
      · rintro ⟨⟨⟩, hsize, heq⟩
        cases heq
        exact ⟨hcomplete, rfl, by simpa using enforceSize_eq_ok.mp hsize⟩
      · rintro ⟨-, rfl, hsize⟩
        exact ⟨(), enforceSize_eq_ok.mpr (by simpa using hsize), rfl⟩
    · rename_i hincomplete
      exact iff_of_false (by simp) fun h => hincomplete h.1

theorem writeLine_eq_ok_iff_length {value : α} {json : Json} (h : serde.Writes value json)
    {limit : ℕ} {encoded : List UInt8} :
    errors.writeLine serde value limit = .ok encoded ↔
      encoded = json.write ++ [10] ∧ json.write.length + 1 ≤ limit := by
  rw [writeLine_eq_ok, h.2]
  constructor
  · rintro ⟨-, rfl, hsize⟩
    exact ⟨rfl, by simpa using hsize⟩
  · rintro ⟨rfl, hsize⟩
    exact ⟨h.1, rfl, by simpa using hsize⟩

end LineErrors

end Cogniform
