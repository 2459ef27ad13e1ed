import Mathlib.Data.Nat.Notation
import Mathlib.Data.List.Basic

/-!
# Byte streams behind short reads

A reader hands out a stream in pieces of its own choosing: one call may return fewer bytes than
asked for, may be interrupted, or may fail. A loop that fills a buffer from it has to give the same
result for every way the stream is cut; so has a loop that hands a buffer to a writer. A reader is
the list of what its next calls do.
-/

namespace Cogniform

variable {κ : Type}

inductive ReadEvent (κ : Type) where
  | chunk (bytes : List UInt8)
  | interrupted
  | failed (kind : κ)

abbrev Reader (κ : Type) := List (ReadEvent κ)

inductive Fill (κ : Type) where
  | full (bytes : List UInt8)
  | ended (bytes : List UInt8)
  | failed (kind : κ)

namespace Reader

/-- Call the reader until `n` more bytes are in the buffer. -/
def fill : Reader κ → ℕ → List UInt8 → Reader κ × Fill κ
  | reader, 0, buffer => (reader, .full buffer)
  | [], _ + 1, buffer => ([], .ended buffer)
  | .chunk bytes :: rest, n + 1, buffer =>
    if bytes = [] then (rest, .ended buffer)
    else if n + 1 < bytes.length then
      (.chunk (bytes.drop (n + 1)) :: rest, .full (buffer ++ bytes.take (n + 1)))
    else fill rest (n + 1 - bytes.length) (buffer ++ bytes)
  | .interrupted :: rest, n + 1, buffer => fill rest (n + 1) buffer
  | .failed kind :: rest, _ + 1, _ => (rest, .failed kind)

@[simp] theorem fill_zero (reader : Reader κ) (buffer : List UInt8) :
    reader.fill 0 buffer = (reader, .full buffer) := by
  cases reader <;> rfl

def stream : Reader κ → List UInt8
  | [] => []
  | .chunk bytes :: rest => bytes ++ stream rest
  | .interrupted :: rest => stream rest
  | .failed _ :: rest => stream rest

/-- A reader that gives what it holds: some calls are interrupted, the others give at least one
byte. -/
inductive Steady : Reader κ → Prop where
  | nil : Steady []
  | chunk {bytes : List UInt8} {rest : Reader κ} (nonempty : bytes ≠ []) (steady : Steady rest) :
      Steady (.chunk bytes :: rest)
  | interrupted {rest : Reader κ} (steady : Steady rest) : Steady (.interrupted :: rest)

theorem fill_full {reader : Reader κ} (h : Steady reader) :
    ∀ {n : ℕ} (buffer : List UInt8), n ≤ reader.stream.length →
      ∃ rest, reader.fill n buffer = (rest, .full (buffer ++ reader.stream.take n)) ∧
        Steady rest ∧ rest.stream = reader.stream.drop n := by
  induction h with
  | nil =>
    intro n buffer hn
    obtain rfl : n = 0 := Nat.le_zero.mp hn
    exact ⟨[], by simp, .nil, rfl⟩
  | @chunk bytes rest nonempty steady ih =>
    intro n buffer hn
    cases n with
    | zero => exact ⟨.chunk bytes :: rest, by simp, .chunk nonempty steady, rfl⟩
    | succ n =>
      rw [fill, if_neg nonempty]
      simp only [stream, List.length_append] at hn
      by_cases hlong : n + 1 < bytes.length
      · rw [if_pos hlong]
        have hle := Nat.le_of_lt hlong
        refine ⟨.chunk (bytes.drop (n + 1)) :: rest, ?_, ?_, ?_⟩
        · rw [stream, List.take_append_of_le_length hle]
        · refine .chunk (fun hnil => ?_) steady
          have := congrArg List.length hnil
          simp only [List.length_drop, List.length_nil] at this
          omega
        · rw [stream, stream, List.drop_append_of_le_length hle]
      · rw [if_neg hlong]
        obtain ⟨rest', hfill, hsteady, hstream⟩ :=
          ih (buffer ++ bytes) (n := n + 1 - bytes.length) (by omega)
        refine ⟨rest', ?_, hsteady, ?_⟩
        · rw [hfill, stream, List.take_append, List.take_of_length_le (Nat.not_lt.mp hlong),
            List.append_assoc]
        · rw [hstream, stream, List.drop_append, List.drop_of_length_le (Nat.not_lt.mp hlong),
            List.nil_append]
  | interrupted steady ih =>
    intro n buffer hn
    cases n with
    | zero => exact ⟨_, by simp, .interrupted steady, rfl⟩
    | succ n => exact ih buffer hn

theorem fill_ended {reader : Reader κ} (h : Steady reader) :
    ∀ {n : ℕ} (buffer : List UInt8), reader.stream.length < n →
      ∃ rest, reader.fill n buffer = (rest, .ended (buffer ++ reader.stream)) ∧
        Steady rest ∧ rest.stream = [] := by
  induction h with
  | nil =>
    intro n buffer hn
    obtain ⟨n, rfl⟩ := Nat.exists_eq_succ_of_ne_zero (Nat.ne_zero_of_lt hn)
    exact ⟨[], by simp [fill, stream], .nil, rfl⟩
  | @chunk bytes rest nonempty steady ih =>
    intro n buffer hn
    obtain ⟨n, rfl⟩ := Nat.exists_eq_succ_of_ne_zero (Nat.ne_zero_of_lt hn)
    simp only [stream, List.length_append] at hn
    obtain ⟨rest', hfill, hsteady, hstream⟩ :=
      ih (buffer ++ bytes) (n := n + 1 - bytes.length) (by omega)
    refine ⟨rest', ?_, hsteady, hstream⟩
    rw [fill, if_neg nonempty, if_neg (by omega), hfill, stream, List.append_assoc]
  | interrupted steady ih =>
    intro n buffer hn
    obtain ⟨n, rfl⟩ := Nat.exists_eq_succ_of_ne_zero (Nat.ne_zero_of_lt hn)
    exact ih buffer hn

end Reader

inductive WriteEvent (κ : Type) where
  | takes (count : ℕ)
  | interrupted
  | failed (kind : κ)

inductive Written (κ : Type) where
  | done
  | zero
  | failed (kind : κ)

/-- Hand out a buffer until all of it is taken. The first component is what was taken. A writer that
is not called again stops taking. -/
def Writer.writeAll : List (WriteEvent κ) → List UInt8 → List UInt8 × Written κ
  | _, [] => ([], .done)
  | [], _ :: _ => ([], .zero)
  | .takes count :: rest, byte :: bytes =>
    if count = 0 then ([], .zero)
    else
      let (taken, outcome) := writeAll rest ((byte :: bytes).drop count)
      ((byte :: bytes).take count ++ taken, outcome)
  | .interrupted :: rest, bytes => writeAll rest bytes
  | .failed kind :: _, _ :: _ => ([], .failed kind)

theorem Writer.writeAll_taken (writer : List (WriteEvent κ)) (bytes : List UInt8) :
    (Writer.writeAll writer bytes).1 <+: bytes ∧
      ((Writer.writeAll writer bytes).2 = .done ↔ (Writer.writeAll writer bytes).1 = bytes) := by
  induction writer generalizing bytes with
  | nil => cases bytes <;> simp [writeAll]
  | cons event rest ih =>
    cases bytes with
    | nil => cases event <;> simp [writeAll]
    | cons byte bytes =>
      cases event with
      | failed kind => simp [writeAll]
      | interrupted =>
        rw [writeAll]
        · exact ih _
        · simp
      | takes count =>
        rw [writeAll]
        split
        · simp
        · obtain ⟨⟨left, hleft⟩, hdone⟩ := ih ((byte :: bytes).drop count)
          refine ⟨⟨left, by rw [List.append_assoc, hleft, List.take_append_drop]⟩, ?_⟩
          refine hdone.trans ⟨fun h => ?_, fun h => ?_⟩
          · dsimp only
            rw [h, List.take_append_drop]
          · exact List.append_cancel_left (h.trans (List.take_append_drop count _).symm)

end Cogniform
