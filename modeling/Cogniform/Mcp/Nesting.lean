import Cogniform.Lib.JsonText
import Cogniform.Session.Codec

/-!
# Nesting guards

Four codecs bound how deeply a received text nests before they parse it: three stop at the first
bracket past the limit, and the MCP transport measures the depth. All four count brackets outside
strings, in sixteen bits.
-/

namespace Cogniform

/-- The state of `json_nesting_depth`. -/
structure DepthScan where
  depth : ℕ
  maximum : ℕ
  inString : Bool
  escaped : Bool

/-- One byte of `json_nesting_depth`. -/
def DepthScan.next (scan : DepthScan) (byte : UInt8) : DepthScan :=
  if scan.inString then
    if scan.escaped then { scan with escaped := false }
    else if byte = 92 then { scan with escaped := true }
    else if byte = 34 then { scan with inString := false }
    else scan
  else if byte = 34 then { scan with inString := true }
  else if byte = 123 ∨ byte = 91 then
    let depth := min (scan.depth + 1) (2 ^ 16 - 1)
    { scan with depth := depth, maximum := max scan.maximum depth }
  else if byte = 125 ∨ byte = 93 then { scan with depth := scan.depth - 1 }
  else scan

def jsonNestingDepth (encoded : List UInt8) : ℕ :=
  (encoded.foldl DepthScan.next ⟨0, 0, false, false⟩).maximum

structure DepthScan.Follows (scan : DepthScan) (exact : Nesting) : Prop where
  inString : scan.inString = exact.inString
  escaped : scan.escaped = exact.escaped
  maximum : scan.maximum = min exact.peak (2 ^ 16 - 1)
  bounded : exact.depth ≤ exact.peak
  depth : exact.peak < 2 ^ 16 - 1 → scan.depth = exact.depth

theorem DepthScan.Follows.next {scan : DepthScan} {exact : Nesting} (h : scan.Follows exact)
    (byte : UInt8) : (scan.next byte).Follows (exact.next byte) := by
  obtain ⟨hstring, hescaped, hmaximum, hbounded, hdepth⟩ := h
  constructor <;> grind [DepthScan.next, Nesting.next]

theorem jsonNestingDepth_eq (text : List UInt8) :
    jsonNestingDepth text = min (Nesting.ofText text).peak (2 ^ 16 - 1) := by
  have hfold : ∀ (text : List UInt8) (scan : DepthScan) (exact : Nesting), scan.Follows exact →
      (text.foldl DepthScan.next scan).Follows (text.foldl Nesting.next exact) := by
    intro text
    induction text with
    | nil => exact fun _ _ h => h
    | cons byte text ih => exact fun _ _ h => ih _ _ (h.next byte)
  exact (hfold text _ ⟨0, 0, false, false⟩ ⟨rfl, rfl, rfl, le_rfl, fun _ => rfl⟩).maximum

section

variable {ε : Type} {exceeded : ℕ → ℕ → ε} {text : List UInt8} {limit depth : ℕ}

theorem JsonText.peak_eq (h : JsonText .element text depth) :
    (Nesting.ofText text).peak = depth := by
  rw [Nesting.ofText, h.nests 0 0 le_rfl]
  simp

theorem enforceNestingDepth_rejects_iff (htext : JsonText .element text depth)
    (hlimit : limit < 2 ^ 16 - 1) :
    (∃ actual, enforceNestingDepth exceeded limit text = .error (exceeded actual limit)) ↔
      limit < depth := by
  have hok : enforceNestingDepth exceeded limit text = .ok () ↔ _ :=
    enforceNestingDepth_iff (Nat.lt_of_lt_of_le hlimit (Nat.sub_le _ _))
  rw [htext.peak_eq, or_iff_right (by omega)] at hok
  rw [← not_le, ← hok]
  constructor
  · rintro ⟨actual, herror⟩ h
    rw [herror] at h
    cases h
  · intro hnot
    cases h : enforceNestingDepth exceeded limit text with
    | ok => exact absurd h hnot
    | error error =>
      obtain ⟨actual, rfl⟩ := enforceNestingDepth_error h
      exact ⟨actual, rfl⟩

/-- **Nesting guards.** On a JSON text, blanks and escapes included, the guards of the protocol, the
session and the compilation refuse, and the measure of the transport exceeds the limit, exactly when
its arrays and objects nest more deeply than the limit. -/
theorem nestingGuards_exact (htext : JsonText .element text depth) :
    (∀ limits : RuntimeLimits, limits.maxJsonNestingDepth.get < 2 ^ 16 - 1 →
      ((∃ actual, enforceNesting text limits =
          .error (.nestingLimitExceeded actual limits.maxJsonNestingDepth.get)) ↔
        limits.maxJsonNestingDepth.get < depth) ∧
      ((∃ actual, enforceNestingDepth sessionErrors.nestingExceeded
            limits.maxJsonNestingDepth.get text =
          .error (.nestingLimitExceeded actual limits.maxJsonNestingDepth.get)) ↔
        limits.maxJsonNestingDepth.get < depth)) ∧
    ∀ limit < 2 ^ 16 - 1,
      ((∃ actual, enforceNestingDepth CompilationResult.lineErrors.nestingExceeded limit text =
          .error (.nestingLimitExceeded actual limit)) ↔ limit < depth) ∧
      (limit < jsonNestingDepth text ↔ limit < depth) := by
  refine ⟨fun limits hlimit => ⟨enforceNestingDepth_rejects_iff htext hlimit,
    enforceNestingDepth_rejects_iff htext hlimit⟩, fun limit hlimit =>
    ⟨enforceNestingDepth_rejects_iff htext hlimit, ?_⟩⟩
  rw [jsonNestingDepth_eq, htext.peak_eq, lt_min_iff, and_iff_left hlimit]

def nestedText : List UInt8 :=
  [32] ++ (91 :: ([] ++ (34 :: [91, 92, 34, 92, 92] ++ [34]) ++ [] ++ [44] ++
    ([10] ++ (91 :: [9] ++ [93]) ++ [])) ++ [93]) ++ []

theorem nestingGuards_nestedText : jsonNestingDepth nestedText = 2 := by
  have hstring : StringBody [91, 92, 34, 92, 92] :=
    .plain (by decide) (.escape (by decide) (.escape (by decide) .nil))
  have htext : JsonText .element nestedText 2 :=
    .element rfl (.array (.nextElement (.element rfl (.string hstring) rfl)
      (.lastElement (.element rfl (.emptyArray rfl) rfl)))) rfl
  have hexact := (nestingGuards_exact htext).2
  have hless := (hexact 1 (by decide)).2.mpr (by decide)
  have hmore := mt (hexact 2 (by decide)).2.mp (by decide)
  omega

end

end Cogniform
