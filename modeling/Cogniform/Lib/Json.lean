import Mathlib.Algebra.Order.BigOperators.Group.List
import Mathlib.Algebra.Order.Ring.Nat
import Mathlib.Data.List.Forall2
import Mathlib.Data.Nat.Notation
import Mathlib.Order.MinMax

/-!
# JSON text

A JSON value as a tree, the compact text it is written as, and how deeply it nests. The depth can be
found without parsing, by a scan that counts brackets outside strings: on the text of a value the
scan finds exactly the depth of the tree, whatever brackets, quotes and backslashes its strings hold.
-/

namespace Cogniform

/-! ### Values -/

def utf8 (text : String) : List UInt8 := text.toUTF8.data.toList

def isNumberByte (byte : UInt8) : Bool :=
  (48 ≤ byte.toNat && byte.toNat ≤ 57) || byte = 43 || byte = 45 || byte = 46 || byte = 69 ||
    byte = 101

structure NumberText where
  bytes : List UInt8
  ne_nil : bytes ≠ []
  plain : ∀ byte ∈ bytes, isNumberByte byte = true

def NumberText.ofNat (n : ℕ) : NumberText where
  bytes := (Nat.toDigits 10 n).map fun digit => UInt8.ofNat digit.toNat
  ne_nil := by simp [Nat.toDigits_ne_nil]
  plain := by
    intro byte hbyte
    obtain ⟨digit, hdigit, rfl⟩ := List.mem_map.mp hbyte
    have h := Nat.isDigit_of_mem_toDigits (by decide) (by decide) hdigit
    obtain ⟨hlow, hhigh⟩ := (Bool.and_eq_true ..).mp h
    have hlow : 48 ≤ digit.toNat := of_decide_eq_true hlow
    have hhigh : digit.toNat ≤ 57 := of_decide_eq_true hhigh
    have hbyte : (UInt8.ofNat digit.toNat).toNat = digit.toNat := by
      rw [UInt8.toNat_ofNat', Nat.mod_eq_of_lt (by omega)]
    simp [isNumberByte, hbyte, hlow, hhigh]

inductive Json where
  | null
  | bool (value : Bool)
  | number (text : NumberText)
  | string (bytes : List UInt8)
  | array (items : List Json)
  | object (fields : List (String × Json))

namespace Json

@[induction_eliminator]
theorem induction {motive : Json → Prop} (null : motive .null)
    (bool : ∀ value, motive (.bool value)) (number : ∀ text, motive (.number text))
    (string : ∀ bytes, motive (.string bytes))
    (array : ∀ items : List Json, (∀ item ∈ items, motive item) → motive (.array items))
    (object : ∀ fields : List (String × Json), (∀ field ∈ fields, motive field.2) →
      motive (.object fields)) (value : Json) : motive value :=
  @Json.rec motive (fun items => ∀ item ∈ items, motive item)
    (fun fields => ∀ field ∈ fields, motive field.2) (fun field => motive field.2)
    null bool number string array object (fun _ h => nomatch h)
    (fun _ _ hhead htail item hitem => by
      rcases List.mem_cons.mp hitem with rfl | hitem
      · exact hhead
      · exact htail item hitem)
    (fun _ h => nomatch h)
    (fun _ _ hhead htail field hfield => by
      rcases List.mem_cons.mp hfield with rfl | hfield
      · exact hhead
      · exact htail field hfield)
    (fun _ _ h => h) value

def nat (n : ℕ) : Json := .number (.ofNat n)

def text (text : String) : Json := .string (utf8 text)

/-- A value or `null`. -/
def nullable {α : Type} (json : α → Json) : Option α → Json
  | none => .null
  | some value => json value

end Json

/-! ### Text -/

def hexDigit (n : ℕ) : UInt8 := UInt8.ofNat (if n < 10 then 48 + n else 87 + n)

def escapeByte (byte : UInt8) : List UInt8 :=
  if byte = 34 then [92, 34]
  else if byte = 92 then [92, 92]
  else if byte = 8 then [92, 98]
  else if byte = 9 then [92, 116]
  else if byte = 10 then [92, 110]
  else if byte = 12 then [92, 102]
  else if byte = 13 then [92, 114]
  else if byte < 32 then 
    [92, 117, 48, 48, hexDigit (byte.toNat / 16), hexDigit (byte.toNat % 16)]
  else [byte]

def writeString (bytes : List UInt8) : List UInt8 := 34 :: bytes.flatMap escapeByte ++ [34]

namespace Json

mutual

def write : Json → List UInt8
  | .null => [110, 117, 108, 108]
  | .bool true => [116, 114, 117, 101]
  | .bool false => [102, 97, 108, 115, 101]
  | .number text => text.bytes
  | .string bytes => writeString bytes
  | .array items => 91 :: [44].intercalate (writeItems items) ++ [93]
  | .object fields => 123 :: [44].intercalate (writeFields fields) ++ [125]

def writeItems : List Json → List (List UInt8)
  | [] => []
  | item :: items => item.write :: writeItems items

def writeFields : List (String × Json) → List (List UInt8)
  | [] => []
  | (name, value) :: fields => (writeString (utf8 name) ++ 58 :: value.write) :: writeFields fields

end

mutual

def depth : Json → ℕ
  | .null | .bool _ | .number _ | .string _ => 0
  | .array items => depthItems items + 1
  | .object fields => depthFields fields + 1

def depthItems : List Json → ℕ
  | [] => 0
  | item :: items => max item.depth (depthItems items)

def depthFields : List (String × Json) → ℕ
  | [] => 0
  | (_, value) :: fields => max value.depth (depthFields fields)

end

@[simp] theorem depth_object (fields : List (String × Json)) :
    (object fields).depth = depthFields fields + 1 := rfl

@[simp] theorem depthFields_nil : depthFields [] = 0 := rfl

@[simp] theorem depthFields_cons (name : String) (value : Json) (fields : List (String × Json)) :
    depthFields ((name, value) :: fields) = max value.depth (depthFields fields) := rfl

@[simp] theorem depth_nat (n : ℕ) : (nat n).depth = 0 := rfl

@[simp] theorem depth_text (text : String) : (Json.text text).depth = 0 := rfl

@[simp] theorem depth_nullable {α : Type} (json : α → Json) (value : Option α) :
    (nullable json value).depth = value.elim 0 fun value => (json value).depth := by
  cases value <;> rfl

end Json

/-! ### The scan -/

structure Nesting where
  depth : ℕ
  peak : ℕ
  inString : Bool
  escaped : Bool

def Nesting.next (scan : Nesting) (byte : UInt8) : Nesting :=
  if scan.inString then
    if scan.escaped then { scan with escaped := false }
    else if byte = 92 then { scan with escaped := true }
    else if byte = 34 then { scan with inString := false }
    else scan
  else if byte = 34 then { scan with inString := true }
  else if byte = 123 ∨ byte = 91 then
    { scan with depth := scan.depth + 1, peak := max scan.peak (scan.depth + 1) }
  else if byte = 125 ∨ byte = 93 then { scan with depth := scan.depth - 1 }
  else scan

def Nesting.ofText (text : List UInt8) : Nesting := text.foldl Nesting.next ⟨0, 0, false, false⟩

def Nests (text : List UInt8) (depth : ℕ) : Prop :=
  ∀ opened peak : ℕ, opened ≤ peak →
    text.foldl Nesting.next ⟨opened, peak, false, false⟩ =
      ⟨opened, max peak (opened + depth), false, false⟩

namespace Nests

variable {left right text : List UInt8} {m n : ℕ}

theorem append (hleft : Nests left m) (hright : Nests right n) :
    Nests (left ++ right) (max m n) := by
  intro opened peak h
  rw [List.foldl_append, hleft opened peak h, hright opened _ (le_max_of_le_left h)]
  congr 1
  omega

def isPlain (byte : UInt8) : Bool :=
  byte ≠ 34 ∧ byte ≠ 123 ∧ byte ≠ 91 ∧ byte ≠ 125 ∧ byte ≠ 93

theorem of_plain (h : text.all isPlain = true) : Nests text 0 := by
  intro opened peak hle
  rw [Nat.add_zero, max_eq_left hle]
  induction text with
  | nil => rfl
  | cons byte text ih =>
    obtain ⟨hbyte, htext⟩ := (Bool.and_eq_true ..).mp (List.all_cons.symm.trans h)
    obtain ⟨hquote, hbrace, hbracket, hbrace', hbracket'⟩ := of_decide_eq_true hbyte
    have hnext : Nesting.next ⟨opened, peak, false, false⟩ byte = ⟨opened, peak, false, false⟩ := by
      simp [Nesting.next, hquote, hbrace, hbracket, hbrace', hbracket']
    rw [List.foldl_cons, hnext]
    exact ih htext

theorem number (number : NumberText) : Nests number.bytes 0 := by
  refine of_plain (List.all_eq_true.mpr fun byte hbyte => decide_eq_true ?_)
  have h := number.plain byte hbyte
  refine ⟨?_, ?_, ?_, ?_, ?_⟩ <;> rintro rfl <;> cases h

theorem foldl_escapeByte (opened peak : ℕ) (byte : UInt8) :
    (escapeByte byte).foldl Nesting.next ⟨opened, peak, true, false⟩ =
      ⟨opened, peak, true, false⟩ := by
  have hhex : ∀ n < 16, hexDigit n ≠ 92 ∧ hexDigit n ≠ 34 := by decide
  obtain ⟨hhigh, hhigh'⟩ := hhex (byte.toNat / 16) (Nat.div_lt_of_lt_mul byte.toNat_lt)
  obtain ⟨hlow, hlow'⟩ := hhex (byte.toNat % 16) (Nat.mod_lt _ (by decide))
  rw [escapeByte]
  split_ifs <;> simp_all [Nesting.next]

theorem quoted (h : ∀ opened peak : ℕ, text.foldl Nesting.next ⟨opened, peak, true, false⟩ =
    ⟨opened, peak, true, false⟩) : Nests (34 :: text ++ [34]) 0 := by
  intro opened peak hle
  have hquote : Nesting.next ⟨opened, peak, false, false⟩ 34 = ⟨opened, peak, true, false⟩ := rfl
  rw [Nat.add_zero, max_eq_left hle]
  simp only [List.foldl_append, List.foldl_cons, List.foldl_nil, hquote, h]
  rfl

theorem writeString (bytes : List UInt8) : Nests (writeString bytes) 0 := by
  refine quoted fun opened peak => ?_
  induction bytes with
  | nil => rfl
  | cons byte bytes ih => rw [List.flatMap_cons, List.foldl_append, foldl_escapeByte, ih]

theorem bracket {opening closing : UInt8} (hopening : opening = 123 ∨ opening = 91)
    (hclosing : closing = 125 ∨ closing = 93) (h : Nests text n) :
    Nests (opening :: text ++ [closing]) (n + 1) := by
  intro opened peak hle
  have hfirst : Nesting.next ⟨opened, peak, false, false⟩ opening =
      ⟨opened + 1, max peak (opened + 1), false, false⟩ := by
    rcases hopening with rfl | rfl <;> rfl
  have hlast : ∀ peak, Nesting.next ⟨opened + 1, peak, false, false⟩ closing =
      ⟨opened, peak, false, false⟩ := by
    rcases hclosing with rfl | rfl <;> exact fun _ => rfl
  simp only [List.foldl_append, List.foldl_cons, List.foldl_nil, hfirst,
    h _ _ (le_max_right _ _), hlast]
  congr 1
  omega

theorem intercalate {texts : List (List UInt8)} {depths : List ℕ}
    (h : List.Forall₂ Nests texts depths) :
    Nests ([44].intercalate texts) (depths.foldr max 0) := by
  have hcomma : Nests [44] 0 := of_plain (by decide)
  induction h with
  | nil => exact of_plain rfl
  | @cons text depth texts depths htext htexts ih =>
    cases htexts with
    | nil => simpa [List.intercalate] using htext
    | cons htext' htexts' =>
      rw [List.intercalate_cons_cons]
      simpa using (htext.append hcomma).append ih

end Nests

namespace Json

theorem writeItems_eq (items : List Json) : writeItems items = items.map write := by
  induction items with
  | nil => rfl
  | cons item items ih => rw [writeItems, ih, List.map_cons]

theorem writeFields_eq (fields : List (String × Json)) :
    writeFields fields = fields.map fun field =>
      writeString (utf8 field.1) ++ 58 :: field.2.write := by
  induction fields with
  | nil => rfl
  | cons field fields ih => rw [writeFields, ih, List.map_cons]

theorem depthItems_eq (items : List Json) : depthItems items = (items.map depth).foldr max 0 := by
  induction items with
  | nil => rfl
  | cons item items ih => rw [depthItems, ih, List.map_cons, List.foldr_cons]

theorem depthFields_eq (fields : List (String × Json)) :
    depthFields fields = (fields.map fun field => field.2.depth).foldr max 0 := by
  induction fields with
  | nil => rfl
  | cons field fields ih => rw [depthFields, ih, List.map_cons, List.foldr_cons]

theorem nests_write (value : Json) : Nests value.write value.depth := by
  induction value with
  | null => exact .of_plain (by decide)
  | bool value => cases value <;> exact .of_plain (by decide)
  | number text => exact .number text
  | string bytes => exact .writeString bytes
  | array items ih =>
    rw [write, depth, writeItems_eq, depthItems_eq]
    refine .bracket (.inr rfl) (.inr rfl) (.intercalate ?_)
    rw [List.forall₂_map_left_iff, List.forall₂_map_right_iff, List.forall₂_same]
    exact ih
  | object fields ih =>
    rw [write, depth, writeFields_eq, depthFields_eq]
    refine .bracket (.inl rfl) (.inl rfl) (.intercalate ?_)
    rw [List.forall₂_map_left_iff, List.forall₂_map_right_iff, List.forall₂_same]
    intro field hfield
    have hcolon : Nests [58] 0 := .of_plain (by decide)
    simpa using ((Nests.writeString (utf8 field.1)).append hcolon).append (ih field hfield)

end Json

/-! ### Sizes -/

def isUnescaped (byte : UInt8) : Bool := escapeByte byte = [byte]

theorem length_writeString {bytes : List UInt8} (h : bytes.all isUnescaped = true) :
    (writeString bytes).length = bytes.length + 2 := by
  have hsame : bytes.flatMap escapeByte = bytes := by
    induction bytes with
    | nil => rfl
    | cons byte bytes ih =>
      obtain ⟨hbyte, hbytes⟩ := (Bool.and_eq_true ..).mp (List.all_cons.symm.trans h)
      rw [List.flatMap_cons, of_decide_eq_true hbyte, ih hbytes]
      rfl
  simp [writeString, hsame]

theorem escapeByte_ne_nil (byte : UInt8) : escapeByte byte ≠ [] := by
  rw [escapeByte]
  split_ifs <;> exact List.cons_ne_nil _ _

theorem length_le_length_writeString (bytes : List UInt8) :
    bytes.length ≤ (writeString bytes).length := by
  have hinside : bytes.length ≤ (bytes.flatMap escapeByte).length := by
    induction bytes with
    | nil => exact le_rfl
    | cons byte bytes ih =>
      have hbyte := List.length_pos_iff.mpr (escapeByte_ne_nil byte)
      rw [List.flatMap_cons, List.length_append, List.length_cons]
      omega
  simp only [writeString, List.length_append, List.length_cons, List.length_nil]
  omega

theorem length_writeString_le (bytes : List UInt8) :
    (writeString bytes).length ≤ 6 * bytes.length + 2 := by
  have hbyte : ∀ byte, (escapeByte byte).length ≤ 6 := by
    intro byte
    rw [escapeByte]
    split_ifs <;> simp
  have hinside : (bytes.flatMap escapeByte).length ≤ 6 * bytes.length := by
    induction bytes with
    | nil => exact le_rfl
    | cons byte bytes ih =>
      have hle := hbyte byte
      rw [List.flatMap_cons, List.length_append, List.length_cons]
      omega
  simp only [writeString, List.length_append, List.length_cons, List.length_nil]
  omega

namespace Json

def fieldLength (field : String × Json) : ℕ :=
  (writeString (utf8 field.1)).length + 1 + field.2.write.length

theorem length_write_object (field : String × Json) (fields : List (String × Json)) :
    (object (field :: fields)).write.length =
      fieldLength field + (fields.map fun field => fieldLength field + 1).sum + 2 := by
  have hfields : ([44].intercalate (writeFields (field :: fields))).length =
      fieldLength field + (fields.map fun field => fieldLength field + 1).sum := by
    induction fields generalizing field with
    | nil =>
      simp only [writeFields_eq, List.map_cons, List.map_nil, fieldLength, List.sum_nil]
      simp [List.intercalate]
      omega
    | cons next fields ih =>
      have hnext := ih next
      simp only [writeFields_eq, List.map_cons] at hnext ⊢
      rw [List.intercalate_cons_cons, List.length_append, List.length_append, hnext]
      simp only [fieldLength, List.length_append, List.length_cons, List.length_nil, List.sum_cons]
      omega
  rw [write]
  simp only [List.length_append, List.length_cons, List.length_nil, hfields]

theorem length_write_array (items : List Json) :
    (array items).write.length =
      (items.map fun item => item.write.length).sum + (items.length - 1) + 2 := by
  have hitems : ([44].intercalate (writeItems items)).length =
      (items.map fun item => item.write.length).sum + (items.length - 1) := by
    rw [writeItems_eq]
    induction items with
    | nil => rfl
    | cons item items ih =>
      cases items with
      | nil => simp [List.intercalate]
      | cons next items =>
        simp only [List.map_cons, List.length_cons, List.sum_cons] at ih ⊢
        rw [List.intercalate_cons_cons, List.length_append, List.length_append, ih,
          List.length_singleton]
        omega
  rw [write]
  simp only [List.length_append, List.length_cons, List.length_nil, hitems]

theorem fieldLength_le_length_write {field : String × Json} {fields : List (String × Json)}
    (h : field ∈ fields) : fieldLength field ≤ (object fields).write.length := by
  cases fields with
  | nil => exact absurd h List.not_mem_nil
  | cons first fields =>
    rw [length_write_object]
    rcases List.mem_cons.mp h with rfl | h
    · omega
    · have hsum : fieldLength field + 1 ≤ (fields.map fun field => fieldLength field + 1).sum :=
        List.le_sum_of_mem (List.mem_map_of_mem h)
      omega

theorem length_names_le_length_write (fields : List (String × Json)) :
    (fields.map fun field => (utf8 field.1).length).sum ≤ (object fields).write.length := by
  have hfield : ∀ field : String × Json, (utf8 field.1).length ≤ fieldLength field := fun field => by
    have hname := length_le_length_writeString (utf8 field.1)
    rw [fieldLength]
    omega
  cases fields with
  | nil => exact Nat.zero_le _
  | cons first fields =>
    have hrest : (fields.map fun field => (utf8 field.1).length).sum ≤
        (fields.map fun field => fieldLength field + 1).sum :=
      List.sum_le_sum fun field _ => (hfield field).trans (Nat.le_succ _)
    have hfirst := hfield first
    rw [length_write_object, List.map_cons, List.sum_cons]
    omega

end Json

theorem NumberText.length_ofNat_le {n digits : ℕ} (hdigits : 0 < digits) (h : n < 10 ^ digits) :
    (NumberText.ofNat n).bytes.length ≤ digits := by
  rw [NumberText.ofNat, List.length_map]
  exact (Nat.length_toDigits_le_iff (by decide) hdigits).mpr h

end Cogniform
