import Cogniform.Lib.Json

/-!
# JSON grammar

The texts the JSON grammar derives, with blanks and escapes wherever it allows them, and how deeply
each of them nests. The scan that counts brackets outside strings finds that depth. Bytes from 128 on
are unrestricted inside strings, so a text need not be valid UTF-8.
-/

namespace Cogniform

def isBlank (byte : UInt8) : Bool := byte = 32 || byte = 9 || byte = 10 || byte = 13

def isDigit (byte : UInt8) : Bool := 48 ≤ byte.toNat && byte.toNat ≤ 57

def isHexDigit (byte : UInt8) : Bool :=
  isDigit byte || (65 ≤ byte.toNat && byte.toNat ≤ 70) || (97 ≤ byte.toNat && byte.toNat ≤ 102)

def IsDigits (text : List UInt8) : Prop := text ≠ [] ∧ ∀ byte ∈ text, isDigit byte = true

def IsNumber (text : List UInt8) : Prop :=
  ∃ sign whole fraction exponent : List UInt8, text = sign ++ whole ++ fraction ++ exponent ∧
    sign ∈ [[], [45]] ∧ (whole = [48] ∨ IsDigits whole ∧ whole.head? ≠ some 48) ∧
    (fraction = [] ∨ ∃ digits, IsDigits digits ∧ fraction = 46 :: digits) ∧
    (exponent = [] ∨ ∃ mark sign digits, mark ∈ [[69], [101]] ∧ sign ∈ [[], [43], [45]] ∧
      IsDigits digits ∧ exponent = mark ++ sign ++ digits)

inductive StringBody : List UInt8 → Prop where
  | nil : StringBody []
  | plain {byte : UInt8} {rest : List UInt8} (h : 32 ≤ byte.toNat ∧ byte ≠ 34 ∧ byte ≠ 92)
      (hrest : StringBody rest) : StringBody (byte :: rest)
  | escape {byte : UInt8} {rest : List UInt8} (h : byte ∈ [34, 92, 47, 98, 102, 110, 114, 116])
      (hrest : StringBody rest) : StringBody (92 :: byte :: rest)
  | unicode {digits rest : List UInt8} (hlength : digits.length = 4)
      (h : ∀ digit ∈ digits, isHexDigit digit = true) (hrest : StringBody rest) :
      StringBody (92 :: 117 :: digits ++ rest)

inductive JsonSymbol where
  | value
  | element
  | elements
  | member
  | members

inductive JsonText : JsonSymbol → List UInt8 → ℕ → Prop where
  | null : JsonText .value Json.null.write 0
  | bool (value : Bool) : JsonText .value (Json.bool value).write 0
  | number {text : List UInt8} (h : IsNumber text) : JsonText .value text 0
  | string {body : List UInt8} (h : StringBody body) : JsonText .value (34 :: body ++ [34]) 0
  | emptyArray {blank : List UInt8} (h : blank.all isBlank = true) :
      JsonText .value (91 :: blank ++ [93]) 1
  | array {inner : List UInt8} {n : ℕ} (h : JsonText .elements inner n) :
      JsonText .value (91 :: inner ++ [93]) (n + 1)
  | emptyObject {blank : List UInt8} (h : blank.all isBlank = true) :
      JsonText .value (123 :: blank ++ [125]) 1
  | object {inner : List UInt8} {n : ℕ} (h : JsonText .members inner n) :
      JsonText .value (123 :: inner ++ [125]) (n + 1)
  | element {before text after : List UInt8} {n : ℕ} (hbefore : before.all isBlank = true)
      (h : JsonText .value text n) (hafter : after.all isBlank = true) :
      JsonText .element (before ++ text ++ after) n
  | lastElement {text : List UInt8} {n : ℕ} (h : JsonText .element text n) :
      JsonText .elements text n
  | nextElement {text rest : List UInt8} {m n : ℕ} (h : JsonText .element text m)
      (hrest : JsonText .elements rest n) : JsonText .elements (text ++ [44] ++ rest) (max m n)
  | member {before name after text : List UInt8} {n : ℕ} (hbefore : before.all isBlank = true)
      (hname : StringBody name) (hafter : after.all isBlank = true) (h : JsonText .element text n) :
      JsonText .member (before ++ (34 :: name ++ [34]) ++ after ++ [58] ++ text) n
  | lastMember {text : List UInt8} {n : ℕ} (h : JsonText .member text n) : JsonText .members text n
  | nextMember {text rest : List UInt8} {m n : ℕ} (h : JsonText .member text m)
      (hrest : JsonText .members rest n) : JsonText .members (text ++ [44] ++ rest) (max m n)

namespace Nests

variable {text : List UInt8} {n : ℕ}

theorem blank (h : text.all isBlank = true) : Nests text 0 := by
  refine of_plain (List.all_eq_true.mpr fun byte hbyte => decide_eq_true ?_)
  have hblank := List.all_eq_true.mp h byte hbyte
  refine ⟨?_, ?_, ?_, ?_, ?_⟩ <;> rintro rfl <;> cases hblank

theorem digits (h : IsDigits text) : Nests text 0 := by
  refine of_plain (List.all_eq_true.mpr fun byte hbyte => decide_eq_true ?_)
  have hdigit := h.2 byte hbyte
  refine ⟨?_, ?_, ?_, ?_, ?_⟩ <;> rintro rfl <;> cases hdigit

theorem isNumber (h : IsNumber text) : Nests text 0 := by
  have hparts : ∀ {left right}, Nests left 0 → Nests right 0 → Nests (left ++ right) 0 :=
    fun hleft hright => hleft.append hright
  obtain ⟨sign, whole, fraction, exponent, rfl, hsign, hwhole, hfraction, hexponent⟩ := h
  have hsign : Nests sign 0 := of_plain (by revert sign; decide)
  have hwhole : Nests whole 0 := by
    rcases hwhole with rfl | ⟨hwhole, -⟩
    exacts [of_plain (by decide), digits hwhole]
  have hfraction : Nests fraction 0 := by
    rcases hfraction with rfl | ⟨places, hplaces, rfl⟩
    exacts [of_plain (by decide), hparts (of_plain (by decide : [46].all isPlain = true)) (digits hplaces)]
  refine hparts (hparts (hparts hsign hwhole) hfraction) ?_
  rcases hexponent with rfl | ⟨mark, sign, places, hmark, hsign, hplaces, rfl⟩
  · exact of_plain (by decide)
  · exact hparts (hparts (of_plain (by revert mark; decide)) (of_plain (by revert sign; decide)))
      (digits hplaces)

theorem foldl_inside (h : ∀ byte ∈ text, byte ≠ 34 ∧ byte ≠ 92) (opened peak : ℕ) :
    text.foldl Nesting.next ⟨opened, peak, true, false⟩ = ⟨opened, peak, true, false⟩ := by
  induction text with
  | nil => rfl
  | cons byte text ih =>
    obtain ⟨hquote, hslash⟩ := h byte (by simp)
    rw [List.foldl_cons]
    simpa [Nesting.next, hquote, hslash] using ih fun byte hbyte => h byte (by simp [hbyte])

theorem foldl_stringBody (h : StringBody text) (opened peak : ℕ) :
    text.foldl Nesting.next ⟨opened, peak, true, false⟩ = ⟨opened, peak, true, false⟩ := by
  induction h with
  | nil => rfl
  | @plain byte rest h _ ih =>
    have hbyte : ([byte] : List UInt8).foldl Nesting.next ⟨opened, peak, true, false⟩ = _ :=
      foldl_inside (by simpa using h.2) opened peak
    exact (congrArg (rest.foldl Nesting.next) hbyte).trans ih
  | escape _ _ ih => exact ih
  | @unicode digits rest _ h _ ih =>
    have hinside : ∀ digit ∈ digits, digit ≠ 34 ∧ digit ≠ 92 := by
      intro digit hdigit
      have hhex := h digit hdigit
      constructor <;> rintro rfl <;> cases hhex
    have hdigits := foldl_inside hinside opened peak
    rw [List.foldl_append]
    exact (congrArg (rest.foldl Nesting.next) hdigits).trans ih

theorem stringBody (h : StringBody text) : Nests (34 :: text ++ [34]) 0 :=
  quoted (foldl_stringBody h)

end Nests

theorem JsonText.nests {symbol : JsonSymbol} {text : List UInt8} {n : ℕ}
    (h : JsonText symbol text n) : Nests text n := by
  have hcomma : Nests [44] 0 := .of_plain (by decide)
  have hcolon : Nests [58] 0 := .of_plain (by decide)
  induction h with
  | null => exact Json.null.nests_write
  | bool value => exact (Json.bool value).nests_write
  | number h => exact .isNumber h
  | string h => exact .stringBody h
  | emptyArray h => exact .bracket (.inr rfl) (.inr rfl) (.blank h)
  | array _ ih => exact .bracket (.inr rfl) (.inr rfl) ih
  | emptyObject h => exact .bracket (.inl rfl) (.inl rfl) (.blank h)
  | object _ ih => exact .bracket (.inl rfl) (.inl rfl) ih
  | element hbefore _ hafter ih => simpa using ((Nests.blank hbefore).append ih).append (.blank hafter)
  | lastElement _ ih => exact ih
  | nextElement _ _ ih ihrest => simpa using (ih.append hcomma).append ihrest
  | member hbefore hname hafter _ ih =>
    have hlabel := ((Nests.blank hbefore).append (.stringBody hname)).append (.blank hafter)
    simpa using (hlabel.append hcolon).append ih
  | lastMember _ ih => exact ih
  | nextMember _ _ ih ihrest => simpa using (ih.append hcomma).append ihrest

end Cogniform
