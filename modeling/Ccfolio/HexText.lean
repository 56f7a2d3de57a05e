import Ccfolio.StdText

/-! Bytes written in base 16, and what `std::stoi` makes of such a text two
characters at a time. Nothing in this file names an application. -/

namespace Ccfolio.HexText

open Utf8 StdText

def isLowerDigit (c : UInt8) : Bool := (48 ≤ c && c ≤ 57) || (97 ≤ c && c ≤ 102)

def isHexDigit (c : UInt8) : Bool := isLowerDigit c || (65 ≤ c && c ≤ 70)

def lower (c : UInt8) : UInt8 := if 65 ≤ c ∧ c ≤ 70 then c + 32 else c

/-- Two digits a byte, its high half first. -/
def hexText (bytes : List UInt8) : Bytes :=
  bytes.flatMap fun b => [hexDigit (b.toNat / 16), hexDigit (b.toNat % 16)]

/-- Whole pairs of digits. -/
def IsHex (text : Bytes) : Prop := text.length % 2 = 0 ∧ ∀ c ∈ text, isHexDigit c = true

instance (text : Bytes) : Decidable (IsHex text) := inferInstanceAs (Decidable (_ ∧ _))

section Digits

theorem hexDigit_lower : ∀ n < 16, isLowerDigit (hexDigit n) = true := by decide

theorem forall_byte {P : UInt8 → Prop} (each : ∀ n < 256, P n.toUInt8) (c : UInt8) : P c := by
  have value : c.toNat.toUInt8 = c := UInt8.ofNat_toNat
  exact value ▸ each c.toNat c.toNat_lt

theorem digitValue_isSome : ∀ c, (digitValue c).isSome = isHexDigit c :=
  forall_byte (by decide +kernel)

theorem hexDigit_digitValue : ∀ c, ∀ d ∈ digitValue c, hexDigit d = lower c :=
  forall_byte (by decide +kernel)

theorem isSpace_not_digit : ∀ c, isSpace c = true → isHexDigit c = false :=
  forall_byte (by decide +kernel)

theorem exists_digitValue {c : UInt8} (digit : isHexDigit c = true) :
    ∃ d, digitValue c = some d := by
  rwa [← digitValue_isSome, Option.isSome_iff_exists] at digit

end Digits

section HexText

@[simp] theorem hexText_cons (b : UInt8) (bytes : List UInt8) :
    hexText (b :: bytes) =
      hexDigit (b.toNat / 16) :: hexDigit (b.toNat % 16) :: hexText bytes := rfl

theorem hexText_length (bytes : List UInt8) : (hexText bytes).length = 2 * bytes.length := by
  induction bytes with
  | nil => rfl
  | cons b bytes ih =>
    simp only [hexText_cons, List.length_cons, ih]
    omega

theorem hexText_lower (bytes : List UInt8) : ∀ c ∈ hexText bytes, isLowerDigit c = true := by
  induction bytes with
  | nil => simp [hexText]
  | cons b bytes ih =>
    have bound := b.toNat_lt
    have high := hexDigit_lower (b.toNat / 16) (by omega)
    have low := hexDigit_lower (b.toNat % 16) (by omega)
    simpa [high, low] using ih

theorem isHex_pair (a b : UInt8) (text : Bytes) :
    IsHex (a :: b :: text) ↔ isHexDigit a = true ∧ isHexDigit b = true ∧ IsHex text := by
  have even : (a :: b :: text).length % 2 = text.length % 2 := by
    simp only [List.length_cons]
    omega
  rw [IsHex, IsHex, even, List.forall_mem_cons, List.forall_mem_cons]
  tauto

theorem not_isHex_single (a : UInt8) : ¬ IsHex [a] := fun h => by cases h.1

end HexText

section Chunks

def chunks : Bytes → List Bytes
  | [] => []
  | [a] => [[a]]
  | a :: b :: text => [a, b] :: chunks text

/-- A digit, then anything or nothing; or a blank or a sign, then a digit. -/
def readable : Bytes → Bool
  | [a] => isHexDigit a
  | [a, b] => isHexDigit a || ((isSpace a || a = 45 || a = 43) && isHexDigit b)
  | _ => false

theorem numeral_blank {a : UInt8} (blank : isSpace a = true) (text : Bytes) :
    numeral (a :: text) = numeral text := by
  simp [numeral, blank]

theorem numeral_sign {a : UInt8} (sign : a = 45 ∨ a = 43) (text : Bytes) :
    numeral (a :: text) ≠ [] ↔ ∃ d ∈ text.head?, isHexDigit d = true := by
  have kept : isSpace a = false := by rcases sign with rfl | rfl <;> decide
  simp only [numeral_ne_nil_iff, List.dropWhile_cons, kept, Bool.false_eq_true, if_false,
    takeSign_of_sign sign, digitValue_isSome]

theorem numeral_plain {a : UInt8} (solid : isSpace a = false) (unsigned : ¬ (a = 45 ∨ a = 43))
    (text : Bytes) : numeral (a :: text) ≠ [] ↔ isHexDigit a = true := by
  simp [numeral_ne_nil_iff, solid, takeSign_of_other unsigned, digitValue_isSome]

theorem stoi16_pair {a b : UInt8} {high low : Nat} (ha : digitValue a = some high)
    (hb : digitValue b = some low) : stoi16 [a, b] = .ok (16 * high + low : Nat) := by
  have digit : isHexDigit a = true := by rw [← digitValue_isSome, ha]; rfl
  have solid : isSpace a = false := by
    by_contra blank
    simp [isSpace_not_digit a (by simpa using blank)] at digit
  have unsigned : ¬ (a = 45 ∨ a = 43) := by rintro (rfl | rfl) <;> cases digit
  have small := digitValue_lt ha
  have small' := digitValue_lt hb
  simp only [stoi16, List.dropWhile_cons, solid, Bool.false_eq_true, if_false,
    takeSign_of_other unsigned, skipPrefix, leadingDigits, ha, hb, List.foldl_cons,
    List.foldl_nil, Nat.mul_zero, Nat.zero_add]
  refine if_pos ?_
  omega

theorem numeral_cons (a : UInt8) (text : Bytes) :
    numeral (a :: text) ≠ [] ↔
      isHexDigit a = true ∨ (isSpace a = true ∧ numeral text ≠ []) ∨
        ((a = 45 ∨ a = 43) ∧ ∃ d ∈ text.head?, isHexDigit d = true) := by
  rcases Bool.eq_false_or_eq_true (isSpace a) with blank | solid
  · have unsigned : ¬ (a = 45 ∨ a = 43) := by rintro (rfl | rfl) <;> cases blank
    simp [numeral_blank blank, isSpace_not_digit a blank, blank, unsigned]
  · by_cases sign : a = 45 ∨ a = 43
    · have none : isHexDigit a = false := by rcases sign with rfl | rfl <;> decide
      simp [numeral_sign sign, none, solid, sign]
    · simp [numeral_plain solid sign, solid, sign]

theorem numeral_single (a : UInt8) : numeral [a] ≠ [] ↔ readable [a] = true := by
  have empty : numeral [] = [] := rfl
  simp [numeral_cons, empty, readable]

theorem numeral_pair (a b : UInt8) : numeral [a, b] ≠ [] ↔ readable [a, b] = true := by
  rw [numeral_cons, numeral_single]
  simp only [readable, List.head?_cons, Option.mem_some_iff, exists_eq_left', Bool.or_eq_true,
    Bool.and_eq_true, decide_eq_true_iff]
  tauto

theorem stoi16_single_iff (a : UInt8) :
    (∃ value, stoi16 [a] = .ok value) ↔ readable [a] = true :=
  (stoi16_returns_iff (by simp)).trans (numeral_single a)

theorem stoi16_pair_iff (a b : UInt8) :
    (∃ value, stoi16 [a, b] = .ok value) ↔ readable [a, b] = true :=
  (stoi16_returns_iff (by simp)).trans (numeral_pair a b)

end Chunks

end Ccfolio.HexText
