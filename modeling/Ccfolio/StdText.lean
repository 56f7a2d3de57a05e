import Ccfolio.Utf8
import Mathlib.Algebra.Group.Nat.Defs

/-! The parts of the C++ standard library the sources use on text: exceptions
with their texts, insertion of an integer into a stream in base 16, and
`std::stoi` in base 16. -/

namespace Ccfolio.StdText

open Utf8

/-- The exception classes the handlers of the sources tell apart; each derives
from `std::exception`. -/
inductive ExceptionClass where
  | json
  | odb
  | std
  deriving DecidableEq, Repr

/-- An exception in flight: its class and what `what()` returns. -/
structure Exception where
  kind : ExceptionClass
  what : Bytes
  deriving DecidableEq, Repr

def runtimeError (what : String) : Exception := ⟨.std, lit what⟩

def invalidArgument (what : String) : Exception := ⟨.std, lit what⟩

def logicError (what : String) : Exception := ⟨.std, lit what⟩

theorem bind_eq_ok {α β : Type} {x : Except Exception α} {f : α → Except Exception β} {b : β} :
    (x >>= f) = .ok b ↔ ∃ a, x = .ok a ∧ f a = .ok b := by
  cases x with
  | error e => simp [bind, Except.bind]
  | ok a => simp [bind, Except.bind]

theorem bind_eq_error {α β : Type} {x : Except Exception α} {f : α → Except Exception β}
    {e : Exception} :
    (x >>= f) = .error e ↔ x = .error e ∨ ∃ a, x = .ok a ∧ f a = .error e := by
  cases x with
  | error thrown => simp [bind, Except.bind]
  | ok a => simp [bind, Except.bind]

def hexDigit (n : Nat) : UInt8 := (if n < 10 then 48 + n else 87 + n).toUInt8

/-- `stream << std::hex << std::setfill('0') << std::setw(width) << value` for
a value that is not negative. -/
def insertHex (width value : Nat) : Bytes :=
  ((Nat.toDigits 16 value).map fun c => c.toNat.toUInt8).leftpad width 48

theorem digitChar_byte : ∀ n < 16, n.digitChar.toNat.toUInt8 = hexDigit n := by decide

theorem insertHex_byte (b : UInt8) :
    insertHex 2 b.toNat = [hexDigit (b.toNat / 16), hexDigit (b.toNat % 16)] := by
  have bound := b.toNat_lt
  by_cases small : b.toNat < 16
  · have high : b.toNat / 16 = 0 := by omega
    have low : b.toNat % 16 = b.toNat := by omega
    rw [insertHex, Nat.toDigits_of_lt_base small, high, low, ← digitChar_byte _ small]
    rfl
  · have high : b.toNat / 16 < 16 := by omega
    have low : b.toNat % 16 < 16 := by omega
    rw [insertHex, Nat.toDigits_of_base_le (by omega) (by omega), Nat.toDigits_of_lt_base high]
    simp [List.leftpad, digitChar_byte _ high, digitChar_byte _ low]

/-- A `std::stringstream` that is written to: its text and the formatting state
its manipulators set. -/
structure OStream where
  text : Bytes
  base : Nat
  fill : UInt8
  width : Nat
  deriving DecidableEq, Repr

namespace OStream

def empty : OStream := ⟨[], 10, 32, 0⟩

def hex (s : OStream) : OStream := { s with base := 16 }

def setfill (fill : UInt8) (s : OStream) : OStream := { s with fill := fill }

def setw (width : Nat) (s : OStream) : OStream := { s with width := width }

/-- `<<` of an `int` that is not negative. It spends the width; base and fill
stay. -/
def insert (value : Nat) (s : OStream) : OStream :=
  let digits := (Nat.toDigits s.base value).map fun c => c.toNat.toUInt8
  { s with text := s.text ++ digits.leftpad s.width s.fill, width := 0 }

theorem insert_hex {s : OStream} (base : s.base = 16) (fill : s.fill = 48) (width value : Nat) :
    (s.setw width).insert value =
      { s with text := s.text ++ insertHex width value, width := 0 } := by
  simp only [insert, setw, base, fill, insertHex]

end OStream

def isSpace (b : UInt8) : Bool := b = 32 || (9 ≤ b && b ≤ 13)

def digitValue (b : UInt8) : Option Nat :=
  if 48 ≤ b ∧ b ≤ 57 then some (b.toNat - 48)
  else if 97 ≤ b ∧ b ≤ 102 then some (b.toNat - 87)
  else if 65 ≤ b ∧ b ≤ 70 then some (b.toNat - 55)
  else none

theorem digitValue_lt {b : UInt8} {d : Nat} (h : digitValue b = some d) : d < 16 := by
  unfold digitValue at h
  split_ifs at h with decimal lower upper
  · have high : b.toNat ≤ 57 := decimal.2
    cases h
    omega
  · have high : b.toNat ≤ 102 := lower.2
    cases h
    omega
  · have high : b.toNat ≤ 70 := upper.2
    cases h
    omega

def leadingDigits : Bytes → List Nat
  | [] => []
  | b :: rest => match digitValue b with
    | some d => d :: leadingDigits rest
    | none => []

/-- An optional `0x` is skipped only in front of a digit. -/
def skipPrefix : Bytes → Bytes
  | 48 :: x :: d :: rest =>
      if (x = 120 ∨ x = 88) ∧ (digitValue d).isSome then d :: rest else 48 :: x :: d :: rest
  | text => text

def takeSign : Bytes → Bool × Bytes
  | 45 :: rest => (true, rest)
  | 43 :: rest => (false, rest)
  | text => (false, text)

/-- `std::stoi(text, nullptr, 16)`. -/
def stoi16 (text : Bytes) : Except Exception Int :=
  let (negative, rest) := takeSign (text.dropWhile isSpace)
  match leadingDigits (skipPrefix rest) with
  | [] => .error (invalidArgument "stoi")
  | digits =>
      let magnitude : Int := (digits.foldl (fun n d => 16 * n + d) 0 : Nat)
      let value := if negative then -magnitude else magnitude
      if -2147483648 ≤ value ∧ value < 2147483648 then .ok value else .error ⟨.std, lit "stoi"⟩

def numeral (text : Bytes) : List Nat :=
  leadingDigits (skipPrefix (takeSign (text.dropWhile isSpace)).2)

theorem leadingDigits_lt {text : Bytes} {d : Nat} (h : d ∈ leadingDigits text) : d < 16 := by
  induction text with
  | nil => cases h
  | cons b rest ih =>
    cases value : digitValue b with
    | none => simp [leadingDigits, value] at h
    | some n =>
      simp only [leadingDigits, value, List.mem_cons] at h
      rcases h with rfl | later
      · exact digitValue_lt value
      · exact ih later

theorem leadingDigits_length (text : Bytes) : (leadingDigits text).length ≤ text.length := by
  induction text with
  | nil => exact Nat.le_refl 0
  | cons b rest ih =>
    cases value : digitValue b with
    | none => simp [leadingDigits, value]
    | some n => simpa [leadingDigits, value] using ih

theorem leadingDigits_skipPrefix (text : Bytes) :
    leadingDigits (skipPrefix text) = [] ↔ leadingDigits text = [] := by
  unfold skipPrefix
  split
  · rename_i x d rest
    split_ifs with marked
    · obtain ⟨n, value⟩ := Option.isSome_iff_exists.mp marked.2
      have zero : digitValue 48 = some 0 := by decide
      simp [leadingDigits, value, zero]
    · rfl
  · rfl

theorem skipPrefix_length (text : Bytes) : (skipPrefix text).length ≤ text.length := by
  unfold skipPrefix
  split
  · split_ifs <;> simp
  · exact Nat.le_refl _

theorem takeSign_length (text : Bytes) : (takeSign text).2.length ≤ text.length := by
  unfold takeSign
  split <;> simp

theorem numeral_length (text : Bytes) : (numeral text).length ≤ text.length :=
  calc (numeral text).length
    _ ≤ (skipPrefix (takeSign (text.dropWhile isSpace)).2).length := leadingDigits_length _
    _ ≤ (takeSign (text.dropWhile isSpace)).2.length := skipPrefix_length _
    _ ≤ (text.dropWhile isSpace).length := takeSign_length _
    _ ≤ text.length := (List.dropWhile_sublist isSpace).length_le

theorem digits_lt {digits : List Nat} (each : ∀ d ∈ digits, d < 16) (n : Nat) :
    digits.foldl (fun n d => 16 * n + d) n < (n + 1) * 16 ^ digits.length := by
  induction digits generalizing n with
  | nil => simp
  | cons d digits ih =>
    have small := each d (List.mem_cons_self ..)
    have later := ih (fun e mem => each e (List.mem_cons_of_mem _ mem)) (16 * n + d)
    have carry : (16 * n + d + 1) * 16 ^ digits.length ≤ (n + 1) * 16 * 16 ^ digits.length :=
      Nat.mul_le_mul_right _ (by omega)
    rw [List.foldl_cons, List.length_cons, Nat.pow_succ, Nat.mul_comm (16 ^ _) 16, ← Nat.mul_assoc]
    exact Nat.lt_of_lt_of_le later carry

theorem takeSign_of_sign {b : UInt8} (sign : b = 45 ∨ b = 43) (rest : Bytes) :
    (takeSign (b :: rest)).2 = rest := by
  rcases sign with rfl | rfl <;> rfl

theorem takeSign_of_other {b : UInt8} (other : ¬ (b = 45 ∨ b = 43)) (rest : Bytes) :
    takeSign (b :: rest) = (false, b :: rest) := by
  unfold takeSign
  split
  · rename_i eq
    exact absurd (.inl (List.cons.inj eq).1) other
  · rename_i eq
    exact absurd (.inr (List.cons.inj eq).1) other
  · rfl

theorem numeral_ne_nil_iff (text : Bytes) :
    numeral text ≠ [] ↔
      ∃ d ∈ (takeSign (text.dropWhile isSpace)).2.head?, (digitValue d).isSome := by
  rw [numeral, ne_eq, leadingDigits_skipPrefix]
  cases (takeSign (text.dropWhile isSpace)).2 with
  | nil => simp [leadingDigits]
  | cons b rest => cases value : digitValue b <;> simp [leadingDigits, value]

theorem stoi16_returns_iff {text : Bytes} (short : text.length ≤ 7) :
    (∃ value, stoi16 text = .ok value) ↔ numeral text ≠ [] := by
  have each : ∀ d ∈ numeral text, d < 16 := fun _ mem => leadingDigits_lt mem
  have length := Nat.le_trans (numeral_length text) short
  have bound : (numeral text).foldl (fun n d => 16 * n + d) 0 < 16 ^ 7 :=
    calc (numeral text).foldl (fun n d => 16 * n + d) 0
      _ < (0 + 1) * 16 ^ (numeral text).length := digits_lt each 0
      _ ≤ 16 ^ 7 := by
          rw [Nat.zero_add, Nat.one_mul]
          exact Nat.pow_le_pow_right (by omega) length
  change (∃ value, (match numeral text with
    | [] => _
    | digits => _ : Except Exception Int) = .ok value) ↔ _
  cases digits : numeral text with
  | nil => simp
  | cons d rest =>
    rw [digits] at bound
    simp only [ne_eq, reduceCtorEq, not_false_eq_true, iff_true]
    refine ⟨_, if_pos ?_⟩
    split <;> omega

theorem stoi16_digits : ∀ high < 16, ∀ low < 16,
    stoi16 [hexDigit high, hexDigit low] = .ok (16 * high + low : Nat) := by decide

end Ccfolio.StdText
