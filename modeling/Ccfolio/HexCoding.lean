import Ccfolio.HexText
import Ccfolio.Utility

/-! `toHexString` and `fromHexString` against hex text: the encoder writes it,
the decoder undoes the encoder, and takes more than hex text. -/

namespace Ccfolio.HexCoding

open Utf8 StdText HexText Utility

theorem toHexString_eq (bytes : List UInt8) : toHexString bytes = hexText bytes := by
  induction bytes with
  | nil => rfl
  | cons b bytes ih => rw [toHexString_cons, hexText_cons, ih]

/-- What is written in hex is read back, two lower-case digits a byte. -/
theorem hex_round_trip (bytes : List UInt8) :
    (toHexString bytes).length = 2 * bytes.length ∧
      (∀ c ∈ toHexString bytes, isLowerDigit c = true) ∧
      fromHexString (toHexString bytes) = .ok bytes := by
  refine ⟨?_, ?_, fromHexString_toHexString bytes⟩
  · rw [toHexString_eq, hexText_length]
  · rw [toHexString_eq]
    exact hexText_lower bytes

theorem fromHexString_pair (a b : UInt8) (text : Bytes) :
    fromHexString (a :: b :: text) = (stoi16 [a, b]).bind fun value =>
      (fromHexString text).map (toUInt8 value :: ·) := fromHexString_step (by simp)

theorem toNat_toUInt8 {n : Nat} (small : n < 256) : (toUInt8 n).toNat = n := by
  have kept : ((n : Int) % 256).toNat = n := by omega
  rw [toUInt8, kept]
  exact UInt8.toNat_ofNat_of_lt' small

theorem toHexString_pair {a b : UInt8} {high low : Nat} (ha : digitValue a = some high)
    (hb : digitValue b = some low) (bytes : List UInt8) :
    toHexString (toUInt8 (16 * high + low : Nat) :: bytes) =
      lower a :: lower b :: toHexString bytes := by
  have small := digitValue_lt ha
  have small' := digitValue_lt hb
  have value := toNat_toUInt8 (show 16 * high + low < 256 by omega)
  have first : (16 * high + low) / 16 = high := by omega
  have second : (16 * high + low) % 16 = low := by omega
  rw [toHexString_cons, value, first, second, hexDigit_digitValue a high ha,
    hexDigit_digitValue b low hb]

theorem fromHexString_returns_iff (text : Bytes) :
    (∃ bytes, fromHexString text = .ok bytes) ↔ ∀ chunk ∈ chunks text, readable chunk = true := by
  induction text using chunks.induct with
  | case1 =>
    refine ⟨fun _ chunk mem => ?_, fun _ => ⟨[], rfl⟩⟩
    cases mem
  | case2 a =>
    rw [chunks, List.forall_mem_singleton, ← stoi16_single_iff]
    cases read : stoi16 [a] with
    | error e => simp [fromHexString, read, bind, Except.bind]
    | ok value => simp [fromHexString, read, bind, Except.bind, pure, Except.pure]
  | case3 a b text ih =>
    rw [chunks, List.forall_mem_cons, ← stoi16_pair_iff, ← ih, fromHexString_pair]
    cases stoi16 [a, b] with
    | error e => simp [Except.bind]
    | ok value => cases fromHexString text <;> simp [Except.bind, Except.map]

theorem fromHexString_hex {text : Bytes} (hex : IsHex text) :
    ∃ bytes, fromHexString text = .ok bytes ∧ toHexString bytes = text.map lower := by
  induction text using chunks.induct with
  | case1 => exact ⟨[], rfl, rfl⟩
  | case2 a => exact absurd hex (not_isHex_single a)
  | case3 a b text ih =>
    obtain ⟨first, second, rest⟩ := (isHex_pair a b text).mp hex
    obtain ⟨high, ha⟩ := exists_digitValue first
    obtain ⟨low, hb⟩ := exists_digitValue second
    obtain ⟨bytes, decoded, encoded⟩ := ih rest
    refine ⟨toUInt8 (16 * high + low : Nat) :: bytes, ?_, ?_⟩
    · rw [fromHexString_pair, stoi16_pair ha hb, decoded]
      rfl
    · rw [toHexString_pair ha hb, encoded]
      rfl

/-- The decoder accepts hex text, for what it says, and nothing else. -/
structure ExactlyHex (text : Bytes) : Prop where
  decodes : IsHex text →
    ∃ bytes, fromHexString text = .ok bytes ∧ toHexString bytes = text.map lower
  refuses : ¬ IsHex text → ∃ e, fromHexString text = .error e

/-- The decoder is right about a text unless the text is no hex and has no chunk it cannot read. -/
theorem exactly_hex_iff (text : Bytes) :
    ExactlyHex text ↔ IsHex text ∨ ∃ chunk ∈ chunks text, readable chunk = false := by
  have returns := fromHexString_returns_iff text
  constructor
  · intro exact
    by_cases hex : IsHex text
    · exact .inl hex
    · obtain ⟨e, refused⟩ := exact.refuses hex
      refine .inr ?_
      by_contra all
      obtain ⟨bytes, decoded⟩ := returns.mpr fun chunk mem => by
        by_contra bad
        exact all ⟨chunk, mem, by simpa using bad⟩
      rw [refused] at decoded
      cases decoded
  · intro cond
    refine ⟨fromHexString_hex, fun other => ?_⟩
    obtain ⟨chunk, mem, bad⟩ := cond.resolve_left other
    cases decoded : fromHexString text with
    | error e => exact ⟨e, rfl⟩
    | ok bytes =>
      have good := returns.mp ⟨bytes, decoded⟩ chunk mem
      rw [bad] at good
      cases good

/-- A text that has lost its last digit is still decoded. -/
theorem truncated_accepted : ¬ ExactlyHex (lit "0a1") := by
  intro exact
  obtain ⟨e, refused⟩ := exact.refuses (by decide)
  have decoded : fromHexString (lit "0a1") = .ok [10, 1] := by decide
  rw [decoded] at refused
  cases refused

end Ccfolio.HexCoding
