import Mathlib.Data.List.Basic

/-! Well-formed UTF-8 as an automaton over bytes, and byte strings written as
text. The automaton refuses overlong forms, surrogates and code points above
U+10FFFF. Nothing in this file names an application. -/

namespace Ccfolio.Utf8

/-- A byte string; nothing is said about its encoding. -/
abbrev Bytes := List UInt8

def lit (text : String) : Bytes := text.toList.map fun c => c.toNat.toUInt8

theorem lit_append (a b : String) : lit (a ++ b) = lit a ++ lit b := by
  simp [lit, String.toList_append]

/-- The continuation bytes still owed, and the range of the next one. -/
structure Decoder where
  owed : Nat
  low : UInt8
  high : UInt8
  deriving DecidableEq, Repr

def start : Decoder := ⟨0, 0x80, 0xBF⟩

def lead (b : UInt8) : Option Decoder :=
  if b < 0x80 then some start
  else if b < 0xC2 then none
  else if b < 0xE0 then some ⟨1, 0x80, 0xBF⟩
  else if b = 0xE0 then some ⟨2, 0xA0, 0xBF⟩
  else if b = 0xED then some ⟨2, 0x80, 0x9F⟩
  else if b < 0xF0 then some ⟨2, 0x80, 0xBF⟩
  else if b = 0xF0 then some ⟨3, 0x90, 0xBF⟩
  else if b < 0xF4 then some ⟨3, 0x80, 0xBF⟩
  else if b = 0xF4 then some ⟨3, 0x80, 0x8F⟩
  else none

def decode (d : Decoder) (b : UInt8) : Option Decoder :=
  match d.owed with
  | 0 => lead b
  | n + 1 => if d.low ≤ b ∧ b ≤ d.high then some ⟨n, 0x80, 0xBF⟩ else none

/-- The whole string decodes and ends between two characters. -/
def isUtf8 (text : Bytes) : Bool := text.foldlM decode start == some start

theorem isUtf8_iff (text : Bytes) : isUtf8 text = true ↔ text.foldlM decode start = some start := by
  simp [isUtf8]

theorem isUtf8_append {a b : Bytes} (ha : isUtf8 a = true) (hb : isUtf8 b = true) :
    isUtf8 (a ++ b) = true := by
  rw [isUtf8_iff] at *
  simp [List.foldlM_append, ha, hb]

theorem isUtf8_append_left {a b : Bytes} (ha : isUtf8 a = true) :
    isUtf8 (a ++ b) = isUtf8 b := by
  rw [isUtf8_iff] at ha
  simp [isUtf8, List.foldlM_append, ha]

/-- The decoders a run from `start` can be in. -/
def Decoder.Proper (d : Decoder) : Prop :=
  0x80 ≤ d.low ∧ d.high ≤ 0xBF ∧ (d.owed = 0 → d = start)

theorem lead_proper {b : UInt8} {d : Decoder} (h : lead b = some d) : d.Proper := by
  unfold lead at h
  split_ifs at h <;> cases h <;> exact ⟨by decide, by decide, by decide⟩

theorem decode_proper {d d' : Decoder} {b : UInt8} (h : decode d b = some d') : d'.Proper := by
  unfold decode at h
  split at h
  · exact lead_proper h
  · split at h
    · cases h
      refine ⟨by simp, by simp, fun none => ?_⟩
      simp only at none
      rw [none]
      rfl
    · cases h

theorem foldlM_proper {text : Bytes} {d d' : Decoder} (proper : d.Proper)
    (h : text.foldlM decode d = some d') : d'.Proper := by
  induction text generalizing d with
  | nil => cases h; exact proper
  | cons b text ih =>
    rw [List.foldlM_cons, Option.bind_eq_bind, Option.bind_eq_some_iff] at h
    obtain ⟨middle, first, rest⟩ := h
    exact ih (decode_proper first) rest

theorem lead_continuation {b : UInt8} (low : 0x80 ≤ b) (high : b ≤ 0xBF) : lead b = none := by
  have notAscii : ¬ b < 0x80 := UInt8.not_lt.mpr low
  have below : b < 0xC2 := UInt8.lt_of_le_of_lt high (by decide)
  simp [lead, notAscii, below]

theorem isUtf8_append_right {a b : Bytes} (hb : isUtf8 b = true) :
    isUtf8 (a ++ b) = isUtf8 a := by
  rw [isUtf8_iff] at hb
  rw [Bool.eq_iff_iff, isUtf8_iff, isUtf8_iff, List.foldlM_append]
  cases reached : a.foldlM decode start with
  | none => simp
  | some d =>
    have proper : d.Proper := foldlM_proper ⟨by decide, by decide, fun _ => rfl⟩ reached
    rcases Nat.eq_zero_or_pos d.owed with none | some
    · simp [proper.2.2 none, hb]
    · obtain ⟨n, owed⟩ := Nat.exists_eq_succ_of_ne_zero (Nat.pos_iff_ne_zero.mp some)
      have unfinished : d ≠ start := by rintro rfl; cases owed
      cases b with
      | nil => simp
      | cons x b =>
        have opens : lead x ≠ none := by
          intro shut
          simp [List.foldlM_cons, decode, start, shut] at hb
        have refused : decode d x = none := by
          simp only [decode, owed]
          refine if_neg fun inside => opens (lead_continuation ?_ ?_)
          · exact UInt8.le_trans proper.1 inside.1
          · exact UInt8.le_trans inside.2 proper.2.1
        simp [List.foldlM_cons, refused, unfinished]

abbrev Text := {text : Bytes // isUtf8 text = true}

example : isUtf8 [0x48, 0xC3, 0xA9, 0xF0, 0x9F, 0x98, 0x80] = true := by decide
example : isUtf8 [0x48, 0xFF] = false := by decide
example : isUtf8 [0xED, 0xA0, 0x80] = false := by decide

end Ccfolio.Utf8
