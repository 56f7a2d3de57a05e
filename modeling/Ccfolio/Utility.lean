import Ccfolio.StdText

/-! `Utility::toHexString` and `Utility::fromHexString`. -/

namespace Ccfolio.Utility

open Utf8 StdText

def toHexString (bytes : List UInt8) : Bytes :=
  bytes.foldl (fun hexStream byte => hexStream ++ insertHex 2 byte.toNat) []

/-- The stream `toHexString` returns the text of: base and fill are set once,
the width before each byte. -/
def hexStream (bytes : List UInt8) : OStream :=
  bytes.foldl (fun hexStream byte => (hexStream.setw 2).insert byte.toNat)
    (OStream.empty.hex.setfill 48)

/-- The narrowing `static_cast<uint8_t>` of an `int`. -/
def toUInt8 (value : Int) : UInt8 := (value % 256).toNat.toUInt8

/-- The loop takes `substr(i, 2)` at each even `i`; the last chunk of an odd
length has one character. -/
def fromHexString : Bytes → Except Exception (List UInt8)
  | [] => .ok []
  | [a] => do
      let value ← stoi16 [a]
      return [toUInt8 value]
  | a :: b :: hex => do
      let value ← stoi16 [a, b]
      let bytes ← fromHexString hex
      return toUInt8 value :: bytes

/-- The loop of `fromHexString` from index `i` on, with the bytes pushed so far. -/
def fromHexLoop (hex : Bytes) (i : Nat) (bytes : List UInt8) : Except Exception (List UInt8) :=
  if i < hex.length then do
    let byteString := (hex.drop i).take 2
    let byte := toUInt8 (← stoi16 byteString)
    fromHexLoop hex (i + 2) (bytes ++ [byte])
  else pure bytes
  termination_by hex.length - i

theorem toHexString_acc (bytes : List UInt8) (acc : Bytes) :
    bytes.foldl (fun hexStream byte => hexStream ++ insertHex 2 byte.toNat) acc =
      acc ++ toHexString bytes := by
  induction bytes generalizing acc with
  | nil => simp [toHexString]
  | cons b bytes ih =>
    simp only [toHexString, List.foldl_cons, List.nil_append]
    rw [ih, ih (insertHex 2 b.toNat), List.append_assoc]

@[simp] theorem toHexString_cons (b : UInt8) (bytes : List UInt8) :
    toHexString (b :: bytes) =
      hexDigit (b.toNat / 16) :: hexDigit (b.toNat % 16) :: toHexString bytes := by
  rw [toHexString, List.foldl_cons, toHexString_acc, List.nil_append, insertHex_byte]
  rfl

theorem hexStream_acc (bytes : List UInt8) (s : OStream) (base : s.base = 16) (fill : s.fill = 48) :
    (bytes.foldl (fun s byte => (s.setw 2).insert byte.toNat) s).text =
      s.text ++ toHexString bytes := by
  induction bytes generalizing s with
  | nil => simp [toHexString]
  | cons b bytes ih =>
    rw [List.foldl_cons, OStream.insert_hex base fill]
    have rest := ih { s with text := s.text ++ insertHex 2 b.toNat, width := 0 } base fill
    rw [rest, insertHex_byte, toHexString_cons, List.append_assoc]
    rfl

theorem hexStream_text (bytes : List UInt8) : (hexStream bytes).text = toHexString bytes :=
  hexStream_acc bytes _ rfl rfl

theorem toUInt8_toNat (b : UInt8) : toUInt8 (b.toNat : Int) = b := by
  have bound := b.toNat_lt
  have value : ((b.toNat : Int) % 256).toNat = b.toNat := by omega
  rw [toUInt8, value]
  exact UInt8.ofNat_toNat

theorem fromHexString_toHexString (bytes : List UInt8) :
    fromHexString (toHexString bytes) = .ok bytes := by
  induction bytes with
  | nil => rfl
  | cons b bytes ih =>
    have bound := b.toNat_lt
    have value : 16 * (b.toNat / 16) + b.toNat % 16 = b.toNat := by omega
    rw [toHexString_cons, fromHexString, stoi16_digits _ (by omega) _ (by omega), ih, value]
    simp [bind, Except.bind, pure, Except.pure, toUInt8_toNat]

theorem fromHexString_step {hex : Bytes} (more : hex ≠ []) :
    fromHexString hex = (stoi16 (hex.take 2)).bind fun value =>
      (fromHexString (hex.drop 2)).map (toUInt8 value :: ·) := by
  match hex with
  | [a] => rfl
  | a :: b :: rest => rfl

/-- At index `i` the loop has the text from `i` on before it. -/
theorem fromHexLoop_eq (hex : Bytes) (i : Nat) (bytes : List UInt8) :
    fromHexLoop hex i bytes = (fromHexString (hex.drop i)).map (bytes ++ ·) := by
  induction i, bytes using fromHexLoop.induct hex with
  | case1 i bytes inside ih =>
    have more : hex.drop i ≠ [] := by simpa using inside
    rw [fromHexLoop, if_pos inside, fromHexString_step more, List.drop_drop]
    cases read : stoi16 ((hex.drop i).take 2) with
    | error e => simp [read, bind, Except.bind, Except.map]
    | ok value =>
      simp only [read]
      change fromHexLoop hex (i + 2) (bytes ++ [toUInt8 value]) = _
      rw [ih value]
      cases fromHexString (hex.drop (i + 2)) with
      | error e => rfl
      | ok rest => simp [Except.map, Except.bind]
  | case2 i bytes outside =>
    have done : hex.drop i = [] := List.drop_eq_nil_of_le (Nat.le_of_not_lt outside)
    rw [fromHexLoop, if_neg outside, done]
    simp [fromHexString, pure, Except.pure, Except.map]

theorem toHexString_injective : Function.Injective toHexString := by
  intro a b same
  have decoded := fromHexString_toHexString a
  rw [same, fromHexString_toHexString] at decoded
  exact (Except.ok.inj decoded).symm

end Ccfolio.Utility
