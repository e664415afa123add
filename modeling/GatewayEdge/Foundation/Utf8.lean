import Mathlib.Data.List.Basic

/-!
# Utf8 — decoding byte strings, strictly and lossily

One decoder serves both: it cuts a byte string into characters and maximal ill-formed
subsequences.  A byte string is valid when no ill-formed piece occurs; the lossy reading puts
U+FFFD in the place of each.
-/

namespace GatewayEdge
namespace Foundation

abbrev Bytes := List UInt8

/-- The UTF-8 bytes of a string. -/
def strBytes (s : String) : Bytes := s.toUTF8.data.toList

namespace Utf8

/-- A continuation byte `10xxxxxx`. -/
def isCont (b : UInt8) : Bool := 0x80 ≤ b.toNat && b.toNat ≤ 0xBF

/-- The second bytes allowed after a leading byte of a three-byte sequence. -/
def second3 (b0 b1 : UInt8) : Bool :=
  if b0.toNat = 0xE0 then 0xA0 ≤ b1.toNat && b1.toNat ≤ 0xBF
  else if b0.toNat = 0xED then 0x80 ≤ b1.toNat && b1.toNat ≤ 0x9F
  else isCont b1

/-- The second bytes allowed after a leading byte of a four-byte sequence. -/
def second4 (b0 b1 : UInt8) : Bool :=
  if b0.toNat = 0xF0 then 0x90 ≤ b1.toNat && b1.toNat ≤ 0xBF
  else if b0.toNat = 0xF4 then 0x80 ≤ b1.toNat && b1.toNat ≤ 0x8F
  else isCont b1

/-- Cut into characters (`some`) and maximal ill-formed subsequences (`none`). -/
def pieces : Bytes → List (Option Char)
  | [] => []
  | b0 :: r0 =>
    if b0.toNat < 0x80 then
      some (Char.ofNat b0.toNat) :: pieces r0
    -- 0xC0 and 0xC1 would only encode what one byte can.
    else if 0xC2 ≤ b0.toNat ∧ b0.toNat ≤ 0xDF then
      match r0 with
      | [] => [none]
      | b1 :: r1 =>
        if isCont b1 then
          some (Char.ofNat ((b0.toNat - 0xC0) * 64 + (b1.toNat - 0x80))) :: pieces r1
        else
          none :: pieces (b1 :: r1)
    else if 0xE0 ≤ b0.toNat ∧ b0.toNat ≤ 0xEF then
      match r0 with
      | [] => [none]
      | b1 :: r1 =>
        if second3 b0 b1 then
          match r1 with
          -- Cut short: what is there is one ill-formed piece.
          | [] => [none]
          | b2 :: r2 =>
            if isCont b2 then
              some (Char.ofNat ((b0.toNat - 0xE0) * 4096 + (b1.toNat - 0x80) * 64
                + (b2.toNat - 0x80))) :: pieces r2
            else
              none :: pieces (b2 :: r2)
        else
          none :: pieces (b1 :: r1)
    else if 0xF0 ≤ b0.toNat ∧ b0.toNat ≤ 0xF4 then
      match r0 with
      | [] => [none]
      | b1 :: r1 =>
        if second4 b0 b1 then
          match r1 with
          | [] => [none]
          | b2 :: r2 =>
            if isCont b2 then
              match r2 with
              | [] => [none]
              | b3 :: r3 =>
                if isCont b3 then
                  some (Char.ofNat ((b0.toNat - 0xF0) * 262144 + (b1.toNat - 0x80) * 4096
                    + (b2.toNat - 0x80) * 64 + (b3.toNat - 0x80))) :: pieces r3
                else
                  -- The byte that does not fit may start a character of its own.
                  none :: pieces (b3 :: r3)
            else
              none :: pieces (b2 :: r2)
        else
          none :: pieces (b1 :: r1)
    else
      none :: pieces r0

end Utf8

/-- `std::str::from_utf8`, `none` for the error. -/
def fromUtf8 (bs : Bytes) : Option String :=
  (Utf8.pieces bs).mapM id |>.map String.ofList

/-- `String::from_utf8_lossy`. -/
def fromUtf8Lossy (bs : Bytes) : String :=
  String.ofList ((Utf8.pieces bs).map fun piece => piece.getD '\uFFFD')

example : fromUtf8 [0x68, 0xE2, 0x82, 0xAC] = some "h€" := by decide

example : fromUtf8Lossy [0x68, 0xE2, 0x82, 0x68] = "h\uFFFDh" := by decide

end Foundation
end GatewayEdge
