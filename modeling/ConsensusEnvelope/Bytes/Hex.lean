import ConsensusEnvelope.Bytes.Basic
import ConsensusEnvelope.Text.Quoted

/-!
# Hexadecimal text

Two digits for each byte, the high one first. Writing uses lower-case digits,
reading accepts either case. A text with an odd number of bytes is refused
before any digit is looked at.
-/

namespace ConsensusEnvelope.Hex

/-- The lower-case digit of a number below sixteen. -/
def digit (n : Nat) : Char :=
  if n < 10 then Char.ofNat ('0'.toNat + n) else Char.ofNat ('a'.toNat + (n - 10))

/-- The digits of a byte string. -/
def chars (bytes : Bytes) : List Char :=
  bytes.flatMap fun b => [digit (b.toNat / 16), digit (b.toNat % 16)]

/-- A byte string in hexadecimal digits. -/
def encode (bytes : Bytes) : String :=
  String.ofList (chars bytes)

/-- Why a text is not hexadecimal. -/
inductive Fault where
  | oddLength
  | notDigit (byte : UInt8) (index : Nat)
  deriving DecidableEq, Repr

/-- The fault in words. A byte that is no digit is shown as the character with
its number. -/
def Fault.message : Fault → String
  | .oddLength => "Odd number of digits"
  | .notDigit byte index =>
    "Invalid character " ++ Text.quoteChar (Char.ofNat byte.toNat) ++ s!" at position {index}"

/-- The number that an ASCII digit of either case stands for. -/
def nibble? (b : UInt8) : Option Nat :=
  let n := b.toNat
  if 0x30 ≤ n ∧ n ≤ 0x39 then some (n - 0x30)
  else if 0x41 ≤ n ∧ n ≤ 0x46 then some (n - 0x41 + 10)
  else if 0x61 ≤ n ∧ n ≤ 0x66 then some (n - 0x61 + 10)
  else none

/-- Reads pairs of digits, behind the bytes already found; `index` is where the
pairs start. -/
def decodeFrom : (index : Nat) → (found : Bytes) → Bytes → Except Fault Bytes
  | _, found, [] => .ok found.reverse
  | _, _, [_] => .error .oddLength
  | index, found, a :: b :: rest =>
    match nibble? a, nibble? b with
    | none, _ => .error (.notDigit a index)
    | some _, none => .error (.notDigit b (index + 1))
    | some high, some low => decodeFrom (index + 2) (UInt8.ofNat (16 * high + low) :: found) rest

/-- Reads the bytes of a text as hexadecimal digits. -/
def decode (text : Bytes) : Except Fault Bytes :=
  if text.length % 2 = 1 then .error .oddLength else decodeFrom 0 [] text

end ConsensusEnvelope.Hex
