import ConsensusEnvelope.Bytes.Basic
import ConsensusEnvelope.Json.Fault

/-!
# JSON numbers

A number is an optional minus sign, digits without a superfluous leading zero,
and an optional fraction and exponent. An integer that fits into 64 bits stays
an integer. Any other number becomes a double-precision one: its leading digits
are collected as long as they fit into 64 bits, the digits behind them only
shift the exponent, and the result is scaled by that power of ten. A number too
large for a double is malformed.
-/

namespace ConsensusEnvelope.Json

open Decimal (Binary64)

/-- Reads a value from the front of a text, and says what is left. -/
abbrev Reader (α : Type) := Bytes → Except Fault (α × Bytes)

/-- The number that an ASCII digit stands for. -/
def digit? (b : UInt8) : Option Nat :=
  if 0x30 ≤ b ∧ b ≤ 0x39 then some (b.toNat - 0x30) else none

/-- Whether a byte is an ASCII digit. -/
def isDigit (b : UInt8) : Bool :=
  (digit? b).isSome

/-- Whether a text starts with a digit. -/
def startsWithDigit (text : Bytes) : Bool :=
  (text.head?.map isDigit).getD false

/-- Collects digits behind the number `n` as long as the result stays below
`bound`. Gives the number, how many digits were taken, and the rest, which
starts with a digit only if that one is too many. -/
def digitsBelow (bound : Nat) : (n count : Nat) → Bytes → Nat × Nat × Bytes
  | n, count, [] => (n, count, [])
  | n, count, b :: rest =>
    match digit? b with
    | some d =>
      if 10 * n + d < bound then digitsBelow bound (10 * n + d) (count + 1) rest
      else (n, count, b :: rest)
    | none => (n, count, b :: rest)

namespace Number

/-- The double with the given digits and power of ten. -/
def ofLiteral (negative : Bool) (digits : Nat) (k : Int) : Reader Number := fun rest =>
  match Binary64.ofLiteral? digits k with
  | some x => .ok (.float negative x, rest)
  | none => .error .malformed

/-- Reads an exponent behind its `e`, for a number with the given digits and
power of ten. An exponent beyond 31 bits gives zero, unless it is positive and
the digits are not zero. -/
def readExponent (negative : Bool) (digits : Nat) (k : Int) : Reader Number := fun text =>
  let (down, text) := match text with
    | 0x2b :: rest => (false, rest)
    | 0x2d :: rest => (true, rest)
    | rest => (false, rest)
  match text with
  | [] => .error .truncated
  | b :: rest =>
    match digit? b with
    | none => .error .malformed
    | some d =>
      let (e, _, rest) := digitsBelow 0x80000000 d 0 rest
      if startsWithDigit rest then
        if digits ≠ 0 ∧ ¬ down then .error .malformed
        else .ok (.float negative .zero, rest.dropWhile isDigit)
      else ofLiteral negative digits (if down then k - e else k + e) rest

/-- Reads an exponent if there is one. -/
def readExponentIfAny (negative : Bool) (digits : Nat) (k : Int) : Reader Number
  | 0x65 :: rest => readExponent negative digits k rest
  | 0x45 :: rest => readExponent negative digits k rest
  | rest => ofLiteral negative digits k rest

/-- Reads a fraction behind its point, and what follows it. -/
def readFraction (negative : Bool) (digits : Nat) (k : Int) : Reader Number := fun text =>
  let (n, count, rest) := digitsBelow UInt64.size digits 0 text
  if startsWithDigit rest then
    readExponentIfAny negative n (k - count) (rest.dropWhile isDigit)
  else if count = 0 then
    .error (if rest.isEmpty then .truncated else .malformed)
  else readExponentIfAny negative n (k - count) rest

/-- The integer without a fraction or exponent. -/
def ofInteger (negative : Bool) (n : Nat) : Number :=
  if !negative then .unsigned n
  else if n = 0 then .float true .zero
  else if n ≤ 0x8000000000000000 then .negative n
  else .float true ((Binary64.ofRatio? n 1).getD .zero)

/-- Reads what follows an integer part that fits into 64 bits: a fraction, an
exponent, or nothing, and then the number stays an integer. -/
def readShort (negative : Bool) (n : Nat) : Reader Number
  | 0x2e :: rest => readFraction negative n 0 rest
  | 0x65 :: rest => readExponent negative n 0 rest
  | 0x45 :: rest => readExponent negative n 0 rest
  | rest => .ok (ofInteger negative n, rest)

/-- Reads what follows the digits that fit into 64 bits where the integer part
is longer: more digits, which only count, then a fraction or an exponent, if
there is one. -/
def readLong (negative : Bool) (n : Nat) : Reader Number := fun text =>
  let extra := (text.takeWhile isDigit).length
  match text.dropWhile isDigit with
  | 0x2e :: rest => readFraction negative n extra rest
  | rest => readExponentIfAny negative n extra rest

/-- Reads a number behind its sign. -/
def readUnsigned (negative : Bool) : Reader Number
  | [] => .error .truncated
  | b :: rest =>
    match digit? b with
    | none => .error .malformed
    | some 0 => if startsWithDigit rest then .error .malformed else readShort negative 0 rest
    | some d =>
      let (n, _, rest) := digitsBelow UInt64.size d 0 rest
      if startsWithDigit rest then readLong negative n rest else readShort negative n rest

/-- Reads a number. -/
def read : Reader Number
  | 0x2d :: rest => readUnsigned true rest
  | text => readUnsigned false text

end Number

end ConsensusEnvelope.Json
