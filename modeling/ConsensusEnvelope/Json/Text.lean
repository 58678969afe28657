import ConsensusEnvelope.Bytes.Hex
import ConsensusEnvelope.Json.Number
import ConsensusEnvelope.Text.Utf8

/-!
# JSON strings

A string is read either as text or as bytes. As text it holds no control
characters, and escaped surrogates come in pairs. As bytes it may hold both: a
control character stands for itself, and a lone surrogate for the three bytes
that the UTF-8 scheme gives it.
-/

namespace ConsensusEnvelope.Json

/-- What a string is read as. -/
inductive StringKind where
  | text
  | bytes
  deriving DecidableEq

/-- The number that four hexadecimal digits stand for. -/
def hexUnit : Bytes → Except Fault Nat
  | a :: b :: c :: d :: _ =>
    match Hex.nibble? a, Hex.nibble? b, Hex.nibble? c, Hex.nibble? d with
    | some a, some b, some c, some d => .ok (((a * 16 + b) * 16 + c) * 16 + d)
    | _, _, _, _ => .error .malformed
  | _ => .error .truncated

/-- A unit that opens a surrogate pair. -/
def IsHighSurrogate (n : Nat) : Prop :=
  0xd800 ≤ n ∧ n < 0xdc00

/-- A unit that closes a surrogate pair. -/
def IsLowSurrogate (n : Nat) : Prop :=
  0xdc00 ≤ n ∧ n < 0xe000

instance (n : Nat) : Decidable (IsHighSurrogate n) :=
  inferInstanceAs (Decidable (_ ∧ _))

instance (n : Nat) : Decidable (IsLowSurrogate n) :=
  inferInstanceAs (Decidable (_ ∧ _))

/-- The second unit of a surrogate pair, with its backslash. -/
def lowSurrogate : Bytes → Except Fault Nat
  | [] => .error .truncated
  | 0x5c :: [] => .error .truncated
  | 0x5c :: 0x75 :: rest => do
    let n ← hexUnit rest
    if IsLowSurrogate n then return n else throw .malformed
  | _ => .error .malformed

/-- The code point of a surrogate pair. -/
def pairCode (high low : Nat) : Nat :=
  (high - 0xd800) * 0x400 + (low - 0xdc00) + 0x10000

/-- The bytes that an escaped unit stands for, and how many bytes behind the `u`
it takes. -/
def unicodeEscape (kind : StringKind) (text : Bytes) : Except Fault (Bytes × Nat) := do
  let n ← hexUnit text
  if IsHighSurrogate n then
    match lowSurrogate (text.drop 4), kind with
    | .ok low, _ => return (Utf8.encodeCode (pairCode n low), 10)
    | .error fault, .text => throw fault
    | .error _, .bytes => return (Utf8.encodeCode n, 4)
  else if IsLowSurrogate n ∧ kind = .text then throw .malformed
  else return (Utf8.encodeCode n, 4)

/-- The byte that a letter behind a backslash stands for. -/
def simpleEscape? (b : UInt8) : Option UInt8 :=
  if b = 0x22 ∨ b = 0x5c ∨ b = 0x2f then some b
  else if b = 0x62 then some 0x08
  else if b = 0x66 then some 0x0c
  else if b = 0x6e then some 0x0a
  else if b = 0x72 then some 0x0d
  else if b = 0x74 then some 0x09
  else none

/-- The bytes that an escape stands for, and how many bytes behind the backslash
it takes. -/
def escape (kind : StringKind) : Bytes → Except Fault (Bytes × Nat)
  | [] => .error .truncated
  | b :: rest =>
    if b = 0x75 then do
      let (part, width) ← unicodeEscape kind rest
      return (part, width + 1)
    else
      match simpleEscape? b with
      | some c => .ok ([c], 1)
      | none => .error .malformed

/-- Reads a string behind the bytes already found, which are kept last one
first. The first `skip` bytes belong to the escape read last. -/
def readStringFrom (kind : StringKind) : (skip : Nat) → (found : Bytes) → Reader Bytes
  | _, _, [] => .error .truncated
  | skip + 1, found, _ :: rest => readStringFrom kind skip found rest
  | 0, found, b :: rest =>
    if b = 0x22 then .ok (found.reverse, rest)
    else if b = 0x5c then
      match escape kind rest with
      | .ok (part, width) => readStringFrom kind width (part.reverse ++ found) rest
      | .error fault => .error fault
    else if kind = .text ∧ b < 0x20 then .error .malformed
    else readStringFrom kind 0 (b :: found) rest

/-- Reads a string behind its opening quote. -/
def readString (kind : StringKind) : Reader Bytes :=
  readStringFrom kind 0 []

end ConsensusEnvelope.Json
