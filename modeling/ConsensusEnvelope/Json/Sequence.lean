import ConsensusEnvelope.Json.Value

/-!
# JSON arrays and numbers of limited size

Arrays are read one element at a time. After the opening bracket and after each
element, `nextElement` says whether an element follows or the array ends, and
where.

Byte strings come as arrays of numbers below 256 (`readBytes`).
-/

namespace ConsensusEnvelope.Json

/-- Reads an unsigned number below a bound. -/
def readBelow (expected : Expected) (bound : Nat) : Reader Nat := fun text =>
  match skipBlanks text with
  | [] => .error .truncated
  | b :: rest =>
    if b = 0x2d ∨ isDigit b then do
      let (n, rest) ← Number.read (b :: rest)
      match n with
      | .unsigned n =>
        if n < bound then return (n, rest)
        else throw (.mismatch (.value (.number (.unsigned n)) expected))
      | .negative n => throw (.mismatch (.value (.number (.negative n)) expected))
      | .float negative x => throw (.mismatch (.type (.number (.float negative x)) expected))
    else .error (unexpected expected (b :: rest))

/-- Reads a byte. -/
def readByte : Reader UInt8 := fun text => do
  let (n, rest) ← readBelow .u8 256 text
  return (UInt8.ofNat n, rest)

/-- Reads a number of 32 bits. -/
def readWord : Reader UInt32 := fun text => do
  let (n, rest) ← readBelow .u32 UInt32.size text
  return (UInt32.ofNat n, rest)

/-- How a container goes on: with an element, or with what stands behind its
closing bracket. -/
inductive Step where
  | element (text : Bytes)
  | finish (rest : Bytes)

/-- How an array goes on, behind its opening bracket or behind an element. -/
def nextElement (first : Bool) (text : Bytes) : Except Fault Step :=
  match skipBlanks text with
  | [] => .error .truncated
  | b :: rest =>
    if b = 0x5d then .ok (.finish rest)
    else if first then .ok (.element (b :: rest))
    else if b = 0x2c then
      match skipBlanks rest with
      | [] => .error .truncated
      | c :: rest => if c = 0x5d then .error .malformed else .ok (.element (c :: rest))
    else .error .malformed

/-- Requires that an array ends, behind as many elements as it must have. -/
def endArray (text : Bytes) : Except Fault Bytes :=
  match skipBlanks text with
  | [] => .error .truncated
  | b :: rest => if b = 0x5d then .ok rest else .error .malformed

/-- Reads the elements of an array into a state. Each element takes a byte or
more, so one more than the length of the text is fuel enough. -/
def foldElements {α σ : Type} (element : Reader α) (push : σ → α → σ) :
    (fuel : Nat) → (first : Bool) → σ → Reader σ
  | 0, _, _, _ => .error .truncated
  | fuel + 1, first, state, text => do
    match ← nextElement first text with
    | .finish rest => return (state, rest)
    | .element text =>
      let (a, rest) ← element text
      foldElements element push fuel false (push state a) rest

/-- Reads the elements of an array behind its opening bracket. -/
def foldArray {α σ : Type} (element : Reader α) (push : σ → α → σ) (state : σ) : Reader σ :=
  fun text => foldElements element push (text.length + 1) true state text

/-- Reads an array of bytes, of any length. -/
def readBytes : Reader Bytes := fun text =>
  match skipBlanks text with
  | [] => .error .truncated
  | b :: rest =>
    if b = 0x5b then do
      let (found, rest) ← foldArray readByte (fun found b => b :: found) [] rest
      return (found.reverse, rest)
    else .error (unexpected .byteSequence (b :: rest))

end ConsensusEnvelope.Json
