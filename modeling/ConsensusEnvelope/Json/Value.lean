import ConsensusEnvelope.Json.Text

/-!
# JSON values that are not wanted

Two things are done with a value of which the reader has no use. Where another
value was expected, it is named in the message, which takes no more than its
first token (`found`). Where it belongs to an unknown key, it is passed over
(`skip`), and must be well formed throughout.
-/

namespace ConsensusEnvelope.Json

/-- Whether a byte is a blank between tokens. -/
def isBlank (b : UInt8) : Bool :=
  b = 0x20 || b = 0x09 || b = 0x0a || b = 0x0d

/-- A text without the blanks in front. -/
def skipBlanks (text : Bytes) : Bytes :=
  text.dropWhile isBlank

/-- Passes over the rest of a word. -/
def skipWord : (word : Bytes) → Bytes → Except Fault Bytes
  | [], text => .ok text
  | _ :: _, [] => .error .truncated
  | c :: word, b :: rest => if b = c then skipWord word rest else .error .malformed

/-- What follows the first letter of `null`. -/
def nullRest : Bytes := [0x75, 0x6c, 0x6c]

/-- What follows the first letter of `true`. -/
def trueRest : Bytes := [0x72, 0x75, 0x65]

/-- What follows the first letter of `false`. -/
def falseRest : Bytes := [0x61, 0x6c, 0x73, 0x65]

/-- The value that a text starts with. Of arrays and objects no more than the
bracket is read. -/
def found (text : Bytes) : Except Fault Found := do
  match text with
  | [] => throw .truncated
  | 0x6e :: rest => let _ ← skipWord nullRest rest; return .null
  | 0x74 :: rest => let _ ← skipWord trueRest rest; return .boolean true
  | 0x66 :: rest => let _ ← skipWord falseRest rest; return .boolean false
  | 0x22 :: rest =>
    let (bytes, _) ← readString .text rest
    return .string (Utf8.lossy bytes)
  | 0x5b :: _ => return .sequence
  | 0x7b :: _ => return .map
  | b :: _ =>
    if b = 0x2d ∨ isDigit b then
      let (n, _) ← Number.read text
      return .number n
    else throw .malformed

/-- The fault that a text starts with something unexpected. -/
def unexpected (expected : Expected) (text : Bytes) : Fault :=
  match found text with
  | .ok value => .mismatch (.type value expected)
  | .error fault => fault

/-- Passes over one or more digits. A text that ends before the first one is
malformed here. -/
def skipDigits (text : Bytes) : Except Fault Bytes :=
  if startsWithDigit text then .ok (text.dropWhile isDigit) else .error .malformed

/-- A text without the sign that may stand in front. -/
def skipSign : Bytes → Bytes
  | 0x2b :: rest => rest
  | 0x2d :: rest => rest
  | text => text

/-- Passes over an exponent, if there is one. -/
def skipExponent : Bytes → Except Fault Bytes
  | 0x65 :: rest => skipDigits (skipSign rest)
  | 0x45 :: rest => skipDigits (skipSign rest)
  | text => .ok text

/-- Passes over a number behind its sign. Its size does not matter. -/
def skipNumber (text : Bytes) : Except Fault Bytes := do
  let rest ← match text with
    | 0x30 :: rest => if startsWithDigit rest then throw .malformed else pure rest
    | text => skipDigits text
  let rest ← match rest with
    | 0x2e :: rest => skipDigits rest
    | rest => pure rest
  skipExponent rest

/-- Passes over a string behind its opening quote; `skip` is as for reading one.
Surrogates need not come in pairs. -/
def skipStringFrom : (skip : Nat) → Bytes → Except Fault Bytes
  | _, [] => .error .truncated
  | skip + 1, _ :: rest => skipStringFrom skip rest
  | 0, b :: rest =>
    if b = 0x22 then .ok rest
    else if b = 0x5c then
      match escape .bytes (rest.take 5) with
      | .ok (_, width) => skipStringFrom width rest
      | .error fault => .error fault
    else if b < 0x20 then .error .malformed
    else skipStringFrom 0 rest

/-- Passes over a key, behind blanks, and the colon after it. -/
def skipKey (text : Bytes) : Except Fault Bytes := do
  match skipBlanks text with
  | [] => throw .truncated
  | 0x22 :: rest =>
    match skipBlanks (← skipStringFrom 0 rest) with
    | [] => throw .truncated
    | 0x3a :: rest => return rest
    | _ => throw .malformed
  | _ => throw .malformed

/-- The kinds of value that hold others. -/
inductive Container where
  | array
  | object
  deriving DecidableEq

/-- The bracket that closes a container. -/
def Container.close : Container → UInt8
  | .array => 0x5d
  | .object => 0x7d

/-- Goes to where the next value of a container starts: past its key, in an
object. -/
def Container.enter : Container → Bytes → Except Fault Bytes
  | .array, text => .ok text
  | .object, text => skipKey text

/-- Where skipping stands: in front of a value, inside a container that was just
opened, or behind a value. -/
inductive Place where
  | value
  | opened
  | behind

/-- Passes over what is left of a value, given the containers that are open,
innermost first. Each step either takes a byte or goes from a place inside an
opened container to its first value, so twice the length of the text is fuel
enough. -/
def skipFrom : (fuel : Nat) → Place → List Container → Bytes → Except Fault Bytes
  | 0, _, _, _ => .error .truncated
  | fuel + 1, .value, outer, text =>
    match skipBlanks text with
    | [] => .error .truncated
    | 0x5b :: rest => skipFrom fuel .opened (.array :: outer) rest
    | 0x7b :: rest => skipFrom fuel .opened (.object :: outer) rest
    | b :: rest => do
      let rest ←
        if b = 0x6e then skipWord nullRest rest
        else if b = 0x74 then skipWord trueRest rest
        else if b = 0x66 then skipWord falseRest rest
        else if b = 0x22 then skipStringFrom 0 rest
        else if b = 0x2d then skipNumber rest
        else if isDigit b then skipNumber (b :: rest)
        else throw .malformed
      skipFrom fuel .behind outer rest
  | _ + 1, .opened, [], text => .ok text
  | fuel + 1, .opened, inner :: outer, text =>
    match skipBlanks text with
    | [] => .error .truncated
    | b :: rest =>
      if b = inner.close then skipFrom fuel .behind outer rest
      else do
        let rest ← inner.enter (b :: rest)
        skipFrom fuel .value (inner :: outer) rest
  | _ + 1, .behind, [], text => .ok text
  | fuel + 1, .behind, inner :: outer, text =>
    match skipBlanks text with
    | [] => .error .truncated
    | b :: rest =>
      if b = inner.close then skipFrom fuel .behind outer rest
      else if b = 0x2c then do
        let rest ← inner.enter rest
        skipFrom fuel .value (inner :: outer) rest
      else .error .malformed

/-- Passes over a value. -/
def skip (text : Bytes) : Except Fault Bytes :=
  skipFrom (2 * text.length + 2) .value [] text

end ConsensusEnvelope.Json
