import ConsensusEnvelope.Envelope
import ConsensusEnvelope.Json.Identity

/-!
# Envelopes in JSON

An envelope is an object with its six fields under their names, in any order and
each once; other keys are passed over. An array of the six values in order is
read as well.
-/

namespace ConsensusEnvelope.Json

/-- The fields of an envelope that have been read so far. -/
structure Draft where
  version : Option UInt32
  x : Option Axis
  y : Option Axis
  payload : Option Bytes
  r : Option Bytes
  s : Option Bytes

namespace Draft

/-- No field has been read. -/
def empty : Draft :=
  ⟨none, none, none, none, none, none⟩

/-- Whether a field has been read. -/
def has (d : Draft) : Field → Bool
  | .version => d.version.isSome
  | .x => d.x.isSome
  | .y => d.y.isSome
  | .payload => d.payload.isSome
  | .r => d.r.isSome
  | .s => d.s.isSome

/-- Reads the value of a field. -/
def readField (d : Draft) (field : Field) : Reader Draft := fun text => do
  match field with
  | .version =>
    let (version, rest) ← readWord text
    return ({ d with version := some version }, rest)
  | .x =>
    let (x, rest) ← readAxis text
    return ({ d with x := some x }, rest)
  | .y =>
    let (y, rest) ← readAxis text
    return ({ d with y := some y }, rest)
  | .payload =>
    let (payload, rest) ← readBytes text
    return ({ d with payload := some payload }, rest)
  | .r =>
    let (r, rest) ← readBytes text
    return ({ d with r := some r }, rest)
  | .s =>
    let (s, rest) ← readBytes text
    return ({ d with s := some s }, rest)

/-- The value of a field, or the fault that it is missing. -/
def require {α : Type} (value : Option α) (field : Field) : Except Fault α :=
  match value with
  | some a => .ok a
  | none => .error (.mismatch (.missing field))

/-- The envelope of all fields, or the first one missing. -/
def finish (d : Draft) : Except Fault Envelope := do
  let version ← require d.version .version
  let x ← require d.x .x
  let y ← require d.y .y
  let payload ← require d.payload .payload
  let r ← require d.r .r
  let s ← require d.s .s
  return { version, x, y, payload, r, s }

end Draft

/-- How an object goes on, behind its opening brace or behind a value. An
element starts behind the opening quote of its key. -/
def nextKey (first : Bool) (text : Bytes) : Except Fault Step := do
  match skipBlanks text with
  | [] => throw .truncated
  | b :: rest =>
    if b = 0x7d then return .finish rest
    let key ←
      if first then pure (b :: rest)
      else if b = 0x2c then pure (skipBlanks rest)
      else throw .malformed
    match key with
    | [] => throw .truncated
    | c :: rest => if c = 0x22 then return .element rest else throw .malformed

/-- Passes over the colon behind a key. -/
def readColon (text : Bytes) : Except Fault Bytes :=
  match skipBlanks text with
  | [] => .error .truncated
  | b :: rest => if b = 0x3a then .ok rest else .error .malformed

/-- The field with a given key. -/
def Field.ofKey? (key : Bytes) : Option Field :=
  Field.all.find? fun field => Utf8.encode field.name = key

/-- Reads the value behind a key: into the draft, if the key is that of a
field. -/
def readMember (d : Draft) (key : Bytes) (text : Bytes) : Except Fault (Draft × Bytes) := do
  match Field.ofKey? key with
  | some field =>
    if d.has field then throw (.mismatch (.duplicate field))
    d.readField field (← readColon text)
  | none => return (d, ← skip (← readColon text))

/-- Reads the members of an object. Each takes a byte or more, so one more than
the length of the text is fuel enough. -/
def readMembers : (fuel : Nat) → (first : Bool) → Draft → Reader Draft
  | 0, _, _, _ => .error .truncated
  | fuel + 1, first, d, text => do
    match ← nextKey first text with
    | .finish rest => return (d, rest)
    | .element text =>
      let (key, rest) ← readString .text text
      let (d, rest) ← readMember d key rest
      readMembers fuel false d rest

/-- Reads the given fields as the elements of an array, and the end of the
array. -/
def readElements : (fields : List Field) → (count : Nat) → Draft → Reader Draft
  | [], _, d, text => do
    let rest ← endArray text
    return (d, rest)
  | field :: fields, count, d, text => do
    match ← nextElement (count == 0) text with
    | .finish _ => throw (.mismatch (.length count .envelopeElements))
    | .element text =>
      let (d, rest) ← d.readField field text
      readElements fields (count + 1) d rest

/-- Reads an envelope. -/
def readEnvelope : Reader Envelope := fun text =>
  match skipBlanks text with
  | [] => .error .truncated
  | b :: rest =>
    if b = 0x7b then do
      let (d, rest) ← readMembers (rest.length + 1) true .empty rest
      return (← d.finish, rest)
    else if b = 0x5b then do
      let (d, rest) ← readElements Field.all 0 .empty rest
      return (← d.finish, rest)
    else .error (unexpected .envelope (b :: rest))

end ConsensusEnvelope.Json
