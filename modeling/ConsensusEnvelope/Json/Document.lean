import ConsensusEnvelope.Json.Envelope

/-!
# JSON documents

A document is one value with nothing but blanks around it. Documents are written
without any blanks: byte strings as arrays of numbers, an envelope as an object
with its fields in their order.
-/

namespace ConsensusEnvelope.Json

/-- Reads a document. -/
def parse {α : Type} (read : Reader α) (text : Bytes) : Except Fault α := do
  let (a, rest) ← read text
  if (skipBlanks rest).isEmpty then return a else throw .malformed

/-- The array of the bytes of a byte string. -/
def writeBytes (bytes : Bytes) : String :=
  "[" ++ ",".intercalate (bytes.map fun b => toString b.toNat) ++ "]"

/-- The document of an axis. -/
def writeAxis (axis : Axis) : String :=
  writeBytes axis.bytes

/-- The document of a coordinate. -/
def writeCoordinate (c : Coordinate) : String :=
  writeBytes c.bytes

/-- The value of a field. -/
def writeField (e : Envelope) : Field → String
  | .version => toString e.version.toNat
  | .x => writeAxis e.x
  | .y => writeAxis e.y
  | .payload => writeBytes e.payload
  | .r => writeBytes e.r
  | .s => writeBytes e.s

/-- The document of an envelope. -/
def writeEnvelope (e : Envelope) : String :=
  let members := Field.all.map fun field => "\"" ++ field.name ++ "\":" ++ writeField e field
  "\x7b" ++ ",".intercalate members ++ "\x7d"

end ConsensusEnvelope.Json
