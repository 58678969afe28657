import ConsensusEnvelope.Coordinate
import ConsensusEnvelope.Json.Sequence

/-!
# Axes and coordinates in JSON

Both are written as arrays of numbers. Both are also read from a string, whose
bytes are taken. An axis takes any array of up to 32 bytes, and reads a longer
one to its end before refusing it. A coordinate takes 64 bytes and looks no
further.
-/

namespace ConsensusEnvelope.Json

/-- Reads an axis. -/
def readAxis : Reader Axis := fun text =>
  match skipBlanks text with
  | [] => .error .truncated
  | b :: rest =>
    if b = 0x5b then do
      let (intake, rest) ← foldArray readByte Axis.Intake.push .empty rest
      let axis ← intake.finish.mapError fun cause => .mismatch (.axis cause)
      return (axis, rest)
    else if b = 0x22 then do
      let (bytes, rest) ← readString .bytes rest
      let axis ← (Axis.decode bytes).mapError fun cause => .mismatch (.axis cause)
      return (axis, rest)
    else .error (unexpected .axis (b :: rest))

/-- Reads `missing` more bytes of a coordinate, behind those found, and the end
of the array. -/
def readCoordinateBytes : (missing : Nat) → (found : Bytes) → Reader Bytes
  | 0, found, text => do
    let rest ← endArray text
    return (found.reverse, rest)
  | missing + 1, found, text => do
    match ← nextElement found.isEmpty text with
    | .finish _ => throw (.mismatch (.length found.length .coordinate))
    | .element text =>
      let (b, rest) ← readByte text
      readCoordinateBytes missing (b :: found) rest

/-- The coordinate that a byte string stands for. -/
def coordinateOf (bytes : Bytes) : Except Fault Coordinate :=
  match Coordinate.ofBytes? bytes with
  | some c => .ok c
  | none => .error (.mismatch (.length bytes.length .coordinate))

/-- Reads a coordinate. -/
def readCoordinate : Reader Coordinate := fun text =>
  match skipBlanks text with
  | [] => .error .truncated
  | b :: rest =>
    if b = 0x5b then do
      let (bytes, rest) ← readCoordinateBytes Coordinate.width [] rest
      return (← coordinateOf bytes, rest)
    else if b = 0x22 then do
      let (bytes, rest) ← readString .bytes rest
      return (← coordinateOf bytes, rest)
    else .error (unexpected .coordinate (b :: rest))

end ConsensusEnvelope.Json
