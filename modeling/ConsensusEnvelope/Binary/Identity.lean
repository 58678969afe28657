import ConsensusEnvelope.Binary.Format
import ConsensusEnvelope.Envelope

/-!
# Binary forms of axes, coordinates and envelopes

An axis and a coordinate are byte strings behind their length; an axis may come
without its leading zeros, a coordinate may not. An envelope is its six fields
one after another.
-/

namespace ConsensusEnvelope.Binary.Format

/-- An axis: a byte string of at most 32 bytes. -/
def axis (o : Options) : Format Axis :=
  (blob o).filterMap Axis.bytes fun bs => (Axis.decode bs).mapError .axis

/-- A coordinate: a byte string of 64 bytes. -/
def coordinate (o : Options) : Format Coordinate :=
  (blob o).filterMap Coordinate.bytes fun bs =>
    match Coordinate.ofBytes? bs with
    | some c => .ok c
    | none => .error (.coordinateLength bs.length)

/-- The fields of an envelope in their order. -/
def envelope (o : Options) : Format Envelope :=
  ((u32 o).pair <| (axis o).pair <| (axis o).pair <| (bytes o).pair <|
    (bytes o).pair (bytes o)).map
    (fun e => (e.version, e.x, e.y, e.payload, e.r, e.s))
    (fun (version, x, y, payload, r, s) => { version, x, y, payload, r, s })

end ConsensusEnvelope.Binary.Format
