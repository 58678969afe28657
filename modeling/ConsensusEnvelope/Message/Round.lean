import ConsensusEnvelope.Binary.Format

/-!
# Messages of a consensus round

A round opens with a request to change to it and goes on with messages of four
phases, each of which carries a state.
-/

namespace ConsensusEnvelope

/-- The phases of a round that carry a state, in their order. -/
inductive Phase where
  | lock
  | select
  | commit
  | decide
  deriving DecidableEq

/-- The place of a phase among the kinds of message, behind the round change. -/
def Phase.index : Phase → Nat
  | .lock => 1
  | .select => 2
  | .commit => 3
  | .decide => 4

/-- The phase at a place; places above the last one count as the last. -/
def Phase.ofIndex : Nat → Phase
  | 1 => .lock
  | 2 => .select
  | 3 => .commit
  | _ => .decide

/-- A message of a round. -/
inductive RoundMessage where
  | roundChange (height round : UInt64)
  | phase (stage : Phase) (height round : UInt64) (state : Bytes)
  deriving DecidableEq

namespace RoundMessage

open Binary

/-- The index of the kind of message, then its fields. -/
def write (o : Options) : RoundMessage → Bytes
  | .roundChange height round =>
    (Format.variant o 5).write 0 ++
      ((Format.u64 o).pair (Format.u64 o)).write (height, round)
  | .phase stage height round state =>
    (Format.variant o 5).write stage.index ++
      ((Format.u64 o).pair <| (Format.u64 o).pair (Format.bytes o)).write
        (height, round, state)

/-- Reads the index, then the fields that belong to it. -/
def read (o : Options) : Reader RoundMessage := fun bytes => do
  let (index, rest) ← (Format.variant o 5).read bytes
  if index = 0 then
    let ((height, round), rest) ← ((Format.u64 o).pair (Format.u64 o)).read rest
    return (.roundChange height round, rest)
  else
    let ((height, round, state), rest) ←
      ((Format.u64 o).pair <| (Format.u64 o).pair (Format.bytes o)).read rest
    return (.phase (Phase.ofIndex index) height round state, rest)

/-- The binary form of a message of a round. -/
def format (o : Options) : Format RoundMessage where
  write := write o
  read := read o

end RoundMessage

end ConsensusEnvelope
