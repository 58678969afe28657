import ConsensusEnvelope.Binary.Format

/-!
# Lock and commit messages

The shortest exchange that settles a height: a validator locks in a round, and
later commits a state.
-/

namespace ConsensusEnvelope

/-- A lock in a round, or the commit of a state. -/
inductive Decision where
  | lock (height round : UInt64)
  | commit (height : UInt64) (state : Bytes)
  deriving DecidableEq

namespace Decision

open Binary

/-- The index of the kind of message, then its fields. -/
def write (o : Options) : Decision → Bytes
  | .lock height round =>
    (Format.variant o 2).write 0 ++
      ((Format.u64 o).pair (Format.u64 o)).write (height, round)
  | .commit height state =>
    (Format.variant o 2).write 1 ++
      ((Format.u64 o).pair (Format.bytes o)).write (height, state)

/-- Reads the index, then the fields that belong to it. -/
def read (o : Options) : Reader Decision := fun bytes => do
  let (index, rest) ← (Format.variant o 2).read bytes
  if index = 0 then
    let ((height, round), rest) ← ((Format.u64 o).pair (Format.u64 o)).read rest
    return (.lock height round, rest)
  else
    let ((height, state), rest) ← ((Format.u64 o).pair (Format.bytes o)).read rest
    return (.commit height state, rest)

/-- The binary form of a lock or commit message. -/
def format (o : Options) : Format Decision where
  write := write o
  read := read o

end Decision

end ConsensusEnvelope
