import ConsensusEnvelope.Binary.Format

/-!
# Votes

The vote for a block at a height and in a round, with the block named by its
32-byte hash.
-/

namespace ConsensusEnvelope

/-- A vote for a block. -/
@[ext] structure Vote where
  height : UInt64
  round : UInt32
  block : Vector UInt8 32
  deriving DecidableEq

/-- The three fields one after another. -/
def Vote.format (o : Binary.Options) : Binary.Format Vote :=
  ((Binary.Format.u64 o).pair <| (Binary.Format.u32 o).pair <| Binary.Format.block 32).map
    (fun v => (v.height, v.round, v.block))
    (fun (height, round, block) => { height, round, block })

end ConsensusEnvelope
