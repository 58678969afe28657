import ConsensusEnvelope.Binary.Identity
import ConsensusEnvelope.Message.Dictionary

/-!
# Reports

A message with a field of every shape that payloads are made of: truth values,
characters, signed numbers, optional texts, lists, dictionaries and optional
senders.
-/

namespace ConsensusEnvelope

/-- A message of mixed fields. -/
@[ext] structure Report where
  flag : Bool
  letter : Char
  delta : Int64
  note : Option String
  items : List UInt16
  pairs : Dictionary Int8
  sender : Option Axis
  deriving DecidableEq

/-- The seven fields one after another. -/
def Report.format (o : Binary.Options) : Binary.Format Report :=
  (Binary.Format.bool.pair <| Binary.Format.char.pair <| (Binary.Format.i64 o).pair <|
    (Binary.Format.text o).option.pair <| ((Binary.Format.u16 o).list o).pair <|
    (Dictionary.format o Binary.Format.i8).pair (Binary.Format.axis o).option).map
    (fun m => (m.flag, m.letter, m.delta, m.note, m.items, m.pairs, m.sender))
    (fun (flag, letter, delta, note, items, pairs, sender) =>
      { flag, letter, delta, note, items, pairs, sender })

end ConsensusEnvelope
