import ConsensusEnvelope.Coordinate
import ConsensusEnvelope.Hash.Blake2b
import ConsensusEnvelope.Settings
import ConsensusEnvelope.Text.Utf8

/-!
# Statements and their digests

A statement is what a signature vouches for: the version, the two axes of the
sender and the payload. Its preimage under a domain is

    domain ‖ version (4) ‖ x (32) ‖ y (32) ‖ payload length (4) ‖ payload

with numbers least significant byte first. All fields behind the domain have a
fixed width or a length in front of them, so under one domain a preimage
determines the statement. The digest is the BLAKE2b hash of the preimage.
-/

namespace ConsensusEnvelope

/-- The fields that a signature covers. -/
@[ext] structure Statement where
  version : UInt32
  x : Axis
  y : Axis
  payload : Bytes
  deriving DecidableEq

namespace Statement

/-- The sender that a statement names. -/
def coordinate (st : Statement) : Coordinate :=
  ⟨st.x, st.y⟩

/-- The bytes that are hashed for a statement under a domain. -/
def preimage (domain : Bytes) (st : Statement) : Bytes :=
  domain ++ Bytes.littleEndian 4 st.version.toNat ++ st.x.bytes ++ st.y.bytes ++
    Bytes.littleEndian 4 st.payload.length ++ st.payload

/-- The digest of a statement under a domain. The length field cannot state
`2 ^ 32` bytes or more, so a payload of that length is never hashed. -/
def digest (domain : Bytes) (st : Statement) : Except Abort Bytes :=
  if st.payload.length < UInt32.size then .ok (Blake2b.hash (st.preimage domain))
  else .error (.lengthField st.payload.length)

end Statement

/-- The bytes of the domain text. -/
def Settings.domainBytes (settings : Settings) : Bytes :=
  Utf8.encode settings.domain

end ConsensusEnvelope
