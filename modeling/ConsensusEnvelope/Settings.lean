/-!
# Settings

What signers and receivers agree on, and what each decides alone. The domain
text separates networks and is hashed in front of every statement. The version
is the one written by signers. The payload bound is a matter of the receiver;
together with the 32 bits of the length field it makes up the payload limit.
-/

namespace ConsensusEnvelope

/-- The settings that signing, verification and framing work under. -/
@[ext] structure Settings where
  /-- The text hashed in front of every statement. -/
  domain : String
  /-- The version that signing writes. -/
  version : UInt32
  /-- The number of payload bytes that are accepted. -/
  maxPayload : UInt64
  deriving DecidableEq

namespace Settings

/-- The settings of the main network. -/
def default : Settings where
  domain := "==BDLS CONSENSUS MESSAGE=="
  version := 1
  maxPayload := 4194304

instance : Inhabited Settings := ⟨default⟩

/-- The largest payload that both the bound and a 32-bit length admit. -/
def payloadLimit (settings : Settings) : UInt64 :=
  min settings.maxPayload 0xffffffff

end Settings

end ConsensusEnvelope
