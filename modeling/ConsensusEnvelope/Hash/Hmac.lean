import ConsensusEnvelope.Hash.Sha256

/-!
# HMAC-SHA-256 and the generator built on it

`hmac` is the keyed hash of RFC 2104 over SHA-256. `Generator` is the
deterministic bit generator that RFC 6979 builds from it: a key and a value of
32 bytes each, seeded with some material and then drawn from as often as needed.
-/

namespace ConsensusEnvelope

/-- The keyed hash of a message. A key above the 64 bytes of a block is replaced
by its digest. -/
def hmac (key message : Bytes) : Bytes :=
  let key := if key.length ≤ 64 then key else Sha256.hash key
  let block := key ++ List.replicate (64 - key.length) 0
  let inner := Sha256.hash (block.map (· ^^^ 0x36) ++ message)
  Sha256.hash (block.map (· ^^^ 0x5c) ++ inner)

@[simp] theorem length_hmac (key message : Bytes) : (hmac key message).length = 32 := by
  simp [hmac]

/-- The state of the generator. -/
structure Generator where
  key : Bytes
  chain : Bytes

namespace Generator

/-- Replaces the key, and with it the chain, by hashing the chain, one
separating byte and additional material. -/
def rekey (g : Generator) (separator : UInt8) (material : Bytes) : Generator :=
  let key := hmac g.key (g.chain ++ separator :: material)
  { key, chain := hmac key g.chain }

/-- The generator for some seed material: the material enters in two rounds. -/
def seed (material : Bytes) : Generator :=
  let fresh : Generator := { key := List.replicate 32 0, chain := List.replicate 32 1 }
  (fresh.rekey 0 material).rekey 1 material

/-- Draws 32 bytes, and steps the generator past them. -/
def draw (g : Generator) : Bytes × Generator :=
  let chain := hmac g.key g.chain
  (chain, { g with chain }.rekey 0 [])

end Generator

end ConsensusEnvelope
