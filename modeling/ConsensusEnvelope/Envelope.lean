import ConsensusEnvelope.Error
import ConsensusEnvelope.Secp256k1.Signature
import ConsensusEnvelope.Statement

/-!
# Signed envelopes

An envelope is a statement with a signature over its digest. It names its
sender, so it is verified from its own contents and the domain, without a
register of keys.

The two scalars of the signature are stored without leading zeros. Verification
is more liberal: it ignores any number of leading zeros and accepts either of
the two values of `s` that satisfy the signature equation. A payload above the
receiver's limit is refused before anything is hashed.
-/

namespace ConsensusEnvelope

open Secp256k1

/-- A statement and the scalars of a signature over it, as big-endian byte
strings. -/
@[ext] structure Envelope extends Statement where
  r : Bytes
  s : Bytes
  deriving DecidableEq

namespace Envelope

/-- The unsigned envelope with empty fields. -/
def empty : Envelope where
  version := 0
  x := Axis.zero
  y := Axis.zero
  payload := []
  r := []
  s := []

instance : Inhabited Envelope := ⟨empty⟩

/-- The digest that the signature of an envelope is checked against. It covers
the version of the envelope, not that of the settings. -/
def digest (settings : Settings) (e : Envelope) : Except Abort Bytes :=
  e.toStatement.digest settings.domainBytes

/-- Refuses a payload above the limit. -/
def checkSize (settings : Settings) (payload : Bytes) : Except Error Unit :=
  let limit := settings.payloadLimit.toNat
  if limit < payload.length then .error (.payloadTooLarge payload.length limit) else .ok ()

/-- Writes a statement and a signature over it into an envelope, field by field. -/
def store (st : Statement) (sig : Signature) : ExceptT Error (StateM Envelope) Unit := do
  modify fun e => { e with version := st.version }
  modify fun e => { e with x := st.x }
  modify fun e => { e with y := st.y }
  modify fun e => { e with payload := st.payload }
  modify fun e => { e with r := (Bytes.bigEndian 32 sig.r).minimal }
  modify fun e => { e with s := (Bytes.bigEndian 32 sig.s).minimal }

/-- The steps of signing, on an envelope that is there already. A failure leaves the
envelope as the steps before it made it, and only the last step writes to it. -/
def signing (settings : Settings) (payload : Bytes) (key : SecretKey) (entropy : Bytes) :
    ExceptT Error (StateM Envelope) Unit := do
  checkSize settings payload
  let sender ← (Coordinate.ofSecretKey key).mapError Error.aborted
  let st : Statement := { version := settings.version, x := sender.x, y := sender.y, payload }
  let digest ← (st.digest settings.domainBytes).mapError Error.aborted
  let sig ← (key.sign? digest entropy).elim (throw .signing) pure
  store st sig

/-- Signs a payload into an existing envelope, and says what came of it. -/
def sign (settings : Settings) (payload : Bytes) (key : SecretKey) (entropy : Bytes)
    (e : Envelope) : Envelope × Except Error Unit :=
  let (outcome, e') := (signing settings payload key entropy).run e
  (e', outcome)

/-- The envelope that the holder of a key signs for a payload, made from an empty one. -/
def signed (settings : Settings) (payload : Bytes) (key : SecretKey) (entropy : Bytes) :
    Except Error Envelope :=
  let (e, outcome) := sign settings payload key entropy empty
  outcome.map fun _ => e

/-- Whether the signature of an envelope holds under its own sender. -/
def verify (settings : Settings) (e : Envelope) : Except Abort Bool :=
  if settings.payloadLimit.toNat < e.payload.length then return false
  else do
    let digest ← e.digest settings
    match e.coordinate.publicKey? with
    | none => return false
    | some key =>
      match Signature.ofBytes? e.r e.s with
      | none => return false
      | some sig => return key.verifies digest sig.normalize

/-- A list of bytes as decimal numbers between brackets. -/
def describeBytes (bytes : Bytes) : String :=
  "[" ++ ", ".intercalate (bytes.map fun b => toString b.toNat) ++ "]"

/-- An envelope with its type and fields named, for diagnostic output. -/
def describe (e : Envelope) : String :=
  "SignedEnvelope \x7b version: " ++ toString e.version.toNat ++
    ", x: " ++ e.x.describe ++ ", y: " ++ e.y.describe ++
    ", payload: " ++ describeBytes e.payload ++
    ", r: " ++ describeBytes e.r ++ ", s: " ++ describeBytes e.s ++ " \x7d"

end Envelope

end ConsensusEnvelope
