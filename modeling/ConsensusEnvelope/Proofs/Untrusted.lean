import ConsensusEnvelope.Proofs.Buffers
import ConsensusEnvelope.Proofs.Delivery

/-!
# Bytes from anyone

Whatever a peer sends, the receiving side comes to an answer. The steps in which
a program could stop are restated here over buffers and words: the limit on a
frame is a sum, an axis and a scalar are aligned to the end of a buffer, a
signature and a key are put together from halves, and the digest has a length
field of 32 bits. Each guard that makes them safe stands somewhere else: the
payload limit is capped, so that neither the sum nor the length field can
overflow; the length of an axis is compared before it is copied; the zeros in
front of a scalar are taken away before its length is compared. With the steps
restated, reading a frame and verifying an envelope still give what they give
over lists, for every input.

What is left is the kind of errors. A frame is refused as a frame, an envelope
as one that does not verify, and only a payload under a verified signature
reaches the codec or a comparison of senders.
-/

namespace ConsensusEnvelope

open Secp256k1

/-! ## The receiving side over buffers -/

namespace Buffer

def axis (bytes : Bytes) : Except Trap (Except AxisTooLong Bytes) :=
  if 32 < bytes.length then return .error ⟨bytes.length⟩
  else return .ok (← rightAlign 32 bytes)

/-- Brings a scalar to 32 bytes, if its value fits. -/
def scalar (bytes : Bytes) : Except Trap (Option Bytes) := do
  let digits ← significant bytes
  if 32 < digits.length then return none
  else return some (← rightAlign 32 digits)

/-- Puts a signature together from its scalars. -/
def signature (r s : Bytes) : Except Trap (Option Signature) := do
  match ← scalar r, ← scalar s with
  | some r, some s =>
    let both ← halves 32 r s
    return Signature.ofScalars? (Bytes.value (both.take 32)) (Bytes.value (both.drop 32))
  | _, _ => return none

/-- Puts a public key together from its coordinate, behind the byte that
announces both axes. -/
def publicKey (c : Coordinate) : Except Trap (Option PublicKey) := do
  let both ← halves 32 c.x.bytes c.y.bytes
  let point ← copyInto (4 :: List.replicate 64 0) 1 65 both
  return PublicKey.ofCoordinates? (Bytes.value ((point.drop 1).take 32))
    (Bytes.value (point.drop 33))

def verify (settings : Settings) (e : Envelope) : Except Trap Bool :=
  if settings.payloadLimit.toNat < e.payload.length then return false
  else do
    let digest ← (e.digest settings).mapError .aborted
    match ← publicKey e.coordinate with
    | none => return false
    | some key =>
      match ← signature e.r e.s with
      | none => return false
      | some sig => return key.verifies digest sig.normalize

def decode (settings : Settings) (frame : Bytes) : Except Trap (Except FrameFault Envelope) := do
  let limit ← add settings.payloadLimit Frame.overhead
  if limit.toNat < frame.length then
    return .error (.tooLong frame.length limit.toNat)
  else return (Frame.options.decode Binary.Format.envelope frame).mapError .malformed

theorem axis_eq (bytes : Bytes) : axis bytes = .ok ((Axis.decode bytes).map Axis.bytes) := by
  rw [axis, Axis.decode]
  split
  · next h => rw [dif_neg (Nat.not_le.mpr h)]; rfl
  · next h =>
      rw [dif_pos (Nat.not_lt.mp h), rightAlign_eq_ok_iff.mpr ⟨Nat.not_lt.mp h, rfl⟩]
      rfl

theorem scalar_eq (bytes : Bytes) : scalar bytes = .ok (bytes.fit? 32) := by
  rw [scalar, significant_eq, Except.ok_bind, Bytes.fit?]
  split
  · next h => rw [if_neg (Nat.not_le.mpr h)]; rfl
  · next h =>
      rw [if_pos (Nat.not_lt.mp h), rightAlign_eq_ok_iff.mpr ⟨Nat.not_lt.mp h, rfl⟩]
      rfl

theorem signature_eq (r s : Bytes) : signature r s = .ok (Signature.ofBytes? r s) := by
  rw [signature, scalar_eq, Except.ok_bind, scalar_eq, Except.ok_bind, Signature.ofBytes?]
  cases hr : r.fit? 32 with
  | none => rfl
  | some r' =>
      cases hs : s.fit? 32 with
      | none => rfl
      | some s' =>
          have hr' := (Bytes.fit?_eq_some_iff.mp hr).1
          have hs' := (Bytes.fit?_eq_some_iff.mp hs).1
          dsimp only
          rw [halves_eq hr' hs', Except.ok_bind, List.take_left' hr', List.drop_left' hr']
          rfl

theorem publicKey_eq (c : Coordinate) : publicKey c = .ok c.publicKey? := by
  have hlen : (c.x.bytes ++ c.y.bytes).length = 64 := by
    rw [List.length_append, c.x.length_bytes, c.y.length_bytes]
  have hpoint : copyInto (4 :: List.replicate 64 0) 1 65 (c.x.bytes ++ c.y.bytes) =
      .ok (4 :: (c.x.bytes ++ c.y.bytes)) := by
    rw [copyInto_eq_ok_iff, hlen]
    exact ⟨by decide, by decide, rfl, List.append_nil _⟩
  rw [publicKey, halves_eq c.x.length_bytes c.y.length_bytes, Except.ok_bind, hpoint,
    Except.ok_bind, List.drop_succ_cons, List.drop_succ_cons, List.drop_zero,
    List.take_left' c.x.length_bytes, List.drop_left' c.x.length_bytes]
  rfl

theorem verify_eq (settings : Settings) (e : Envelope) :
    verify settings e = (e.verify settings).mapError .aborted := by
  rw [verify, Envelope.verify]
  split
  · rfl
  · next h =>
      rw [Envelope.digest, Statement.digest_eq (Nat.not_lt.mp h), Except.mapError_ok,
        Except.ok_bind, Except.ok_bind, publicKey_eq, Except.ok_bind]
      cases e.coordinate.publicKey? with
      | none => rfl
      | some key =>
          dsimp only
          rw [signature_eq, Except.ok_bind]
          cases Signature.ofBytes? e.r e.s with
          | none => rfl
          | some sig => rfl

theorem decode_eq (settings : Settings) (frame : Bytes) :
    decode settings frame = .ok (Frame.decode settings frame) := by
  have hsum : add settings.payloadLimit Frame.overhead = .ok (Frame.limit settings) := by
    have hlimit := settings.payloadLimit_lt
    exact if_pos (Nat.lt_trans (Nat.add_lt_add_right hlimit 1024) (by decide))
  rw [decode, hsum, Except.ok_bind, Frame.decode]
  split
  · rfl
  · rfl

end Buffer

/-! ## Answers and errors -/

namespace Endpoint

variable {α : Type} {endpoint : Endpoint α} {e : Envelope} {valid : Bool}

theorem outcome_verifySender_cases (h : e.verify endpoint.settings = .ok valid)
    (expected : Coordinate) :
    (endpoint.verifySender e expected).outcome = .ok () ∨
      (endpoint.verifySender e expected).outcome = .error .verificationFailed ∨
      (endpoint.verifySender e expected).outcome =
        .error (.senderMismatch expected e.coordinate) := by
  rw [verifySender, Traced.outcome_bind, outcome_requireValid h]
  cases valid with
  | false => exact .inr (.inl rfl)
  | true =>
      rw [if_pos rfl, Except.ok_bind]
      split
      · exact .inl rfl
      · exact .inr (.inr rfl)

theorem outcome_read_cases (h : e.verify endpoint.settings = .ok valid) :
    (∃ message, (endpoint.read e).outcome = .ok message) ∨
      (endpoint.read e).outcome = .error .verificationFailed ∨
      ∃ cause, (endpoint.read e).outcome = .error (.payload cause) := by
  cases valid with
  | false => exact .inr (.inl (outcome_read_of_invalid h))
  | true =>
      rw [outcome_read h]
      cases endpoint.codec.decode e.payload with
      | ok message => exact .inl ⟨message, rfl⟩
      | error cause => exact .inr (.inr ⟨cause, rfl⟩)

end Endpoint

theorem Frame.outcome_receive_cases (settings : Settings) (frame : Bytes) :
    (∃ e, (receive settings frame).outcome = .ok e) ∨
      ∃ fault, (receive settings frame).outcome = .error (.frame fault) := by
  rw [outcome_receive]
  cases decode settings frame with
  | ok e => exact .inl ⟨e, rfl⟩
  | error fault => exact .inr ⟨fault, rfl⟩

/-- Nothing that a peer sends stops the receiver. Reading a frame gives an envelope
or an error about the frame, and no axis in it can overrun its buffer. For every
envelope, also one that no frame could hold, verification gives a verdict. The
check of the sender fails only for the signature or for the sender, and the
reading of the message only for the signature or in the codec. -/
theorem Endpoint.receiving_total {α : Type} (endpoint : Endpoint α) (frame : Bytes)
    (e : Envelope) (expected : Coordinate) :
    (Buffer.decode endpoint.settings frame = .ok (Frame.decode endpoint.settings frame) ∧
      (∀ bytes, Buffer.axis bytes = .ok ((Axis.decode bytes).map Axis.bytes)) ∧
      ((∃ received, (Frame.receive endpoint.settings frame).outcome = .ok received) ∨
        ∃ fault, (Frame.receive endpoint.settings frame).outcome =
          .error (.frame fault))) ∧
    (∃ valid, Buffer.verify endpoint.settings e = .ok valid ∧
      e.verify endpoint.settings = .ok valid ∧
      (endpoint.verify e).outcome = .ok valid) ∧
    ((endpoint.verifySender e expected).outcome = .ok () ∨
      (endpoint.verifySender e expected).outcome = .error .verificationFailed ∨
      (endpoint.verifySender e expected).outcome =
        .error (.senderMismatch expected e.coordinate)) ∧
    ((∃ message, (endpoint.read e).outcome = .ok message) ∨
      (endpoint.read e).outcome = .error .verificationFailed ∨
      ∃ cause, (endpoint.read e).outcome = .error (.payload cause)) := by
  obtain ⟨valid, hvalid⟩ := Envelope.exists_verify_eq_ok endpoint.settings e
  refine ⟨⟨Buffer.decode_eq endpoint.settings frame, Buffer.axis_eq,
    Frame.outcome_receive_cases endpoint.settings frame⟩,
    ⟨valid, ?_, hvalid, outcome_verify hvalid⟩, outcome_verifySender_cases hvalid expected,
    outcome_read_cases hvalid⟩
  rw [Buffer.verify_eq, hvalid, Except.mapError_ok]

end ConsensusEnvelope
