import ConsensusEnvelope.Proofs.Envelope
import ConsensusEnvelope.Proofs.Messages

/-!
# Delivery from one endpoint to another

A message is written into a payload, signed under one settings, framed, and then
unframed, verified and read under another settings with the same domain. Each
step has its own limit, but only one decides. The signer compares the payload
with its own limit and the receiver with the receiver's; the allowance of a
frame covers whatever else an envelope holds, because signature scalars take up
at most 32 bytes each, so the length check on the frame refuses no payload that
the receiver admits.
-/

namespace ConsensusEnvelope

open Secp256k1

namespace Endpoint

variable {α : Type}

/-- Reads the message in a received frame. -/
def accept (endpoint : Endpoint α) (frame : Bytes) : Traced Error α := do
  let e ← Frame.receive endpoint.settings frame
  endpoint.read e

/-- An endpoint takes the frame of an envelope as that envelope, reads a message
from it, and finds that it comes from a sender. -/
def Receives (endpoint : Endpoint α) (e : Envelope) (message : α) (sender : Coordinate) :
    Prop :=
  (Frame.receive endpoint.settings (Frame.encode e)).outcome = .ok e ∧
    (endpoint.accept (Frame.encode e)).outcome = .ok message ∧ e.coordinate = sender ∧
    (endpoint.verifySender e sender).outcome = .ok ()

/-- An endpoint refuses a frame: the frame itself, or the signature in it. -/
def Refuses (endpoint : Endpoint α) (frame : Bytes) : Prop :=
  (∃ fault, (endpoint.accept frame).outcome = .error (.frame fault)) ∨
    (endpoint.accept frame).outcome = .error .verificationFailed

variable {endpoint : Endpoint α} {e : Envelope} {valid : Bool}

theorem outcome_verify (h : e.verify endpoint.settings = .ok valid) :
    (endpoint.verify e).outcome = .ok valid := by
  rw [verify, Traced.outcome_bind, Traced.outcome_ofExcept, h, Except.ok_bind]
  cases valid <;> rfl

theorem requireValid_of_valid (h : e.verify endpoint.settings = .ok true) :
    endpoint.requireValid e = ⟨[], .ok ()⟩ := by
  have hverify : endpoint.verify e = ⟨[], .ok true⟩ := by
    rw [verify, h]
    rfl
  rw [requireValid, hverify]
  rfl

theorem requireValid_of_invalid (h : e.verify endpoint.settings = .ok false) :
    endpoint.requireValid e =
      ⟨[.verificationFailed e.version e.coordinate e.payload.length],
        .error .verificationFailed⟩ := by
  have hverify : endpoint.verify e =
      ⟨[.verificationFailed e.version e.coordinate e.payload.length], .ok false⟩ := by
    rw [verify, h]
    rfl
  rw [requireValid, hverify]
  rfl

theorem outcome_requireValid (h : e.verify endpoint.settings = .ok valid) :
    (endpoint.requireValid e).outcome =
      if valid then .ok () else .error .verificationFailed := by
  cases valid with
  | false => rw [requireValid_of_invalid h]; rfl
  | true => rw [requireValid_of_valid h]; rfl

/-- The decoder is asked about the payload of an envelope that verifies. -/
theorem readWith_of_valid {m : Type → Type} [Monad m] (ask : Bytes → m (Except CodecError α))
    (h : e.verify endpoint.settings = .ok true) :
    endpoint.readWith ask e =
      ask e.payload >>= fun answer => pure ⟨[], answer.mapError .payload⟩ := by
  rw [readWith, requireValid_of_valid h]

/-- The decoder is not asked about the payload of any other. -/
theorem readWith_of_invalid {m : Type → Type} [Monad m] (ask : Bytes → m (Except CodecError α))
    (h : e.verify endpoint.settings = .ok false) :
    endpoint.readWith ask e =
      pure ⟨[.verificationFailed e.version e.coordinate e.payload.length],
        .error .verificationFailed⟩ := by
  rw [readWith, requireValid_of_invalid h]

theorem read_of_valid (h : e.verify endpoint.settings = .ok true) :
    endpoint.read e = ⟨[], (endpoint.codec.decode e.payload).mapError .payload⟩ := by
  rw [read, readWith_of_valid _ h]
  rfl

theorem read_of_invalid (h : e.verify endpoint.settings = .ok false) :
    endpoint.read e =
      ⟨[.verificationFailed e.version e.coordinate e.payload.length],
        .error .verificationFailed⟩ := by
  rw [read, readWith_of_invalid _ h]
  rfl

theorem outcome_read (h : e.verify endpoint.settings = .ok true) :
    (endpoint.read e).outcome = (endpoint.codec.decode e.payload).mapError .payload := by
  rw [read_of_valid h]

theorem outcome_read_of_invalid (h : e.verify endpoint.settings = .ok false) :
    (endpoint.read e).outcome = .error .verificationFailed := by
  rw [read_of_invalid h]

theorem outcome_read_eq_ok_iff {message : α} :
    (endpoint.read e).outcome = .ok message ↔
      e.verify endpoint.settings = .ok true ∧ endpoint.codec.decode e.payload = .ok message := by
  obtain ⟨valid, hvalid⟩ := Envelope.exists_verify_eq_ok endpoint.settings e
  cases valid with
  | false =>
      rw [outcome_read_of_invalid hvalid, hvalid]
      exact ⟨nofun, nofun⟩
  | true =>
      rw [outcome_read hvalid, Except.mapError_eq_ok_iff]
      exact ⟨fun h => ⟨hvalid, h⟩, fun h => h.2⟩

theorem outcome_verifySender (h : e.verify endpoint.settings = .ok true) :
    (endpoint.verifySender e e.coordinate).outcome = .ok () := by
  have hmatches : e.coordinate.Matches e.x e.y := ⟨rfl, rfl⟩
  rw [verifySender, Traced.outcome_bind, outcome_requireValid h, if_pos hmatches]
  rfl

end Endpoint

theorem Frame.outcome_receive (settings : Settings) (frame : Bytes) :
    (receive settings frame).outcome = (decode settings frame).mapError .frame := by
  rw [receive]
  cases decode settings frame with
  | ok e => rfl
  | error fault => rfl

/-! ## Signed envelopes -/

namespace Envelope

variable {settings settings' : Settings} {payload entropy : Bytes} {key : SecretKey}
  {e : Envelope}

/-- The frame of a signed envelope exceeds its payload by less than the
allowance. -/
theorem length_encode_of_signed (h : signed settings payload key entropy = .ok e) :
    (Frame.encode e).length ≤ payload.length + 172 := by
  obtain ⟨-, sender, sig, -, -, rfl⟩ := signed_eq_ok_iff.mp h
  have hlen := Frame.length_layout (Nat.zero_le 32) (Nat.zero_le 32)
    (withSignature (.ofSender settings sender payload) sig)
  have hr := Bytes.length_minimal_le (Bytes.bigEndian 32 sig.r)
  have hs := Bytes.length_minimal_le (Bytes.bigEndian 32 sig.s)
  rw [Bytes.length_bigEndian] at hr hs
  rw [Frame.encode_eq_layout]
  simp only [withSignature, Statement.ofSender] at hlen ⊢
  omega

/-- A receiver with the signer's domain verifies a signed envelope exactly when
the payload is within the receiver's limit. -/
theorem verify_of_signed (h : signed settings payload key entropy = .ok e)
    (hdomain : settings.domain = settings'.domain) :
    e.verify settings' = .ok true ↔ payload.length ≤ settings'.payloadLimit.toNat := by
  rw [verify_eq_true_iff, payload_of_signed h]
  exact and_iff_left (holds_of_signed h hdomain)

end Envelope

/-- The signature primitive returns a signature for the statement that the holder
of a key makes of a payload. -/
def Secp256k1.SecretKey.Answers (key : SecretKey) (settings : Settings) (entropy : Bytes)
    (payload : Bytes) : Prop :=
  ∀ sender, Coordinate.ofSecretKey key = .ok sender →
    (key.sign? ((Statement.ofSender settings sender payload).hash settings) entropy).isSome

theorem Secp256k1.SecretKey.answers_iff {key : SecretKey} {settings : Settings}
    {entropy payload : Bytes} {sender : Coordinate}
    (hsender : Coordinate.ofSecretKey key = .ok sender) :
    key.Answers settings entropy payload ↔
      (key.sign? ((Statement.ofSender settings sender payload).hash settings)
        entropy).isSome := by
  constructor
  · intro answers
    exact answers sender hsender
  · intro hsome sender' hsender'
    rw [hsender] at hsender'
    cases hsender'
    exact hsome

theorem Secp256k1.SecretKey.answers_of_signed {key : SecretKey} {settings : Settings}
    {entropy payload : Bytes} {e : Envelope}
    (h : Envelope.signed settings payload key entropy = .ok e) :
    key.Answers settings entropy payload := by
  obtain ⟨-, sender, sig, hsender, hsig, -⟩ := Envelope.signed_eq_ok_iff.mp h
  rw [answers_iff hsender]
  exact Option.isSome_iff_exists.mpr ⟨sig, hsig⟩

namespace Endpoint

variable {α : Type} {codec : Codec α} {signer receiver : Settings} {message : α}
  {payload entropy : Bytes} {key : SecretKey} {e : Envelope}

theorem sign_isOk_iff (hpayload : codec.encode message = .ok payload)
    (answers : key.Answers signer entropy payload) :
    (∃ e, (Endpoint.sign ⟨signer, codec⟩ message key entropy).outcome = .ok e) ↔
      payload.length ≤ signer.payloadLimit.toNat := by
  constructor
  · rintro ⟨e, h⟩
    exact (Envelope.signed_eq_ok_iff.mp ((sign_eq_ok_iff hpayload).mp h)).1
  · intro hsize
    obtain ⟨sender, -, hsender, -⟩ := Coordinate.exists_ofSecretKey key
    obtain ⟨sig, hsig⟩ := Option.isSome_iff_exists.mp (answers sender hsender)
    exact ⟨_, (sign_eq_ok_iff hpayload).mpr
      (Envelope.signed_eq_ok_iff.mpr ⟨hsize, sender, sig, hsender, hsig, rfl⟩)⟩

/-- Within the receiver's limit, what was signed is received. -/
theorem receives_of_signed (hcodec : codec.decode payload = .ok message)
    (h : Envelope.signed signer payload key entropy = .ok e)
    (hdomain : signer.domain = receiver.domain)
    (hsize : payload.length ≤ receiver.payloadLimit.toNat) :
    Endpoint.Receives ⟨receiver, codec⟩ e message e.coordinate := by
  have hverify := (Envelope.verify_of_signed h hdomain).mpr hsize
  have hframe := Envelope.length_encode_of_signed h
  have hdecode : (Frame.receive receiver (Frame.encode e)).outcome = .ok e := by
    rw [Frame.outcome_receive, Frame.decode_encode_iff.mpr (by omega), Except.mapError_ok]
  have hread : (Endpoint.read ⟨receiver, codec⟩ e).outcome = _ := outcome_read hverify
  rw [Envelope.payload_of_signed h, hcodec] at hread
  refine ⟨hdecode, ?_, rfl, outcome_verifySender hverify⟩
  rw [accept, Traced.outcome_bind, hdecode]
  exact hread

/-- Beyond the receiver's limit, what was signed is refused: as a frame if the
frame is too long as well, and otherwise as an envelope. -/
theorem refuses_of_signed (h : Envelope.signed signer payload key entropy = .ok e)
    (hsize : receiver.payloadLimit.toNat < payload.length) :
    Endpoint.Refuses ⟨receiver, codec⟩ (Frame.encode e) := by
  rw [← Envelope.payload_of_signed h] at hsize
  cases hdecode : Frame.decode receiver (Frame.encode e) with
  | error fault =>
      refine .inl ⟨fault, ?_⟩
      rw [accept, Traced.outcome_bind, Frame.outcome_receive, hdecode]
      rfl
  | ok e' =>
      have hsame := Frame.decode_encode_iff.mpr (Frame.decode_eq_ok_iff.mp hdecode).1
      refine .inr ?_
      rw [accept, Traced.outcome_bind, Frame.outcome_receive, hsame]
      exact outcome_read_of_invalid (Envelope.verify_oversized hsize)

theorem not_receives_of_refuses {endpoint : Endpoint α} {sender : Coordinate}
    (h : endpoint.Refuses (Frame.encode e)) : ¬ endpoint.Receives e message sender := by
  rintro ⟨-, haccept, -⟩
  rcases h with ⟨fault, hfault⟩ | hinvalid
  · rw [haccept] at hfault
    cases hfault
  · rw [haccept] at hinvalid
    cases hinvalid

/-- Delivery, from end to end. Every message has a payload and every key a
coordinate. Signing succeeds exactly for the payloads within the signer's limit.
A receiver with the same domain receives the message from that coordinate
exactly if the payload is within the receiver's limit; it then never objects to
the length of the frame, and otherwise it refuses the frame or the signature. -/
theorem delivery (kind : MessageKind) (message : kind.Message) (key : SecretKey)
    (entropy : Bytes) {signer receiver : Settings}
    (hdomain : signer.domain = receiver.domain)
    (answers : ∀ payload, kind.codec.encode message = .ok payload →
      key.Answers signer entropy payload) :
    ∃ payload sender, kind.codec.encode message = .ok payload ∧
      Coordinate.ofSecretKey key = .ok sender ∧
      ((∃ e, (Endpoint.sign ⟨signer, kind.codec⟩ message key entropy).outcome = .ok e) ↔
        payload.length ≤ signer.payloadLimit.toNat) ∧
      ∀ e, (Endpoint.sign ⟨signer, kind.codec⟩ message key entropy).outcome = .ok e →
        (Endpoint.Receives ⟨receiver, kind.codec⟩ e message sender ↔
          payload.length ≤ receiver.payloadLimit.toNat) ∧
        (payload.length ≤ receiver.payloadLimit.toNat →
          (Frame.encode e).length ≤ (Frame.limit receiver).toNat) ∧
        (receiver.payloadLimit.toNat < payload.length →
          Endpoint.Refuses ⟨receiver, kind.codec⟩ (Frame.encode e)) := by
  obtain ⟨payload, hpayload, hread⟩ := kind.faithful_codec message
  obtain ⟨sender, -, hsender, -⟩ := Coordinate.exists_ofSecretKey key
  refine ⟨payload, sender, hpayload, hsender,
    sign_isOk_iff hpayload (answers payload hpayload), fun e hsign => ?_⟩
  have hsigned := (sign_eq_ok_iff hpayload).mp hsign
  have hcoordinate := Envelope.coordinate_of_signed hsigned
  rw [hsender] at hcoordinate
  cases hcoordinate
  have hwithin := (Envelope.signed_eq_ok_iff.mp hsigned).1
  have hlimit := signer.payloadLimit_lt
  have hcodec := hread (hwithin.trans_lt (hlimit.trans (by decide)))
  refine ⟨⟨fun hreceives => ?_, receives_of_signed hcodec hsigned hdomain⟩, fun hsize => ?_,
    refuses_of_signed hsigned⟩
  · by_contra hlarge
    refine not_receives_of_refuses ?_ hreceives
    exact refuses_of_signed hsigned (Nat.not_le.mp hlarge)
  · have hframe := Envelope.length_encode_of_signed hsigned
    rw [Frame.toNat_limit]
    omega

/-- The vote of the holder of the scalar two reaches a receiver of another version with room
for its 44 bytes and no more, and is refused by one with room for a byte less. -/
theorem delivery_vote :
    let receiver : Settings := { Settings.trial with version := 1, maxPayload := 44 }
    let smaller : Settings := { Settings.trial with maxPayload := 43 }
    ∃ e sender, Coordinate.ofSecretKey SecretKey.two = .ok sender ∧
      (Endpoint.sign ⟨Settings.trial, MessageKind.vote.codec⟩ Vote.trial SecretKey.two
        [0x5a]).outcome = .ok e ∧
      Endpoint.Receives ⟨receiver, MessageKind.vote.codec⟩ e Vote.trial sender ∧
      Endpoint.Refuses ⟨smaller, MessageKind.vote.codec⟩ (Frame.encode e) := by
  intro receiver smaller
  obtain ⟨e, h⟩ := Envelope.exists_signed_vote
  have answers : ∀ payload, MessageKind.vote.codec.encode Vote.trial = .ok payload →
      SecretKey.two.Answers Settings.trial [0x5a] payload := by
    intro payload hpayload
    cases hpayload
    exact SecretKey.answers_of_signed h
  obtain ⟨payload, sender, hpayload, hsender, hsigns, hreceives⟩ :=
    delivery .vote Vote.trial SecretKey.two [0x5a]
      (show Settings.trial.domain = receiver.domain from rfl) answers
  obtain ⟨payload', _, hpayload', -, -, hrefuses⟩ :=
    delivery .vote Vote.trial SecretKey.two [0x5a]
      (show Settings.trial.domain = smaller.domain from rfl) answers
  cases hpayload
  cases hpayload'
  obtain ⟨e, he⟩ := hsigns.mpr (by decide)
  exact ⟨e, sender, hsender, he, (hreceives e he).1.mpr (by decide),
    (hrefuses e he).2.2 (by decide)⟩

end Endpoint

end ConsensusEnvelope
