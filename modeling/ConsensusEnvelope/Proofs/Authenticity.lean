import ConsensusEnvelope.Proofs.Envelope
import ConsensusEnvelope.Proofs.Preimage
import ConsensusEnvelope.Proofs.Utf8

/-!
# Accepted envelopes were signed

A log lists signing calls that succeeded, by any keys and under any settings.
If a receiver accepts an envelope that names the coordinate of a key, then that
key signed this payload, for this version and under the receiver's domain, in
one of the calls of the log. This holds of an envelope from anywhere, because
verification looks at nothing but the envelope and the domain.

Two primitives are trusted, and only as far as the envelope in question goes.
A signature that the key's public key accepts for the envelope's digest was not
forged: the key signed that digest in the log. And the hash does not collide
between the preimage of the envelope and those of the log. What is left to prove
is that acceptance does amount to a check of the signature, under the public key
of the named coordinate and for the digest of the envelope's own fields, and
that a common preimage leaves the fields no choice.
-/

namespace ConsensusEnvelope

open Secp256k1

/-- A call that signs a payload, and the envelope that it returned. -/
structure Signing where
  settings : Settings
  key : SecretKey
  payload : Bytes
  envelope : Envelope

namespace Signing

/-- The call succeeded: a payload was signed into some envelope, or an endpoint
signed a message that its codec writes as the payload. -/
inductive Performed : Signing → Prop
  | envelope {settings : Settings} {key : SecretKey} {payload entropy : Bytes}
      {before after : Envelope}
      (h : Envelope.sign settings payload key entropy before = (after, .ok ())) :
      Performed ⟨settings, key, payload, after⟩
  | endpoint {α : Type} {endpoint : Endpoint α} {key : SecretKey} {message : α}
      {payload entropy : Bytes} {after : Envelope}
      (hpayload : endpoint.codec.encode message = .ok payload)
      (h : (endpoint.sign message key entropy).outcome = .ok after) :
      Performed ⟨endpoint.settings, key, payload, after⟩

/-- The bytes whose hash was signed. -/
def preimage (call : Signing) : Bytes :=
  call.envelope.toStatement.preimage call.settings.domainBytes

theorem Performed.signed {call : Signing} (h : call.Performed) :
    ∃ entropy, Envelope.signed call.settings call.payload call.key entropy =
      .ok call.envelope := by
  cases h with
  | @envelope _ _ _ entropy _ _ h => exact ⟨entropy, Envelope.sign_eq_ok_iff.mp h⟩
  | @endpoint _ _ _ _ _ entropy _ hpayload h =>
      exact ⟨entropy, (Endpoint.sign_eq_ok_iff hpayload).mp h⟩

theorem Performed.statement {call : Signing} (h : call.Performed) :
    call.envelope.version = call.settings.version ∧
      call.envelope.payload = call.payload := by
  obtain ⟨entropy, hsigned⟩ := h.signed
  exact ⟨Envelope.version_of_signed hsigned, Envelope.payload_of_signed hsigned⟩

end Signing

/-- A signature of a digest is no forgery: if it is accepted under the public
key of a secret key, then the log has a call by which that key signed the
digest. It is asked of one signature at a time. Of all of them it would fail,
because a key accepts whatever its holder could have signed, signed or not. -/
def Unforged (log : List Signing) (key : SecretKey) (digest : Bytes) (sig : Signature) :
    Prop :=
  ∀ publicKey, key.publicKey? = some publicKey → publicKey.verifies digest sig = true →
    ∃ call ∈ log, call.key = key ∧ Blake2b.hash call.preimage = digest

/-- No preimage of the log has the hash of a given one without being equal to
it. -/
def CollisionFree (log : List Signing) (preimage : Bytes) : Prop :=
  ∀ call ∈ log, Blake2b.hash call.preimage = Blake2b.hash preimage →
    call.preimage = preimage

namespace Envelope

/-- Authenticity. Whatever log of successful calls there has been, under domains
none of which is a proper prefix of another: an envelope that verifies and names
the coordinate of a key carries a payload that the key signed, under the
receiver's domain and for the version that the envelope states. -/
theorem authentic {log : List Signing} (performed : ∀ call ∈ log, call.Performed)
    {settings : Settings}
    (free : Bytes.PrefixFree
      (settings.domainBytes :: log.map fun call => call.settings.domainBytes))
    {e : Envelope} {key : SecretKey}
    (sender : Coordinate.ofSecretKey key = .ok e.coordinate)
    (unforged : ∀ sig, Signature.ofBytes? e.r e.s = some sig →
      Unforged log key (Blake2b.hash (e.toStatement.preimage settings.domainBytes))
        sig.normalize)
    (collisionFree : CollisionFree log (e.toStatement.preimage settings.domainBytes))
    (verified : e.verify settings = .ok true) :
    ∃ call ∈ log, call.key = key ∧ call.settings.domain = settings.domain ∧
      call.settings.version = e.version ∧ call.payload = e.payload := by
  obtain ⟨-, publicKey, sig, hkey, hsig, hverifies⟩ := verify_eq_true_iff.mp verified
  rw [Coordinate.publicKey?_of_ofSecretKey sender] at hkey
  obtain ⟨call, hmem, hcall, hhash⟩ := unforged sig hsig publicKey hkey hverifies
  have hpreimage := collisionFree call hmem hhash
  rw [Signing.preimage, Statement.preimage_eq_append,
    Statement.preimage_eq_append settings.domainBytes] at hpreimage
  have hlogged := List.mem_map_of_mem (f := fun call => call.settings.domainBytes) hmem
  obtain ⟨hdomain, hfields⟩ := free.append_inj (List.mem_cons_of_mem _ hlogged)
    List.mem_cons_self hpreimage
  have hstatement := Statement.eq_of_preimage_nil_eq hfields
  obtain ⟨hversion, hpayload⟩ := (performed call hmem).statement
  refine ⟨call, hmem, hcall, Utf8.encode_inj.mp hdomain, ?_, ?_⟩
  · rw [← hversion, hstatement]
  · rw [← hpayload, hstatement]

/-- The vote of the key two has another hash than the empty payload of the key one on the main
network. -/
theorem hash_vote_ne {one two : Coordinate} (hone : Coordinate.ofSecretKey SecretKey.one = .ok one)
    (htwo : Coordinate.ofSecretKey SecretKey.two = .ok two) :
    (Statement.ofSender Settings.default one []).hash Settings.default ≠
      (Statement.ofSender Settings.trial two Vote.trialPayload).hash Settings.trial := by
  have hhash : (do
      let one ← Coordinate.ofSecretKey SecretKey.one
      let two ← Coordinate.ofSecretKey SecretKey.two
      return decide <|
        (Statement.ofSender Settings.default one []).hash Settings.default ≠
          (Statement.ofSender Settings.trial two Vote.trialPayload).hash Settings.trial) =
      (.ok true : Except Abort Bool) := by decide +kernel
  rw [hone, Except.ok_bind, htwo, Except.ok_bind] at hhash
  exact of_decide_eq_true (Except.ok.inj hhash)

/-- The key one signs the empty payload on the main network, into an envelope, and the key two
signs a vote on another one, as a message of an endpoint. The log of both calls accounts for
the vote. -/
theorem authentic_vote :
    ∃ first vote : Envelope, ∃ log : List Signing,
      log = [⟨Settings.default, SecretKey.one, [], first⟩,
        ⟨Settings.trial, SecretKey.two, Vote.trialPayload, vote⟩] ∧
      (∀ call ∈ log, call.Performed) ∧ vote.verify Settings.trial = .ok true ∧
      ∃ call ∈ log, call.key = SecretKey.two ∧ call.settings.domain = "==TEST==" ∧
        call.settings.version = vote.version ∧ call.payload = vote.payload := by
  obtain ⟨first, hfirst⟩ := exists_signed_one
  obtain ⟨vote, hvote⟩ := exists_signed_vote
  let log : List Signing := [⟨Settings.default, SecretKey.one, [], first⟩,
    ⟨Settings.trial, SecretKey.two, Vote.trialPayload, vote⟩]
  have performed : ∀ call ∈ log, call.Performed := by
    intro call hmem
    simp only [log, List.mem_cons, List.not_mem_nil, or_false] at hmem
    rcases hmem with rfl | rfl
    · have hsign : sign Settings.default [] SecretKey.one [] empty = (first, .ok ()) :=
        sign_eq_ok_iff.mpr hfirst
      exact .envelope hsign
    · let endpoint : Endpoint Vote := ⟨Settings.trial, .binary Vote.format⟩
      have hpayload : endpoint.codec.encode Vote.trial = .ok Vote.trialPayload := rfl
      have hsign : (endpoint.sign Vote.trial SecretKey.two [0x5a]).outcome = .ok vote :=
        (Endpoint.sign_eq_ok_iff hpayload).mpr hvote
      exact .endpoint hpayload hsign
  have verified : vote.verify Settings.trial = .ok true := by
    rw [verify_eq_true_iff, payload_of_signed hvote]
    exact ⟨(signed_eq_ok_iff.mp hvote).1, holds_of_signed hvote rfl⟩
  have free : Bytes.PrefixFree [Settings.trial.domainBytes, Settings.default.domainBytes,
      Settings.trial.domainBytes] := by decide
  have collisionFree :
      CollisionFree log (vote.toStatement.preimage Settings.trial.domainBytes) := by
    obtain ⟨one, hone, hstatement⟩ := statement_of_signed hfirst
    obtain ⟨two, htwo, hstatement'⟩ := statement_of_signed hvote
    intro call hmem hhash
    simp only [log, List.mem_cons, List.not_mem_nil, or_false] at hmem
    rcases hmem with rfl | rfl
    · rw [Signing.preimage, hstatement, hstatement'] at hhash
      exact absurd hhash (hash_vote_ne hone htwo)
    · rfl
  have unforged : ∀ sig, Signature.ofBytes? vote.r vote.s = some sig →
      Unforged log SecretKey.two
        (Blake2b.hash (vote.toStatement.preimage Settings.trial.domainBytes)) sig.normalize :=
    fun _ _ _ _ _ => ⟨_, List.mem_of_getLast? rfl, rfl, rfl⟩
  exact ⟨first, vote, log, rfl, performed, verified,
    authentic performed free (coordinate_of_signed hvote) unforged collisionFree verified⟩

end Envelope

end ConsensusEnvelope
