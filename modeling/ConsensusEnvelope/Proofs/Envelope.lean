import ConsensusEnvelope.Endpoint
import ConsensusEnvelope.Message.Vote
import ConsensusEnvelope.Proofs.Frame
import ConsensusEnvelope.Proofs.Secp256k1.Signing

/-!
# What signing makes and what verification accepts

Signing and verification are described once, by the conditions under which they
succeed. Signing needs a payload within the signer's limit and an answer of the
signature primitive; the statement that it signs names the key's own coordinate,
which always exists. It works on an envelope that is there already and writes to
its six fields one by one, but not before both conditions are known to hold. So a
failure leaves that envelope as it was, and a success leaves nothing of it.
Verification accepts an envelope whose payload is within the receiver's limit and
whose signature holds under the key that the envelope names, for the digest of the
envelope's own fields.

The two meet in that an envelope that was signed is accepted under every limit
that its payload fits into: the coordinate is read back as the public key of the
signer, and the scalars without their leading zeros as the signature.
-/

namespace ConsensusEnvelope

open Secp256k1

/-! ## Keys and coordinates -/

theorem fieldPrime_lt : fieldPrime < 256 ^ 32 := by decide

theorem order_lt_width : order < 256 ^ 32 := by decide

theorem Axis.ofKeyComponent_eq (n : Nat) :
    ofKeyComponent (Bytes.bigEndian 32 n) = .ok ⟨_, Bytes.length_bigEndian 32 n⟩ := by
  rw [ofKeyComponent, Except.mapError_eq_ok_iff]
  exact decode_bytes ⟨_, _⟩

namespace Coordinate

/-- The coordinate of a public key exists and names that key. -/
theorem exists_ofPublicKey (key : PublicKey) :
    ∃ c, ofPublicKey key = .ok c ∧ c.publicKey? = some key := by
  refine ⟨⟨⟨_, Bytes.length_bigEndian 32 key.x⟩, ⟨_, Bytes.length_bigEndian 32 key.y⟩⟩,
    ?_, ?_⟩
  · rw [ofPublicKey, Axis.ofKeyComponent_eq, Axis.ofKeyComponent_eq]
    rfl
  · rw [publicKey?, Axis.value, Axis.value,
      Bytes.value_bigEndian (key.x_lt.trans fieldPrime_lt),
      Bytes.value_bigEndian (key.y_lt.trans fieldPrime_lt),
      PublicKey.ofCoordinates?_eq_some_iff]
    exact ⟨rfl, rfl⟩

/-- Every secret key has a coordinate, and it names the public key of that
secret key. -/
theorem exists_ofSecretKey (key : SecretKey) :
    ∃ c publicKey, ofSecretKey key = .ok c ∧ key.publicKey? = some publicKey ∧
      c.publicKey? = some publicKey := by
  obtain ⟨publicKey, hkey, -⟩ := key.exists_publicKey
  obtain ⟨c, hc, hnames⟩ := exists_ofPublicKey publicKey
  exact ⟨c, publicKey, by rw [ofSecretKey, hkey]; exact hc, hkey, hnames⟩

theorem publicKey?_of_ofSecretKey {key : SecretKey} {c : Coordinate}
    (h : ofSecretKey key = .ok c) : c.publicKey? = key.publicKey? := by
  obtain ⟨c', publicKey, hc', hkey, hnames⟩ := exists_ofSecretKey key
  rw [h] at hc'
  cases hc'
  rw [hnames, hkey]

end Coordinate

/-- A signature is read from byte strings by their values alone. -/
theorem Secp256k1.Signature.ofBytes?_eq_some_iff {r s : Bytes} {sig : Signature} :
    ofBytes? r s = some sig ↔ sig.r = r.value ∧ sig.s = s.value := by
  simp only [ofBytes?, Option.bind_eq_bind, Option.bind_eq_some_iff, Bytes.fit?_eq_some_iff,
    ofScalars?_eq_some_iff]
  constructor
  · rintro ⟨r', ⟨-, hr'⟩, s', ⟨-, hs'⟩, hr, hs⟩
    exact ⟨hr.trans hr', hs.trans hs'⟩
  · intro h
    have hr := Bytes.value_bigEndian (sig.r_lt.trans order_lt_width)
    have hs := Bytes.value_bigEndian (sig.s_lt.trans order_lt_width)
    exact ⟨_, ⟨Bytes.length_bigEndian 32 sig.r, hr.trans h.1⟩, _,
      ⟨Bytes.length_bigEndian 32 sig.s, hs.trans h.2⟩, hr.symm, hs.symm⟩

theorem Secp256k1.Signature.ofBytes?_minimal (sig : Signature) :
    ofBytes? (Bytes.bigEndian 32 sig.r).minimal (Bytes.bigEndian 32 sig.s).minimal =
      some sig := by
  rw [ofBytes?_eq_some_iff, Bytes.value_minimal, Bytes.value_minimal,
    Bytes.value_bigEndian (sig.r_lt.trans order_lt_width),
    Bytes.value_bigEndian (sig.s_lt.trans order_lt_width)]
  exact ⟨rfl, rfl⟩

/-- The least secret key. Its public key is the base point. -/
def Secp256k1.SecretKey.one : SecretKey :=
  ⟨1, by decide, by decide⟩

/-! ## Signing -/

/-- The statement by which a sender vouches for a payload. -/
def Statement.ofSender (settings : Settings) (sender : Coordinate) (payload : Bytes) :
    Statement where
  version := settings.version
  x := sender.x
  y := sender.y
  payload := payload

/-- The hash that stands for a statement under the domain of some settings. -/
def Statement.hash (settings : Settings) (st : Statement) : Bytes :=
  Blake2b.hash (st.preimage settings.domainBytes)

theorem Statement.digest_eq {settings : Settings} {st : Statement}
    (h : st.payload.length ≤ settings.payloadLimit.toNat) :
    st.digest settings.domainBytes = .ok (st.hash settings) :=
  if_pos (Nat.lt_of_le_of_lt h settings.payloadLimit_lt)

namespace Envelope

variable {settings settings' : Settings} {payload entropy : Bytes} {key : SecretKey}
  {e e' : Envelope}

theorem checkSize_eq_ok_iff :
    checkSize settings payload = .ok () ↔ payload.length ≤ settings.payloadLimit.toNat := by
  rw [checkSize]
  split
  · next h => exact ⟨nofun, fun hle => absurd h (Nat.not_lt.mpr hle)⟩
  · next h => exact ⟨fun _ => Nat.not_lt.mp h, fun _ => rfl⟩

/-- The envelope that a statement and a signature over it make up. -/
def withSignature (st : Statement) (sig : Signature) : Envelope :=
  { st with
    r := (Bytes.bigEndian 32 sig.r).minimal
    s := (Bytes.bigEndian 32 sig.s).minimal }

/-- The six writes leave no field of the envelope that was there. -/
theorem run_store (st : Statement) (sig : Signature) (e : Envelope) :
    (store st sig).run e = (.ok (), withSignature st sig) := rfl

section Steps

variable {σ α β : Type} {f : α → ExceptT Error (StateM σ) β}

/-- A check that passes, or a value that is found, neither reads nor writes the
envelope. -/
theorem lift_ok_bind (a : α) :
    (liftM (.ok a : Except Error α) : ExceptT Error (StateM σ) α) >>= f = f a := rfl

theorem lift_error_bind (cause : Error) :
    (liftM (.error cause : Except Error α) : ExceptT Error (StateM σ) α) >>= f =
      throw cause := rfl

end Steps

/-- A payload above the limit is refused before anything is written. -/
theorem sign_of_oversized (h : settings.payloadLimit.toNat < payload.length) (e : Envelope) :
    sign settings payload key entropy e =
      (e, .error (.payloadTooLarge payload.length settings.payloadLimit.toNat)) := by
  have hsize : checkSize settings payload = .error _ := if_pos h
  rw [sign, signing, hsize, lift_error_bind]
  rfl

section

variable {sender : Coordinate} (hsize : payload.length ≤ settings.payloadLimit.toNat)
  (hsender : Coordinate.ofSecretKey key = .ok sender)
include hsize hsender

/-- Past the size check, all that is left to fail is the primitive. -/
theorem signing_eq :
    signing settings payload key entropy =
      (key.sign? ((Statement.ofSender settings sender payload).hash settings) entropy).elim
        (throw .signing) pure >>= fun sig => store (.ofSender settings sender payload) sig := by
  have hdigest : (Statement.ofSender settings sender payload).digest _ = .ok _ :=
    Statement.digest_eq hsize
  rw [Statement.ofSender] at hdigest
  -- Only `rw` here: a definitional step would make the kernel run the signer.
  rw [signing, checkSize_eq_ok_iff.mpr hsize, lift_ok_bind, hsender, Except.mapError_ok,
    lift_ok_bind]
  dsimp only
  rw [hdigest, Except.mapError_ok, lift_ok_bind, Statement.ofSender]

/-- The primitive is asked before anything is written. -/
theorem sign_of_refused
    (hrefused : key.sign? ((Statement.ofSender settings sender payload).hash settings)
      entropy = none) (e : Envelope) :
    sign settings payload key entropy e = (e, .error .signing) := by
  rw [sign, signing_eq hsize hsender, hrefused]
  rfl

/-- When the primitive answers, the envelope that was there is gone. -/
theorem sign_of_answered {sig : Signature}
    (hsig : key.sign? ((Statement.ofSender settings sender payload).hash settings)
      entropy = some sig) (e : Envelope) :
    sign settings payload key entropy e =
      (withSignature (.ofSender settings sender payload) sig, .ok ()) := by
  rw [sign, signing_eq hsize hsender, hsig, Option.elim_some, pure_bind, run_store]

end

/-- Signing succeeds if the payload is within the limit and the primitive
answers, and it makes the signed statement of the key's own coordinate. -/
theorem sign_eq_ok_iff_answered :
    sign settings payload key entropy e = (e', .ok ()) ↔
      payload.length ≤ settings.payloadLimit.toNat ∧
        ∃ sender sig, Coordinate.ofSecretKey key = .ok sender ∧
          key.sign? ((Statement.ofSender settings sender payload).hash settings) entropy =
            some sig ∧
          e' = withSignature (.ofSender settings sender payload) sig := by
  constructor
  · intro h
    rcases Nat.lt_or_ge settings.payloadLimit.toNat payload.length with hlong | hsize
    · rw [sign_of_oversized hlong] at h
      cases h
    · obtain ⟨sender, -, hsender, -⟩ := Coordinate.exists_ofSecretKey key
      cases hsig : key.sign? ((Statement.ofSender settings sender payload).hash settings)
          entropy with
      | none =>
          rw [sign_of_refused hsize hsender hsig] at h
          cases h
      | some sig =>
          rw [sign_of_answered hsize hsender hsig] at h
          cases h
          exact ⟨hsize, sender, sig, hsender, hsig, rfl⟩
  · rintro ⟨hsize, sender, sig, hsender, hsig, rfl⟩
    exact sign_of_answered hsize hsender hsig e

/-- An envelope is signed by signing into an empty one. -/
theorem signed_eq_ok_iff_sign :
    signed settings payload key entropy = .ok e ↔
      sign settings payload key entropy empty = (e, .ok ()) := by
  rw [signed]
  obtain ⟨e', outcome⟩ := sign settings payload key entropy empty
  cases outcome with
  | error cause => exact ⟨nofun, nofun⟩
  | ok =>
      constructor
      · intro h
        cases h
        rfl
      · intro h
        cases h
        rfl

/-- The envelope that was there has no part in a success. -/
theorem sign_eq_ok_iff :
    sign settings payload key entropy e = (e', .ok ()) ↔
      signed settings payload key entropy = .ok e' := by
  rw [signed_eq_ok_iff_sign, sign_eq_ok_iff_answered, sign_eq_ok_iff_answered]

theorem signed_eq_ok_iff :
    signed settings payload key entropy = .ok e ↔
      payload.length ≤ settings.payloadLimit.toNat ∧
        ∃ sender sig, Coordinate.ofSecretKey key = .ok sender ∧
          key.sign? ((Statement.ofSender settings sender payload).hash settings) entropy =
            some sig ∧
          e = withSignature (.ofSender settings sender payload) sig := by
  rw [signed_eq_ok_iff_sign, sign_eq_ok_iff_answered]

theorem statement_of_signed (h : signed settings payload key entropy = .ok e) :
    ∃ sender, Coordinate.ofSecretKey key = .ok sender ∧
      e.toStatement = .ofSender settings sender payload := by
  obtain ⟨-, sender, sig, hsender, -, rfl⟩ := signed_eq_ok_iff.mp h
  exact ⟨sender, hsender, rfl⟩

theorem payload_of_signed (h : signed settings payload key entropy = .ok e) :
    e.payload = payload := by
  obtain ⟨sender, -, hstatement⟩ := statement_of_signed h
  exact congrArg Statement.payload hstatement

theorem version_of_signed (h : signed settings payload key entropy = .ok e) :
    e.version = settings.version := by
  obtain ⟨sender, -, hstatement⟩ := statement_of_signed h
  exact congrArg Statement.version hstatement

theorem coordinate_of_signed (h : signed settings payload key entropy = .ok e) :
    Coordinate.ofSecretKey key = .ok e.coordinate := by
  obtain ⟨sender, hsender, hstatement⟩ := statement_of_signed h
  rw [Statement.coordinate, hstatement]
  exact hsender

theorem exists_signed_of_isOk (h : (signed settings payload key entropy).isOk = true) :
    ∃ e, signed settings payload key entropy = .ok e := by
  cases hsigned : signed settings payload key entropy with
  | ok e => exact ⟨e, rfl⟩
  | error cause => rw [hsigned] at h; cases h

/-- The key with the scalar one signs the empty payload on the main network. -/
theorem exists_signed_one : ∃ e, signed Settings.default [] SecretKey.one [] = .ok e :=
  exists_signed_of_isOk (by decide +kernel)

end Envelope

/-! ### Votes on a network of its own -/

/-- The secret key with the scalar two. -/
def Secp256k1.SecretKey.two : SecretKey :=
  ⟨2, by decide, by decide⟩

/-- The settings of a network of its own, with room for 64 bytes of payload. -/
def Settings.trial : Settings where
  domain := "==TEST=="
  version := 2
  maxPayload := 64

/-- A vote for a block at height 7. -/
def Vote.trial : Vote where
  height := 7
  round := 1
  block := .replicate 32 0xab

/-- The payload of this vote, of 44 bytes. -/
def Vote.trialPayload : Bytes :=
  (format Codec.options).write trial

namespace Envelope

variable {settings settings' : Settings} {payload entropy : Bytes} {key : SecretKey}
  {e e' : Envelope}

theorem exists_signed_vote :
    ∃ e, signed Settings.trial Vote.trialPayload SecretKey.two [0x5a] = .ok e :=
  exists_signed_of_isOk (by decide +kernel)

/-! ## Verification -/

/-- The signature of an envelope holds under the key that the envelope names,
for the hash of the envelope's own fields. -/
def Holds (settings : Settings) (e : Envelope) : Prop :=
  ∃ key sig, e.coordinate.publicKey? = some key ∧ Signature.ofBytes? e.r e.s = some sig ∧
    key.verifies (e.toStatement.hash settings) sig.normalize = true

/-- Verification accepts the envelopes within the limit whose signatures
hold. -/
theorem verify_eq_true_iff :
    e.verify settings = .ok true ↔
      e.payload.length ≤ settings.payloadLimit.toNat ∧ e.Holds settings := by
  rw [verify]
  split
  · next h => exact ⟨nofun, fun hholds => absurd h (Nat.not_lt.mpr hholds.1)⟩
  · next h =>
      have hsize := Nat.not_lt.mp h
      rw [digest, Statement.digest_eq hsize]
      simp only [bind, Except.bind]
      split
      · next hkey =>
          refine ⟨nofun, ?_⟩
          rintro ⟨-, key, sig, hkey', -⟩
          rw [hkey] at hkey'
          cases hkey'
      · next key hkey =>
          split
          · next hsig =>
              refine ⟨nofun, ?_⟩
              rintro ⟨-, key, sig, -, hsig', -⟩
              rw [hsig] at hsig'
              cases hsig'
          · next sig hsig =>
              constructor
              · intro hverifies
                exact ⟨hsize, key, sig, hkey, hsig, Except.ok.inj hverifies⟩
              · rintro ⟨-, key', sig', hkey', hsig', hverifies⟩
                rw [hkey] at hkey'
                rw [hsig] at hsig'
                cases hkey'
                cases hsig'
                exact congrArg Except.ok hverifies

/-- Verification always comes to an answer: whatever is hashed has passed the size
check, and then its length fits the length field. -/
theorem exists_verify_eq_ok (settings : Settings) (e : Envelope) :
    ∃ accepted, e.verify settings = .ok accepted := by
  rw [verify]
  split
  · exact ⟨false, rfl⟩
  · next h =>
      rw [digest, Statement.digest_eq (Nat.not_lt.mp h)]
      simp only [bind, Except.bind]
      split
      · exact ⟨false, rfl⟩
      · split
        · exact ⟨false, rfl⟩
        · exact ⟨_, rfl⟩

/-- The answer of verification. -/
def verdict (settings : Settings) (e : Envelope) : Bool :=
  (e.verify settings).toOption.getD false

theorem verify_eq_verdict (settings : Settings) (e : Envelope) :
    e.verify settings = .ok (e.verdict settings) := by
  obtain ⟨accepted, h⟩ := exists_verify_eq_ok settings e
  rw [verdict, h]
  rfl

/-- Verification refuses an oversized payload without looking further. -/
theorem verify_oversized (h : settings.payloadLimit.toNat < e.payload.length) :
    e.verify settings = .ok false :=
  if_pos h

/-- The signature of an envelope that was signed holds under every settings with
the same domain. -/
theorem holds_of_signed (h : signed settings payload key entropy = .ok e)
    (hdomain : settings.domain = settings'.domain) : e.Holds settings' := by
  obtain ⟨-, sender, sig, hsender, hsig, rfl⟩ := signed_eq_ok_iff.mp h
  obtain ⟨publicKey, hkey, -⟩ := key.exists_publicKey
  have hverifies := SecretKey.verifies_of_sign? hkey hsig
  refine ⟨publicKey, sig, ?_, sig.ofBytes?_minimal, ?_⟩
  · rw [← hkey, ← Coordinate.publicKey?_of_ofSecretKey hsender]
    rfl
  · have hlow : sig.IsLow := by
      rw [PublicKey.verifies, decide_eq_true_iff] at hverifies
      exact hverifies.1
    rw [Signature.normalize_of_isLow hlow]
    rw [Statement.hash, Settings.domainBytes, hdomain] at hverifies
    exact hverifies

end Envelope

/-- An endpoint signs the payload that its codec makes of a message. -/
theorem Endpoint.sign_eq_ok_iff {α : Type} {endpoint : Endpoint α} {message : α}
    {payload entropy : Bytes} {key : SecretKey} {e : Envelope}
    (hpayload : endpoint.codec.encode message = .ok payload) :
    (endpoint.sign message key entropy).outcome = .ok e ↔
      Envelope.signed endpoint.settings payload key entropy = .ok e := by
  simp only [sign, Traced.outcome_bind, Traced.outcome_ofExcept, Traced.outcome_report,
    Traced.outcome_pure, Except.bind_eq_ok_iff, Except.mapError_eq_ok_iff, hpayload]
  constructor
  · rintro ⟨_, hpayload', e', hsigned, -, -, heq⟩
    cases hpayload'
    cases heq
    exact hsigned
  · intro hsigned
    exact ⟨payload, rfl, e, hsigned, (), trivial, rfl⟩

end ConsensusEnvelope
