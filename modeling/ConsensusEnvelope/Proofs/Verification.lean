import ConsensusEnvelope.Proofs.Delivery

/-!
# What the verdict on an envelope depends on

Verification reaches its verdict by steps of its own: it fits the scalars into
their width, compares them with the order, looks for the key, and normalizes `s`
for a verifier that knows low signatures only. None of these steps shows in the
result. The payload limit aside, an envelope is accepted exactly if its axes are
the reduced coordinates of a point of the curve, its scalars lie between zero
and the order, and the signature equation holds for the scalars as they are
stored. Leading zeros drop out because only values are compared, and a high `s`
because the equation holds for it whenever it holds for its opposite.

The limit of the receiver decides nothing but which payloads are looked at. It is
compared with the payload and does not enter the digest, so a receiver gives the
verdict of a receiver without a limit of its own on every envelope within its
limit, and refuses the others. The bound that a receiver sets counts only up to
`2 ^ 32 - 1`, the largest payload that any receiver admits.

What does not enter the verdict at all is the version of the receiver. The digest
covers the version that the envelope states, and nothing compares the two. So an
envelope signed under another version is treated like one of the receiver's own,
and is accepted whenever its payload is within the limit.
-/

namespace ConsensusEnvelope

open Secp256k1

theorem Secp256k1.Point.Denotes.affine_conditions {x y : Nat} {Q : curve.Point}
    (h : (Point.affine x y).Denotes Q) :
    x < fieldPrime ∧ y < fieldPrime ∧ y ^ 2 ≡ x ^ 3 + 7 [MOD fieldPrime] := by
  cases h with
  | affine hx hy h =>
      have hcurve : y * y ≡ x * x * x + 7 [MOD fieldPrime] := onCurve_iff.mpr h
      rw [← sq, ← pow_three'] at hcurve
      exact ⟨hx, hy, hcurve⟩

namespace Envelope

variable {settings : Settings} {e : Envelope}

/-- A signature holds if the scalars are in range and satisfy the equation for
the point that the axes denote. -/
theorem holds_iff : e.Holds settings ↔
    (0 < e.r.value ∧ e.r.value < order) ∧ (0 < e.s.value ∧ e.s.value < order) ∧
      ∃ Q, (Point.affine e.x.value e.y.value).Denotes Q ∧
        SatisfiesEquation Q (e.toStatement.hash settings).value e.r.value e.s.value := by
  constructor
  · intro h
    obtain ⟨key, sig, hkey, hsig, hverifies⟩ := h
    obtain ⟨hx, hy⟩ := PublicKey.ofCoordinates?_eq_some_iff.mp hkey
    obtain ⟨hr, hs⟩ := Signature.ofBytes?_eq_some_iff.mp hsig
    have hdenotes := key.denotes_point
    rw [PublicKey.point, hx, hy] at hdenotes
    rw [key.verifies_normalize_iff, hr, hs] at hverifies
    rw [← hr, ← hs]
    refine ⟨⟨sig.r_pos, sig.r_lt⟩, ⟨sig.s_pos, sig.s_lt⟩, key.element, hdenotes, ?_⟩
    rw [hr, hs]
    exact hverifies
  · intro h
    obtain ⟨⟨hr, hr'⟩, ⟨hs, hs'⟩, Q, hQ, hequation⟩ := h
    generalize hp : Point.affine e.x.value e.y.value = p at hQ
    cases hQ with
    | infinity => cases hp
    | affine hx hy hcurve =>
        cases hp
        let key : PublicKey := ⟨_, _, hx, hy, onCurve_iff.mpr hcurve⟩
        let sig : Signature := ⟨_, _, hr, hr', hs, hs'⟩
        exact ⟨key, sig, PublicKey.ofCoordinates?_eq_some_iff.mpr ⟨rfl, rfl⟩,
          Signature.ofBytes?_eq_some_iff.mpr ⟨rfl, rfl⟩,
          (key.verifies_normalize_iff _ sig).mpr hequation⟩

/-- Verification decides the signature equation. It always answers, and the
answer is yes exactly for a payload within the limit, axes that are the reduced
coordinates of a point `Q` of the curve, and scalars between zero and the order
such that `(z / s) · base + (r / s) · Q` is not the identity and its first
coordinate is congruent to `r`, where `z` is the hash of the statement. -/
theorem verify_iff_ecdsa (settings : Settings) (e : Envelope) :
    ∃ accepted, e.verify settings = .ok accepted ∧
      (accepted = true ↔
        e.payload.length ≤ settings.payloadLimit.toNat ∧
        e.x.value < fieldPrime ∧ e.y.value < fieldPrime ∧
        e.y.value ^ 2 ≡ e.x.value ^ 3 + 7 [MOD fieldPrime] ∧
        (0 < e.r.value ∧ e.r.value < order) ∧ (0 < e.s.value ∧ e.s.value < order) ∧
        ∃ Q, (Point.affine e.x.value e.y.value).Denotes Q ∧
          SatisfiesEquation Q
            (Blake2b.hash (e.toStatement.preimage settings.domainBytes)).value
            e.r.value e.s.value) := by
  obtain ⟨accepted, haccepted⟩ := exists_verify_eq_ok settings e
  have hverdict : accepted = true ↔ e.verify settings = .ok true := by
    rw [haccepted]
    exact ⟨fun h => congrArg Except.ok h, Except.ok.inj⟩
  refine ⟨accepted, haccepted, ?_⟩
  rw [hverdict, verify_eq_true_iff, holds_iff]
  constructor
  · intro h
    obtain ⟨hsize, hr, hs, Q, hQ, hequation⟩ := h
    obtain ⟨hx, hy, hcurve⟩ := hQ.affine_conditions
    exact ⟨hsize, hx, hy, hcurve, hr, hs, Q, hQ, hequation⟩
  · intro h
    obtain ⟨hsize, -, -, -, hr, hs, hequation⟩ := h
    exact ⟨hsize, hr, hs, hequation⟩

end Envelope

/-! ## The limit of the receiver -/

theorem Settings.payloadLimit_mono {settings settings' : Settings}
    (h : settings.maxPayload ≤ settings'.maxPayload) :
    settings.payloadLimit.toNat ≤ settings'.payloadLimit.toNat := by
  rw [toNat_payloadLimit, toNat_payloadLimit]
  exact min_le_min_right _ h

/-- Bounds that reach the end of the length field amount to the same limit. -/
theorem Settings.payloadLimit_of_le {settings : Settings}
    (h : 0xffffffff ≤ settings.maxPayload) : settings.payloadLimit.toNat = 0xffffffff := by
  rw [toNat_payloadLimit]
  exact min_eq_right h

namespace Envelope

variable {settings settings' : Settings} {e e' : Envelope}

/-- Verification always answers, so what is accepted in both cases or in none is
answered alike. -/
theorem verify_eq_of_iff (h : e.verify settings = .ok true ↔ e'.verify settings' = .ok true) :
    e.verify settings = e'.verify settings' := by
  obtain ⟨accepted, haccepted⟩ := exists_verify_eq_ok settings e
  obtain ⟨accepted', haccepted'⟩ := exists_verify_eq_ok settings' e'
  rw [haccepted, haccepted', Except.ok.injEq, Except.ok.injEq] at h
  rw [haccepted, haccepted', Bool.eq_iff_iff.mpr h]

/-- Whether the signature holds does not depend on the bound, only whether the payload is
looked at does. -/
theorem verify_bound_eq_true_iff {bound : UInt64} :
    e.verify { settings with maxPayload := bound } = .ok true ↔
      e.payload.length ≤ (Settings.payloadLimit { settings with maxPayload := bound }).toNat ∧
        e.Holds settings :=
  verify_eq_true_iff

/-- The limit is a policy of the receiver and nothing else. The digest does not depend
on it. An envelope is accepted under a limit exactly if its payload is within the limit
and it is accepted under the largest bound. So a larger bound accepts what a smaller one
accepts, bounds from `2 ^ 32 - 1` on give one verdict, and so do any two bounds on an
envelope whose payload is within both limits. -/
theorem limit_is_policy (settings : Settings) (e : Envelope) :
    (∀ bound, e.digest { settings with maxPayload := bound } = e.digest settings) ∧
    (e.verify settings = .ok true ↔
      e.payload.length ≤ settings.payloadLimit.toNat ∧
        e.verify { settings with maxPayload := 0xffffffffffffffff } = .ok true) ∧
    (∀ bound, settings.maxPayload ≤ bound → e.verify settings = .ok true →
      e.verify { settings with maxPayload := bound } = .ok true) ∧
    (∀ bound, 0xffffffff ≤ settings.maxPayload → 0xffffffff ≤ bound →
      e.verify { settings with maxPayload := bound } = e.verify settings) ∧
    ∀ bound, e.payload.length ≤ settings.payloadLimit.toNat →
      e.payload.length ≤
        (Settings.payloadLimit { settings with maxPayload := bound }).toNat →
      e.verify { settings with maxPayload := bound } = e.verify settings := by
  refine ⟨fun _ => rfl, ?_, fun bound hbound h => ?_, fun bound hbound hbound' => ?_,
    fun bound hadmitted hadmitted' => verify_eq_of_iff ?_⟩
  · have hlargest : (Settings.payloadLimit
        { settings with maxPayload := 0xffffffffffffffff }).toNat = 0xffffffff :=
      Settings.payloadLimit_of_le
        (show (0xffffffff : UInt64) ≤ 0xffffffffffffffff by decide)
    have hlimit : settings.payloadLimit.toNat ≤ 0xffffffff :=
      Nat.le_of_lt_succ settings.payloadLimit_lt
    rw [verify_eq_true_iff, verify_bound_eq_true_iff, hlargest]
    constructor
    · intro h
      exact ⟨h.1, h.1.trans hlimit, h.2⟩
    · intro h
      exact ⟨h.1, h.2.2⟩
  · obtain ⟨hsize, hholds⟩ := verify_eq_true_iff.mp h
    have hmono : settings.payloadLimit.toNat ≤
        (Settings.payloadLimit { settings with maxPayload := bound }).toNat :=
      Settings.payloadLimit_mono hbound
    exact verify_bound_eq_true_iff.mpr ⟨hsize.trans hmono, hholds⟩
  · have hlimit : (Settings.payloadLimit { settings with maxPayload := bound }).toNat =
        settings.payloadLimit.toNat := by
      rw [Settings.payloadLimit_of_le hbound, Settings.payloadLimit_of_le hbound']
    refine verify_eq_of_iff ?_
    rw [verify_bound_eq_true_iff, verify_eq_true_iff, hlimit]
  · rw [verify_bound_eq_true_iff, verify_eq_true_iff]
    exact and_congr_left fun _ => iff_of_true hadmitted' hadmitted

end Envelope

/-! ## The version of the receiver -/

namespace Endpoint

variable {α : Type}

/-- The version of the receiver has no part in verification, and so an envelope
whose version is foreign to the receiver is refused only if its payload is too
long for it. -/
theorem receiver_version_ignored (codec : Codec α) (settings : Settings)
    (version : UInt32) :
    (∀ e, Endpoint.verify ⟨{ settings with version }, codec⟩ e =
      Endpoint.verify ⟨settings, codec⟩ e) ∧
    (∀ e expected, Endpoint.verifySender ⟨{ settings with version }, codec⟩ e expected =
      Endpoint.verifySender ⟨settings, codec⟩ e expected) ∧
    (∀ e, Endpoint.read ⟨{ settings with version }, codec⟩ e =
      Endpoint.read ⟨settings, codec⟩ e) ∧
    (∀ envelopes, Endpoint.verifyBatch ⟨{ settings with version }, codec⟩ envelopes =
      Endpoint.verifyBatch ⟨settings, codec⟩ envelopes) ∧
    ∀ signer payload key entropy e, signer.domain = settings.domain →
      Envelope.signed signer payload key entropy = .ok e →
        ((e.verify settings = .ok true → e.version = settings.version) ↔
          signer.version = settings.version ∨
            settings.payloadLimit.toNat < payload.length) := by
  refine ⟨fun _ => rfl, fun _ _ => rfl, fun _ => rfl, fun _ => rfl, ?_⟩
  intro signer payload key entropy e hdomain hsigned
  rw [Envelope.verify_of_signed hsigned hdomain, Envelope.version_of_signed hsigned,
    imp_iff_or_not, Nat.not_le]

end Endpoint

/-- An envelope of version 1 for the payload `hello-bdls`, signed with the secret
key of the bytes 1 to 32. -/
def Envelope.helloBdls : Envelope where
  version := 1
  x := ⟨_, Bytes.length_bigEndian 32
    0x84bf7562262bbd6940085748f3be6afa52ae317155181ece31b66351ccffa4b0⟩
  y := ⟨_, Bytes.length_bigEndian 32
    0x8cc43d63b2859d469fee15f31c9edb5324266e6fd0407e87382d60fc4511acd8⟩
  payload := [0x68, 0x65, 0x6c, 0x6c, 0x6f, 0x2d, 0x62, 0x64, 0x6c, 0x73]
  r := Bytes.bigEndian 32
    0x31a61d8714d575ce8221c8c5857bf18eba90ab63d5167541387fe8aaa53e22e9
  s := Bytes.bigEndian 32
    0x22a2fa04e993e427245900b3a17f90dc466b0bd804003369f338746212fb11cc

/-- A receiver that runs version 2 accepts it. -/
theorem Envelope.helloBdls_accepted_under_version_two :
    Envelope.helloBdls.verify { Settings.default with version := 2 } = .ok true ∧
      Envelope.helloBdls.version ≠ 2 := by
  obtain ⟨accepted, h⟩ :=
    exists_verify_eq_ok { Settings.default with version := 2 } Envelope.helloBdls
  have haccepted : (Envelope.helloBdls.verify
      { Settings.default with version := 2 }).toOption = some true := by decide +kernel
  rw [h] at haccepted
  rw [h, Option.some.inj haccepted]
  exact ⟨rfl, by decide⟩

end ConsensusEnvelope
