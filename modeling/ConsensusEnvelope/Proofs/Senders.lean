import ConsensusEnvelope.Proofs.Delivery
import ConsensusEnvelope.Proofs.Hexadecimal

/-!
# A sender is pinned by all of its bytes

An endpoint that expects a sender gives one of three answers. The signature decides
first: an envelope that does not verify is refused as such, whoever was expected. After
that the two axes are compared, each with its half of the expected coordinate, and as
the halves have a fixed width this compares all 64 bytes at once. So one coordinate is
accepted, whatever coordinates its halves were taken from.

The answer for any other coordinate names both. Digits that are read back show the bytes
they were written for, so the two texts differ, in 128 digits each.
-/

namespace ConsensusEnvelope

namespace Coordinate

variable {c c' : Coordinate}

theorem take_bytes (c : Coordinate) : c.bytes.take 32 = c.x.bytes :=
  List.take_left' c.x.length_bytes

theorem drop_bytes (c : Coordinate) : c.bytes.drop 32 = c.y.bytes :=
  List.drop_left' c.x.length_bytes

theorem bytes_inj (h : c.bytes = c'.bytes) : c = c' := by
  have hread := ofBytes?_bytes c
  rw [h, ofBytes?_bytes] at hread
  exact (Option.some.inj hread).symm

theorem matches_iff (c : Coordinate) (e : Envelope) : c.Matches e.x e.y ↔ c = e.coordinate := by
  constructor
  · rintro ⟨hx, hy⟩
    exact Coordinate.ext hx hy
  · rintro rfl
    exact ⟨rfl, rfl⟩

/-- A text of 128 digits that is read as the coordinate. -/
structure ShownAs (c : Coordinate) (text : String) : Prop where
  length : text.length = 128
  digits : ∀ digit ∈ text.toList, digit ∈ "0123456789abcdef".toList
  decode : ∃ bytes, Hex.decode (Utf8.encode text) = .ok bytes ∧ ofBytes? bytes = some c

theorem shownAs_hex (c : Coordinate) : c.ShownAs c.hex where
  length := by rw [hex, Hex.length_encode, c.length_bytes]
  digits _ := Hex.mem_digits_of_mem_encode
  decode := ⟨c.bytes, Hex.decode_encode c.bytes, c.ofBytes?_bytes⟩

/-- A text shows one coordinate. -/
theorem ShownAs.unique {text : String} (h : c.ShownAs text) (h' : c'.ShownAs text) : c = c' := by
  obtain ⟨bytes, hdecode, hc⟩ := h.decode
  obtain ⟨bytes', hdecode', hc'⟩ := h'.decode
  rw [hdecode] at hdecode'
  cases hdecode'
  rw [hc] at hc'
  exact Option.some.inj hc'

end Coordinate

namespace Endpoint

variable {α : Type} {endpoint : Endpoint α} {e : Envelope}

/-- The signature comes first: of an envelope that does not verify, nothing is compared. -/
theorem verifySender_of_invalid (h : e.verify endpoint.settings = .ok false)
    (expected : Coordinate) :
    endpoint.verifySender e expected =
      ⟨[.verificationFailed e.version e.coordinate e.payload.length],
        .error .verificationFailed⟩ := by
  rw [verifySender, requireValid_of_invalid h]
  rfl

theorem verifySender_of_valid (h : e.verify endpoint.settings = .ok true)
    (expected : Coordinate) :
    endpoint.verifySender e expected =
      if expected = e.coordinate then ⟨[], .ok ()⟩
      else ⟨[.unexpectedSender expected e.coordinate],
        .error (.senderMismatch expected e.coordinate)⟩ := by
  rw [verifySender, requireValid_of_valid h]
  by_cases hsame : expected = e.coordinate
  · rw [if_pos hsame, if_pos ((expected.matches_iff e).mpr hsame)]
    rfl
  · rw [if_neg hsame, if_neg (mt (expected.matches_iff e).mp hsame)]
    rfl

/-- What decides between the three answers. -/
theorem verifySender_verdict (endpoint : Endpoint α) (e : Envelope) (expected : Coordinate) :
    ((endpoint.verifySender e expected).outcome = .ok () ↔
      (endpoint.verify e).outcome = .ok true ∧ expected = e.coordinate) ∧
    ((endpoint.verifySender e expected).outcome = .error .verificationFailed ↔
      (endpoint.verify e).outcome = .ok false) ∧
    ((endpoint.verifySender e expected).outcome =
        .error (.senderMismatch expected e.coordinate) ↔
      (endpoint.verify e).outcome = .ok true ∧ expected ≠ e.coordinate) ∧
    ((endpoint.verifySender e expected).outcome = .ok () ∨
      (endpoint.verifySender e expected).outcome = .error .verificationFailed ∨
      (endpoint.verifySender e expected).outcome =
        .error (.senderMismatch expected e.coordinate)) := by
  obtain ⟨valid, hvalid⟩ := Envelope.exists_verify_eq_ok endpoint.settings e
  cases valid with
  | false =>
      rw [verifySender_of_invalid hvalid, outcome_verify hvalid]
      exact ⟨iff_of_false nofun nofun, iff_of_true rfl rfl, iff_of_false nofun nofun,
        .inr (.inl rfl)⟩
  | true =>
      rw [verifySender_of_valid hvalid, outcome_verify hvalid]
      split
      · next hsame =>
          exact ⟨iff_of_true rfl ⟨rfl, hsame⟩, iff_of_false nofun nofun,
            iff_of_false nofun fun h => h.2 hsame, .inl rfl⟩
      · next hdiffers =>
          exact ⟨iff_of_false nofun fun h => hdiffers h.2, iff_of_false nofun nofun,
            iff_of_true rfl ⟨rfl, hdiffers⟩, .inr (.inr rfl)⟩

/-- Halves of coordinates, put together, are accepted where they have the bytes of the
axes. -/
theorem outcome_verifySender_halves (endpoint : Endpoint α) (e : Envelope) (x y : Axis) :
    (endpoint.verifySender e ⟨x, y⟩).outcome = .ok () ↔
      (endpoint.verify e).outcome = .ok true ∧ x.bytes = e.x.bytes ∧ y.bytes = e.y.bytes := by
  rw [(verifySender_verdict endpoint e ⟨x, y⟩).1]
  refine and_congr_right fun _ => ?_
  constructor
  · rintro ⟨⟩
    exact ⟨rfl, rfl⟩
  · intro h
    exact Coordinate.ext (Axis.ext h.1) (Axis.ext h.2)

/-- Whom an endpoint takes an envelope to come from, exactly. It accepts the coordinate of
the envelope and no other one, and only if the envelope verifies; if it does not verify,
that is the answer whatever is expected. Otherwise the answer names both coordinates, in
digits that can be read back and that differ. Halves of other coordinates, put together or
interchanged, are accepted only where they have the bytes of the right halves. -/
theorem sender_pinned (endpoint : Endpoint α) (e : Envelope) :
    (∀ expected,
      ((endpoint.verifySender e expected).outcome = .ok () ↔
        (endpoint.verify e).outcome = .ok true ∧ expected = e.coordinate) ∧
      ((endpoint.verifySender e expected).outcome = .error .verificationFailed ↔
        (endpoint.verify e).outcome = .ok false) ∧
      ((endpoint.verifySender e expected).outcome =
          .error (.senderMismatch expected e.coordinate) ↔
        (endpoint.verify e).outcome = .ok true ∧ expected ≠ e.coordinate) ∧
      ((endpoint.verifySender e expected).outcome = .ok () ∨
        (endpoint.verifySender e expected).outcome = .error .verificationFailed ∨
        (endpoint.verifySender e expected).outcome =
          .error (.senderMismatch expected e.coordinate))) ∧
    (∀ expected : Coordinate, expected ≠ e.coordinate →
      (Error.senderMismatch expected e.coordinate).message =
        "Sender mismatch: expected " ++ expected.hex ++ ", got " ++ e.coordinate.hex ∧
      expected.ShownAs expected.hex ∧ e.coordinate.ShownAs e.coordinate.hex ∧
      expected.hex ≠ e.coordinate.hex) ∧
    (∀ expected expected', (endpoint.verifySender e expected).outcome = .ok () →
      (endpoint.verifySender e expected').outcome = .ok () → expected = expected') ∧
    (∀ bytes expected, Coordinate.ofBytes? bytes = some expected →
      ((endpoint.verifySender e expected).outcome = .ok () ↔
        (endpoint.verify e).outcome = .ok true ∧ bytes = e.x.bytes ++ e.y.bytes)) ∧
    ∀ a b : Coordinate,
      ((endpoint.verifySender e ⟨a.x, b.y⟩).outcome = .ok () ↔
        (endpoint.verify e).outcome = .ok true ∧
          a.bytes.take 32 = e.x.bytes ∧ b.bytes.drop 32 = e.y.bytes) ∧
      ((endpoint.verifySender e ⟨a.y, b.x⟩).outcome = .ok () ↔
        (endpoint.verify e).outcome = .ok true ∧
          a.bytes.drop 32 = e.x.bytes ∧ b.bytes.take 32 = e.y.bytes) := by
  refine ⟨verifySender_verdict endpoint e, fun expected hdiffers => ⟨rfl, expected.shownAs_hex,
    e.coordinate.shownAs_hex, fun hsame => ?_⟩, fun expected expected' h h' => ?_,
    fun bytes expected hexpected => ?_, fun a b => ?_⟩
  · exact hdiffers (expected.shownAs_hex.unique (hsame ▸ e.coordinate.shownAs_hex))
  · rw [((verifySender_verdict endpoint e expected).1.mp h).2,
      ((verifySender_verdict endpoint e expected').1.mp h').2]
  · rw [(verifySender_verdict endpoint e expected).1, ← Coordinate.bytes_of_ofBytes? hexpected]
    have hbytes : e.coordinate.bytes = e.x.bytes ++ e.y.bytes := rfl
    rw [← hbytes]
    exact and_congr_right fun _ => ⟨congrArg Coordinate.bytes, Coordinate.bytes_inj⟩
  · simp only [Coordinate.take_bytes, Coordinate.drop_bytes]
    exact ⟨outcome_verifySender_halves endpoint e a.x b.y,
      outcome_verifySender_halves endpoint e a.y b.x⟩

end Endpoint

end ConsensusEnvelope
