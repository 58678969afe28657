import ConsensusEnvelope.Proofs.Verification

/-!
# What the allowance of a frame lets through

A receiver bounds a frame and not its payload: the frame may be 1024 bytes longer
than the payload limit, whatever these bytes are spent on. Two things follow from
the layout.

The other fields may take up as little as 44 bytes, when the scalars are empty and
both axes are sent without any of their bytes. What they leave of the allowance
is open to the payload, so a frame can carry up to 980 bytes more than the limit.
Which envelopes can be received at all is decided by the shortest frame that an
envelope has, the one without the zeros in front of its axes. A payload above the
limit is stopped later, by verification, before anything reads it.

The frame that is written for an envelope has its axes in full. It is longer than
the one that was received by the zeros that were left out there, and the sum may
be too long for the same limit. So an envelope can be passed on exactly if its
received frame has room for what it left out. There is always room if it left out
nothing, or if it stayed 64 bytes below the limit.
-/

namespace ConsensusEnvelope

/-- The zeros that may be left out are those in front of the first byte that
counts. -/
theorem Axis.startsWithZeros_iff {axis : Axis} {i : Nat} :
    axis.StartsWithZeros i ↔ i + axis.bytes.minimal.length ≤ 32 := by
  constructor
  · rintro ⟨hi, hzeros⟩
    have hvalue : axis.bytes.value = Bytes.value (axis.bytes.drop i) := by
      conv => lhs; rw [← List.take_append_drop i axis.bytes, hzeros]
      exact Bytes.value_replicate_append i _
    have hlt := Bytes.value_lt (axis.bytes.drop i)
    rw [← hvalue, List.length_drop, axis.length_bytes, ← Bytes.length_minimal_le_iff] at hlt
    omega
  · intro h
    obtain ⟨k, hk⟩ := Bytes.exists_replicate_append_minimal axis.bytes
    have hlen := congrArg List.length hk
    rw [axis.length_bytes, List.length_append, List.length_replicate] at hlen
    refine ⟨by omega, ?_⟩
    rw [hk, List.take_append_of_le_length (by rw [List.length_replicate]; omega),
      List.take_replicate, Nat.min_eq_left (by omega)]

theorem Axis.length_minimal_le (axis : Axis) : axis.bytes.minimal.length ≤ 32 := by
  have hle := Bytes.length_minimal_le axis.bytes
  rwa [axis.length_bytes] at hle

theorem Axis.startsWithZeros_minimal (axis : Axis) :
    axis.StartsWithZeros (32 - axis.bytes.minimal.length) := by
  have hle := axis.length_minimal_le
  rw [startsWithZeros_iff]
  omega

namespace Frame

variable {settings : Settings} {frame : Bytes} {e : Envelope}

/-! ## What can be received -/

/-- The frame of an envelope without the zeros in front of its axes. -/
def shortest (e : Envelope) : Bytes :=
  layout (32 - e.x.bytes.minimal.length) (32 - e.y.bytes.minimal.length) e

theorem length_shortest (e : Envelope) :
    (shortest e).length = 44 + e.x.bytes.minimal.length + e.y.bytes.minimal.length +
      e.payload.length + e.r.length + e.s.length := by
  have hx := e.x.length_minimal_le
  have hy := e.y.length_minimal_le
  have hlen := length_layout e.x.startsWithZeros_minimal.1 e.y.startsWithZeros_minimal.1 e
  rw [shortest]
  omega

/-- An envelope can be received if its shortest frame is within the limit. -/
theorem exists_decode_iff :
    (∃ frame, decode settings frame = .ok e) ↔
      (shortest e).length ≤ settings.payloadLimit.toNat + 1024 := by
  constructor
  · rintro ⟨frame, h⟩
    obtain ⟨hsize, i, j, hi, hj, rfl⟩ := decode_eq_ok_iff.mp h
    have hlen := length_layout hi.1 hj.1 e
    rw [Axis.startsWithZeros_iff] at hi hj
    rw [length_shortest]
    omega
  · intro h
    exact ⟨shortest e, decode_eq_ok_iff.mpr
      ⟨h, _, _, e.x.startsWithZeros_minimal, e.y.startsWithZeros_minimal, rfl⟩⟩

/-- Frames carry payloads of up to 980 bytes above the limit. -/
theorem exists_decode_payload_iff (n : Nat) :
    (∃ frame e, decode settings frame = .ok e ∧ e.payload.length = n) ↔
      n ≤ settings.payloadLimit.toNat + 980 := by
  constructor
  · rintro ⟨frame, e, h, rfl⟩
    have hshortest := exists_decode_iff.mp ⟨frame, h⟩
    rw [length_shortest] at hshortest
    omega
  · intro h
    have hzero : Axis.zero.bytes.minimal = [] := by decide
    let e : Envelope := { Envelope.empty with payload := List.replicate n 0 }
    have hlen : (shortest e).length = 44 + n := by
      rw [length_shortest]
      simp [e, Envelope.empty, hzero]
    have hsize : (shortest e).length ≤ settings.payloadLimit.toNat + 1024 := by omega
    obtain ⟨frame, hframe⟩ := exists_decode_iff.mpr hsize
    exact ⟨frame, e, hframe, List.length_replicate⟩

/-- A payload above the limit gets past the frame, but not past verification. -/
theorem outcome_accept_of_oversized {α : Type} {codec : Codec α}
    (h : decode settings frame = .ok e)
    (hlong : settings.payloadLimit.toNat < e.payload.length) :
    (Endpoint.accept ⟨settings, codec⟩ frame).outcome = .error .verificationFailed := by
  rw [Endpoint.accept, Traced.outcome_bind, outcome_receive, h]
  exact Endpoint.outcome_read_of_invalid (Envelope.verify_oversized hlong)

/-- What the length check on frames amounts to. It admits an envelope exactly if
the shortest frame of that envelope exceeds the payload limit by at most 1024
bytes, and therefore admits payloads of up to 980 bytes above the limit. None of
these is accepted as a message: verification refuses them. -/
theorem admitted_payloads (settings : Settings) :
    (∀ e, (∃ frame, decode settings frame = .ok e) ↔
      44 + e.x.bytes.minimal.length + e.y.bytes.minimal.length + e.payload.length +
        e.r.length + e.s.length ≤ settings.payloadLimit.toNat + 1024) ∧
    (∀ n, (∃ frame e, decode settings frame = .ok e ∧ e.payload.length = n) ↔
      n ≤ settings.payloadLimit.toNat + 980) ∧
    ∀ (α : Type) (codec : Codec α) frame e, decode settings frame = .ok e →
      settings.payloadLimit.toNat < e.payload.length →
        (Endpoint.accept ⟨settings, codec⟩ frame).outcome = .error .verificationFailed := by
  refine ⟨fun e => ?_, exists_decode_payload_iff, fun α codec frame e h hlong => ?_⟩
  · rw [exists_decode_iff, length_shortest]
  · exact outcome_accept_of_oversized h hlong

/-- A receiver with a limit of four bytes takes the frame of an envelope with a
payload of ten, and refuses it only when it verifies it. -/
theorem helloBdls_admitted_above_limit :
    let settings : Settings := { Settings.default with maxPayload := 4 }
    decode settings (encode Envelope.helloBdls) = .ok Envelope.helloBdls ∧
      settings.payloadLimit.toNat < Envelope.helloBdls.payload.length ∧
      (Endpoint.accept ⟨settings, .raw⟩ (encode Envelope.helloBdls)).outcome =
        .error .verificationFailed := by
  intro settings
  have hdecode : decode settings (encode Envelope.helloBdls) = .ok Envelope.helloBdls := by
    rw [decode_encode_iff, length_encode]
    decide
  have hlong : settings.payloadLimit.toNat < Envelope.helloBdls.payload.length := by decide
  exact ⟨hdecode, hlong, outcome_accept_of_oversized hdecode hlong⟩

/-! ## Passing an envelope on -/

/-- Passing on what was received. The frame that is written for a received envelope
is longer than the received one by the zeros that were left out in front of the
axes. A receiver with the same settings takes it as the same envelope if it is
still within the limit, and otherwise refuses it for its length. In particular it
takes it if the received frame left out nothing, being then the very frame that
is written, or stayed 64 bytes below the limit. -/
theorem decode_encode_of_decode (h : decode settings frame = .ok e) :
    ∃ i j, e.x.StartsWithZeros i ∧ e.y.StartsWithZeros j ∧ frame = layout i j e ∧
      (encode e).length = frame.length + i + j ∧
      decode settings (encode e) =
        (if frame.length + i + j ≤ settings.payloadLimit.toNat + 1024 then .ok e
        else .error (.tooLong (frame.length + i + j) (settings.payloadLimit.toNat + 1024))) ∧
      (i = 0 ∧ j = 0 → encode e = frame) ∧
      (frame.length ≤ settings.payloadLimit.toNat + 960 →
        decode settings (encode e) = .ok e) := by
  obtain ⟨-, i, j, hi, hj, hframe⟩ := decode_eq_ok_iff.mp h
  have hlen : (encode e).length = frame.length + i + j := by
    rw [length_encode, hframe, length_layout hi.1 hj.1]
  refine ⟨i, j, hi, hj, hframe, hlen, ?_, ?_, fun hshort => ?_⟩
  · rw [decode_encode, hlen]
  · rintro ⟨rfl, rfl⟩
    rw [hframe, encode_eq_layout]
  · have hi' := hi.1
    have hj' := hj.1
    rw [decode_encode_iff, hlen]
    omega

/-- A frame that leaves out 31 bytes of one axis and 20 of the other is passed on as one
that is longer by as many bytes. -/
theorem decode_encode_of_decode_smallAxes :
    let settings : Settings := { Settings.default with maxPayload := 3 }
    let frame := layout 31 20 .smallAxes
    decode settings frame = .ok .smallAxes ∧ frame.length = 123 ∧
      (encode .smallAxes).length = 123 + 51 ∧
      decode settings (encode .smallAxes) = .ok .smallAxes := by
  intro settings frame
  have hdecode : decode settings frame = .ok .smallAxes := decode_smallAxes (by decide)
  obtain ⟨i, j, -, -, -, -, -, -, hpassed⟩ := decode_encode_of_decode hdecode
  refine ⟨hdecode, length_layout_smallAxes, by rw [length_encode]; decide, hpassed ?_⟩
  rw [length_layout_smallAxes]
  decide

/-- An envelope whose frame fills the limit to the last byte, with both axes left
out, cannot be passed on: the frame that is written for it is 64 bytes too
long. -/
theorem full_frame_not_passed_on :
    let settings : Settings := { Settings.default with maxPayload := 0 }
    let e : Envelope := { Envelope.empty with r := List.replicate 980 0 }
    decode settings (layout 32 32 e) = .ok e ∧
      decode settings (encode e) = .error (.tooLong 1088 1024) := by
  intro settings e
  have hzeros : Axis.zero.StartsWithZeros 32 := ⟨Nat.le_refl 32, by decide⟩
  have hr : e.r.length = 980 := List.length_replicate
  have hwritten : (encode e).length = 1088 := by
    rw [length_encode, hr]
    rfl
  have hreceived : (layout 32 32 e).length = 1024 := by
    have hlen := length_layout (Nat.le_refl 32) (Nat.le_refl 32) e
    rw [← length_encode, hwritten] at hlen
    omega
  have hlimit : settings.payloadLimit.toNat = 0 := by decide
  constructor
  · exact decode_eq_ok_iff.mpr ⟨by omega, 32, 32, hzeros, hzeros, rfl⟩
  · rw [decode_encode, hwritten, hlimit]
    rfl

end Frame

end ConsensusEnvelope
