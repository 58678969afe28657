import ConsensusEnvelope.Proofs.Reading
import ConsensusEnvelope.Proofs.Spellings

/-!
# An envelope in a payload is read like a frame

The binary form of an envelope is used twice: as a frame, and by a codec whose messages
are envelopes, so that one envelope can be the payload of another. The two choose the
options of the form apart from each other, the codec by default where the frame names the
order of bytes. They come to the same choice, and no other one would do: one envelope tells
from its first bytes under which order and which form of numbers it was written, and with a
byte behind it whether that byte is refused.

The two have their own errors and only the frame has a limit, so that they agree is more
than that they agree on what they accept. A byte string that is not an envelope has one
first offence, found where the reading of its fields stops. Neither that place nor its
wording depends on who reads, and the receiver of a frame adds nothing but the offence of
being too long, which comes before all others.

The payload of a verified envelope is never too long to be a frame, since verification
bounds it by the payload limit and the limit of a frame is higher. So what an endpoint
reads out of a verified envelope is what it would have received as a frame.
-/

namespace ConsensusEnvelope

/-! ## What the options have to be -/

namespace Binary.Options

/-- An envelope whose version shows how numbers are written. It is the least number that does
not stand for itself where numbers take up the bytes that they need, and its bytes come out
differently in either order. -/
def probe : Envelope :=
  { Envelope.empty with version := 251 }

/-- The version of the probe, and what of the next field comes into the first four bytes. -/
theorem take_encode_probe (o : Options) :
    (o.encode Format.envelope probe).take 4 =
      match o.order, o.numbers with
      | .little, .fixed => [251, 0, 0, 0]
      | .big, .fixed => [0, 0, 0, 251]
      | .little, .varying => [251, 251, 0, 32]
      | .big, .varying => [251, 0, 251, 32] := by
  obtain ⟨order, numbers, trailing⟩ := o
  cases order <;> cases numbers <;> rfl

/-- Envelopes are written alike exactly under one byte order and one form of numbers. -/
theorem encode_envelope_eq_iff {o o' : Options} :
    (∀ e, o.encode Format.envelope e = o'.encode Format.envelope e) ↔
      o.order = o'.order ∧ o.numbers = o'.numbers := by
  constructor
  · intro h
    have hversion := congrArg (List.take 4) (h probe)
    rw [take_encode_probe, take_encode_probe] at hversion
    cases horder : o.order <;> cases hnumbers : o.numbers <;>
      cases horder' : o'.order <;> cases hnumbers' : o'.numbers <;>
      rw [horder, hnumbers, horder', hnumbers'] at hversion <;>
      first | exact ⟨rfl, rfl⟩ | exact absurd hversion (by decide)
  · obtain ⟨order, numbers, trailing⟩ := o
    obtain ⟨order', numbers', trailing'⟩ := o'
    rintro ⟨rfl, rfl⟩ e
    rfl

/-- What is written under some options is read as something else under options that do not
write alike. -/
theorem decode_encode_probe_iff {o o' : Options} :
    o'.decode Format.envelope (o.encode Format.envelope probe) = .ok probe ↔
      o.order = o'.order ∧ o.numbers = o'.numbers := by
  obtain ⟨order, numbers, trailing⟩ := o
  obtain ⟨order', numbers', trailing'⟩ := o'
  cases order <;> cases numbers <;> cases trailing <;>
    cases order' <;> cases numbers' <;> cases trailing' <;> decide

theorem decode_encode_probe_append {o o' : Options} (horder : o.order = o'.order)
    (hnumbers : o.numbers = o'.numbers) :
    o'.decode Format.envelope (o.encode Format.envelope probe ++ [0]) =
      match o'.trailing with
      | .refused => .error .trailingBytes
      | .ignored => .ok probe := by
  obtain ⟨order, numbers, trailing⟩ := o
  obtain ⟨_, _, trailing'⟩ := o'
  cases horder
  cases hnumbers
  cases order <;> cases numbers <;> cases trailing <;> cases trailing' <;> rfl

/-- Byte strings are read alike exactly under the same options. -/
theorem decode_envelope_eq_iff {o o' : Options} :
    (∀ bytes, o.decode Format.envelope bytes = o'.decode Format.envelope bytes) ↔ o = o' := by
  constructor
  · intro h
    have hprobe := h (o.encode Format.envelope probe)
    rw [decode_encode_probe_iff.mpr ⟨rfl, rfl⟩] at hprobe
    obtain ⟨horder, hnumbers⟩ := decode_encode_probe_iff.mp hprobe.symm
    have hmore := h (o.encode Format.envelope probe ++ [0])
    rw [decode_encode_probe_append rfl rfl, decode_encode_probe_append horder hnumbers] at hmore
    refine Options.ext horder hnumbers ?_
    cases htrailing : o.trailing <;> cases htrailing' : o'.trailing <;>
      rw [htrailing, htrailing'] at hmore <;> first | rfl | cases hmore
  · rintro rfl bytes
    rfl

end Binary.Options
/-! ## Two readers -/

namespace Frame

variable {settings : Settings} {frame : Bytes} {offence : Offence}

/-- What is wrong with a frame, whatever its length. -/
inductive Malformed (frame : Bytes) : Offence → Prop where
  | unreadable {field : Field} {flaw : Flaw} :
      Reading Field.order frame (.flawed field flaw) → Malformed frame (.unreadable field flaw)
  | trailing {rest : Bytes} :
      Reading Field.order frame (.finished rest) → rest ≠ [] → Malformed frame .trailing

theorem Malformed.offends (h : Malformed frame offence)
    (hshort : frame.length ≤ settings.payloadLimit.toNat + 1024) :
    Offends settings frame offence := by
  cases h with
  | unreadable hreading => exact .unreadable hshort hreading
  | trailing hreading hrest => exact .trailing hshort hreading hrest

theorem finished_or_malformed (frame : Bytes) :
    Reading Field.order frame (.finished []) ∨ ∃ offence, Malformed frame offence := by
  obtain ⟨stop, hreading⟩ := Reading.total Field.order frame
  cases stop with
  | flawed field flaw => exact .inr ⟨_, .unreadable hreading⟩
  | finished rest =>
      cases rest with
      | nil => exact .inl hreading
      | cons b rest => exact .inr ⟨_, .trailing hreading (List.cons_ne_nil b rest)⟩

end Frame

namespace MessageKind

open ConsensusEnvelope.Frame

variable {settings : Settings} {frame : Bytes} {offence : Offence}

theorem decode_of_malformed (h : Malformed frame offence) :
    envelope.codec.decode frame = .error (.decode offence.text) := by
  rw [← Offence.message_fault]
  cases h with
  | unreadable hreading => exact Codec.decode_binary_of_error hreading.decode_flawed
  | trailing hreading hrest =>
      exact Codec.decode_binary_of_error (hreading.decode_trailing hrest)

theorem decode_envelope_eq_error_iff {error : CodecError} :
    envelope.codec.decode frame = .error error ↔
      ∃ offence, Malformed frame offence ∧ error = .decode offence.text := by
  constructor
  · intro h
    rcases finished_or_malformed frame with hfinished | ⟨offence, hoffence⟩
    · obtain ⟨e, he⟩ := hfinished.exists_decode
      have hok : envelope.codec.decode frame = .ok e := Codec.decode_binary_eq_ok_iff.mpr he
      rw [h] at hok
      cases hok
    · rw [decode_of_malformed hoffence] at h
      cases h
      exact ⟨offence, hoffence, rfl⟩
  · rintro ⟨offence, hoffence, rfl⟩
    exact decode_of_malformed hoffence

/-- Within the limit of a receiver, a byte string is read as the same envelope by both, or
refused by both in the same words. -/
theorem decode_agrees_receive (hshort : frame.length ≤ settings.payloadLimit.toNat + 1024) :
    (∃ e, envelope.codec.decode frame = .ok e ∧
      (receive settings frame).outcome = .ok e) ∨
    ∃ fault, envelope.codec.decode frame = .error (.decode fault.message) ∧
      (receive settings frame).outcome = .error (.frame fault) := by
  rw [outcome_receive]
  cases hdecode : envelope.codec.decode frame with
  | ok e =>
      refine .inl ⟨e, rfl, ?_⟩
      rw [decode_eq_ok_iff_format.mpr ⟨hshort, Codec.decode_binary_eq_ok_iff.mp hdecode⟩]
      rfl
  | error error =>
      obtain ⟨offence, hoffence, rfl⟩ := decode_envelope_eq_error_iff.mp hdecode
      refine .inr ⟨offence.fault, by rw [Offence.message_fault], ?_⟩
      rw [(hoffence.offends hshort).decode_eq]
      rfl

/-- The two choices of options come to the same. -/
theorem encode_envelope (e : Envelope) : envelope.codec.encode e = .ok (Frame.encode e) := by
  have hencode : envelope.codec.encode e = _ := Codec.encode_binary Binary.Format.envelope e
  rw [hencode, Frame.encode, Frame.options_eq, Binary.Options.encode_plain]

/-- An envelope is written and read in the same way as the payload of another one and as a
frame. A receiver refuses what is longer than its limit, which the codec does not know. Both
have their own options, which are equal. Envelopes are not written like frames under another
order of bytes or another form of numbers, and under options that differ in anything from
those of the codec they are not read like frames either. -/
theorem payload_is_frame (settings : Settings) :
    (∀ e, envelope.codec.encode e = .ok (Frame.encode e) ∧
      Frame.encode e = Frame.layout 0 0 e) ∧
    (∀ frame : Bytes, frame.length ≤ settings.payloadLimit.toNat + 1024 →
      (∃ e, envelope.codec.decode frame = .ok e ∧
        (Frame.receive settings frame).outcome = .ok e) ∨
      ∃ fault, envelope.codec.decode frame = .error (.decode fault.message) ∧
        (Frame.receive settings frame).outcome = .error (.frame fault)) ∧
    (∀ frame : Bytes, settings.payloadLimit.toNat + 1024 < frame.length →
      (Frame.receive settings frame).outcome =
        .error (.frame (.tooLong frame.length (settings.payloadLimit.toNat + 1024)))) ∧
    (∀ frame : Bytes,
      (∀ e, envelope.codec.decode frame = .ok e ↔
        e.Fits ∧ ∃ i j, e.x.StartsWithZeros i ∧ e.y.StartsWithZeros j ∧
          frame = Frame.layout i j e) ∧
      ∀ error, envelope.codec.decode frame = .error error ↔
        ∃ offence, Frame.Malformed frame offence ∧ error = .decode offence.text) ∧
    ∀ o : Binary.Options,
      ((∀ e, o.encode Binary.Format.envelope e = Frame.encode e) ↔
        o.order = Codec.options.order ∧ o.numbers = Codec.options.numbers) ∧
      ((∀ frame, o.decode Binary.Format.envelope frame =
          Frame.options.decode Binary.Format.envelope frame) ↔
        o = Codec.options) := by
  refine ⟨fun e => ⟨encode_envelope e, encode_eq_layout e⟩, fun _ => decode_agrees_receive,
    fun frame hlong => ?_,
    fun frame => ⟨fun _ => decode_envelope, fun _ => decode_envelope_eq_error_iff⟩,
    fun o => ?_⟩
  · rw [outcome_receive, decode_of_long hlong]
    rfl
  · simp only [Frame.encode]
    rw [Binary.Options.encode_envelope_eq_iff, Binary.Options.decode_envelope_eq_iff,
      Codec.options_eq, Frame.options_eq]
    exact ⟨Iff.rfl, Iff.rfl⟩

end MessageKind

/-- The payload of a verified envelope is within the limit, so an envelope in it is read as
it would be received in a frame. -/
theorem Endpoint.read_nested {settings : Settings} {outer : Envelope}
    (h : outer.verify settings = .ok true) :
    (∃ e, (Endpoint.read ⟨settings, MessageKind.envelope.codec⟩ outer).outcome = .ok e ∧
      (Frame.receive settings outer.payload).outcome = .ok e) ∨
    ∃ fault, (Endpoint.read ⟨settings, MessageKind.envelope.codec⟩ outer).outcome =
        .error (.payload (.decode fault.message)) ∧
      (Frame.receive settings outer.payload).outcome = .error (.frame fault) := by
  have hsize := (Envelope.verify_eq_true_iff.mp h).1
  have hshort : outer.payload.length ≤ settings.payloadLimit.toNat + 1024 := by omega
  have hread : (Endpoint.read ⟨settings, MessageKind.envelope.codec⟩ outer).outcome = _ :=
    outcome_read h
  rw [hread]
  rcases MessageKind.decode_agrees_receive hshort with
    ⟨e, hdecode, hreceive⟩ | ⟨fault, hdecode, hreceive⟩
  · exact .inl ⟨e, by rw [hdecode]; rfl, hreceive⟩
  · exact .inr ⟨fault, by rw [hdecode]; rfl, hreceive⟩

end ConsensusEnvelope
