import ConsensusEnvelope.Proofs.Format

/-!
# Which frames are accepted, and as what

A frame within the length limit is accepted as an envelope exactly when it is
laid out as one: the version, and five byte strings behind their lengths. Only
the axes leave a choice. An axis is a number of 256 bits, and a frame may leave
out any of the zero bytes in front of it; its length field then says so. All
other fields have one form, so the frames of an envelope are counted by the
zeros that its axes start with, and the frame that leaves out none is the one
that is written.

The length fields hold eight bytes. That needs no mention in the results about
frames, because a frame within the limit has no room for a field that eight
bytes could not count.
-/

namespace ConsensusEnvelope

theorem Settings.toNat_payloadLimit (settings : Settings) :
    settings.payloadLimit.toNat = min settings.maxPayload.toNat 0xffffffff := by
  rw [payloadLimit]
  show (if _ then _ else _ : UInt64).toNat = _
  split
  · next h =>
      have hle : settings.maxPayload.toNat ≤ 0xffffffff := h
      rw [min_eq_left hle]
  · next h =>
      have hlt : ¬ settings.maxPayload.toNat ≤ 0xffffffff := h
      rw [min_eq_right (by omega)]
      rfl

theorem Settings.payloadLimit_lt (settings : Settings) :
    settings.payloadLimit.toNat < UInt32.size := by
  rw [toNat_payloadLimit]
  exact Nat.lt_of_le_of_lt (min_le_right _ _) (by decide)

namespace Axis

/-- The first `i` bytes of an axis are zeros. -/
def StartsWithZeros (axis : Axis) (i : Nat) : Prop :=
  i ≤ 32 ∧ axis.bytes.take i = List.replicate i 0

/-- The byte strings that are read as an axis are those that lack some of its
zeros in front. -/
theorem decode_eq_ok_iff {bytes : Bytes} {axis : Axis} :
    decode bytes = .ok axis ↔
      ∃ i, axis.StartsWithZeros i ∧ bytes = axis.bytes.drop i := by
  constructor
  · intro h
    simp only [decode] at h
    split at h
    · next hlen =>
        cases h
        refine ⟨32 - bytes.length, ⟨Nat.sub_le _ _, ?_⟩, ?_⟩
        · exact List.take_left' List.length_replicate
        · exact (List.drop_left' List.length_replicate).symm
    · cases h
  · rintro ⟨i, ⟨hi, hzeros⟩, rfl⟩
    have hlen : (axis.bytes.drop i).length = 32 - i := by
      rw [List.length_drop, axis.length_bytes]
    have hpad : (axis.bytes.drop i).leftpad 32 0 = axis.bytes := by
      rw [List.leftpad, hlen, show 32 - (32 - i) = i by omega, ← hzeros,
        List.take_append_drop]
    rw [decode, dif_pos (by omega)]
    exact congrArg Except.ok (Axis.ext hpad)

theorem startsWithZeros_zero (axis : Axis) : axis.StartsWithZeros 0 :=
  ⟨Nat.zero_le _, rfl⟩

theorem decode_bytes (axis : Axis) : decode axis.bytes = .ok axis :=
  decode_eq_ok_iff.mpr ⟨0, axis.startsWithZeros_zero, rfl⟩

end Axis

namespace Binary.Format

theorem accepts_axis :
    (axis .plain).Accepts fun used a => ∃ i, a.StartsWithZeros i ∧
      used = Bytes.littleEndian 8 (32 - i) ++ a.bytes.drop i := by
  refine (accepts_filterMap accepts_blob _ _).congr fun used a => ?_
  simp only [Except.mapError_eq_ok_iff, Axis.decode_eq_ok_iff, Counted]
  constructor
  · rintro ⟨bs, ⟨-, rfl⟩, i, hzeros, rfl⟩
    refine ⟨i, hzeros, ?_⟩
    rw [List.length_drop, a.length_bytes]
  · rintro ⟨i, hzeros, rfl⟩
    refine ⟨_, ⟨?_, ?_⟩, i, hzeros, rfl⟩ <;> rw [List.length_drop, a.length_bytes]
    exact Nat.lt_of_le_of_lt (Nat.sub_le _ _) (by decide)

theorem roundTrips_axis : (axis .plain).RoundTrips fun _ => True := by
  refine (roundTrips_filterMap roundTrips_blob fun a => ?_).congr fun a => ?_
  · rw [Except.mapError_eq_ok_iff, Axis.decode_bytes]
  · rw [a.length_bytes]
    exact iff_of_true (by decide) trivial

end Binary.Format

namespace Frame

/-- The bytes of a frame that leaves out the first `i` bytes of the first axis
and the first `j` bytes of the second one. -/
def layout (i j : Nat) (e : Envelope) : Bytes :=
  Bytes.littleEndian 4 e.version.toNat ++
    (Bytes.littleEndian 8 (32 - i) ++ e.x.bytes.drop i) ++
    (Bytes.littleEndian 8 (32 - j) ++ e.y.bytes.drop j) ++
    (Bytes.littleEndian 8 e.payload.length ++ e.payload) ++
    (Bytes.littleEndian 8 e.r.length ++ e.r) ++
    (Bytes.littleEndian 8 e.s.length ++ e.s)

theorem length_layout {i j : Nat} (hi : i ≤ 32) (hj : j ≤ 32) (e : Envelope) :
    (layout i j e).length + i + j =
      108 + e.payload.length + e.r.length + e.s.length := by
  simp only [layout, List.length_append, Bytes.length_littleEndian, List.length_drop,
    Axis.length_bytes]
  omega

/-- The frame that is written leaves out nothing. -/
theorem encode_eq_layout (e : Envelope) : encode e = layout 0 0 e := by
  have haxis : ∀ a : Axis, (Binary.Format.axis .plain).write a =
      Bytes.littleEndian 8 32 ++ a.bytes := by
    intro a
    show Bytes.littleEndian 8 a.bytes.length ++ a.bytes = _
    rw [a.length_bytes]
  rw [encode, options_eq]
  show Bytes.littleEndian 4 e.version.toNat ++ ((Binary.Format.axis .plain).write e.x ++
    ((Binary.Format.axis .plain).write e.y ++ ((Bytes.littleEndian 8 e.payload.length ++ e.payload) ++
      ((Bytes.littleEndian 8 e.r.length ++ e.r) ++
        (Bytes.littleEndian 8 e.s.length ++ e.s))))) = _
  simp only [haxis, layout, List.append_assoc, List.drop_zero, Nat.sub_zero]

theorem length_encode (e : Envelope) :
    (encode e).length = 108 + e.payload.length + e.r.length + e.s.length := by
  rw [encode_eq_layout]
  exact length_layout (Nat.zero_le 32) (Nat.zero_le 32) e

end Frame

theorem Binary.Format.accepts_envelope :
    (Binary.Format.envelope .plain).Accepts fun used e => ∃ i j,
      e.x.StartsWithZeros i ∧ e.y.StartsWithZeros j ∧
      e.payload.length < UInt64.size ∧ e.r.length < UInt64.size ∧
      e.s.length < UInt64.size ∧ used = Frame.layout i j e := by
  refine (accepts_map (accepts_pair accepts_u32 <| accepts_pair accepts_axis <|
    accepts_pair accepts_axis <| accepts_pair accepts_bytes <|
    accepts_pair accepts_bytes accepts_bytes) _ _).congr fun used e => ?_
  constructor
  · rintro ⟨⟨version, x, y, payload, r, s⟩, ⟨_, _, rfl, rfl, _, _, rfl, ⟨i, hi, rfl⟩,
      _, _, rfl, ⟨j, hj, rfl⟩, _, _, rfl, ⟨hpayload, rfl⟩, _, _, rfl, ⟨hr, rfl⟩,
      ⟨hs, rfl⟩⟩, rfl⟩
    refine ⟨i, j, hi, hj, hpayload, hr, hs, ?_⟩
    simp only [Frame.layout, List.append_assoc]
  · rintro ⟨i, j, hi, hj, hpayload, hr, hs, rfl⟩
    refine ⟨(e.version, e.x, e.y, e.payload, e.r, e.s), ⟨_, _, ?_, rfl, _, _, rfl,
      ⟨i, hi, rfl⟩, _, _, rfl, ⟨j, hj, rfl⟩, _, _, rfl, ⟨hpayload, rfl⟩, _, _, rfl,
      ⟨hr, rfl⟩, ⟨hs, rfl⟩⟩, rfl⟩
    simp only [Frame.layout, List.append_assoc]

namespace Frame

theorem toNat_limit (settings : Settings) :
    (limit settings).toNat = settings.payloadLimit.toNat + 1024 := by
  have hlt := settings.payloadLimit_lt
  rw [limit, UInt64.toNat_add]
  exact Nat.mod_eq_of_lt (Nat.lt_trans (Nat.add_lt_add_right hlt 1024) (by decide))

theorem decode_of_long {settings : Settings} {frame : Bytes}
    (h : settings.payloadLimit.toNat + 1024 < frame.length) :
    decode settings frame =
      .error (.tooLong frame.length (settings.payloadLimit.toNat + 1024)) := by
  rw [← toNat_limit] at h ⊢
  exact if_pos h

theorem decode_eq_ok_iff_format {settings : Settings} {frame : Bytes} {e : Envelope} :
    decode settings frame = .ok e ↔
      frame.length ≤ settings.payloadLimit.toNat + 1024 ∧
        (Binary.Format.envelope .plain).decode frame = .ok e := by
  rw [decode, options_eq, Binary.Options.decode_plain, toNat_limit]
  split
  · next hlong =>
      constructor
      · intro h; cases h
      · rintro ⟨hshort, -⟩; omega
  · next hshort =>
      rw [Except.mapError_eq_ok_iff]
      exact ⟨fun h => ⟨by omega, h⟩, fun h => h.2⟩

/-- A frame within the limit is accepted as the envelope that it is laid out
as. -/
theorem decode_eq_ok_iff {settings : Settings} {frame : Bytes} {e : Envelope} :
    decode settings frame = .ok e ↔
      frame.length ≤ settings.payloadLimit.toNat + 1024 ∧
        ∃ i j, e.x.StartsWithZeros i ∧ e.y.StartsWithZeros j ∧ frame = layout i j e := by
  rw [decode_eq_ok_iff_format, Binary.Format.accepts_envelope.decode_eq_ok_iff]
  constructor
  · rintro ⟨hshort, i, j, hi, hj, -, -, -, hframe⟩
    exact ⟨hshort, i, j, hi, hj, hframe⟩
  · rintro ⟨hshort, i, j, hi, hj, hframe⟩
    -- The limit is below `2 ^ 33`, so no field comes near the `2 ^ 64` of its length.
    have hlimit := settings.payloadLimit_lt
    have hlen := length_layout hi.1 hj.1 e
    rw [← hframe] at hlen
    have hsize : frame.length < UInt64.size - 64 :=
      Nat.lt_of_le_of_lt hshort
        (Nat.lt_trans (Nat.add_lt_add_right hlimit 1024) (by decide))
    have hwidth : 64 < UInt64.size := by decide
    have hi' := hi.1
    have hj' := hj.1
    exact ⟨hshort, i, j, hi, hj, by omega, by omega, by omega, hframe⟩

theorem decode_encode_iff {settings : Settings} {e : Envelope} :
    decode settings (encode e) = .ok e ↔
      (encode e).length ≤ settings.payloadLimit.toNat + 1024 := by
  rw [decode_eq_ok_iff]
  refine ⟨fun h => h.1, fun h => ⟨h, 0, 0, e.x.startsWithZeros_zero,
    e.y.startsWithZeros_zero, encode_eq_layout e⟩⟩

/-- A frame that was written is taken, or it is too long. -/
theorem decode_encode (settings : Settings) (e : Envelope) :
    decode settings (encode e) =
      if (encode e).length ≤ settings.payloadLimit.toNat + 1024 then .ok e
      else .error (.tooLong (encode e).length (settings.payloadLimit.toNat + 1024)) := by
  split
  · next hroom => exact decode_encode_iff.mpr hroom
  · next hlong => exact decode_of_long (Nat.lt_of_not_ge hlong)

/-- Reading frames, exactly. A frame is accepted as an envelope if and only if
it is within the limit and laid out as that envelope, up to zeros left out in
front of the axes. The frame that is written leaves out none, and within the
limit it is accepted as the envelope that it was written for. -/
theorem decode_exact (settings : Settings) (frame : Bytes) (e : Envelope) :
    (decode settings frame = .ok e ↔
      frame.length ≤ settings.payloadLimit.toNat + 1024 ∧
        ∃ i j, e.x.StartsWithZeros i ∧ e.y.StartsWithZeros j ∧
          frame = layout i j e) ∧
    encode e = layout 0 0 e ∧
    (decode settings (encode e) = .ok e ↔
      (encode e).length ≤ settings.payloadLimit.toNat + 1024) :=
  ⟨decode_eq_ok_iff, encode_eq_layout e, decode_encode_iff⟩

end Frame

/-- An envelope of three bytes of payload whose axes start with 31 and 30 zeros. -/
def Envelope.smallAxes : Envelope where
  version := 7
  x := ⟨_, Bytes.length_bigEndian 32 5⟩
  y := ⟨_, Bytes.length_bigEndian 32 0x102⟩
  payload := [0x61, 0x62, 0x63]
  r := List.replicate 32 0xab
  s := List.replicate 31 0xcd

theorem Frame.length_layout_smallAxes : (layout 31 20 .smallAxes).length = 123 := by
  have hlen := length_layout (show 31 ≤ 32 by decide) (show 20 ≤ 32 by decide) .smallAxes
  have hpayload : Envelope.smallAxes.payload.length = 3 := rfl
  have hr : Envelope.smallAxes.r.length = 32 := rfl
  have hs : Envelope.smallAxes.s.length = 31 := rfl
  omega

/-- Some of these zeros are left out in a frame of 123 bytes. -/
theorem Frame.decode_smallAxes {settings : Settings}
    (h : 123 ≤ settings.payloadLimit.toNat + 1024) :
    decode settings (layout 31 20 .smallAxes) = .ok .smallAxes := by
  rw [decode_eq_ok_iff, length_layout_smallAxes]
  exact ⟨h, 31, 20, ⟨by decide, by decide⟩, ⟨by decide, by decide⟩, rfl⟩

end ConsensusEnvelope
