import ConsensusEnvelope.Proofs.Delivery

/-!
# Messages with one payload

`RoundTrips` says that a format reads what it writes. `Strict` is the converse: a
value is read from nothing but what is written for it. The shapes that formats are
built from keep this law, with one condition on the conversions put on top of
them: what a conversion reads must be what it would write. A tag in front of some
fields keeps it because a tag that belongs to no alternative is refused.

A vote, a decision, a message of a round and a coordinate meet the condition.
Under such a format, decoding is the inverse of encoding, so there is nothing to a
payload but its message: whoever has seen the one has seen the other. That a
payload is refused when some of it is missing or something is added needs no look
at the fields. What is read does not depend on what follows, so if a payload and
the beginning of it were both read in full, the first would have bytes left.
-/

namespace ConsensusEnvelope

namespace Binary.Format

variable {α β : Type} {format : Format α} {first : Format α} {second : Format β}
  {P : Bytes → α → Prop} {fits : α → Prop} {fits₂ : β → Prop}

/-- A value is read only from what the format writes for it, and it fits. -/
def Strict (format : Format α) (fits : α → Prop) : Prop :=
  ∀ ⦃bytes a rest⦄, format.read bytes = .ok (a, rest) →
    bytes = format.write a ++ rest ∧ fits a

theorem Accepts.strict (h : format.Accepts P)
    (hP : ∀ used a, P used a → used = format.write a ∧ fits a) : format.Strict fits := by
  intro bytes a rest hread
  obtain ⟨used, rfl, hused⟩ := (h _ _ _).mp hread
  obtain ⟨rfl, ha⟩ := hP used a hused
  exact ⟨rfl, ha⟩

theorem Strict.mono {fits' : α → Prop} (h : format.Strict fits)
    (hfits : ∀ a, fits a → fits' a) : format.Strict fits' := by
  intro bytes a rest hread
  obtain ⟨hbytes, ha⟩ := h hread
  exact ⟨hbytes, hfits a ha⟩

/-- Under both laws, what is written for a value is its only spelling. -/
theorem Strict.accepts (h : format.Strict fits) (hback : format.RoundTrips fits) :
    format.Accepts fun used a => used = format.write a ∧ fits a := by
  intro bytes a rest
  constructor
  · intro hread
    obtain ⟨hbytes, ha⟩ := h hread
    exact ⟨format.write a, hbytes, rfl, ha⟩
  · rintro ⟨used, rfl, rfl, ha⟩
    exact hback.read_write a ha rest

/-! ## Shapes -/

theorem strict_map (h : format.Strict fits) {into : β → α} {back : α → β}
    (hinto : ∀ a, into (back a) = a) :
    (format.map into back).Strict fun b => fits (into b) := by
  intro bytes b rest hread
  simp only [map, Except.bind_eq_ok_iff] at hread
  obtain ⟨⟨a, rest'⟩, hread, hpure⟩ := hread
  cases hpure
  obtain ⟨rfl, ha⟩ := h hread
  simp only [map, hinto]
  exact ⟨trivial, ha⟩

theorem strict_filterMap (h : format.Strict fits) {into : β → α} {back : α → Except Fault β}
    (hinto : ∀ a b, back a = .ok b → into b = a) :
    (format.filterMap into back).Strict fun b => fits (into b) := by
  intro bytes b rest hread
  simp only [filterMap, Except.bind_eq_ok_iff] at hread
  obtain ⟨⟨a, rest'⟩, hread, b', hb, hpure⟩ := hread
  cases hpure
  obtain ⟨rfl, ha⟩ := h hread
  simp only [filterMap, hinto a b hb]
  exact ⟨trivial, ha⟩

theorem strict_pair (hfirst : first.Strict fits) (hsecond : second.Strict fits₂) :
    (first.pair second).Strict fun p => fits p.1 ∧ fits₂ p.2 := by
  intro bytes p rest hread
  simp only [pair, Except.bind_eq_ok_iff] at hread
  obtain ⟨⟨a, rest₁⟩, hread₁, ⟨b, rest₂⟩, hread₂, hpure⟩ := hread
  cases hpure
  obtain ⟨rfl, ha⟩ := hfirst hread₁
  obtain ⟨rfl, hb⟩ := hsecond hread₂
  exact ⟨(List.append_assoc _ _ _).symm, ha, hb⟩

/-- Behind a value with one spelling, the spelling of a pair is left to its second
component. -/
theorem accepts_pair_of_strict {Q : Bytes → β → Prop} (hfirst : first.Strict fits)
    (hback : first.RoundTrips fits) (hsecond : second.Accepts Q) :
    (first.pair second).Accepts fun used p =>
      fits p.1 ∧ ∃ v, used = first.write p.1 ++ v ∧ Q v p.2 := by
  refine (accepts_pair (hfirst.accepts hback) hsecond).congr fun used p => ?_
  constructor
  · rintro ⟨_, v, rfl, ⟨rfl, hp⟩, hv⟩
    exact ⟨hp, v, rfl, hv⟩
  · rintro ⟨hp, v, rfl, hv⟩
    exact ⟨_, v, rfl, ⟨rfl, hp⟩, hv⟩

theorem strict_number (width : Nat) : (number .plain width).Strict fun n => n < 256 ^ width := by
  refine (accepts_number width).strict ?_
  rintro used n ⟨rfl, rfl⟩
  exact ⟨(Bytes.littleEndian_littleValue used).symm, Bytes.littleValue_lt used⟩

theorem strict_u8 : u8.Strict fun _ => True :=
  accepts_u8.strict fun _ _ h => ⟨h, trivial⟩

theorem strict_u16 : (u16 .plain).Strict fun _ => True :=
  accepts_u16.strict fun _ _ h => ⟨h, trivial⟩

theorem strict_u32 : (u32 .plain).Strict fun _ => True :=
  accepts_u32.strict fun _ _ h => ⟨h, trivial⟩

theorem strict_u64 : (u64 .plain).Strict fun _ => True :=
  accepts_u64.strict fun _ _ h => ⟨h, trivial⟩

theorem strict_i8 : i8.Strict fun _ => True :=
  strict_map strict_u8 UInt8.toUInt8_toInt8

theorem strict_i64 : (i64 .plain).Strict fun _ => True :=
  strict_map strict_u64 UInt64.toUInt64_toInt64

theorem strict_bool : bool.Strict fun _ => True := by
  refine strict_filterMap strict_u8 fun byte b hback => ?_
  split at hback
  · next hzero => cases hback; exact hzero.symm
  · split at hback
    · next hone => cases hback; exact hone.symm
    · cases hback

theorem strict_char : char.Strict fun _ => True := by
  intro bytes c rest hread
  simp only [char] at hread
  split at hread
  · cases hread
  · split at hread
    · next b tail c' width hfront =>
        cases hread
        obtain ⟨tail', rest', rfl, rfl, hbytes⟩ := Utf8.front_eq_char hfront
        rw [Nat.add_sub_cancel, List.drop_left]
        show _ = String.utf8EncodeChar c ++ rest' ∧ _
        rw [hbytes]
        exact ⟨rfl, trivial⟩
    · cases hread

theorem strict_bytes : (bytes .plain).Strict fun bs => bs.length < UInt64.size :=
  accepts_bytes.strict fun _ _ h => ⟨h.2, h.1⟩

theorem strict_blob : (blob .plain).Strict fun bs => bs.length < UInt64.size :=
  accepts_blob.strict fun _ _ h => ⟨h.2, h.1⟩

theorem strict_text : (text .plain).Strict fun s => s.utf8ByteSize < UInt64.size := by
  refine (strict_filterMap strict_blob fun bs s hback => ?_).mono fun s hfits => ?_
  · exact Utf8.encode_of_decode (Except.mapError_eq_ok_iff.mp hback)
  · exact (Utf8.length_encode s).symm.trans_lt hfits

theorem strict_block (width : Nat) : (block width).Strict fun _ => True := by
  intro bytes v rest hread
  simp only [block] at hread
  split at hread
  · cases hread
    exact ⟨(List.take_append_drop width bytes).symm, trivial⟩
  · cases hread

theorem strict_readMany (h : format.Strict fits) {count : Nat} {found all : List α}
    {bytes rest : Bytes} (hread : readMany format.read count found bytes = .ok (all, rest)) :
    ∃ as, all = found.reverse ++ as ∧ as.length = count ∧
      bytes = as.flatMap format.write ++ rest ∧ ∀ a ∈ as, fits a := by
  induction count generalizing found bytes with
  | zero =>
      cases hread
      exact ⟨[], (List.append_nil _).symm, rfl, rfl, nofun⟩
  | succ count ih =>
      simp only [readMany, Except.bind_eq_ok_iff] at hread
      obtain ⟨⟨a, rest'⟩, hfirst, hlater⟩ := hread
      obtain ⟨rfl, ha⟩ := h hfirst
      obtain ⟨as, rfl, rfl, rfl, has⟩ := ih hlater
      refine ⟨a :: as, by simp, rfl, by simp, ?_⟩
      intro a' ha'
      rcases List.mem_cons.mp ha' with rfl | ha'
      · exact ha
      · exact has a' ha'

theorem strict_list (h : format.Strict fits) :
    (format.list .plain).Strict fun as => as.length < UInt64.size ∧ ∀ a ∈ as, fits a := by
  intro bytes as rest hread
  simp only [list, Except.bind_eq_ok_iff] at hread
  obtain ⟨⟨count, rest'⟩, hcount, hmany⟩ := hread
  obtain ⟨rfl, hlt⟩ := strict_number 8 hcount
  obtain ⟨as, rfl, rfl, rfl, has⟩ := strict_readMany h hmany
  exact ⟨(List.append_assoc _ _ _).symm, hlt, has⟩

/-- An optional value is spelt by a byte zero, or by a byte one and a spelling of the value. -/
theorem accepts_option (h : format.Accepts P) :
    format.option.Accepts fun used o =>
      (o = none ∧ used = [0]) ∨ ∃ a v, o = some a ∧ used = 1 :: v ∧ P v a := by
  intro bytes o rest
  simp only [option]
  constructor
  · intro hread
    split at hread
    · cases hread
    · next tag rest' =>
      split at hread
      · next htag =>
          cases hread
          exact ⟨[0], htag ▸ rfl, .inl ⟨rfl, rfl⟩⟩
      · split at hread
        · next htag =>
            obtain ⟨⟨a, rest''⟩, hvalue, hpure⟩ := Except.bind_eq_ok_iff.mp hread
            cases hpure
            obtain ⟨v, rfl, hv⟩ := (h _ _ _).mp hvalue
            exact ⟨1 :: v, htag ▸ rfl, .inr ⟨a, v, rfl, rfl, hv⟩⟩
        · cases hread
  · rintro ⟨used, rfl, ⟨rfl, rfl⟩ | ⟨a, v, rfl, rfl, hv⟩⟩
    · rfl
    · have hvalue := (h (v ++ rest) a rest).mpr ⟨v, rfl, hv⟩
      simp only [List.cons_append, hvalue, bind, Except.bind]
      rfl

theorem strict_option (h : format.Strict fits) (hback : format.RoundTrips fits) :
    format.option.Strict fun o => ∀ a ∈ o, fits a := by
  refine (accepts_option (h.accepts hback)).strict ?_
  rintro used o (⟨rfl, rfl⟩ | ⟨a, v, rfl, rfl, rfl, ha⟩)
  · exact ⟨rfl, nofun⟩
  · refine ⟨rfl, ?_⟩
    rintro _ ⟨⟩
    exact ha

/-- Only the index of one of the alternatives is read. -/
theorem strict_variant (count : Nat) : (variant .plain count).Strict fun index => index < count := by
  intro bytes index rest hread
  have hlt : index < count := by
    obtain ⟨-, -, index', -, hback⟩ :=
      (accepts_filterMap (accepts_number 4) _ _ _ _ _).mp hread
    split at hback
    · next hlt => cases hback; exact hlt
    · cases hback
  refine ⟨(strict_filterMap (strict_number 4) (fun a b hback => ?_) hread).1, hlt⟩
  split at hback
  · cases hback; rfl
  · cases hback

theorem read_variant_of_le {count : Nat} {bytes : Bytes} (hlen : 4 ≤ bytes.length)
    (hcount : count ≤ Bytes.littleValue (bytes.take 4)) :
    (variant .plain count).read bytes = .error (.variant (Bytes.littleValue (bytes.take 4)) count) := by
  have hread : (number .plain 4).read bytes = .ok (Bytes.littleValue (bytes.take 4), bytes.drop 4) :=
    (accepts_number 4 _ _ _).mpr ⟨bytes.take 4, (List.take_append_drop 4 bytes).symm,
      List.length_take_of_le hlen, rfl⟩
  simp only [variant, filterMap, hread, Except.ok_bind, if_neg (Nat.not_lt.mpr hcount)]
  rfl

/-! ## Whole payloads -/

theorem Accepts.decode_append (h : format.Accepts P) {bytes more : Bytes} {a : α}
    (hdecode : format.decode bytes = .ok a) (hmore : more ≠ []) :
    format.decode (bytes ++ more) = .error .trailingBytes := by
  have hread : format.read (bytes ++ more) = .ok (a, more) :=
    (h _ _ _).mpr ⟨bytes, rfl, h.decode_eq_ok_iff.mp hdecode⟩
  rw [decode, hread]
  cases more with
  | nil => exact absurd rfl hmore
  | cons b more => rfl

theorem Accepts.decode_take (h : format.Accepts P) {bytes : Bytes} {a : α} {n : Nat}
    (hdecode : format.decode bytes = .ok a) (hn : n < bytes.length) :
    ∃ fault, format.decode (bytes.take n) = .error fault := by
  cases hpart : format.decode (bytes.take n) with
  | error fault => exact ⟨fault, rfl⟩
  | ok a' =>
      -- The part would be followed by the bytes that it lacks.
      have hmore : bytes.drop n ≠ [] := by rw [Ne, List.drop_eq_nil_iff]; omega
      have htrailing := h.decode_append hpart hmore
      rw [List.take_append_drop, hdecode] at htrailing
      cases htrailing

/-! ## Messages -/

theorem strict_coordinate : (coordinate .plain).Strict fun _ => True := by
  refine (strict_filterMap strict_blob fun bs c hback => ?_).mono fun _ _ => trivial
  split at hback
  · next c' hc =>
      cases hback
      exact Coordinate.bytes_of_ofBytes? hc
  · cases hback

theorem strict_vote : (Vote.format .plain).Strict fun _ => True :=
  (strict_map (strict_pair strict_u64 <| strict_pair strict_u32 <| strict_block 32)
    fun _ => rfl).mono fun _ _ => trivial

theorem strict_decision : (Decision.format .plain).Strict Decision.Fits := by
  intro bytes message rest hread
  replace hread : Decision.read .plain bytes = .ok (message, rest) := hread
  simp only [Decision.read, Except.bind_eq_ok_iff] at hread
  obtain ⟨⟨index, rest₁⟩, hindex, hread⟩ := hread
  obtain ⟨rfl, hlt⟩ := strict_variant 2 hindex
  split at hread
  · next hlock =>
      obtain ⟨⟨⟨height, round⟩, rest₂⟩, hfields, hpure⟩ := Except.bind_eq_ok_iff.mp hread
      cases hpure
      obtain ⟨rfl, -⟩ := strict_pair strict_u64 strict_u64 hfields
      cases hlock
      exact ⟨(List.append_assoc _ _ _).symm, trivial⟩
  · next hcommit =>
      obtain ⟨⟨⟨height, state⟩, rest₂⟩, hfields, hpure⟩ := Except.bind_eq_ok_iff.mp hread
      cases hpure
      obtain ⟨rfl, -, hstate⟩ := strict_pair strict_u64 strict_bytes hfields
      cases show index = 1 by omega
      exact ⟨(List.append_assoc _ _ _).symm, hstate⟩

end Binary.Format

theorem Phase.index_ofIndex {index : Nat} (hne : index ≠ 0) (hlt : index < 5) :
    (ofIndex index).index = index := by
  match index with
  | 1 | 2 | 3 | 4 => rfl

theorem Binary.Format.strict_roundMessage :
    (RoundMessage.format .plain).Strict RoundMessage.Fits := by
  intro bytes message rest hread
  replace hread : RoundMessage.read .plain bytes = .ok (message, rest) := hread
  simp only [RoundMessage.read, Except.bind_eq_ok_iff] at hread
  obtain ⟨⟨index, rest₁⟩, hindex, hread⟩ := hread
  obtain ⟨rfl, hlt⟩ := strict_variant 5 hindex
  split at hread
  · next hchange =>
      obtain ⟨⟨⟨height, round⟩, rest₂⟩, hfields, hpure⟩ := Except.bind_eq_ok_iff.mp hread
      cases hpure
      obtain ⟨rfl, -⟩ := strict_pair strict_u64 strict_u64 hfields
      cases hchange
      exact ⟨(List.append_assoc _ _ _).symm, trivial⟩
  · next hphase =>
      obtain ⟨⟨⟨height, round, state⟩, rest₂⟩, hfields, hpure⟩ :=
        Except.bind_eq_ok_iff.mp hread
      cases hpure
      obtain ⟨rfl, -, -, hstate⟩ :=
        strict_pair strict_u64 (strict_pair strict_u64 strict_bytes) hfields
      refine ⟨?_, hstate⟩
      show _ = RoundMessage.write .plain (.phase (Phase.ofIndex index) height round state) ++ _
      rw [RoundMessage.write, Phase.index_ofIndex hphase hlt, List.append_assoc]

/-! ## Codecs -/

namespace Codec

variable {α : Type}

/-- The codec finds no message in a payload. -/
def Refuses (codec : Codec α) (payload : Bytes) : Prop :=
  ∃ reason, codec.decode payload = .error (.decode reason)

/-- Whatever is read as a message is the payload of that message; every other payload is
refused, and so is a payload of which some is missing or behind which there is more. -/
structure Canonical (codec : Codec α) : Prop where
  encode_of_decode : ∀ {payload message}, codec.decode payload = .ok message →
    codec.encode message = .ok payload
  refuses : ∀ {payload}, (∀ message, codec.decode payload ≠ .ok message) → codec.Refuses payload
  refuses_take : ∀ {payload message n}, codec.decode payload = .ok message →
    n < payload.length → codec.Refuses (payload.take n)
  refuses_append : ∀ {payload message more}, codec.decode payload = .ok message → more ≠ [] →
    codec.decode (payload ++ more) = .error (.decode Binary.Fault.trailingBytes.message)

theorem decode_binary_of_error {form : Binary.Options → Binary.Format α} {payload : Bytes}
    {fault : Binary.Fault} (h : (form .plain).decode payload = .error fault) :
    (binary form).decode payload = .error (.decode fault.message) := by
  rw [decode_binary, h]
  rfl

theorem decode_binary_eq_ok_iff {form : Binary.Options → Binary.Format α} {payload : Bytes}
    {message : α} :
    (binary form).decode payload = .ok message ↔ (form .plain).decode payload = .ok message := by
  rw [decode_binary, Except.mapError_eq_ok_iff]

theorem canonical_binary {form : Binary.Options → Binary.Format α} {fits : α → Prop}
    (h : (form .plain).Strict fits) (hback : (form .plain).RoundTrips fits) :
    (binary form).Canonical where
  encode_of_decode hdecode := by
    rw [decode_binary_eq_ok_iff, (h.accepts hback).decode_eq_ok_iff] at hdecode
    rw [hdecode.1, encode_binary]
  refuses {payload} hnone := by
    cases hdecode : (form .plain).decode payload with
    | error fault => exact ⟨_, decode_binary_of_error hdecode⟩
    | ok message => exact absurd (decode_binary_eq_ok_iff.mpr hdecode) (hnone message)
  refuses_take hdecode hn := by
    obtain ⟨fault, hfault⟩ :=
      (h.accepts hback).decode_take (decode_binary_eq_ok_iff.mp hdecode) hn
    exact ⟨_, decode_binary_of_error hfault⟩
  refuses_append hdecode hmore := decode_binary_of_error
    ((h.accepts hback).decode_append (decode_binary_eq_ok_iff.mp hdecode) hmore)

end Codec

/-! ## Votes, decisions, messages of a round, coordinates -/

namespace MessageKind

theorem canonical_codec {kind : MessageKind}
    (hkind : kind ∈ [vote, decision, round, coordinate]) : kind.codec.Canonical := by
  simp only [List.mem_cons, List.not_mem_nil, or_false] at hkind
  rcases hkind with rfl | rfl | rfl | rfl
  · exact Codec.canonical_binary Binary.Format.strict_vote Binary.Format.roundTrips_vote
  · exact Codec.canonical_binary Binary.Format.strict_decision Binary.Format.roundTrips_decision
  · exact Codec.canonical_binary Binary.Format.strict_roundMessage
      Binary.Format.roundTrips_roundMessage
  · exact Codec.canonical_binary Binary.Format.strict_coordinate
      Binary.Format.roundTrips_coordinate

/-- The number of alternatives among which an index in front of the fields chooses. -/
def alternatives? : MessageKind → Option Nat
  | .decision => some 2
  | .round => some 5
  | _ => none

theorem decode_of_unknown {kind : MessageKind} {count : Nat} {payload : Bytes}
    (hkind : kind.alternatives? = some count) (hlen : 4 ≤ payload.length)
    (hcount : count ≤ Bytes.littleValue (payload.take 4)) :
    kind.codec.decode payload = .error (.decode
      (Binary.Fault.variant (Bytes.littleValue (payload.take 4)) count).message) := by
  have hread := Binary.Format.read_variant_of_le hlen hcount
  generalize Binary.Fault.variant _ count = fault at hread ⊢
  cases kind with
  | decision =>
      cases hkind
      refine Codec.decode_binary_of_error ?_
      simp only [Binary.Format.decode, Decision.format, Decision.read, hread]
      rfl
  | round =>
      cases hkind
      refine Codec.decode_binary_of_error ?_
      simp only [Binary.Format.decode, RoundMessage.format, RoundMessage.read, hread]
      rfl
  | raw | vote | report | axis | coordinate | envelope => cases hkind

theorem length_write_u64 (n : UInt64) : ((Binary.Format.u64 .plain).write n).length = 8 :=
  Bytes.length_littleEndian 8 n.toNat

theorem length_write_bytes (bs : Bytes) :
    ((Binary.Format.bytes .plain).write bs).length = 8 + bs.length := by
  show (Bytes.littleEndian 8 bs.length ++ bs).length = _
  rw [List.length_append, Bytes.length_littleEndian]

theorem length_write_variant (count index : Nat) :
    ((Binary.Format.variant .plain count).write index).length = 4 :=
  Bytes.length_littleEndian 4 index

theorem length_write_vote (v : Vote) : ((Vote.format .plain).write v).length = 44 := by
  show ((Binary.Format.u64 .plain).write v.height ++
    (Bytes.littleEndian 4 v.round.toNat ++ v.block.toList)).length = _
  simp only [List.length_append, length_write_u64, Bytes.length_littleEndian,
    Vector.length_toList]

theorem length_write_coordinate (c : Coordinate) :
    ((Binary.Format.coordinate .plain).write c).length = 72 := by
  show ((Binary.Format.bytes .plain).write c.bytes).length = _
  rw [length_write_bytes, c.length_bytes]

theorem le_length_write_decision (message : Decision) :
    20 ≤ (message.write .plain).length := by
  cases message <;>
    simp only [Decision.write, Binary.Format.pair, List.length_append, length_write_u64,
      length_write_bytes, length_write_variant] <;>
    omega

theorem le_length_write_roundMessage (message : RoundMessage) :
    20 ≤ (message.write .plain).length := by
  cases message <;>
    simp only [RoundMessage.write, Binary.Format.pair, List.length_append, length_write_u64,
      length_write_bytes, length_write_variant] <;>
    omega

/-- The shortest message is a lock. -/
theorem length_of_encode {kind : MessageKind} (hkind : kind ∈ [vote, decision, round, coordinate])
    {message : kind.Message} {payload : Bytes} (h : kind.codec.encode message = .ok payload) :
    20 ≤ payload.length := by
  simp only [List.mem_cons, List.not_mem_nil, or_false] at hkind
  rcases hkind with rfl | rfl | rfl | rfl
  · cases h
    exact (show 20 ≤ 44 by decide).trans_eq (length_write_vote message).symm
  · cases h
    exact le_length_write_decision message
  · cases h
    exact le_length_write_roundMessage message
  · cases h
    exact (show 20 ≤ 72 by decide).trans_eq (length_write_coordinate message).symm

/-- Votes, decisions, messages of a round and coordinates are read from the payloads that
are written for them and from no others, so payloads and messages correspond one to one.
Refused are all other payloads: those shorter than the shortest message, those with an
index that belongs to no alternative, and those that lack some bytes of a message or have
some behind it. Of two verified envelopes, the messages are the same exactly if the
payloads are. -/
theorem written_back {kind : MessageKind} (hkind : kind ∈ [vote, decision, round, coordinate]) :
    (∀ payload message, kind.codec.decode payload = .ok message →
      kind.codec.encode message = .ok payload) ∧
    (∀ payload, payload.length < UInt64.size → ∀ message,
      kind.codec.decode payload = .ok message ↔ kind.codec.encode message = .ok payload) ∧
    (∀ payload, (∀ message, kind.codec.encode message ≠ .ok payload) →
      kind.codec.Refuses payload) ∧
    (∀ payload, payload.length < 20 → kind.codec.Refuses payload) ∧
    (∀ count ∈ kind.alternatives?, ∀ payload : Bytes, 4 ≤ payload.length →
      count ≤ Bytes.littleValue (payload.take 4) →
      kind.codec.decode payload = .error (.decode
        (Binary.Fault.variant (Bytes.littleValue (payload.take 4)) count).message)) ∧
    (∀ payload message, kind.codec.decode payload = .ok message →
      (∀ n, n < payload.length → kind.codec.Refuses (payload.take n)) ∧
      ∀ more, more ≠ [] → kind.codec.decode (payload ++ more) =
        .error (.decode Binary.Fault.trailingBytes.message)) ∧
    ∀ settings e e' message message',
      (Endpoint.read ⟨settings, kind.codec⟩ e).outcome = .ok message →
      (Endpoint.read ⟨settings, kind.codec⟩ e').outcome = .ok message' →
      (e.payload = e'.payload ↔ message = message') := by
  have hcanonical := canonical_codec hkind
  refine ⟨fun _ _ => hcanonical.encode_of_decode, fun payload hlen message => ?_,
    fun payload hnone => ?_, fun payload hshort => ?_, fun count hcount payload hlen hunknown => ?_,
    fun payload message h => ⟨fun n => hcanonical.refuses_take h,
      fun more => hcanonical.refuses_append h⟩, ?_⟩
  · refine ⟨hcanonical.encode_of_decode, fun hencode => ?_⟩
    obtain ⟨_, hencode', hread⟩ := kind.faithful_codec message
    rw [hencode] at hencode'
    cases hencode'
    exact hread hlen
  · exact hcanonical.refuses fun message h => hnone message (hcanonical.encode_of_decode h)
  · refine hcanonical.refuses fun message h => ?_
    have hlen := length_of_encode hkind (hcanonical.encode_of_decode h)
    omega
  · exact decode_of_unknown hcount hlen hunknown
  · intro settings e e' message message' h h'
    have hdecode := (Endpoint.outcome_read_eq_ok_iff.mp h).2
    have hdecode' := (Endpoint.outcome_read_eq_ok_iff.mp h').2
    constructor
    · intro hpayload
      rw [hpayload, hdecode'] at hdecode
      exact (Except.ok.inj hdecode).symm
    · rintro rfl
      have hencode := hcanonical.encode_of_decode hdecode
      rw [hcanonical.encode_of_decode hdecode'] at hencode
      exact (Except.ok.inj hencode).symm

/-- The payload of a commit with one byte of state. -/
theorem written_back_commit :
    ∃ payload : Bytes, payload.length = 21 ∧
      decision.codec.decode payload = .ok (Decision.commit 7 [0xaa]) ∧
      decision.codec.encode (Decision.commit 7 [0xaa]) = .ok payload ∧
      decision.codec.Refuses (payload.take 20) ∧
      decision.codec.decode (payload ++ [0]) =
        .error (.decode Binary.Fault.trailingBytes.message) ∧
      decision.codec.decode (2 :: payload.tail) =
        .error (.decode (Binary.Fault.variant 2 2).message) := by
  obtain ⟨hback, himage, -, -, hunknown, hcut, -⟩ :=
    written_back (show decision ∈ [vote, decision, round, coordinate] by decide)
  have hdecode :=
    (himage (Decision.write .plain (.commit 7 [0xaa])) (by decide) (.commit 7 [0xaa])).mpr rfl
  obtain ⟨htake, happend⟩ := hcut _ _ hdecode
  exact ⟨_, rfl, hdecode, hback _ _ hdecode, htake 20 (by decide), happend [0] (by decide),
    hunknown 2 rfl (2 :: (Decision.write .plain (.commit 7 [0xaa])).tail) (by decide) (by decide)⟩

end MessageKind

end ConsensusEnvelope
