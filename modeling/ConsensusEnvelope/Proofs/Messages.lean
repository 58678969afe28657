import ConsensusEnvelope.Codec
import ConsensusEnvelope.Message.Decision
import ConsensusEnvelope.Message.Report
import ConsensusEnvelope.Message.Round
import ConsensusEnvelope.Message.Vote
import ConsensusEnvelope.Proofs.Frame
import ConsensusEnvelope.Proofs.Utf8

/-!
# Every message is read back from its payload

A payload is the message itself or its binary form. The binary forms are put
together from shapes that read what they write, so all there is to show is that
the conversions on top of them go both ways: that a text is the text of its
bytes, that entries in order make up the dictionary they come from, that the
index in front of a message picks the reader of that message.

A message that is read back from its payload is determined by it. So the messages of
a type are told apart by their payloads.
-/

namespace ConsensusEnvelope

namespace Dictionary

variable {α : Type}

theorem insertEntry_of_forall_lt {key : String} {value : α} {entries : List (String × α)}
    (h : ∀ entry ∈ entries, entry.1 < key) :
    insertEntry key value entries = entries ++ [(key, value)] := by
  induction entries with
  | nil => rfl
  | cons entry rest ih =>
      have hlt := h entry List.mem_cons_self
      have hne : ¬ key = entry.1 := fun heq => String.lt_irrefl _ (heq ▸ hlt)
      rw [insertEntry, if_neg (String.lt_asymm hlt), if_neg hne,
        ih fun e he => h e (List.mem_cons_of_mem _ he)]
      rfl

theorem entries_foldl_insert {entries : List (String × α)} {d : Dictionary α}
    (sorted : (d.entries ++ entries).Pairwise (·.1 < ·.1)) :
    (entries.foldl (fun d entry => d.insert entry.1 entry.2) d).entries =
      d.entries ++ entries := by
  induction entries generalizing d with
  | nil => rw [List.foldl_nil, List.append_nil]
  | cons entry rest ih =>
      have hlt : ∀ e ∈ d.entries, e.1 < entry.1 := fun e he =>
        (List.pairwise_append.mp sorted).2.2 e he entry List.mem_cons_self
      have hinsert : (d.insert entry.1 entry.2).entries = d.entries ++ [entry] :=
        insertEntry_of_forall_lt hlt
      rw [List.foldl_cons, ih, hinsert, List.append_assoc, List.singleton_append]
      rwa [hinsert, List.append_assoc, List.singleton_append]

/-- Adding the entries of a dictionary in their order builds it again. -/
theorem ofList_entries (d : Dictionary α) : ofList d.entries = d :=
  Dictionary.ext (entries_foldl_insert (d := empty) d.sorted)

end Dictionary

theorem Coordinate.length_bytes (c : Coordinate) : c.bytes.length = 64 := by
  rw [bytes, List.length_append, c.x.length_bytes, c.y.length_bytes]

theorem Coordinate.ofBytes?_bytes (c : Coordinate) : ofBytes? c.bytes = some c := by
  rw [ofBytes?, dif_pos c.length_bytes, Option.some_inj]
  refine Coordinate.ext (Axis.ext ?_) (Axis.ext ?_)
  · exact List.take_left' c.x.length_bytes
  · exact List.drop_left' c.x.length_bytes

theorem Coordinate.bytes_of_ofBytes? {bytes : Bytes} {c : Coordinate}
    (h : ofBytes? bytes = some c) : c.bytes = bytes := by
  rw [ofBytes?] at h
  split at h
  · cases h
    exact List.take_append_drop 32 bytes
  · cases h

/-! ## Messages that fit

The lengths in a binary form are numbers of eight bytes. A message fits if nothing in
it is longer than such a number can say, and nothing that is held in memory is. -/

/-- The state of a commit fits. -/
def Decision.Fits : Decision → Prop
  | .lock _ _ => True
  | .commit _ state => state.length < UInt64.size

/-- The state of a message fits. -/
def RoundMessage.Fits : RoundMessage → Prop
  | .roundChange _ _ => True
  | .phase _ _ _ state => state.length < UInt64.size

/-- The payload and the scalars of an envelope fit. -/
structure Envelope.Fits (e : Envelope) : Prop where
  payload : e.payload.length < UInt64.size
  r : e.r.length < UInt64.size
  s : e.s.length < UInt64.size

/-- The texts, the list and the dictionary of a report fit. -/
structure Report.Fits (m : Report) : Prop where
  note : ∀ text ∈ m.note, text.utf8ByteSize < UInt64.size
  items : m.items.length < UInt64.size
  pairs : m.pairs.entries.length < UInt64.size
  keys : ∀ entry ∈ m.pairs.entries, entry.1.utf8ByteSize < UInt64.size

/-! ## The binary forms -/

namespace Binary.Format

theorem roundTrips_char : char.RoundTrips fun _ => True where
  read_write c _ rest := by
    obtain ⟨b, tail, hbytes, hfront⟩ := Utf8.front_utf8EncodeChar c rest
    show char.read (String.utf8EncodeChar c ++ rest) = _
    rw [hbytes, List.cons_append]
    simp only [char, hfront, Nat.add_sub_cancel, List.drop_left]
  fits_of_length _ _ := trivial

theorem roundTrips_text : (text .plain).RoundTrips fun s => s.utf8ByteSize < UInt64.size := by
  refine (roundTrips_filterMap roundTrips_blob fun s => ?_).congr fun s => ?_
  · rw [Except.mapError_eq_ok_iff, Utf8.decode_encode]
  · rw [Utf8.length_encode]

theorem roundTrips_coordinate : (coordinate .plain).RoundTrips fun _ => True := by
  refine (roundTrips_filterMap roundTrips_blob fun c => ?_).congr fun c => ?_
  · rw [Coordinate.ofBytes?_bytes]
  · rw [c.length_bytes]
    exact iff_of_true (by decide) trivial

theorem roundTrips_envelope : (envelope .plain).RoundTrips Envelope.Fits := by
  refine (roundTrips_map (roundTrips_pair roundTrips_u32 <| roundTrips_pair roundTrips_axis <|
    roundTrips_pair roundTrips_axis <| roundTrips_pair roundTrips_bytes <|
    roundTrips_pair roundTrips_bytes roundTrips_bytes) fun _ => rfl).congr fun e => ?_
  constructor
  · rintro ⟨-, -, -, hpayload, hr, hs⟩
    exact ⟨hpayload, hr, hs⟩
  · intro h
    exact ⟨trivial, trivial, trivial, h.payload, h.r, h.s⟩

theorem roundTrips_vote : (Vote.format .plain).RoundTrips fun _ => True := by
  refine (roundTrips_map (roundTrips_pair roundTrips_u64 <| roundTrips_pair roundTrips_u32 <|
    roundTrips_block 32) fun _ => rfl).congr fun v => ?_
  simp only [and_self]

/-- Entries behind their number. -/
theorem roundTrips_entries {α : Type} {value : Format α} {fits : α → Prop}
    (h : value.RoundTrips fits) :
    (((text .plain).pair value).list .plain).RoundTrips fun entries =>
      entries.length < UInt64.size ∧
        ∀ entry ∈ entries, entry.1.utf8ByteSize < UInt64.size ∧ fits entry.2 :=
  roundTrips_list (roundTrips_pair roundTrips_text h) fun _ hnil =>
    nomatch (List.append_eq_nil_iff.mp hnil).1

theorem roundTrips_dictionary {α : Type} {value : Format α} {fits : α → Prop}
    (h : value.RoundTrips fits) :
    (Dictionary.format .plain value).RoundTrips fun d => d.entries.length < UInt64.size ∧
      ∀ entry ∈ d.entries, entry.1.utf8ByteSize < UInt64.size ∧ fits entry.2 :=
  roundTrips_map (roundTrips_entries h) Dictionary.ofList_entries

theorem roundTrips_report : (Report.format .plain).RoundTrips Report.Fits := by
  refine (roundTrips_map (roundTrips_pair roundTrips_bool <| roundTrips_pair roundTrips_char <|
    roundTrips_pair roundTrips_i64 <| roundTrips_pair (roundTrips_option roundTrips_text) <|
    roundTrips_pair (roundTrips_list roundTrips_u16 fun _ hnil => nomatch hnil) <|
    roundTrips_pair (roundTrips_dictionary roundTrips_i8) (roundTrips_option roundTrips_axis))
    fun _ => rfl).congr fun m => ?_
  constructor
  · rintro ⟨-, -, -, hnote, ⟨hitems, -⟩, ⟨hpairs, hkeys⟩, -⟩
    exact ⟨hnote, hitems, hpairs, fun entry hentry => (hkeys entry hentry).1⟩
  · intro h
    exact ⟨trivial, trivial, trivial, h.note, ⟨h.items, fun _ _ => trivial⟩,
      ⟨h.pairs, fun entry hentry => ⟨h.keys entry hentry, trivial⟩⟩, fun _ _ => trivial⟩

/-- The index of an alternative is read back. -/
theorem read_variant {count index : Nat} (hindex : index < count) (hcount : count < 256)
    (rest : Bytes) :
    (variant .plain count).read ((variant .plain count).write index ++ rest) =
      .ok (index, rest) :=
  (accepts_filterMap (accepts_number 4) _ _ _ _ _).mpr ⟨_, rfl, index,
    ⟨Bytes.length_littleEndian _ _, Bytes.littleValue_littleEndian (by
      show index < 256 ^ 4
      omega)⟩, if_pos hindex⟩

/-- An alternative is its index and its fields, and both are read back. -/
theorem read_alternative {α : Type} {fields : Format α} {fits : α → Prop}
    (h : fields.RoundTrips fits) {a : α} (ha : fits a) {count index : Nat}
    (hindex : index < count) (hcount : count < 256) (rest : Bytes) :
    (variant .plain count).read
        ((variant .plain count).write index ++ fields.write a ++ rest) =
        .ok (index, fields.write a ++ rest) ∧
      fields.read (fields.write a ++ rest) = .ok (a, rest) := by
  rw [List.append_assoc]
  exact ⟨read_variant hindex hcount _, h.read_write a ha rest⟩

/-- The fields of an alternative fit if the whole of it is short. -/
theorem fits_of_length_alternative {α : Type} {fields : Format α} {fits : α → Prop}
    (h : fields.RoundTrips fits) {a : α} {tag : Bytes}
    (hlen : (tag ++ fields.write a).length < UInt64.size) : fits a := by
  rw [List.length_append] at hlen
  exact h.fits_of_length a (by omega)

theorem roundTrips_decision : (Decision.format .plain).RoundTrips Decision.Fits where
  read_write message hfits rest := by
    show Decision.read .plain (message.write .plain ++ rest) = _
    cases message with
    | lock height round =>
        obtain ⟨hindex, hfields⟩ := read_alternative
          (roundTrips_pair roundTrips_u64 roundTrips_u64) (a := (height, round))
          ⟨trivial, trivial⟩ (show 0 < 2 by decide) (by decide) rest
        simp only [Decision.read, Decision.write, hindex, hfields, bind, Except.bind]
        rfl
    | commit height state =>
        obtain ⟨hindex, hfields⟩ := read_alternative
          (roundTrips_pair roundTrips_u64 roundTrips_bytes) (a := (height, state))
          ⟨trivial, hfits⟩ (show 1 < 2 by decide) (by decide) rest
        simp only [Decision.read, Decision.write, hindex, hfields, bind, Except.bind]
        rfl
  fits_of_length message hlen := by
    cases message with
    | lock height round => trivial
    | commit height state =>
        exact (fits_of_length_alternative
          (roundTrips_pair roundTrips_u64 roundTrips_bytes) hlen).2

theorem roundTrips_roundMessage : (RoundMessage.format .plain).RoundTrips RoundMessage.Fits where
  read_write message hfits rest := by
    show RoundMessage.read .plain (message.write .plain ++ rest) = _
    cases message with
    | roundChange height round =>
        obtain ⟨hindex, hfields⟩ := read_alternative
          (roundTrips_pair roundTrips_u64 roundTrips_u64) (a := (height, round))
          ⟨trivial, trivial⟩ (show 0 < 5 by decide) (by decide) rest
        simp only [RoundMessage.read, RoundMessage.write, hindex, hfields, bind, Except.bind]
        rfl
    | phase stage height round state =>
        have hlt : stage.index < 5 := by cases stage <;> decide
        have hne : stage.index ≠ 0 := by cases stage <;> decide
        have hstage : Phase.ofIndex stage.index = stage := by cases stage <;> rfl
        obtain ⟨hindex, hfields⟩ := read_alternative
          (roundTrips_pair roundTrips_u64 (roundTrips_pair roundTrips_u64 roundTrips_bytes))
          (a := (height, round, state)) ⟨trivial, trivial, hfits⟩ hlt (by decide) rest
        simp only [RoundMessage.read, RoundMessage.write, hindex, hfields, if_neg hne,
          hstage, bind, Except.bind]
        rfl
  fits_of_length message hlen := by
    cases message with
    | roundChange height round => trivial
    | phase stage height round state =>
        exact (fits_of_length_alternative (roundTrips_pair roundTrips_u64
          (roundTrips_pair roundTrips_u64 roundTrips_bytes)) hlen).2.2

end Binary.Format

/-! ## Codecs -/

/-- The types of messages that payloads are made of. -/
inductive MessageKind where
  | raw
  | vote
  | decision
  | round
  | report
  | axis
  | coordinate
  | envelope
  deriving DecidableEq

namespace MessageKind

/-- The messages of a kind. -/
def Message : MessageKind → Type
  | .raw => Bytes
  | .vote => Vote
  | .decision => Decision
  | .round => RoundMessage
  | .report => Report
  | .axis => Axis
  | .coordinate => Coordinate
  | .envelope => Envelope

/-- The codec of a kind: raw messages are payloads, the others have a binary
form. -/
def codec : (kind : MessageKind) → Codec kind.Message
  | .raw => .raw
  | .vote => .binary Vote.format
  | .decision => .binary Decision.format
  | .round => .binary RoundMessage.format
  | .report => .binary Report.format
  | .axis => .binary Binary.Format.axis
  | .coordinate => .binary Binary.Format.coordinate
  | .envelope => .binary Binary.Format.envelope

/-- The messages of a kind that fit. -/
def Fits : (kind : MessageKind) → kind.Message → Prop
  | .raw, _ => True
  | .vote, _ => True
  | .decision, message => Decision.Fits message
  | .round, message => RoundMessage.Fits message
  | .report, message => Report.Fits message
  | .axis, _ => True
  | .coordinate, _ => True
  | .envelope, message => Envelope.Fits message

end MessageKind

namespace Codec

variable {α : Type}

/-- Every message has a payload, and one that memory can hold is read back. -/
def Faithful (codec : Codec α) : Prop :=
  ∀ message, ∃ payload, codec.encode message = .ok payload ∧
    (payload.length < UInt64.size → codec.decode payload = .ok message)

/-- Every message has a payload, from which it is read back if it fits. -/
def RoundTrips (codec : Codec α) (fits : α → Prop) : Prop :=
  ∀ message, ∃ payload, codec.encode message = .ok payload ∧
    (fits message → codec.decode payload = .ok message) ∧
    (payload.length < UInt64.size → fits message)

variable {codec : Codec α} {fits : α → Prop}

theorem roundTrips_binary {form : Binary.Options → Binary.Format α}
    (h : (form .plain).RoundTrips fits) : (Codec.binary form).RoundTrips fits := by
  intro message
  refine ⟨_, encode_binary form message, fun hfits => ?_, h.fits_of_length message⟩
  rw [decode_binary, Except.mapError_eq_ok_iff]
  exact h.decode_write hfits

theorem RoundTrips.faithful (h : codec.RoundTrips fits) : codec.Faithful := by
  intro message
  obtain ⟨payload, hencode, hdecode, hfits⟩ := h message
  exact ⟨payload, hencode, fun hlen => hdecode (hfits hlen)⟩

/-- Messages that fit are told apart by their payloads. -/
theorem RoundTrips.encode_inj (h : codec.RoundTrips fits) {message other : α} {payload : Bytes}
    (hmessage : fits message) (hother : fits other)
    (hpayload : codec.encode message = .ok payload)
    (hpayload' : codec.encode other = .ok payload) : other = message := by
  obtain ⟨_, hencode, hdecode, -⟩ := h message
  obtain ⟨_, hencode', hdecode', -⟩ := h other
  rw [hpayload] at hencode
  rw [hpayload'] at hencode'
  cases hencode
  cases hencode'
  rw [← Except.ok.injEq (ε := CodecError), ← hdecode hmessage, hdecode' hother]

end Codec

theorem MessageKind.roundTrips_codec (kind : MessageKind) : kind.codec.RoundTrips kind.Fits :=
  match kind with
  | .raw => fun message => ⟨message, rfl, fun _ => rfl, fun _ => trivial⟩
  | .vote => Codec.roundTrips_binary Binary.Format.roundTrips_vote
  | .decision => Codec.roundTrips_binary Binary.Format.roundTrips_decision
  | .round => Codec.roundTrips_binary Binary.Format.roundTrips_roundMessage
  | .report => Codec.roundTrips_binary Binary.Format.roundTrips_report
  | .axis => Codec.roundTrips_binary Binary.Format.roundTrips_axis
  | .coordinate => Codec.roundTrips_binary Binary.Format.roundTrips_coordinate
  | .envelope => Codec.roundTrips_binary Binary.Format.roundTrips_envelope

theorem MessageKind.faithful_codec (kind : MessageKind) : kind.codec.Faithful :=
  kind.roundTrips_codec.faithful

/-- Every message of every kind is written into a payload and read back from it, and
so no other message has the same payload. -/
theorem MessageKind.read_back (kind : MessageKind) (message : kind.Message)
    (hfits : kind.Fits message) :
    ∃ payload, kind.codec.encode message = .ok payload ∧
      kind.codec.decode payload = .ok message ∧
      ∀ other, kind.Fits other → kind.codec.encode other = .ok payload → other = message := by
  obtain ⟨payload, hencode, hdecode, -⟩ := kind.roundTrips_codec message
  refine ⟨payload, hencode, hdecode hfits, fun other hother hencode' => ?_⟩
  exact kind.roundTrips_codec.encode_inj hfits hother hencode hencode'

/-- A report with a field of each kind: characters of two and three bytes, numbers at the
ends of their ranges, and a sender that is all zeros. -/
theorem MessageKind.read_back_report :
    ∃ m : Report, m.letter = '€' ∧ m.note = some "é" ∧ m.items = [0, 65535] ∧
      m.pairs.entries = [("ключ", -128)] ∧ m.sender = some Axis.zero ∧
      MessageKind.report.Fits m ∧
      ∃ payload, MessageKind.report.codec.encode m = .ok payload ∧
        MessageKind.report.codec.decode payload = .ok m := by
  let m : Report := {
    flag := true
    letter := '€'
    delta := Int64.minValue
    note := some "é"
    items := [0, 65535]
    pairs := Dictionary.empty.insert "ключ" (-128)
    sender := some Axis.zero }
  have hfits : MessageKind.report.Fits m :=
    { note := by rintro _ ⟨⟩; decide
      items := by decide
      pairs := by decide
      keys := by
        intro entry hentry
        cases List.mem_singleton.mp hentry
        decide }
  obtain ⟨payload, hencode, hdecode, -⟩ := MessageKind.read_back .report m hfits
  exact ⟨m, rfl, rfl, rfl, rfl, rfl, hfits, payload, hencode, hdecode⟩

end ConsensusEnvelope
