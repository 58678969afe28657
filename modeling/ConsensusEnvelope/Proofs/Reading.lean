import ConsensusEnvelope.Proofs.Delivery

/-!
# How far a frame is read, and why it is refused there

A frame is read from front to back, and no field is looked at before the fields
in front of it are complete. So where reading stops is a matter of widths alone.
A field is its head, which is the version or the length of what follows, and the
bytes that the head declares. It is cut off if the head or these bytes are not all
there, and only a field that is there in full can be too wide for an axis: a length
of `2 ^ 64 - 1` is a field cut off, not a wide axis.

`Reading` says where the reading of some fields stops. Every byte string has
exactly one such place, and the reader of envelopes stops there, with the fault
that belongs to it. Once a frame is known not to be too long for the receiver, its
first offence is the one at that place, or the bytes that are left when all fields
were read.

More bytes behind a byte string change where reading stops only if it was the end
of the bytes that stopped it. A frame that was accepted was read to its end, which
leaves bytes if there are more of them, and is not reached if some are missing. So
no accepted frame begins another one.
-/

namespace ConsensusEnvelope.Frame

/-! ## Fields -/

/-- The fields of a frame. -/
inductive Field where
  | version
  | x
  | y
  | payload
  | r
  | s
  deriving DecidableEq

/-- Why a field cannot be read. -/
inductive Flaw where
  /-- The version, or the length of the field, is cut off. -/
  | headCutOff
  /-- Fewer bytes follow than the length says. -/
  | contentCutOff
  /-- An axis is complete and has more than 32 bytes. -/
  | tooWide (length : Nat)
  deriving DecidableEq

namespace Field

/-- The fields in the order in which they are read. -/
def order : List Field :=
  [.version, .x, .y, .payload, .r, .s]

/-- The width of the version, or of the length that other fields start with. -/
def headWidth : Field → Nat
  | .version => 4
  | _ => 8

/-- How many bytes are to follow the head of the field at the front of a byte
string. -/
def declared : Field → Bytes → Nat
  | .version, _ => 0
  | _, bytes => Bytes.littleValue (bytes.take 8)

/-- The number of bytes that the field at the front of a byte string takes up. -/
def extent (field : Field) (bytes : Bytes) : Nat :=
  field.headWidth + field.declared bytes

/-- The two fields that hold an axis. -/
def IsAxis (field : Field) : Prop :=
  field = .x ∨ field = .y

instance : DecidablePred IsAxis :=
  fun field => inferInstanceAs (Decidable (field = .x ∨ field = .y))

/-- The field at the front of a byte string is complete and not too wide. -/
def Readable (field : Field) (bytes : Bytes) : Prop :=
  field.extent bytes ≤ bytes.length ∧ (field.IsAxis → field.declared bytes ≤ 32)

/-- The field at the front of a byte string has a flaw. -/
def Has (field : Field) (bytes : Bytes) : Flaw → Prop
  | .headCutOff => bytes.length < field.headWidth
  | .contentCutOff => field.headWidth ≤ bytes.length ∧ bytes.length < field.extent bytes
  | .tooWide length => field.extent bytes ≤ bytes.length ∧ field.IsAxis ∧
      length = field.declared bytes ∧ 32 < length

/-- The fault that a flaw is reported as. An axis is taken as a whole, and the bytes
of the other fields one by one. -/
def fault (field : Field) : Flaw → Binary.Fault
  | .headCutOff => .endOfInput
  | .contentCutOff => if field.IsAxis then .endOfString else .endOfInput
  | .tooWide length => .axis ⟨length⟩

variable {field : Field} {bytes : Bytes} {flaw flaw' : Flaw}

theorem headWidth_of_ne (h : field ≠ .version) : field.headWidth = 8 := by
  cases field <;> first | rfl | exact absurd rfl h

theorem declared_of_ne (h : field ≠ .version) (bytes : Bytes) :
    field.declared bytes = Bytes.littleValue (bytes.take 8) := by
  cases field <;> first | rfl | exact absurd rfl h

theorem readable_or_has (field : Field) (bytes : Bytes) :
    field.Readable bytes ∨ ∃ flaw, field.Has bytes flaw := by
  -- The order of the tests is the order of the flaws: the head, what it declares, the width.
  by_cases hhead : bytes.length < field.headWidth
  · exact .inr ⟨.headCutOff, hhead⟩
  · by_cases hcontent : bytes.length < field.extent bytes
    · exact .inr ⟨.contentCutOff, Nat.not_lt.mp hhead, hcontent⟩
    · by_cases hwide : field.IsAxis ∧ 32 < field.declared bytes
      · exact .inr ⟨.tooWide _, Nat.not_lt.mp hcontent, hwide.1, rfl, hwide.2⟩
      · exact .inl ⟨Nat.not_lt.mp hcontent,
          fun haxis => Nat.not_lt.mp fun hlt => hwide ⟨haxis, hlt⟩⟩

theorem Has.not_readable (h : field.Has bytes flaw) : ¬ field.Readable bytes := by
  intro hreadable
  have hextent := hreadable.1
  cases flaw with
  | headCutOff =>
      have hhead : bytes.length < field.headWidth := h
      rw [extent] at hextent
      omega
  | contentCutOff => exact Nat.not_lt.mpr hextent h.2
  | tooWide length =>
      obtain ⟨-, haxis, rfl, hwide⟩ := h
      exact Nat.not_lt.mpr (hreadable.2 haxis) hwide

theorem Has.unique (h : field.Has bytes flaw) (h' : field.Has bytes flaw') :
    flaw = flaw' := by
  -- The three flaws divide the lengths among them: up to the head, up to the extent, and
  -- from there on.
  have hextent : field.headWidth ≤ field.extent bytes := Nat.le_add_right _ _
  cases flaw with
  | headCutOff =>
      have hhead : bytes.length < field.headWidth := h
      cases flaw' with
      | headCutOff => rfl
      | contentCutOff => exact absurd hhead (Nat.not_lt.mpr h'.1)
      | tooWide _ => exact absurd hhead (Nat.not_lt.mpr (hextent.trans h'.1))
  | contentCutOff =>
      cases flaw' with
      | headCutOff => exact absurd h' (Nat.not_lt.mpr h.1)
      | contentCutOff => rfl
      | tooWide _ => exact absurd h.2 (Nat.not_lt.mpr h'.1)
  | tooWide _ =>
      cases flaw' with
      | headCutOff => exact absurd h' (Nat.not_lt.mpr (hextent.trans h.1))
      | contentCutOff => exact absurd h'.2 (Nat.not_lt.mpr h.1)
      | tooWide _ => rw [h.2.2.1, h'.2.2.1]

end Field

/-! ## Where reading stops -/

/-- Where the reading of fields stops: behind all of them, or at one of them. -/
inductive Stop where
  | finished (rest : Bytes)
  | flawed (field : Field) (flaw : Flaw)

/-- Reading some fields off the front of a byte string stops at a certain place. -/
inductive Reading : List Field → Bytes → Stop → Prop where
  | finished {bytes : Bytes} : Reading [] bytes (.finished bytes)
  | flawed {field : Field} {later : List Field} {bytes : Bytes} {flaw : Flaw} :
      field.Has bytes flaw → Reading (field :: later) bytes (.flawed field flaw)
  | next {field : Field} {later : List Field} {bytes : Bytes} {stop : Stop} :
      field.Readable bytes → Reading later (bytes.drop (field.extent bytes)) stop →
        Reading (field :: later) bytes stop

namespace Reading

variable {fields later : List Field} {bytes rest : Bytes} {stop stop' : Stop}
  {field : Field} {flaw : Flaw}

theorem total (fields : List Field) (bytes : Bytes) :
    ∃ stop, Reading fields bytes stop := by
  induction fields generalizing bytes with
  | nil => exact ⟨_, .finished⟩
  | cons field later ih =>
      rcases field.readable_or_has bytes with hreadable | ⟨flaw, hflaw⟩
      · obtain ⟨stop, hstop⟩ := ih (bytes.drop (field.extent bytes))
        exact ⟨stop, .next hreadable hstop⟩
      · exact ⟨_, .flawed hflaw⟩

theorem unique (h : Reading fields bytes stop) (h' : Reading fields bytes stop') :
    stop = stop' := by
  induction h with
  | finished => cases h'; rfl
  | flawed hflaw =>
      cases h' with
      | flawed hflaw' => rw [hflaw.unique hflaw']
      | next hreadable _ => exact absurd hreadable hflaw.not_readable
  | next hreadable _ ih =>
      cases h' with
      | flawed hflaw' => exact absurd hreadable hflaw'.not_readable
      | next _ hlater => exact ih hlater

theorem append (h : Reading fields bytes (.finished rest)) (hlater : Reading later rest stop) :
    Reading (fields ++ later) bytes stop := by
  induction fields generalizing bytes with
  | nil => cases h; exact hlater
  | cons field fields ih =>
      cases h with
      | next hreadable h => exact .next hreadable (ih h)

/-- A flaw keeps the fields behind it from being looked at. -/
theorem append_of_flawed (h : Reading fields bytes (.flawed field flaw)) :
    Reading (fields ++ later) bytes (.flawed field flaw) := by
  induction fields generalizing bytes with
  | nil => cases h
  | cons _ fields ih =>
      cases h with
      | flawed hflaw => exact .flawed hflaw
      | next hreadable h => exact .next hreadable (ih h)

end Reading

/-! ## More bytes -/

theorem Field.declared_append {field : Field} {bytes : Bytes}
    (h : field.headWidth ≤ bytes.length) (more : Bytes) :
    field.declared (bytes ++ more) = field.declared bytes := by
  by_cases hversion : field = .version
  · rw [hversion]
    rfl
  · rw [field.headWidth_of_ne hversion] at h
    rw [declared_of_ne hversion, declared_of_ne hversion, List.take_append_of_le_length h]

theorem Field.extent_append {field : Field} {bytes : Bytes}
    (h : field.headWidth ≤ bytes.length) (more : Bytes) :
    field.extent (bytes ++ more) = field.extent bytes := by
  rw [extent, declared_append h, extent]

/-- The end of the bytes has stopped the reading. -/
def Stop.IsCutOff (stop : Stop) : Prop :=
  ∃ field, stop = .flawed field .headCutOff ∨ stop = .flawed field .contentCutOff

/-- The same place when there are more bytes. -/
def Stop.extend (more : Bytes) : Stop → Stop
  | .finished rest => .finished (rest ++ more)
  | .flawed field flaw => .flawed field flaw

/-- Unless the end of the bytes has stopped it, reading stops at the same place when
there are more of them. -/
theorem Reading.extend {fields : List Field} {bytes : Bytes} {stop : Stop}
    (h : Reading fields bytes stop) (hcut : ¬ stop.IsCutOff) (more : Bytes) :
    Reading fields (bytes ++ more) (stop.extend more) := by
  induction h with
  | finished => exact .finished
  | @flawed field _ bytes flaw hflaw =>
      cases flaw with
      | headCutOff => exact absurd ⟨field, .inl rfl⟩ hcut
      | contentCutOff => exact absurd ⟨field, .inr rfl⟩ hcut
      | tooWide length =>
          obtain ⟨hextent, haxis, hlength, hwide⟩ := hflaw
          -- The head is complete, so the bytes behind it cannot change what it declares.
          have hhead := Nat.le_trans (Nat.le_add_right _ _) hextent
          refine .flawed ⟨?_, haxis, ?_, hwide⟩
          · rw [Field.extent_append hhead, List.length_append]
            omega
          · rw [Field.declared_append hhead, hlength]
  | @next field _ bytes _ hreadable _ ih =>
      obtain ⟨hextent, hwidth⟩ := hreadable
      have hhead := Nat.le_trans (Nat.le_add_right _ _) hextent
      have hextent' := Field.extent_append hhead more
      refine .next ⟨?_, ?_⟩ ?_
      · rw [hextent', List.length_append]
        omega
      · rw [Field.declared_append hhead]
        exact hwidth
      · rw [hextent', List.drop_append_of_le_length hextent]
        exact ih hcut

/-! ## What readers of fields do -/

/-- The answer of a reader that stops at a certain place. -/
inductive Stop.Answers {α : Type} : Stop → Except Binary.Fault (α × Bytes) → Prop where
  | finished {a : α} {rest : Bytes} : Answers (.finished rest) (.ok (a, rest))
  | flawed {field : Field} {flaw : Flaw} :
      Answers (.flawed field flaw) (.error (field.fault flaw))

end ConsensusEnvelope.Frame

namespace ConsensusEnvelope.Binary

open ConsensusEnvelope.Frame

theorem takeBytes_eq (fault : Fault) (n : Nat) (bytes : Bytes) :
    takeBytes fault n bytes =
      if bytes.length < n then .error fault else .ok (bytes.take n, bytes.drop n) := by
  simp only [takeBytes, List.length_take]
  split
  · next h => rw [if_pos (by omega)]
  · next h => rw [if_neg (by omega)]

namespace Format

variable {α β : Type} {format : Format α} {first : Format α} {second : Format β}
  {fields later : List Field} {field : Field}

theorem read_number (width : Nat) (bytes : Bytes) :
    (number .plain width).read bytes =
      if bytes.length < width then .error .endOfInput
      else .ok (Bytes.littleValue (bytes.take width), bytes.drop width) := by
  simp only [number, Options.plain, fixed, takeBytes_eq]
  split
  · rfl
  · rfl

/-- The format reads some fields: it stops where their reading stops. -/
def Reads (format : Format α) (fields : List Field) : Prop :=
  ∀ bytes, ∃ stop, Reading fields bytes stop ∧ stop.Answers (format.read bytes)

theorem reads_map (h : format.Reads fields) (into : β → α) (back : α → β) :
    (format.map into back).Reads fields := by
  intro bytes
  obtain ⟨stop, hreading, hanswers⟩ := h bytes
  refine ⟨stop, hreading, ?_⟩
  simp only [map]
  generalize format.read bytes = answer at hanswers
  cases hanswers with
  | finished => exact .finished
  | flawed => exact .flawed

theorem reads_pair (hfirst : first.Reads fields) (hsecond : second.Reads later) :
    (first.pair second).Reads (fields ++ later) := by
  intro bytes
  obtain ⟨stop, hreading, hanswers⟩ := hfirst bytes
  simp only [pair]
  generalize first.read bytes = answer at hanswers
  cases hanswers with
  | flawed => exact ⟨_, hreading.append_of_flawed, .flawed⟩
  | @finished a rest =>
      obtain ⟨stop, hlater, hanswers⟩ := hsecond rest
      refine ⟨stop, hreading.append hlater, ?_⟩
      rw [Except.ok_bind]
      generalize second.read rest = answer at hanswers
      cases hanswers with
      | finished => exact .finished
      | flawed => exact .flawed

theorem reads_version : (u32 .plain).Reads [.version] := by
  refine reads_map (fun bytes => ?_) _ _
  rw [read_number]
  split
  · next hshort =>
      have hflaw : Field.version.Has bytes .headCutOff := hshort
      exact ⟨_, .flawed hflaw, .flawed⟩
  · next hfits =>
      have hreadable : Field.version.Readable bytes := ⟨Nat.not_lt.mp hfits, nofun⟩
      exact ⟨_, .next hreadable .finished, .finished⟩

/-- A byte string behind its length is cut off in its length, or behind it, or is
there in full. -/
theorem read_counted_cases {fault : Fault} {input : Bytes}
    {answer : Except Fault (Bytes × Bytes)}
    (hanswer : answer = do
      let (count, rest) ← (number .plain 8).read input
      takeBytes fault count rest)
    (hversion : field ≠ .version) :
    (field.Has input .headCutOff ∧ answer = .error .endOfInput) ∨
      (field.Has input .contentCutOff ∧ answer = .error fault) ∨
      (field.extent input ≤ input.length ∧ ∃ content, content.length = field.declared input ∧
        answer = .ok (content, input.drop (field.extent input))) := by
  have hhead := field.headWidth_of_ne hversion
  have hdeclared := field.declared_of_ne hversion input
  have hextent : field.extent input = 8 + field.declared input := by
    rw [Field.extent, hhead]
  rw [hanswer, read_number]
  split
  · next hshort => exact .inl ⟨show _ < _ by omega, rfl⟩
  · next hlength =>
      rw [Except.ok_bind, ← hdeclared]
      simp only [takeBytes_eq, List.length_drop, List.drop_drop, ← hextent]
      split
      · next hcut => exact .inr (.inl ⟨⟨by omega, by omega⟩, rfl⟩)
      · next hfits =>
          refine .inr (.inr ⟨by omega, _, ?_, rfl⟩)
          rw [List.length_take, List.length_drop]
          omega

theorem reads_content (hversion : field ≠ .version) (haxis : ¬ field.IsAxis) :
    (bytes .plain).Reads [field] := by
  intro input
  have hcut : Fault.endOfInput = field.fault .contentCutOff := (if_neg haxis).symm
  have hcases := read_counted_cases (show (bytes .plain).read input = _ from rfl) hversion
  rcases hcases with ⟨hflaw, h⟩ | ⟨hflaw, h⟩ | ⟨hfits, content, -, h⟩
  · rw [h]
    exact ⟨_, .flawed hflaw, .flawed⟩
  · rw [h, hcut]
    exact ⟨_, .flawed hflaw, .flawed⟩
  · rw [h]
    exact ⟨_, .next ⟨hfits, fun h => absurd h haxis⟩ .finished, .finished⟩

theorem reads_axis (haxis : field.IsAxis) : (axis .plain).Reads [field] := by
  intro input
  have hversion : field ≠ .version := by
    intro h
    rw [h] at haxis
    exact absurd haxis (by decide)
  have hcut : Fault.endOfString = field.fault .contentCutOff := (if_pos haxis).symm
  have hcases := read_counted_cases (show (blob .plain).read input = _ from rfl) hversion
  simp only [axis, filterMap]
  rcases hcases with ⟨hflaw, h⟩ | ⟨hflaw, h⟩ | ⟨hfits, content, hlen, h⟩
  · rw [h]
    exact ⟨_, .flawed hflaw, .flawed⟩
  · rw [h, hcut]
    exact ⟨_, .flawed hflaw, .flawed⟩
  · rw [h, Except.ok_bind]
    -- Only an axis that is there in full comes to be measured.
    by_cases hwide : content.length ≤ 32
    · have hreadable : field.Readable input := ⟨hfits, fun _ => hlen ▸ hwide⟩
      rw [Axis.decode, dif_pos hwide]
      exact ⟨_, .next hreadable .finished, .finished⟩
    · have hflaw : field.Has input (.tooWide content.length) :=
        ⟨hfits, haxis, hlen, Nat.not_le.mp hwide⟩
      rw [Axis.decode, dif_neg hwide]
      exact ⟨_, .flawed hflaw, .flawed⟩

theorem reads_envelope : (envelope .plain).Reads Field.order :=
  reads_map (reads_pair reads_version <| reads_pair (reads_axis (.inl rfl)) <|
    reads_pair (reads_axis (.inr rfl)) <|
    reads_pair (reads_content (by decide) (by decide)) <|
    reads_pair (reads_content (by decide) (by decide)) <|
    reads_content (by decide) (by decide)) _ _

theorem Reads.read_of_finished (h : format.Reads fields) {bytes rest : Bytes}
    (hreading : Reading fields bytes (.finished rest)) :
    ∃ a, format.read bytes = .ok (a, rest) := by
  obtain ⟨stop, hstop, hanswers⟩ := h bytes
  rw [hstop.unique hreading] at hanswers
  generalize format.read bytes = answer at hanswers
  cases hanswers with
  | finished => exact ⟨_, rfl⟩

theorem Reads.read_of_flawed (h : format.Reads fields) {bytes : Bytes} {flaw : Flaw}
    (hreading : Reading fields bytes (.flawed field flaw)) :
    format.read bytes = .error (field.fault flaw) := by
  obtain ⟨stop, hstop, hanswers⟩ := h bytes
  rw [hstop.unique hreading] at hanswers
  generalize format.read bytes = answer at hanswers
  cases hanswers with
  | flawed => rfl

end Format

end ConsensusEnvelope.Binary

namespace ConsensusEnvelope.Frame

/-! ## The first offence -/

/-- What can be wrong with a frame. -/
inductive Offence where
  | tooLong (length limit : Nat)
  | unreadable (field : Field) (flaw : Flaw)
  /-- All fields were read, and bytes are left. -/
  | trailing
  deriving DecidableEq

namespace Offence

/-- The fault that an offence is reported as. -/
def fault : Offence → FrameFault
  | .tooLong length limit => .tooLong length limit
  | .unreadable field flaw => .malformed (field.fault flaw)
  | .trailing => .malformed .trailingBytes

/-- The wording of an offence. -/
def text : Offence → String
  | .tooLong length limit =>
    "frame of " ++ toString length ++ " bytes exceeds limit of " ++ toString limit ++ " bytes"
  | .unreadable _ .headCutOff => "io error: unexpected end of file"
  | .unreadable field .contentCutOff =>
    if field.IsAxis then "io error: " else "io error: unexpected end of file"
  | .unreadable _ (.tooWide length) =>
    "Invalid axis length: " ++ toString length ++ " bytes exceeds 32"
  | .trailing => "Slice had bytes remaining after deserialization"

end Offence

/-- The first offence of a frame in the eyes of a receiver. The length of the frame
comes before anything in it. -/
inductive Offends (settings : Settings) (frame : Bytes) : Offence → Prop where
  | tooLong : settings.payloadLimit.toNat + 1024 < frame.length →
      Offends settings frame (.tooLong frame.length (settings.payloadLimit.toNat + 1024))
  | unreadable {field : Field} {flaw : Flaw} :
      frame.length ≤ settings.payloadLimit.toNat + 1024 →
      Reading Field.order frame (.flawed field flaw) →
      Offends settings frame (.unreadable field flaw)
  | trailing {rest : Bytes} :
      frame.length ≤ settings.payloadLimit.toNat + 1024 →
      Reading Field.order frame (.finished rest) → rest ≠ [] →
      Offends settings frame .trailing

variable {settings : Settings} {frame : Bytes} {offence offence' : Offence} {e : Envelope}

theorem Offence.message_fault (offence : Offence) : offence.fault.message = offence.text := by
  unfold fault text
  cases offence with
  | tooLong length limit => unfold FrameFault.message; rfl
  | trailing => rfl
  | unreadable field flaw =>
      cases flaw with
      | headCutOff => rfl
      | tooWide length => rfl
      | contentCutOff =>
          unfold Field.fault
          dsimp only
          split <;> rfl

theorem message_fault (offence : Offence) :
    (Error.frame offence.fault).message = "Wire format error: " ++ offence.text :=
  congrArg ("Wire format error: " ++ ·) offence.message_fault

/-! ## What becomes of a frame -/

theorem Reading.decode_flawed {field : Field} {flaw : Flaw}
    (h : Reading Field.order frame (.flawed field flaw)) :
    (Binary.Format.envelope .plain).decode frame = .error (field.fault flaw) := by
  rw [Binary.Format.decode, Binary.Format.reads_envelope.read_of_flawed h]
  rfl

theorem Reading.decode_trailing {rest : Bytes}
    (h : Reading Field.order frame (.finished rest)) (hrest : rest ≠ []) :
    (Binary.Format.envelope .plain).decode frame = .error .trailingBytes := by
  obtain ⟨e, hread⟩ := Binary.Format.reads_envelope.read_of_finished h
  rw [Binary.Format.decode, hread]
  cases rest with
  | nil => exact absurd rfl hrest
  | cons b rest => rfl

theorem Reading.exists_decode (h : Reading Field.order frame (.finished [])) :
    ∃ e, (Binary.Format.envelope .plain).decode frame = .ok e := by
  obtain ⟨e, hread⟩ := Binary.Format.reads_envelope.read_of_finished h
  refine ⟨e, ?_⟩
  rw [Binary.Format.decode, hread]
  rfl

theorem decode_of_short (hshort : frame.length ≤ settings.payloadLimit.toNat + 1024) :
    decode settings frame =
      ((Binary.Format.envelope .plain).decode frame).mapError .malformed := by
  rw [← toNat_limit] at hshort
  exact if_neg (Nat.not_lt.mpr hshort)

theorem Offends.decode_eq (h : Offends settings frame offence) :
    decode settings frame = .error offence.fault := by
  cases h with
  | tooLong hlong => exact decode_of_long hlong
  | unreadable hshort hreading =>
      rw [decode_of_short hshort, hreading.decode_flawed]
      rfl
  | trailing hshort hreading hrest =>
      rw [decode_of_short hshort, hreading.decode_trailing hrest]
      rfl

theorem Offends.unique (h : Offends settings frame offence)
    (h' : Offends settings frame offence') : offence = offence' := by
  cases h with
  | tooLong hlong =>
      cases h' with
      | tooLong _ => rfl
      | unreadable hshort _ => exact absurd hlong (Nat.not_lt.mpr hshort)
      | trailing hshort _ _ => exact absurd hlong (Nat.not_lt.mpr hshort)
  | unreadable hshort hreading =>
      cases h' with
      | tooLong hlong => exact absurd hlong (Nat.not_lt.mpr hshort)
      | unreadable _ hreading' => cases hreading.unique hreading'; rfl
      | trailing _ hreading' _ => cases hreading.unique hreading'
  | trailing hshort hreading _ =>
      cases h' with
      | tooLong hlong => exact absurd hlong (Nat.not_lt.mpr hshort)
      | unreadable _ hreading' => cases hreading.unique hreading'
      | trailing _ _ _ => rfl

theorem finished_or_offends (settings : Settings) (frame : Bytes) :
    (frame.length ≤ settings.payloadLimit.toNat + 1024 ∧
      Reading Field.order frame (.finished [])) ∨
      ∃ offence, Offends settings frame offence := by
  by_cases hlong : settings.payloadLimit.toNat + 1024 < frame.length
  · exact .inr ⟨_, .tooLong hlong⟩
  · have hshort := Nat.not_lt.mp hlong
    obtain ⟨stop, hreading⟩ := Reading.total Field.order frame
    cases stop with
    | flawed field flaw => exact .inr ⟨_, .unreadable hshort hreading⟩
    | finished rest =>
        cases rest with
        | nil => exact .inl ⟨hshort, hreading⟩
        | cons b rest => exact .inr ⟨_, .trailing hshort hreading (List.cons_ne_nil b rest)⟩

theorem exists_decode_of_finished
    (hshort : frame.length ≤ settings.payloadLimit.toNat + 1024)
    (hreading : Reading Field.order frame (.finished [])) :
    ∃ e, decode settings frame = .ok e := by
  obtain ⟨e, hdecode⟩ := hreading.exists_decode
  refine ⟨e, ?_⟩
  rw [decode_of_short hshort, hdecode]
  rfl

theorem finished_of_decode (h : decode settings frame = .ok e) :
    Reading Field.order frame (.finished []) := by
  rcases finished_or_offends settings frame with ⟨-, hreading⟩ | ⟨offence, hoffends⟩
  · exact hreading
  · rw [hoffends.decode_eq] at h
    cases h

theorem decode_eq_error_iff {fault : FrameFault} :
    decode settings frame = .error fault ↔
      ∃ offence, Offends settings frame offence ∧ fault = offence.fault := by
  constructor
  · intro h
    rcases finished_or_offends settings frame with ⟨hshort, hreading⟩ | ⟨offence, hoffends⟩
    · obtain ⟨e, he⟩ := exists_decode_of_finished hshort hreading
      rw [h] at he
      cases he
    · rw [hoffends.decode_eq] at h
      cases h
      exact ⟨offence, hoffends, rfl⟩
  · intro h
    obtain ⟨offence, hoffends, rfl⟩ := h
    exact hoffends.decode_eq

/-- A frame is refused for its first offence. The receiver's errors are those of the
offences, in their wording; a frame has an offence exactly if it is refused, and then
it has only one. -/
theorem refused_for_first_offence (settings : Settings) (frame : Bytes) :
    (∀ error, (receive settings frame).outcome = .error error ↔
      ∃ offence, Offends settings frame offence ∧ error = .frame offence.fault) ∧
    ((∀ e, (receive settings frame).outcome ≠ .ok e) ↔
      ∃! offence, Offends settings frame offence) ∧
    ∀ offence : Offence,
      (Error.frame offence.fault).message = "Wire format error: " ++ offence.text := by
  simp only [outcome_receive]
  refine ⟨fun error => ?_, ?_, message_fault⟩
  · rw [Except.mapError_eq_error_iff]
    constructor
    · intro h
      obtain ⟨fault, hfault, rfl⟩ := h
      obtain ⟨offence, hoffends, rfl⟩ := decode_eq_error_iff.mp hfault
      exact ⟨offence, hoffends, rfl⟩
    · intro h
      obtain ⟨offence, hoffends, rfl⟩ := h
      exact ⟨offence.fault, hoffends.decode_eq, rfl⟩
  · constructor
    · intro hrefused
      rcases finished_or_offends settings frame with ⟨hshort, hreading⟩ | ⟨offence, hoffends⟩
      · obtain ⟨e, he⟩ := exists_decode_of_finished hshort hreading
        exact absurd (Except.mapError_eq_ok_iff.mpr he) (hrefused e)
      · exact ⟨offence, hoffends, fun offence' h => h.unique hoffends⟩
    · intro h e hok
      obtain ⟨offence, hoffends, -⟩ := h
      rw [Except.mapError_eq_ok_iff, hoffends.decode_eq] at hok
      cases hok

-- An axis of which `2 ^ 64 - 1` bytes are declared is cut off, not too wide.
example : decode Settings.default ([1, 0, 0, 0] ++ List.replicate 8 255 ++ List.replicate 40 0) =
    .error (.malformed .endOfString) := by decide

/-! ## Accepted frames form a prefix code -/

/-- Only the end of the bytes can stop the reading of a part of what is read in
full. -/
theorem Reading.isCutOff {fields : List Field} {bytes more : Bytes} {stop : Stop}
    (h : Reading fields bytes stop) (hmore : more ≠ [])
    (hfull : Reading fields (bytes ++ more) (.finished [])) : stop.IsCutOff := by
  -- If anything else had stopped it, the same would stop the reading of the whole.
  by_contra hcut
  have hstop := (h.extend hcut more).unique hfull
  cases stop with
  | flawed field flaw => cases hstop
  | finished rest =>
      have hrest := Stop.finished.inj hstop
      exact hmore (List.append_eq_nil_iff.mp hrest).2

theorem decode_append (h : decode settings frame = .ok e) {more : Bytes} (hmore : more ≠ [])
    (settings' : Settings) :
    decode settings' (frame ++ more) =
        .error (.tooLong (frame.length + more.length) (settings'.payloadLimit.toNat + 1024)) ∨
      decode settings' (frame ++ more) = .error (.malformed .trailingBytes) := by
  have hfinished : ¬ Stop.IsCutOff (.finished []) := by
    rintro ⟨field, h | h⟩ <;> cases h
  have hreading := (finished_of_decode h).extend hfinished more
  rw [← List.length_append]
  by_cases hlong : settings'.payloadLimit.toNat + 1024 < (frame ++ more).length
  · exact .inl (decode_of_long hlong)
  · exact .inr (Offends.trailing (Nat.not_lt.mp hlong) hreading hmore).decode_eq

theorem decode_take (h : decode settings frame = .ok e) {n : Nat} (hn : n < frame.length)
    (settings' : Settings) :
    decode settings' (frame.take n) =
        .error (.tooLong n (settings'.payloadLimit.toNat + 1024)) ∨
      decode settings' (frame.take n) = .error (.malformed .endOfInput) ∨
      decode settings' (frame.take n) = .error (.malformed .endOfString) := by
  have hlen : (frame.take n).length = n := by rw [List.length_take]; omega
  have hmore : frame.drop n ≠ [] := by
    intro hnil
    have hlen := congrArg List.length hnil
    rw [List.length_drop, List.length_nil] at hlen
    omega
  have hfull := finished_of_decode h
  rw [← List.take_append_drop n frame] at hfull
  by_cases hlong : settings'.payloadLimit.toNat + 1024 < (frame.take n).length
  · rw [decode_of_long hlong, hlen]
    exact .inl rfl
  · have hshort := Nat.not_lt.mp hlong
    obtain ⟨stop, hreading⟩ := Reading.total Field.order (frame.take n)
    obtain ⟨field, rfl | rfl⟩ := hreading.isCutOff hmore hfull
    · exact .inr (.inl (Offends.unreadable hshort hreading).decode_eq)
    · rw [(Offends.unreadable hshort hreading).decode_eq, Offence.fault, Field.fault]
      split
      · exact .inr (.inr rfl)
      · exact .inr (.inl rfl)

/-- No accepted frame begins another one, whatever the receivers. A part of an accepted
frame is refused because it ends too early, and an accepted frame with bytes behind it
because of these bytes, unless the receiver finds the one or the other too long. -/
theorem accepted_prefix_code (h : decode settings frame = .ok e) :
    (∀ settings' frame' e', decode settings' frame' = .ok e' → frame <+: frame' →
      frame = frame') ∧
    (∀ settings' n, n < frame.length →
      decode settings' (frame.take n) =
          .error (.tooLong n (settings'.payloadLimit.toNat + 1024)) ∨
        decode settings' (frame.take n) = .error (.malformed .endOfInput) ∨
        decode settings' (frame.take n) = .error (.malformed .endOfString)) ∧
    ∀ settings' more, more ≠ [] →
      decode settings' (frame ++ more) =
          .error (.tooLong (frame.length + more.length) (settings'.payloadLimit.toNat + 1024)) ∨
        decode settings' (frame ++ more) = .error (.malformed .trailingBytes) := by
  refine ⟨?_, fun settings' n hn => decode_take h hn settings',
    fun settings' more hmore => decode_append h hmore settings'⟩
  intro settings' frame' e' h' hbegins
  obtain ⟨more, rfl⟩ := hbegins
  by_cases hmore : more = []
  · rw [hmore, List.append_nil]
  · rcases decode_append h hmore settings' with hlong | htrailing
    · rw [h'] at hlong
      cases hlong
    · rw [h'] at htrailing
      cases htrailing

/-- A frame of 123 bytes that leaves out zeros of both axes is accepted, and no other accepted
frame begins with it. Neither a part of it nor anything that begins with it is accepted. -/
theorem accepted_prefix_code_smallAxes :
    let frame := layout 31 20 .smallAxes
    decode Settings.default frame = .ok .smallAxes ∧ frame.length = 123 ∧
      (∀ settings frame' e, decode settings frame' = .ok e → frame <+: frame' →
        frame = frame') ∧
      (∀ n e, n < 123 → decode Settings.default (frame.take n) ≠ .ok e) ∧
      ∀ more e, more ≠ [] → decode Settings.default (frame ++ more) ≠ .ok e := by
  intro frame
  have hlen : frame.length = 123 := length_layout_smallAxes
  have hdecode : decode Settings.default frame = .ok .smallAxes := decode_smallAxes (by decide)
  obtain ⟨hbegins, hpart, hmore⟩ := accepted_prefix_code hdecode
  refine ⟨hdecode, hlen, hbegins, fun n e hn => ?_, fun more e hne => ?_⟩
  · rcases hpart Settings.default n (by omega) with h | h | h <;> rw [h] <;> nofun
  · rcases hmore Settings.default more hne with h | h <;> rw [h] <;> nofun

end ConsensusEnvelope.Frame
