import ConsensusEnvelope.Proofs.Json.Sequences

/-!
# Documents are read back

An envelope is written as an object with its six fields in their order. The reader takes
the fields in any order, so what carries the induction is not the order but which fields
have been read: the draft is the envelope with the other fields left out (`draftOf`). A
member adds its field to it, since the field is still missing there, its key is found under
its name, and its value is followed by a comma or a brace, which ends numbers and arrays
alike. When the object ends, nothing is missing.

A document that is read back determines its value, so different values have different
documents.
-/

namespace ConsensusEnvelope.Json

/-- The written form of the member of an object that holds a field. -/
def member (e : Envelope) (field : Field) : Bytes :=
  0x22 :: (Utf8.encode field.name ++ 0x22 :: 0x3a :: Utf8.encode (writeField e field))

theorem encode_writeEnvelope (e : Envelope) :
    Utf8.encode (writeEnvelope e) =
      0x7b :: (separated true (Field.all.map (member e)) ++ [0x7d]) := by
  have hopen : Utf8.encode "\x7b" = [0x7b] := rfl
  have hclose : Utf8.encode "\x7d" = [0x7d] := rfl
  have hquote : Utf8.encode "\"" = [0x22] := rfl
  have hcolon : Utf8.encode "\":" = [0x22, 0x3a] := rfl
  have hmember : (Utf8.encode ∘ fun field : Field =>
      "\"" ++ field.name ++ "\":" ++ writeField e field) = member e := by
    funext field
    rw [Function.comp_apply, Utf8.encode_append, Utf8.encode_append, Utf8.encode_append,
      hquote, hcolon, List.append_assoc, List.append_assoc]
    rfl
  rw [writeEnvelope, Utf8.encode_append, Utf8.encode_append, encode_intercalate, hopen,
    hclose, List.map_map, hmember, List.append_assoc]
  rfl

/-! ## Keys -/

/-- A byte that stands for itself in a string. -/
def IsPlain (b : UInt8) : Prop :=
  b ≠ 0x22 ∧ b ≠ 0x5c ∧ ¬ b < 0x20

instance (b : UInt8) : Decidable (IsPlain b) :=
  inferInstanceAs (Decidable (_ ∧ _ ∧ _))

theorem readStringFrom_plain {key : Bytes} (hplain : ∀ b ∈ key, IsPlain b) (found : Bytes)
    (rest : Bytes) :
    readStringFrom .text 0 found (key ++ 0x22 :: rest) = .ok (found.reverse ++ key, rest) := by
  induction key generalizing found with
  | nil =>
      rw [List.append_nil]
      rfl
  | cons b key ih =>
      obtain ⟨hquote, hescape, hcontrol⟩ := hplain b List.mem_cons_self
      have hrest := ih (fun b' hmem => hplain b' (List.mem_cons_of_mem b hmem)) (b :: found)
      rw [List.cons_append, readStringFrom, if_neg hquote, if_neg hescape,
        if_neg fun h => hcontrol h.2, hrest, List.reverse_cons, List.append_assoc,
        List.singleton_append]

theorem isPlain_name (field : Field) : ∀ b ∈ Utf8.encode field.name, IsPlain b := by
  cases field <;> decide +kernel

theorem readString_name (field : Field) (rest : Bytes) :
    readString .text (Utf8.encode field.name ++ 0x22 :: rest) =
      .ok (Utf8.encode field.name, rest) :=
  readStringFrom_plain (isPlain_name field) [] rest

theorem ofKey?_name (field : Field) : Field.ofKey? (Utf8.encode field.name) = some field := by
  cases field <;> rfl

theorem nextKey_member (e : Envelope) (field : Field) (first : Bool) (ts : List Bytes)
    (rest : Bytes) :
    nextKey first (separated first (member e field :: ts) ++ rest) =
      .ok (.element (Utf8.encode field.name ++ 0x22 :: 0x3a ::
        (Utf8.encode (writeField e field) ++ (separated false ts ++ rest)))) := by
  have hmember : member e field ++ separated false ts ++ rest = 0x22 ::
      (Utf8.encode field.name ++ 0x22 :: 0x3a ::
        (Utf8.encode (writeField e field) ++ (separated false ts ++ rest))) := by
    rw [member]
    simp only [List.cons_append, List.append_assoc]
  cases first with
  | true =>
      rw [separated, if_pos rfl, List.nil_append, hmember]
      rfl
  | false =>
      rw [separated, if_neg Bool.false_ne_true, List.append_assoc, List.append_assoc,
        ← List.append_assoc (member e field), hmember]
      rfl

/-! ## Fields -/

/-- The draft of an envelope of which some fields have been read. -/
def draftOf (e : Envelope) (done : List Field) : Draft where
  version := if .version ∈ done then some e.version else none
  x := if .x ∈ done then some e.x else none
  y := if .y ∈ done then some e.y else none
  payload := if .payload ∈ done then some e.payload else none
  r := if .r ∈ done then some e.r else none
  s := if .s ∈ done then some e.s else none

theorem has_draftOf {e : Envelope} {done : List Field} {field : Field} (h : field ∉ done) :
    (draftOf e done).has field = false := by
  cases field <;> simp only [Draft.has, draftOf, if_neg h, Option.isSome_none]

/-- One more field has been read. -/
theorem draftOf_cons (e : Envelope) (done : List Field) (field : Field) :
    draftOf e (field :: done) =
      match field with
      | .version => { draftOf e done with version := some e.version }
      | .x => { draftOf e done with x := some e.x }
      | .y => { draftOf e done with y := some e.y }
      | .payload => { draftOf e done with payload := some e.payload }
      | .r => { draftOf e done with r := some e.r }
      | .s => { draftOf e done with s := some e.s } := by
  cases field <;> simp [draftOf]

theorem readField_draftOf (e : Envelope) (done : List Field) (field : Field) {rest : Bytes}
    (hrest : Ends rest) :
    (draftOf e done).readField field (Utf8.encode (writeField e field) ++ rest) =
      .ok (draftOf e (field :: done), rest) := by
  have hbytes (bytes : Bytes) :
      readBytes (Utf8.encode (writeBytes bytes) ++ rest) = .ok (bytes, rest) := by
    rw [encode_writeBytes]
    exact takes_bytes bytes rest hrest
  have haxis (axis : Axis) :
      readAxis (Utf8.encode (writeAxis axis) ++ rest) = .ok (axis, rest) := by
    rw [writeAxis, encode_writeBytes]
    exact takes_axis axis rest hrest
  rw [draftOf_cons]
  cases field with
  | version =>
      have hword : readWord (Utf8.encode (writeField e .version) ++ rest) =
          .ok (e.version, rest) := takes_word e.version rest hrest
      simp only [Draft.readField, hword]
      rfl
  | x => simp only [Draft.readField, writeField, haxis]; rfl
  | y => simp only [Draft.readField, writeField, haxis]; rfl
  | payload => simp only [Draft.readField, writeField, hbytes]; rfl
  | r => simp only [Draft.readField, writeField, hbytes]; rfl
  | s => simp only [Draft.readField, writeField, hbytes]; rfl

/-- A member of the object adds its field. -/
theorem readMember_draftOf {e : Envelope} {done : List Field} {field : Field} {rest : Bytes}
    (hmissing : field ∉ done) (hrest : Ends rest) :
    readMember (draftOf e done) (Utf8.encode field.name)
        (0x3a :: (Utf8.encode (writeField e field) ++ rest)) =
      .ok (draftOf e (field :: done), rest) := by
  have hcolon : readColon (0x3a :: (Utf8.encode (writeField e field) ++ rest)) =
      .ok (Utf8.encode (writeField e field) ++ rest) := rfl
  rw [readMember, ofKey?_name]
  dsimp only
  rw [has_draftOf hmissing, if_neg Bool.false_ne_true, hcolon, Except.ok_bind]
  exact readField_draftOf e done field hrest

/-- Members for fields that are still missing, each once, add these fields. -/
theorem readMembers_draftOf (e : Envelope) {fields done : List Field} (hnodup : fields.Nodup)
    (hmissing : ∀ field ∈ fields, field ∉ done) {fuel : Nat} (hfuel : fields.length < fuel)
    (first : Bool) (rest : Bytes) :
    readMembers fuel first (draftOf e done)
        (separated first (fields.map (member e)) ++ 0x7d :: rest) =
      .ok (draftOf e (fields.reverse ++ done), rest) := by
  induction fields generalizing done fuel first with
  | nil =>
      obtain ⟨fuel, rfl⟩ := Nat.exists_eq_succ_of_ne_zero (Nat.ne_of_gt hfuel)
      rfl
  | cons field fields ih =>
      obtain ⟨fuel, rfl⟩ := Nat.exists_eq_succ_of_ne_zero (Nat.ne_of_gt (Nat.zero_lt_of_lt hfuel))
      obtain ⟨hfresh, hnodup⟩ := List.nodup_cons.mp hnodup
      have hread := readMember_draftOf (e := e) (hmissing field List.mem_cons_self)
        (ends_separated (fields.map (member e)) (.inr rfl) rest)
      have hmissing' : ∀ field' ∈ fields, field' ∉ field :: done := by
        intro field' hmem hdone
        cases List.mem_cons.mp hdone with
        | inl heq => exact hfresh (heq ▸ hmem)
        | inr hmem' => exact hmissing field' (List.mem_cons_of_mem field hmem) hmem'
      rw [List.map_cons, readMembers, nextKey_member, Except.ok_bind]
      dsimp only
      rw [readString_name, Except.ok_bind]
      dsimp only
      rw [hread, Except.ok_bind, List.reverse_cons, List.append_assoc, List.singleton_append]
      exact ih hnodup hmissing' (Nat.lt_of_succ_lt_succ hfuel) false

theorem finish_draftOf {e : Envelope} {done : List Field} (h : ∀ field, field ∈ done) :
    (draftOf e done).finish = .ok e := by
  simp only [Draft.finish, draftOf, if_pos (h _), Draft.require]
  rfl

theorem opens_member (e : Envelope) (field : Field) : Opens (member e field) :=
  ⟨0x22, _, rfl, by decide, by decide⟩

theorem takes_envelope (e : Envelope) :
    Takes readEnvelope (Utf8.encode (writeEnvelope e)) e := by
  intro rest _
  have hlen := length_le_length_separated (opens_member e) true Field.all
  have hfuel : Field.all.length <
      (separated true (Field.all.map (member e)) ++ 0x7d :: rest).length + 1 := by
    rw [List.length_append]
    omega
  have hall : ∀ field, field ∈ Field.all.reverse ++ [] := by
    intro field
    cases field <;> decide
  have hnodup : Field.all.Nodup := by decide
  have hmissing : ∀ field ∈ Field.all, field ∉ ([] : List Field) := fun _ _ => List.not_mem_nil
  have hread := readMembers_draftOf e hnodup hmissing hfuel true rest
  have hempty : draftOf e [] = .empty := rfl
  rw [hempty] at hread
  rw [encode_writeEnvelope, List.cons_append, List.append_assoc, List.singleton_append,
    readEnvelope, skipBlanks_of_not_blank (by decide)]
  dsimp only
  rw [if_pos rfl, hread, Except.ok_bind]
  dsimp only
  rw [finish_draftOf hall]
  rfl

/-! ## Documents -/

theorem parse_of_takes {α : Type} {read : Reader α} {text : Bytes} {a : α}
    (h : Takes read text a) : parse read text = .ok a := by
  have hread := h [] ends_nil
  rw [List.append_nil] at hread
  rw [parse, hread]
  rfl

theorem injective_of_parse {α : Type} {read : Reader α} {write : α → String}
    (h : ∀ a, parse read (Utf8.encode (write a)) = .ok a) : Function.Injective write := by
  intro a a' heq
  have hread := h a
  rw [heq, h a'] at hread
  exact (Except.ok.inj hread).symm

/-- What is written is read back. The document of an axis, of a coordinate and of an
envelope, whatever the lengths of its three byte strings, is read as the value that it was
written for, so it is the document of no other value. -/
theorem document_read_back :
    (∀ axis : Axis, parse readAxis (Utf8.encode (writeAxis axis)) = .ok axis) ∧
    (∀ c : Coordinate, parse readCoordinate (Utf8.encode (writeCoordinate c)) = .ok c) ∧
    (∀ e : Envelope, parse readEnvelope (Utf8.encode (writeEnvelope e)) = .ok e) ∧
    Function.Injective writeAxis ∧ Function.Injective writeCoordinate ∧
    Function.Injective writeEnvelope := by
  have haxis (axis : Axis) : parse readAxis (Utf8.encode (writeAxis axis)) = .ok axis := by
    rw [writeAxis, encode_writeBytes]
    exact parse_of_takes (takes_axis axis)
  have hcoordinate (c : Coordinate) :
      parse readCoordinate (Utf8.encode (writeCoordinate c)) = .ok c := by
    rw [writeCoordinate, encode_writeBytes]
    exact parse_of_takes (takes_coordinate c)
  have henvelope (e : Envelope) :
      parse readEnvelope (Utf8.encode (writeEnvelope e)) = .ok e :=
    parse_of_takes (takes_envelope e)
  exact ⟨haxis, hcoordinate, henvelope, injective_of_parse haxis,
    injective_of_parse hcoordinate, injective_of_parse henvelope⟩

end ConsensusEnvelope.Json
