import ConsensusEnvelope.Proofs.Json.Sequences

/-!
# An axis is read from an array as from a byte string

An axis arrives in one of two ways. A string, or the binary form, hands over its bytes
together. An array hands them over one at a time, and its reader keeps the first 32 of them
and counts the others. What it has kept is then the whole byte string, or the count is above
32 and nothing that was kept matters, so both ways come to the same axis or to the same
length.

To state this of every text, an array is described by the bytes that it holds up to its end,
and by its end: the bracket, an element that is not a byte, or neither (`Elements`). The
reader goes on to that end however many bytes come before it, so it is the fault found there
that is reported, and not the length. Every text has such a description, since an element
takes up some of it; for the same reason the fuel of the loop never runs out.
-/

namespace ConsensusEnvelope.Json

variable {text rest : Bytes}

/-! ## What a number leaves -/

theorem digitsBelow_suffix (bound n count : Nat) (text : Bytes) :
    (digitsBelow bound n count text).2.2 <:+ text := by
  induction text generalizing n count with
  | nil => exact List.suffix_refl []
  | cons b text ih =>
      rw [digitsBelow]
      split
      · split
        · exact (ih _ _).trans (List.suffix_cons b text)
        · exact List.suffix_refl _
      · exact List.suffix_refl _

namespace Number

variable {negative : Bool} {digits : Nat} {k : Int} {n : Number}

theorem ofLiteral_suffix (h : ofLiteral negative digits k text = .ok (n, rest)) :
    rest <:+ text := by
  rw [ofLiteral] at h
  split at h
  · cases h
    exact List.suffix_refl _
  · cases h

theorem readExponent_suffix (h : readExponent negative digits k text = .ok (n, rest)) :
    rest <:+ text := by
  rw [readExponent.eq_def] at h
  split at h
  next down behind heq =>
  have hsign : behind <:+ text := by
    split at heq <;> cases heq
    · exact List.suffix_cons _ _
    · exact List.suffix_cons _ _
    · exact List.suffix_refl _
  refine List.IsSuffix.trans ?_ hsign
  split at h
  · cases h
  · next b tail =>
      split at h
      · cases h
      · next d _ =>
          have hdigits := (digitsBelow_suffix 0x80000000 d 0 tail).trans (List.suffix_cons b tail)
          dsimp only at h
          split at h
          · split at h <;> cases h
            exact (List.dropWhile_suffix _).trans hdigits
          · exact (ofLiteral_suffix h).trans hdigits

theorem readExponentIfAny_suffix (h : readExponentIfAny negative digits k text = .ok (n, rest)) :
    rest <:+ text := by
  rw [readExponentIfAny.eq_def] at h
  split at h
  · exact (readExponent_suffix h).trans (List.suffix_cons _ _)
  · exact (readExponent_suffix h).trans (List.suffix_cons _ _)
  · exact ofLiteral_suffix h

theorem readFraction_suffix (h : readFraction negative digits k text = .ok (n, rest)) :
    rest <:+ text := by
  have hdigits := digitsBelow_suffix UInt64.size digits 0 text
  rw [readFraction] at h
  dsimp only at h
  split at h
  · exact (readExponentIfAny_suffix h).trans ((List.dropWhile_suffix _).trans hdigits)
  · split at h
    · cases h
    · exact (readExponentIfAny_suffix h).trans hdigits

theorem readShort_suffix {m : Nat} (h : readShort negative m text = .ok (n, rest)) :
    rest <:+ text := by
  rw [readShort.eq_def] at h
  split at h
  · exact (readFraction_suffix h).trans (List.suffix_cons _ _)
  · exact (readExponent_suffix h).trans (List.suffix_cons _ _)
  · exact (readExponent_suffix h).trans (List.suffix_cons _ _)
  · cases h
    exact List.suffix_refl _

theorem readLong_suffix {m : Nat} (h : readLong negative m text = .ok (n, rest)) :
    rest <:+ text := by
  rw [readLong] at h
  refine List.IsSuffix.trans ?_ (List.dropWhile_suffix isDigit)
  split at h
  · next heq =>
      rw [heq]
      exact (readFraction_suffix h).trans (List.suffix_cons _ _)
  · exact readExponentIfAny_suffix h

/-- A number has a digit at least. -/
theorem readUnsigned_suffix (h : readUnsigned negative text = .ok (n, rest)) :
    ∃ b tail, text = b :: tail ∧ rest <:+ tail := by
  rw [readUnsigned.eq_def] at h
  split at h
  · cases h
  · next b tail =>
      refine ⟨b, tail, rfl, ?_⟩
      split at h
      · cases h
      · split at h
        · cases h
        · exact readShort_suffix h
      · next d _ _ =>
          have hdigits := digitsBelow_suffix UInt64.size d 0 tail
          dsimp only at h
          split at h
          · exact (readLong_suffix h).trans hdigits
          · exact (readShort_suffix h).trans hdigits

theorem length_lt_of_read (h : read text = .ok (n, rest)) : rest.length < text.length := by
  rw [read.eq_def] at h
  split at h
  · obtain ⟨b, tail, rfl, hsuffix⟩ := readUnsigned_suffix h
    have := hsuffix.length_le
    simp only [List.length_cons]
    omega
  · obtain ⟨b, tail, rfl, hsuffix⟩ := readUnsigned_suffix h
    exact Nat.lt_succ_of_le hsuffix.length_le

end Number

theorem skipBlanks_suffix (text : Bytes) : skipBlanks text <:+ text :=
  List.dropWhile_suffix isBlank

theorem length_lt_of_readBelow {expected : Expected} {bound n : Nat}
    (h : readBelow expected bound text = .ok (n, rest)) : rest.length < text.length := by
  have hblanks := (skipBlanks_suffix text).length_le
  rw [readBelow] at h
  split at h
  · cases h
  · next b tail heq =>
      rw [heq] at hblanks
      split at h
      · obtain ⟨⟨m, rest'⟩, hread, hm⟩ := Except.bind_eq_ok_iff.mp h
        have hlt := Number.length_lt_of_read hread
        dsimp only at hm
        split at hm
        · split at hm
          · cases hm
            omega
          · cases hm
        · cases hm
        · cases hm
      · cases h

theorem length_lt_of_readByte {b : UInt8} (h : readByte text = .ok (b, rest)) :
    rest.length < text.length := by
  obtain ⟨⟨n, rest'⟩, hread, hn⟩ := Except.bind_eq_ok_iff.mp h
  cases hn
  exact length_lt_of_readBelow hread

theorem length_le_of_nextElement {first : Bool} {tail : Bytes}
    (h : nextElement first text = .ok (.element tail)) : tail.length ≤ text.length := by
  have hblanks := (skipBlanks_suffix text).length_le
  rw [nextElement] at h
  split at h
  · cases h
  · next b behind heq =>
      rw [heq, List.length_cons] at hblanks
      split at h
      · cases h
      · split at h
        · cases h
          rwa [List.length_cons]
        · split at h
          · have hcomma := (skipBlanks_suffix behind).length_le
            split at h
            · cases h
            · next c tail' heq' =>
                rw [heq'] at hcomma
                split at h
                · cases h
                · cases h
                  omega
          · cases h

/-! ## The elements of an array -/

/-- Where an array of bytes ends: at its bracket, with something behind it, in front of an
element that is not a byte, or where there is neither an element nor the bracket. -/
inductive Ending where
  | closed (rest : Bytes)
  | notByte (fault : Fault)
  | broken (fault : Fault)

/-- The bytes that an array holds up to its end, from behind its opening bracket or, if
`first` is false, from behind an element. -/
inductive Elements : (first : Bool) → (text bytes : Bytes) → Ending → Prop where
  | closed {first : Bool} {text rest : Bytes} :
      nextElement first text = .ok (.finish rest) → Elements first text [] (.closed rest)
  | broken {first : Bool} {text : Bytes} {fault : Fault} :
      nextElement first text = .error fault → Elements first text [] (.broken fault)
  | notByte {first : Bool} {text tail : Bytes} {fault : Fault} :
      nextElement first text = .ok (.element tail) → readByte tail = .error fault →
      Elements first text [] (.notByte fault)
  | byte {first : Bool} {text tail behind bytes : Bytes} {b : UInt8} {ending : Ending} :
      nextElement first text = .ok (.element tail) → readByte tail = .ok (b, behind) →
      Elements false behind bytes ending → Elements first text (b :: bytes) ending

/-- What reading an array comes to, given the state after the bytes that it holds. -/
def Ending.outcome {σ : Type} (state : σ) : Ending → Except Fault (σ × Bytes)
  | .closed rest => .ok (state, rest)
  | .notByte fault => .error fault
  | .broken fault => .error fault

variable {first : Bool} {bytes bytes' : Bytes} {ending ending' : Ending}

theorem Elements.total (first : Bool) (text : Bytes) :
    ∃ bytes ending, Elements first text bytes ending := by
  cases hnext : nextElement first text with
  | error fault => exact ⟨_, _, .broken hnext⟩
  | ok step =>
      cases step with
      | finish rest => exact ⟨_, _, .closed hnext⟩
      | element tail =>
          cases hread : readByte tail with
          | error fault => exact ⟨_, _, .notByte hnext hread⟩
          | ok read =>
              obtain ⟨b, behind⟩ := read
              obtain ⟨bytes, ending, h⟩ := Elements.total false behind
              exact ⟨_, _, .byte hnext hread h⟩
termination_by text.length
decreasing_by
  exact Nat.lt_of_lt_of_le (length_lt_of_readByte hread) (length_le_of_nextElement hnext)

theorem Elements.unique (h : Elements first text bytes ending)
    (h' : Elements first text bytes' ending') : bytes = bytes' ∧ ending = ending' := by
  induction h generalizing bytes' with
  | closed hnext =>
      cases h' <;> simp_all
  | broken hnext =>
      cases h' <;> simp_all
  | notByte hnext hread =>
      cases h' <;> simp_all
  | byte hnext hread _ ih =>
      cases h' with
      | byte hnext' hread' h' =>
          rw [hnext] at hnext'
          cases hnext'
          rw [hread] at hread'
          cases hread'
          obtain ⟨rfl, rfl⟩ := ih h'
          exact ⟨rfl, rfl⟩
      | _ => simp_all

/-- The bytes are pushed in their order, and then the ending decides. -/
theorem Elements.foldElements_eq {σ : Type} (h : Elements first text bytes ending)
    (push : σ → UInt8 → σ) {fuel : Nat} (hfuel : text.length ≤ fuel) (state : σ) :
    foldElements readByte push (fuel + 1) first state text =
      ending.outcome (bytes.foldl push state) := by
  induction h generalizing fuel state with
  | closed hnext =>
      rw [foldElements, hnext]
      rfl
  | broken hnext =>
      rw [foldElements, hnext]
      rfl
  | notByte hnext hread =>
      rw [foldElements, hnext, Except.ok_bind]
      dsimp only
      rw [hread]
      rfl
  | byte hnext hread _ ih =>
      have hlt := length_lt_of_readByte hread
      have hle := length_le_of_nextElement hnext
      obtain ⟨fuel, rfl⟩ : ∃ fuel', fuel = fuel' + 1 := ⟨fuel - 1, by omega⟩
      rw [foldElements, hnext, Except.ok_bind]
      dsimp only
      rw [hread, Except.ok_bind]
      exact ih (by omega) _

theorem elements_cons (b : UInt8) {ts : List Bytes} {rest : Bytes}
    (hends : Ends (separated false ts ++ rest))
    (h : Elements false (separated false ts ++ rest) bytes ending) (first : Bool) :
    Elements first (separated first (numeral b.toNat :: ts) ++ rest) (b :: bytes) ending :=
  .byte (nextElement_separated (opens_numeral b.toNat) first ts rest) (takes_byte b _ hends) h

theorem elements_closed (first : Bool) (bytes rest : Bytes) :
    Elements first (separated first (bytes.map fun b => numeral b.toNat) ++ 0x5d :: rest) bytes
      (.closed rest) := by
  induction bytes generalizing first with
  | nil => exact .closed rfl
  | cons b bytes ih => exact elements_cons b (ends_separated _ (.inl rfl) rest) (ih false) first

/-- A number that is not a byte stops the reader behind any number of bytes. -/
theorem elements_notByte (first : Bool) (bytes : Bytes) {n : Nat} {rest : Bytes}
    (hlow : 256 ≤ n) (hhigh : n < UInt64.size) (hrest : Ends rest) :
    Elements first
      (separated first ((bytes.map fun b => numeral b.toNat) ++ [numeral n]) ++ rest) bytes
      (.notByte (.mismatch (.value (.number (.unsigned n)) .u8))) := by
  induction bytes generalizing first with
  | nil =>
      refine .notByte (nextElement_separated (opens_numeral n) first [] rest) ?_
      rw [separated, List.nil_append, readByte, readBelow_numeral .u8 256 hhigh hrest,
        if_neg (Nat.not_lt.mpr hlow)]
      rfl
  | cons b bytes ih =>
      have hends : Ends (separated false ((bytes.map fun b => numeral b.toNat) ++ [numeral n]) ++
          rest) := by
        cases bytes <;> exact ends_cons (.inl rfl) _
      exact elements_cons b hends (ih false) first

/-! ## Axes -/

/-- The axis that a byte string stands for. -/
def axisOf (bytes : Bytes) : Except Fault Axis :=
  (Axis.decode bytes).mapError fun cause => .mismatch (.axis cause)

theorem readAxis_array : Elements true text bytes ending →
    readAxis (0x5b :: text) =
      match ending with
      | .closed rest => (axisOf bytes).map fun axis => (axis, rest)
      | .notByte fault => .error fault
      | .broken fault => .error fault := by
  intro h
  rw [readAxis, skipBlanks_of_not_blank (by decide)]
  dsimp only
  rw [if_pos rfl, foldArray, h.foldElements_eq _ (Nat.le_refl _)]
  cases ending with
  | closed rest =>
      rw [Ending.outcome, Except.ok_bind]
      dsimp only
      rw [Axis.Intake.finish_foldl_push, ← axisOf]
      cases axisOf bytes <;> rfl
  | notByte fault => rfl
  | broken fault => rfl

theorem readAxis_string (h : readString .bytes text = .ok (bytes, rest)) :
    readAxis (0x22 :: text) = (axisOf bytes).map fun axis => (axis, rest) := by
  rw [readAxis, skipBlanks_of_not_blank (by decide)]
  dsimp only
  rw [if_neg (by decide), if_pos rfl, h, Except.ok_bind]
  dsimp only
  rw [← axisOf]
  cases axisOf bytes <;> rfl

theorem read_axis_blob (h : bytes.length < UInt64.size) (rest : Bytes) :
    (Binary.Format.axis Codec.options).read
        ((Binary.Format.blob Codec.options).write bytes ++ rest) =
      ((Axis.decode bytes).mapError Binary.Fault.axis).map fun axis => (axis, rest) := by
  have hread := Binary.Format.roundTrips_blob.read_write bytes h rest
  rw [Codec.options_eq, Binary.Format.axis, Binary.Format.filterMap]
  dsimp only
  rw [hread, Except.ok_bind]
  cases Axis.decode bytes <;> rfl

/-- The readers of axes agree. Bytes that arrive one at a time come to what they are read as
together. An array holds certain bytes up to a certain ending: if it is closed, it is read as
its bytes are, or refused for the number of them; if an element is not a byte, the fault of
that element is reported, whatever the number of bytes before it. A string and the binary
form are read as the bytes that they hold, too. -/
theorem axis_readers_agree :
    (∀ bytes : Bytes, (bytes.foldl Axis.Intake.push .empty).finish = Axis.decode bytes) ∧
    (∀ text, ∃ bytes ending, Elements true text bytes ending ∧
      ∀ bytes' ending', Elements true text bytes' ending' → bytes' = bytes ∧ ending' = ending) ∧
    (∀ text bytes ending, Elements true text bytes ending →
      readAxis (0x5b :: text) =
        match ending with
        | .closed rest => (axisOf bytes).map fun axis => (axis, rest)
        | .notByte fault => .error fault
        | .broken fault => .error fault) ∧
    (∀ bytes rest, readAxis (byteArray bytes ++ rest) =
      (axisOf bytes).map fun axis => (axis, rest)) ∧
    (∀ (bytes : Bytes) (n : Nat) (rest : Bytes), 256 ≤ n → n < UInt64.size → Ends rest →
      readAxis (0x5b ::
          (separated true ((bytes.map fun b => numeral b.toNat) ++ [numeral n]) ++ rest)) =
        .error (.mismatch (.value (.number (.unsigned n)) .u8))) ∧
    (∀ text bytes rest, readString .bytes text = .ok (bytes, rest) →
      readAxis (0x22 :: text) = (axisOf bytes).map fun axis => (axis, rest)) ∧
    ∀ bytes rest, bytes.length < UInt64.size →
      (Binary.Format.axis Codec.options).read
          ((Binary.Format.blob Codec.options).write bytes ++ rest) =
        ((Axis.decode bytes).mapError Binary.Fault.axis).map fun axis => (axis, rest) := by
  refine ⟨Axis.Intake.finish_foldl_push, fun text => ?_, fun _ _ _ => readAxis_array,
    fun bytes rest => ?_, fun bytes n rest hlow hhigh hrest => ?_, fun _ _ _ => readAxis_string,
    fun bytes rest h => read_axis_blob h rest⟩
  · obtain ⟨bytes, ending, h⟩ := Elements.total true text
    exact ⟨bytes, ending, h, fun _ _ h' => h'.unique h⟩
  · rw [byteArray, List.cons_append, List.append_assoc, List.singleton_append]
    exact readAxis_array (elements_closed true bytes rest)
  · exact readAxis_array (elements_notByte true bytes hlow hhigh hrest)

end ConsensusEnvelope.Json
