import ConsensusEnvelope.Environment
import ConsensusEnvelope.Proofs.Utf8

/-!
# What a variable overrides

Settings come from the environment field by field. A variable that holds a text may
override the one field that it is for; a variable that is not set, or whose bytes are no
text, leaves the default. The domain takes over any text, the empty one included. The two
numbers take over numerals only: an optional plus sign, then one or more digits, whatever
the number of zeros in front.

A numeral whose value is out of range is ignored like a text that is no numeral. The reader
collects the value digit by digit and compares it with the bound at the end, where nothing
has been lost, so no value comes out that the digits do not stand for.
-/

namespace ConsensusEnvelope

/-! ## Decimal numbers -/

namespace Text

variable {text : String} {n bound : Nat}

/-- A text is a numeral of a number if it consists of an optional plus sign and of one or
more ASCII digits that have the number as their value. -/
def Numeral (text : String) (n : Nat) : Prop :=
  ∃ sign digits, (sign = "" ∨ sign = "+") ∧ digits ≠ "" ∧
    (∀ c ∈ digits.toList, c.isDigit = true) ∧ text = sign ++ digits ∧
    Nat.ofDigitChars 10 digits.toList 0 = n

theorem digit?_eq_some_iff {c : Char} {d : Nat} :
    digit? c = some d ↔ c.isDigit = true ∧ c.toNat - '0'.toNat = d := by
  have hdigit : ('0' ≤ c ∧ c ≤ '9') ↔ c.isDigit = true := Char.isDigit_iff_toNat.symm
  rw [digit?, Option.ite_none_right_eq_some, Option.some.injEq, hdigit]

theorem digitsFrom?_eq_some_iff {chars : List Char} {start : Nat} :
    digitsFrom? start chars = some n ↔
      (∀ c ∈ chars, c.isDigit = true) ∧ Nat.ofDigitChars 10 chars start = n := by
  induction chars generalizing start with
  | nil => rw [digitsFrom?, Option.some.injEq, Nat.ofDigitChars_nil, and_iff_right nofun]
  | cons c rest ih =>
      simp only [digitsFrom?, Option.bind_eq_some_iff, digit?_eq_some_iff, ih,
        List.forall_mem_cons, Nat.ofDigitChars_cons]
      constructor
      · rintro ⟨d, ⟨hc, rfl⟩, hrest, hvalue⟩
        exact ⟨⟨hc, hrest⟩, hvalue⟩
      · rintro ⟨⟨hc, hrest⟩, hvalue⟩
        exact ⟨_, ⟨hc, rfl⟩, hrest, hvalue⟩

theorem digits?_eq_some_iff {chars : List Char} :
    digits? chars = some n ↔
      chars ≠ [] ∧ (∀ c ∈ chars, c.isDigit = true) ∧ Nat.ofDigitChars 10 chars 0 = n := by
  cases chars with
  | nil => exact iff_of_false nofun fun h => h.1 rfl
  | cons c rest =>
      rw [digits?, digitsFrom?_eq_some_iff, and_iff_right (List.cons_ne_nil c rest)]
      exact List.cons_ne_nil c rest

theorem numeral_iff : Numeral text n ↔
    ∃ chars, (text.toList = chars ∨ text.toList = '+' :: chars) ∧ digits? chars = some n := by
  simp only [digits?_eq_some_iff]
  constructor
  · rintro ⟨sign, digits, hsign, hne, hdigits, rfl, hvalue⟩
    refine ⟨digits.toList, ?_, mt String.toList_eq_nil_iff.mp hne, hdigits, hvalue⟩
    rcases hsign with rfl | rfl
    · exact .inl (congrArg String.toList String.empty_append)
    · exact .inr String.toList_append
  · rintro ⟨chars, hchars, hne, hdigits, hvalue⟩
    have hlist : (String.ofList chars).toList = chars := String.toList_ofList
    rw [← hlist] at hchars hne hdigits hvalue
    have hempty := mt String.toList_eq_nil_iff.mpr hne
    rcases hchars with htext | htext
    · refine ⟨"", _, .inl rfl, hempty, hdigits, ?_, hvalue⟩
      rw [String.empty_append]
      exact String.toList_inj.mp htext
    · refine ⟨"+", _, .inr rfl, hempty, hdigits, ?_, hvalue⟩
      rw [← String.toList_inj, String.toList_append]
      exact htext

/-- One plus sign in front is taken off, and nothing but digits may be left, so a second sign
does not pass. -/
theorem decimal?_eq_some_iff : decimal? bound text = some n ↔ Numeral text n ∧ n < bound := by
  simp only [decimal?, Option.filter_eq_some_iff, decide_eq_true_eq, numeral_iff]
  refine and_congr_left fun _ => ?_
  split
  · next rest htext =>
      refine ⟨fun h => ⟨rest, .inr htext, h⟩, fun h => ?_⟩
      obtain ⟨chars, hchars | hchars, h⟩ := h
      · rw [← hchars, htext, digits?_eq_some_iff] at h
        exact absurd (h.2.1 '+' List.mem_cons_self) (by decide)
      · rw [htext] at hchars
        cases hchars
        exact h
  · next hunsigned =>
      refine ⟨fun h => ⟨text.toList, .inl rfl, h⟩, fun h => ?_⟩
      obtain ⟨chars, hchars | hchars, h⟩ := h
      · rw [hchars]
        exact h
      · exact absurd hchars (hunsigned chars)

example : decimal? UInt32.size "+0004294967295" = some 4294967295 := by decide

example : decimal? UInt32.size "4294967296" = none := by decide

/-- The decimal form of a number is a numeral of it, also behind zeros and a plus sign. -/
theorem numeral_written {sign : String} (hsign : sign = "" ∨ sign = "+") (zeros n : Nat) :
    Numeral (sign ++ (.ofList (List.replicate zeros '0') ++ toString n)) n := by
  have hchars : (String.ofList (List.replicate zeros '0') ++ toString n).toList =
      List.replicate zeros '0' ++ Nat.toDigits 10 n := by
    rw [String.toList_append, String.toList_ofList, Nat.toString_eq_repr, Nat.toList_repr]
  refine ⟨sign, _, hsign, ?_, ?_, rfl, ?_⟩
  · refine mt String.toList_eq_nil_iff.mpr ?_
    rw [hchars]
    exact List.append_ne_nil_of_right_ne_nil _ Nat.toDigits_ne_nil
  · rw [hchars, List.forall_mem_append]
    refine ⟨fun c hc => ?_, fun c => Nat.isDigit_of_mem_toDigits (by decide) (by decide)⟩
    rw [List.eq_of_mem_replicate hc]
    decide
  · rw [hchars, Nat.ofDigitChars_append, Nat.ofDigitChars_replicate_zero, Nat.mul_zero,
      Nat.ofDigitChars_ten_toDigits]

namespace Numeral

theorem exists_digit (h : Numeral text n) : ∃ c ∈ text.toList, c.isDigit = true := by
  obtain ⟨sign, digits, -, hne, hdigits, rfl, -⟩ := h
  obtain ⟨c, hc⟩ := List.exists_mem_of_ne_nil _ (mt String.toList_eq_nil_iff.mp hne)
  refine ⟨c, ?_, hdigits c hc⟩
  rw [String.toList_append]
  exact List.mem_append_right _ hc

theorem eq_plus_or_isDigit (h : Numeral text n) {c : Char} (hc : c ∈ text.toList) :
    c = '+' ∨ c.isDigit = true := by
  obtain ⟨sign, digits, hsign, -, hdigits, rfl, -⟩ := h
  rw [String.toList_append, List.mem_append] at hc
  rcases hc with hc | hc
  · rcases hsign with rfl | rfl
    · cases hc
    · exact .inl (List.mem_singleton.mp hc)
  · exact .inr (hdigits c hc)

end Numeral

end Text

/-! ## Fields -/

namespace Environment

variable {env : Environment} {v : Variable} {bound n : Nat} {text : String}

/-- A variable states a number if it is set to a numeral of it and the number is below the
bound of the field. -/
def States (env : Environment) (v : Variable) (bound n : Nat) : Prop :=
  ∃ text, env v = some (Utf8.encode text) ∧ Text.Numeral text n ∧ n < bound

theorem text?_eq_some_iff : env.text? v = some text ↔ env v = some (Utf8.encode text) := by
  simp only [text?, Option.bind_eq_some_iff, Utf8.decode?_eq_some_iff, exists_eq_right]

theorem number?_eq_some_iff : env.number? v bound = some n ↔ env.States v bound n := by
  simp only [number?, Option.bind_eq_some_iff, text?_eq_some_iff, Text.decimal?_eq_some_iff]
  rfl

theorem number?_eq_none_iff : env.number? v bound = none ↔ ∀ n, ¬ env.States v bound n := by
  simp only [Option.eq_none_iff_forall_ne_some, ne_eq, number?_eq_some_iff]

theorem ignored?_eq_some_iff {event : Event} :
    env.ignored? v bound = some event ↔
      ∃ text, env v = some (Utf8.encode text) ∧ (∀ n, ¬ env.States v bound n) ∧
        event = .overrideIgnored v.name text := by
  simp only [← text?_eq_some_iff, ← number?_eq_none_iff]
  rw [ignored?]
  split
  · next text htext hnumber =>
      rw [htext, hnumber, Option.some.injEq]
      constructor
      · rintro rfl
        exact ⟨text, rfl, rfl, rfl⟩
      · rintro ⟨_, ⟨⟩, -, rfl⟩
        rfl
  · next hother =>
      refine iff_of_false nofun ?_
      rintro ⟨text, htext, hnumber, -⟩
      exact hother text htext hnumber

section Number

variable {α : Type} {ofNat : Nat → α} {default : α}

theorem override_of_states (h : env.States v bound n) :
    ((env.number? v bound).map ofNat).getD default = ofNat n := by
  rw [number?_eq_some_iff.mpr h, Option.map_some, Option.getD_some]

theorem override_of_not_states (h : ∀ n, ¬ env.States v bound n) :
    ((env.number? v bound).map ofNat).getD default = default := by
  rw [number?_eq_none_iff.mpr h, Option.map_none, Option.getD_none]

end Number

theorem States.lt (h : env.States v bound n) : n < bound := by
  obtain ⟨text, -, -, hlt⟩ := h
  exact hlt

/-- A text that states no number in range is reported, with the variable that it was found
in. Nothing else is reported, neither a variable that is not set nor one that is no text. -/
theorem mem_events_load_iff {ε : Type} {event : Event} :
    event ∈ (env.load : Traced ε Settings).events ↔
      ∃ v bound text,
        (v, bound) ∈ [(Variable.version, UInt32.size), (Variable.maxPayload, UInt64.size)] ∧
        env v = some (Utf8.encode text) ∧ (∀ n, ¬ env.States v bound n) ∧
        event = .overrideIgnored v.name text := by
  simp only [load, List.mem_append, Option.mem_toList, ignored?_eq_some_iff]
  constructor
  · rintro (⟨text, h⟩ | ⟨text, h⟩)
    · exact ⟨_, _, text, List.mem_cons_self, h⟩
    · exact ⟨_, _, text, List.mem_cons_of_mem _ List.mem_cons_self, h⟩
  · rintro ⟨v, bound, text, hv, h⟩
    simp only [List.mem_cons, Prod.mk.injEq, List.not_mem_nil, or_false] at hv
    rcases hv with ⟨rfl, rfl⟩ | ⟨rfl, rfl⟩
    · exact .inl ⟨text, h⟩
    · exact .inr ⟨text, h⟩

/-- The settings under every environment, field by field. Loading always gives settings. The
domain is the text of its variable, whenever that is a text, and the version and the bound are
the numbers that their variables state; a field whose variable states nothing keeps its
default. So no field depends on the variable of another one. A number is stated by a plus sign
or none, any number of zeros and its decimal form, and by no text without a digit or with a
character other than digits and the plus sign. -/
theorem loaded_field_by_field (env : Environment) :
    (∀ ε, (env.load : Traced ε Settings).outcome = .ok env.settings) ∧
    (∀ text, env .domain = some (Utf8.encode text) → env.settings.domain = text) ∧
    ((∀ text, env .domain ≠ some (Utf8.encode text)) →
      env.settings.domain = Settings.default.domain) ∧
    (∀ n, env.States .version UInt32.size n → env.settings.version.toNat = n) ∧
    ((∀ n, ¬ env.States .version UInt32.size n) →
      env.settings.version = Settings.default.version) ∧
    (∀ n, env.States .maxPayload UInt64.size n → env.settings.maxPayload.toNat = n) ∧
    ((∀ n, ¬ env.States .maxPayload UInt64.size n) →
      env.settings.maxPayload = Settings.default.maxPayload) ∧
    (∀ env' : Environment,
      (env' .domain = env .domain → env'.settings.domain = env.settings.domain) ∧
      (env' .version = env .version → env'.settings.version = env.settings.version) ∧
      (env' .maxPayload = env .maxPayload →
        env'.settings.maxPayload = env.settings.maxPayload)) ∧
    (∀ sign zeros n, sign = "" ∨ sign = "+" →
      Text.Numeral (sign ++ (.ofList (List.replicate zeros '0') ++ toString n)) n) ∧
    ∀ text n, Text.Numeral text n → (∃ c ∈ text.toList, c.isDigit = true) ∧
      ∀ c ∈ text.toList, c = '+' ∨ c.isDigit = true := by
  refine ⟨fun _ => rfl, fun text h => ?_, fun h => ?_, fun n h => ?_, override_of_not_states,
    fun n h => ?_, override_of_not_states, fun env' => ⟨fun h => ?_, fun h => ?_, fun h => ?_⟩,
    fun sign zeros n hsign => Text.numeral_written hsign zeros n,
    fun text n h => ⟨h.exists_digit, fun c => h.eq_plus_or_isDigit⟩⟩
  · rw [settings, text?_eq_some_iff.mpr h, Option.getD_some]
  · have hnone : env.text? .domain = none :=
      Option.eq_none_iff_forall_ne_some.mpr fun text => mt text?_eq_some_iff.mp (h text)
    rw [settings, hnone, Option.getD_none]
  · have hversion : env.settings.version = UInt32.ofNat n := override_of_states h
    rw [hversion, UInt32.toNat_ofNat_of_lt' h.lt]
  · have hbound : env.settings.maxPayload = UInt64.ofNat n := override_of_states h
    rw [hbound, UInt64.toNat_ofNat_of_lt' h.lt]
  · simp only [settings, text?, h]
  · simp only [settings, number?, text?, h]
  · simp only [settings, number?, text?, h]

end Environment

end ConsensusEnvelope
