import ConsensusEnvelope.Proofs.Envelope
import ConsensusEnvelope.Proofs.Hexadecimal
import ConsensusEnvelope.Tool.Run
import Mathlib.Data.List.TakeWhile

/-!
# What the arguments of the tool stand for

A hexadecimal argument stands for the byte string that it spells: it has the digits of the
byte string, with letters of either case, and blanks around them. No digit is a blank, so
removing the blanks from both ends stops at the digits, however many they are; and no case
mapping makes a digit of what is none. So an argument spells at most one byte string, and it
goes on spelling it in capitals or between more blanks.

An argument that spells something has no dash in it. So it is never taken for an option.
-/

namespace ConsensusEnvelope

open Secp256k1

namespace Text

/-- A text of white space, or of nothing at all. -/
def Blank (text : String) : Prop :=
  ∀ c ∈ text.toList, isBlank c = true

instance (text : String) : Decidable (Blank text) :=
  List.decidableBAll (fun c => isBlank c = true) text.toList

variable {before digits after : List Char}

theorem dropWhile_isBlank_of_not_blank (h : ∀ c ∈ digits, isBlank c = false) :
    digits.dropWhile isBlank = digits := by
  rw [List.dropWhile_eq_self_iff]
  intro hlen
  rw [h _ (List.getElem_mem hlen)]
  exact Bool.false_ne_true

theorem trimChars_eq (hbefore : ∀ c ∈ before, isBlank c = true)
    (hdigits : ∀ c ∈ digits, isBlank c = false) (hafter : ∀ c ∈ after, isBlank c = true) :
    trimChars (before ++ (digits ++ after)) = digits := by
  rw [trimChars, List.dropWhile_append_of_pos hbefore, List.dropWhile_append,
    dropWhile_isBlank_of_not_blank hdigits, List.dropWhile_eq_nil_iff.mpr hafter]
  split
  · next hempty => rw [List.isEmpty_iff.mp hempty]; rfl
  · have hdigits' : ∀ c ∈ digits.reverse, isBlank c = false := by
      simpa only [List.mem_reverse] using hdigits
    have hafter' : ∀ c ∈ after.reverse, isBlank c = true := by
      simpa only [List.mem_reverse] using hafter
    rw [List.reverse_append, List.dropWhile_append_of_pos hafter',
      dropWhile_isBlank_of_not_blank hdigits', List.reverse_reverse]

theorem exists_trimChars (chars : List Char) :
    ∃ before after, (∀ c ∈ before, isBlank c = true) ∧ (∀ c ∈ after, isBlank c = true) ∧
      chars = before ++ (trimChars chars ++ after) := by
  let body := chars.dropWhile isBlank
  refine ⟨chars.takeWhile isBlank, (body.reverse.takeWhile isBlank).reverse,
    fun c => List.mem_takeWhile_imp, fun c hc => ?_, ?_⟩
  · exact List.mem_takeWhile_imp (List.mem_reverse.mp hc)
  · rw [trimChars, ← List.reverse_append, List.takeWhile_append_dropWhile, List.reverse_reverse,
      List.takeWhile_append_dropWhile]

/-- Only the blanks at both ends are removed. -/
theorem exists_trim (text : String) :
    ∃ before after, Blank before ∧ Blank after ∧ text = before ++ (trim text ++ after) := by
  obtain ⟨before, after, hbefore, hafter, htext⟩ := exists_trimChars text.toList
  refine ⟨.ofList before, .ofList after, ?_, ?_, ?_⟩
  · rw [Blank, String.toList_ofList]
    exact hbefore
  · rw [Blank, String.toList_ofList]
    exact hafter
  · rw [trim, ← String.ofList_append, ← String.ofList_append, ← htext, String.ofList_toList]

theorem trim_eq {before digits after : String} (hbefore : Blank before)
    (hdigits : ∀ c ∈ digits.toList, isBlank c = false) (hafter : Blank after) :
    trim (before ++ (digits ++ after)) = digits := by
  rw [trim, String.toList_append, String.toList_append, trimChars_eq hbefore hdigits hafter,
    String.ofList_toList]

theorem Blank.append {a b : String} (ha : Blank a) (hb : Blank b) : Blank (a ++ b) := by
  intro c hc
  rw [String.toList_append, List.mem_append] at hc
  exact hc.elim (ha c) (hb c)

theorem toNat_of_isBlank {c : Char} (h : isBlank c = true) : c.toNat ≤ 32 ∨ 128 ≤ c.toNat := by
  obtain ⟨range, hmem, hrange⟩ := List.any_eq_true.mp h
  have hranges : ∀ range ∈ blankRanges, range.2 ≤ 32 ∨ 128 ≤ range.1 := by decide
  have hbounds := hranges range hmem
  simp only [Bool.and_eq_true, decide_eq_true_eq] at hrange
  omega

theorem Blank.toUpper {text : String} (h : Blank text) : text.toUpper = text := by
  rw [← String.toList_inj, toList_toUpper]
  have hself : ∀ c ∈ text.toList, c.toUpper = id c := by
    intro c hc
    have hblank := toNat_of_isBlank (h c hc)
    exact toUpper_eq_self (by omega)
  rw [List.map_congr_left hself, List.map_id]

end Text

namespace Secp256k1.SecretKey

theorem ofBytes?_eq_some_iff {bytes : Bytes} {key : SecretKey} :
    ofBytes? bytes = some key ↔
      (24 ≤ bytes.length ∧ bytes.length ≤ 32) ∧ key.scalar = bytes.value := by
  rw [ofBytes?, Option.ite_none_right_eq_some, Option.dite_none_right_eq_some]
  refine and_congr_right fun _ => ⟨fun h => ?_, fun h => ?_⟩
  · obtain ⟨_, hkey⟩ := h
    rw [← Option.some.inj hkey]
  · obtain ⟨scalar, hpos, hlt⟩ := key
    cases h
    exact ⟨⟨hpos, hlt⟩, rfl⟩

theorem length_toBytes (key : SecretKey) : key.toBytes.length = 32 :=
  Bytes.length_bigEndian 32 key.scalar

theorem value_toBytes (key : SecretKey) : key.toBytes.value = key.scalar :=
  Bytes.value_bigEndian (key.lt_order.trans order_lt_width)

theorem ofBytes?_toBytes (key : SecretKey) : ofBytes? key.toBytes = some key := by
  rw [ofBytes?_eq_some_iff, length_toBytes, value_toBytes]
  exact ⟨⟨by decide, le_rfl⟩, rfl⟩

end Secp256k1.SecretKey

namespace Tool

variable {env : Environment} {text : String} {bytes payload : Bytes} {key : SecretKey}

/-! ## Hexadecimal arguments -/

/-- A text spells a byte string if it has its digits, in letters of either case, and blanks
around them. -/
def Spells (text : String) (bytes : Bytes) : Prop :=
  ∃ before digits after, Text.Blank before ∧ Text.Blank after ∧
    digits.toLower = Hex.encode bytes ∧ text = before ++ (digits ++ after)

theorem toLower_mem_digits {digits : String} (h : digits.toLower = Hex.encode bytes) {c : Char}
    (hc : c ∈ digits.toList) : c.toLower ∈ "0123456789abcdef".toList := by
  have hmem : c.toLower ∈ (Hex.encode bytes).toList := by
    rw [← h, Text.toList_toLower]
    exact List.mem_map_of_mem hc
  exact Hex.mem_digits_of_mem_encode hmem

theorem not_isBlank_of_toLower {c : Char} (h : c.toLower ∈ "0123456789abcdef".toList) :
    Text.isBlank c = false := by
  rw [Bool.eq_false_iff]
  intro hblank
  have hnumber := Text.toNat_of_isBlank hblank
  have hdigits : "0123456789abcdef".toList.any Text.isBlank = false := by decide
  rw [Text.toLower_eq_self (by omega)] at h
  rw [List.any_eq_true.mpr ⟨c, h, hblank⟩] at hdigits
  cases hdigits

/-- A hexadecimal argument is read as the byte string that it spells. -/
theorem hexArgument_eq_ok_iff : hexArgument text = .ok bytes ↔ Spells text bytes := by
  rw [hexArgument, Hex.decode_utf8_encode_eq_ok_iff]
  refine ⟨fun h => ?_, fun h => ?_⟩
  · obtain ⟨before, after, hbefore, hafter, htext⟩ := Text.exists_trim text
    exact ⟨before, Text.trim text, after, hbefore, hafter, h, htext⟩
  · obtain ⟨before, digits, after, hbefore, hafter, h, rfl⟩ := h
    rw [Text.trim_eq hbefore (fun c hc => not_isBlank_of_toLower (toLower_mem_digits h hc)) hafter]
    exact h

namespace Spells

theorem unique {bytes' : Bytes} (h : Spells text bytes) (h' : Spells text bytes') :
    bytes = bytes' := by
  rw [← hexArgument_eq_ok_iff] at h h'
  rw [h] at h'
  exact Except.ok.inj h'

theorem digits (bytes : Bytes) : Spells (Hex.encode bytes) bytes := by
  refine ⟨"", Hex.encode bytes, "", nofun, nofun, ?_, ?_⟩
  · exact Hex.decode_utf8_encode_eq_ok_iff.mp (Hex.decode_encode bytes)
  · rw [String.empty_append, String.append_empty]

theorem between {before after : String} (h : Spells text bytes) (hbefore : Text.Blank before)
    (hafter : Text.Blank after) : Spells (before ++ (text ++ after)) bytes := by
  obtain ⟨before', digits, after', hbefore', hafter', hdigits, rfl⟩ := h
  refine ⟨before ++ before', digits, after' ++ after, hbefore.append hbefore',
    hafter'.append hafter, hdigits, ?_⟩
  simp only [String.append_assoc]

theorem line (h : Spells text bytes) : Spells (text ++ "\n") bytes := by
  have hbetween : Spells ("" ++ (text ++ "\n")) bytes := h.between nofun (by decide)
  rw [String.empty_append] at hbetween
  exact hbetween

theorem toUpper (h : Spells text bytes) : Spells text.toUpper bytes := by
  obtain ⟨before, digits, after, hbefore, hafter, hdigits, rfl⟩ := h
  refine ⟨before, digits.toUpper, after, hbefore, hafter, ?_, ?_⟩
  · rw [← hdigits, ← String.toList_inj, Text.toList_toLower, Text.toList_toLower,
      Text.toList_toUpper, List.map_map]
    exact List.map_congr_left fun c _ => Text.toLower_toUpper c
  · rw [Text.toUpper_append, Text.toUpper_append, hbefore.toUpper, hafter.toUpper]

theorem dash_not_mem (h : Spells text bytes) : '-' ∉ text.toList := by
  obtain ⟨before, digits, after, hbefore, hafter, hdigits, rfl⟩ := h
  simp only [String.toList_append, List.mem_append]
  intro hmem
  rcases hmem with hmem | hmem | hmem
  · exact absurd (hbefore _ hmem) (by decide)
  · exact absurd (toLower_mem_digits hdigits hmem) (by decide)
  · exact absurd (hafter _ hmem) (by decide)

end Spells

/-- What a payload argument stands for: a text for its own bytes, digits for the bytes that
they spell. -/
def PayloadArgument.Denotes : PayloadArgument → Bytes → Prop
  | .text content, payload => payload = Utf8.encode content
  | .hex digits, payload => Spells digits payload

theorem PayloadArgument.bytes_eq_ok_iff {argument : PayloadArgument} :
    argument.bytes = .ok payload ↔ argument.Denotes payload := by
  cases argument with
  | text content => exact ⟨fun h => (Except.ok.inj h).symm, fun h => congrArg Except.ok h.symm⟩
  | hex digits => exact Except.mapError_eq_ok_iff.trans hexArgument_eq_ok_iff

/-- A text names a secret key if it spells bytes that are read as that key. -/
def Names (text : String) (key : SecretKey) : Prop :=
  ∃ secret, Spells text secret ∧ SecretKey.ofBytes? secret = some key

/-- A secret key is named by its 32 bytes in digits. -/
theorem names_toBytes (key : SecretKey) : Names (Hex.encode key.toBytes) key :=
  ⟨_, .digits _, key.ofBytes?_toBytes⟩

theorem Names.unique {key' : SecretKey} (h : Names text key) (h' : Names text key') :
    key = key' := by
  obtain ⟨secret, hsecret, hkey⟩ := h
  obtain ⟨secret', hsecret', hkey'⟩ := h'
  rw [hsecret.unique hsecret', hkey'] at hkey
  exact (Option.some.inj hkey).symm

theorem readSecretKey_eq_ok_iff : readSecretKey text = .ok key ↔ Names text key := by
  simp only [readSecretKey, Except.bind_eq_ok_iff, Except.mapError_eq_ok_iff,
    hexArgument_eq_ok_iff]
  refine exists_congr fun secret => and_congr_right fun _ => ?_
  cases SecretKey.ofBytes? secret with
  | none => exact iff_of_false nofun nofun
  | some key' =>
      refine ⟨fun h => ?_, fun h => ?_⟩
      · exact congrArg some (Except.ok.inj h)
      · exact congrArg Except.ok (Option.some.inj h)

/-! ## Command lines -/

theorem isDashed_of_dash_not_mem (h : '-' ∉ text.toList) : Arguments.isDashed text = false := by
  rw [Arguments.isDashed]
  split
  · next hchars => rw [hchars] at h; exact absurd List.mem_cons_self h
  · rfl

theorem longOption?_of_dash_not_mem (h : '-' ∉ text.toList) :
    Arguments.longOption? text = none := by
  rw [Arguments.longOption?]
  split
  · next hchars => rw [hchars] at h; exact absurd List.mem_cons_self h
  · rfl

/-- An option whose value is the next argument. -/
theorem scan_option {known : List String} {args : Arguments} {argument name value : String}
    {rest : List String} (hargument : Arguments.longOption? argument = some (name, none))
    (hend : argument ≠ "--") (hknown : name ∈ known) (hnew : args.option? name = none)
    (hvalue : Arguments.isDashed value = false) :
    Arguments.scan known args (argument :: value :: rest) =
      Arguments.scan known { args with options := args.options ++ [(name, value)] } rest := by
  rw [Arguments.scan, if_neg hend, hargument]
  dsimp only
  rw [if_neg (not_not_intro hknown), hvalue, Arguments.addOption, hnew]
  rfl

/-- The text has no dash, so it is not taken for an option; the content may have some. -/
theorem parse_sign {content : String} (htext : '-' ∉ text.toList)
    (hcontent : Arguments.isDashed content = false) :
    Command.parse env ["sign", "--secret-key", text, "--payload", content] =
      .ok (.sign text (.text content)) := by
  have hkey : Arguments.longOption? "--secret-key" = some ("secret-key", none) := by
    decide
  have hpayload : Arguments.longOption? "--payload" = some ("payload", none) := by
    decide
  have hscan : Arguments.scan ["secret-key", "payload", "payload-hex"] .empty
      ["--secret-key", text, "--payload", content] =
        .ok ⟨[("secret-key", text), ("payload", content)], []⟩ := by
    rw [scan_option hkey (by decide) (by decide) rfl (isDashed_of_dash_not_mem htext),
      scan_option hpayload (by decide) (by decide) (by rfl) hcontent]
    rfl
  simp only [Command.parse, hscan]
  rfl

/-- The secret key may come from the environment, where its variable is looked at because the
option is missing. -/
theorem parse_sign_hex {digits : String} (hkey : env.text? .secretKey = some text)
    (hdigits : '-' ∉ digits.toList) :
    Command.parse env ["sign", "--payload-hex", digits] = .ok (.sign text (.hex digits)) := by
  have hpayload : Arguments.longOption? "--payload-hex" = some ("payload-hex", none) := by
    decide
  have hscan : Arguments.scan ["secret-key", "payload", "payload-hex"] .empty
      ["--payload-hex", digits] = .ok ⟨[("payload-hex", digits)], []⟩ := by
    rw [scan_option hpayload (by decide) (by decide) rfl (isDashed_of_dash_not_mem hdigits)]
    rfl
  have hsecret : Command.secretKey env ⟨[("payload-hex", digits)], []⟩ = .ok text := by
    rw [Command.secretKey, hkey]
    rfl
  simp only [Command.parse, hscan, Except.ok_bind, hsecret]
  rfl

theorem parse_verify (h : '-' ∉ text.toList) :
    Command.parse env ["verify", text] = .ok (.verify text) := by
  have hoption : text ≠ "--" := by
    intro htext
    rw [htext] at h
    exact h (by decide)
  have hscan : Arguments.scan [] .empty [text] = .ok (Arguments.empty.addOperands [text]) := by
    rw [Arguments.scan, if_neg hoption, longOption?_of_dash_not_mem h]
    dsimp only
    rw [isDashed_of_dash_not_mem h]
    rfl
  simp only [Command.parse, hscan]
  rfl

end Tool

end ConsensusEnvelope
