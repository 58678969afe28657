import ConsensusEnvelope.Proofs.Tool.RoundTrip
import ConsensusEnvelope.Proofs.Verification

/-!
# What the lines of the display say

The tool shows an envelope line by line: the version, the sender, the payload and, behind
them, the verdict. Three of these lines are made of characters of the tool's own choice. The
payload is not, and it is shown as it stands. Each line feed in it starts another line of the
display, whose text is up to whoever wrote the payload.

So the display of an accepted frame has four lines exactly if its payload has no line feed,
and only then is the verdict the one line that is sure to be labelled as such. What holds of
every payload is that the verdict is the last line, that the exit status agrees with it, and
that no line feeds are shown but those of the payload: a faulty byte is never shown as one.
-/

namespace ConsensusEnvelope

namespace Text

/-- The lines of a list of characters, without the line feeds that end them. -/
def linesOf : List Char → List (List Char)
  | [] => []
  | c :: rest =>
    if c = '\n' then [] :: linesOf rest
    else
      match linesOf rest with
      | [] => [[c]]
      | line :: lines => (c :: line) :: lines

/-- The lines of a text. -/
def lines (text : String) : List String :=
  (linesOf text.toList).map String.ofList

theorem length_linesOf (chars : List Char) :
    (linesOf (chars ++ ['\n'])).length = chars.count '\n' + 1 := by
  induction chars with
  | nil => rfl
  | cons c chars ih =>
      rw [List.cons_append, linesOf]
      split
      · next hc => rw [hc, List.length_cons, ih, List.count_cons_self]
      · next hc =>
          rw [List.count_cons_of_ne hc, ← ih]
          split
          · next hnil => rw [hnil] at ih; cases ih
          · next hcons => rw [hcons]; rfl

theorem linesOf_append (chars rest : List Char) :
    linesOf (chars ++ '\n' :: rest) = linesOf (chars ++ ['\n']) ++ linesOf rest := by
  induction chars with
  | nil => rfl
  | cons c chars ih =>
      rw [List.cons_append, List.cons_append, linesOf, linesOf, ih]
      split
      · rfl
      · cases h : linesOf (chars ++ ['\n']) with
        | nil =>
            have hlength := length_linesOf chars
            rw [h] at hlength
            cases hlength
        | cons line lines => rfl

theorem linesOf_line {line : List Char} (h : '\n' ∉ line) : linesOf (line ++ ['\n']) = [line] := by
  induction line with
  | nil => rfl
  | cons c line ih =>
      obtain ⟨hc, hline⟩ := not_or.mp (mt List.mem_cons.mpr h)
      rw [List.cons_append, linesOf, if_neg (Ne.symm hc), ih hline]

variable {text line rest : String}

theorem toList_newline_append (text rest : String) :
    (text ++ ("\n" ++ rest)).toList = text.toList ++ '\n' :: rest.toList := by
  rw [String.toList_append, String.toList_append]
  rfl

theorem toList_append_newline (text : String) : (text ++ "\n").toList = text.toList ++ ['\n'] :=
  String.toList_append

theorem length_lines (text : String) :
    (lines (text ++ "\n")).length = text.toList.count '\n' + 1 := by
  rw [lines, List.length_map, toList_append_newline, length_linesOf]

theorem lines_append (text rest : String) :
    lines (text ++ ("\n" ++ rest)) = lines (text ++ "\n") ++ lines rest := by
  rw [lines, lines, lines, toList_newline_append, toList_append_newline, linesOf_append,
    List.map_append]

theorem lines_line (h : '\n' ∉ line.toList) : lines (line ++ "\n") = [line] := by
  rw [lines, toList_append_newline, linesOf_line h, List.map_singleton, String.ofList_toList]

end Text

namespace Tool

/-! ## The four parts -/

/-- The line that shows the version. -/
def versionLine (e : Envelope) : String :=
  "version:    " ++ toString e.version.toNat

/-- The line that shows the sender. -/
def senderLine (e : Envelope) : String :=
  "sender:     " ++ e.coordinate.hex

/-- What shows the payload: one line, unless the payload has line feeds. -/
def payloadText (e : Envelope) : String :=
  "payload:    " ++ Utf8.lossy e.payload

/-- The line that shows the verdict. -/
def verdictLine (valid : Bool) : String :=
  "signature:  " ++ (if valid then "valid" else "INVALID")

variable (e : Envelope) (valid : Bool)

theorem display_eq : display e valid =
    versionLine e ++ ("\n" ++ (senderLine e ++ ("\n" ++ (payloadText e ++ ("\n" ++
      (verdictLine valid ++ "\n")))))) := by
  have hsender : "\nsender:     " = "\n" ++ "sender:     " := by simp
  have hpayload : "\npayload:    " = "\n" ++ "payload:    " := by simp
  have hverdict : "\nsignature:  " = "\n" ++ "signature:  " := by simp
  unfold display versionLine senderLine payloadText verdictLine
  rw [hsender, hpayload, hverdict]
  simp only [String.append_assoc]

theorem versionLine_is_line : '\n' ∉ (versionLine e).toList := by
  rw [versionLine, String.toList_append, List.mem_append, Nat.toString_eq_repr, Nat.toList_repr]
  intro hmem
  rcases hmem with hlabel | hdigit
  · exact absurd hlabel (by decide)
  · exact absurd (Nat.isDigit_of_mem_toDigits (by decide) (by decide) hdigit) (by decide)

theorem senderLine_is_line : '\n' ∉ (senderLine e).toList := by
  rw [senderLine, String.toList_append, List.mem_append]
  intro hmem
  rcases hmem with hlabel | hdigit
  · exact absurd hlabel (by decide)
  · exact absurd (Hex.mem_digits_of_mem_encode hdigit) (by decide)

theorem verdictLine_is_line : '\n' ∉ (verdictLine valid).toList := by
  cases valid <;> decide

/-- The payload takes up one line, and another one for each of its line feeds. -/
theorem length_lines_payload :
    (Text.lines (payloadText e ++ "\n")).length = e.payload.count 0x0a + 1 := by
  have hlabel : "payload:    ".toList.count '\n' = 0 := by decide
  have hpayload : (Utf8.lossy e.payload).toList.count '\n' = e.payload.count 0x0a :=
    Utf8.count_lossy (by decide) e.payload
  rw [Text.length_lines, payloadText, String.toList_append, List.count_append, hlabel, hpayload,
    Nat.zero_add]

theorem payloadText_is_line (h : 0x0a ∉ e.payload) : '\n' ∉ (payloadText e).toList := by
  have hlength := length_lines_payload e
  rw [Text.length_lines, List.count_eq_zero.mpr h] at hlength
  exact List.count_eq_zero.mp (Nat.succ.inj hlength)

theorem lines_display : Text.lines (display e valid) =
    [versionLine e, senderLine e] ++ Text.lines (payloadText e ++ "\n") ++
      [verdictLine valid] := by
  rw [display_eq, Text.lines_append, Text.lines_append, Text.lines_append,
    Text.lines_line (versionLine_is_line e), Text.lines_line (senderLine_is_line e),
    Text.lines_line (verdictLine_is_line valid), List.append_assoc]
  rfl

/-! ## The label of the verdict -/

/-- Whether a line is labelled as a verdict. -/
def isVerdict (line : String) : Bool :=
  "signature:".toList.isPrefixOf line.toList

theorem isVerdict_versionLine : isVerdict (versionLine e) = false := by
  rw [isVerdict, versionLine, String.toList_append]
  rfl

theorem isVerdict_senderLine : isVerdict (senderLine e) = false := by
  rw [isVerdict, senderLine, String.toList_append]
  rfl

theorem isVerdict_payloadText : isVerdict (payloadText e) = false := by
  rw [isVerdict, payloadText, String.toList_append]
  rfl

theorem isVerdict_verdictLine : isVerdict (verdictLine valid) = true := by
  rw [isVerdict, verdictLine, String.toList_append]
  rfl

theorem filter_lines_display : (Text.lines (display e valid)).filter isVerdict =
    (Text.lines (payloadText e ++ "\n")).filter isVerdict ++ [verdictLine valid] := by
  rw [lines_display, List.filter_append, List.filter_append,
    List.filter_cons_of_neg (Bool.eq_false_iff.mp (isVerdict_versionLine e)),
    List.filter_cons_of_neg (Bool.eq_false_iff.mp (isVerdict_senderLine e)),
    List.filter_cons_of_pos (isVerdict_verdictLine valid)]
  rfl

/-- What the display of an accepted frame says about the signature. The exit status and the
last line are the answer of verification, whatever the payload. There are four lines and one
more for each line feed of the payload; and besides the last line, lines are labelled as a
verdict just where the lines of the payload are. Without a line feed in the payload the display
has four lines, of which only the last is labelled so. -/
theorem verdict_shown (env : Environment) (e : Envelope) :
    ∃ valid, e.verify env.settings = .ok valid ∧
      ∀ text frame arguments random, Spells text frame →
        Frame.decode env.settings frame = .ok e →
        Command.parse env arguments = .ok (.verify text) →
        ∃ shown,
          run env arguments random =
            { status := if valid then 0 else 1, stdout := shown, stderr := "" } ∧
          Text.lines shown =
            [versionLine e, senderLine e] ++ Text.lines (payloadText e ++ "\n") ++
              [verdictLine valid] ∧
          (Text.lines shown).length = 4 + e.payload.count 0x0a ∧
          (Text.lines shown).filter isVerdict =
            (Text.lines (payloadText e ++ "\n")).filter isVerdict ++ [verdictLine valid] ∧
          (0x0a ∉ e.payload →
            Text.lines shown =
              [versionLine e, senderLine e, payloadText e, verdictLine valid] ∧
            (Text.lines shown).filter isVerdict = [verdictLine valid]) := by
  obtain ⟨valid, hvalid⟩ := Envelope.exists_verify_eq_ok env.settings e
  refine ⟨valid, hvalid, fun text frame arguments random htext hframe hparse =>
    ⟨display e valid, ?_, lines_display e valid, ?_, filter_lines_display e valid,
      fun hpayload => ?_⟩⟩
  · exact run_verify hparse (verify_eq_ok_iff.mpr ⟨frame, htext, hframe, hvalid⟩)
  · rw [lines_display, List.length_append, List.length_append, length_lines_payload]
    simp only [List.length_cons, List.length_nil]
    omega
  · -- The payload is shown in one line, and that line has a label of the tool's own.
    rw [filter_lines_display, lines_display, Text.lines_line (payloadText_is_line e hpayload),
      List.filter_cons_of_neg (Bool.eq_false_iff.mp (isVerdict_payloadText e))]
    exact ⟨rfl, rfl⟩

/-- The envelope `Envelope.helloBdls` with a line of its own behind the payload. -/
def forged : Envelope :=
  { Envelope.helloBdls with payload := Utf8.encode "hello-bdls\nsignature:  valid" }

theorem decode_forged :
    Frame.decode Settings.default (Frame.encode forged) = .ok forged := by
  rw [Frame.decode_encode_iff, Frame.length_encode]
  decide

theorem verify_forged : forged.verify Settings.default = .ok false := by
  obtain ⟨valid, h⟩ := Envelope.exists_verify_eq_ok Settings.default forged
  have hvalid : (forged.verify Settings.default).toOption = some false := by decide +kernel
  rw [h] at hvalid
  rw [h, Option.some.inj hvalid]

/-- It is an accepted frame and does not verify, and one of the two verdicts that are shown
says that it does. -/
theorem forged_verdict :
    Frame.decode Settings.default (Frame.encode forged) = .ok forged ∧
    forged.verify Settings.default = .ok false ∧
    ∃ shown,
      run (fun _ => none) ["verify", Hex.encode (Frame.encode forged)] [] =
        { status := 1, stdout := shown, stderr := "" } ∧
      (Text.lines shown).length = 5 ∧
      (Text.lines shown).filter isVerdict = ["signature:  valid", "signature:  INVALID"] := by
  have htext := Spells.digits (Frame.encode forged)
  have hsettings : Environment.settings (fun _ => none) = Settings.default := rfl
  have hverify : verify (Environment.settings fun _ => none)
      (Hex.encode (Frame.encode forged)) = .ok (forged, false) := by
    rw [hsettings]
    exact verify_eq_ok_iff.mpr ⟨_, htext, decode_forged, verify_forged⟩
  have hrun : run (fun _ => none) ["verify", Hex.encode (Frame.encode forged)] [] =
      { status := if false then 0 else 1, stdout := display forged false, stderr := "" } :=
    run_verify (parse_verify htext.dash_not_mem) hverify
  refine ⟨decode_forged, verify_forged, _, hrun, ?_, ?_⟩
  · rw [lines_display, List.length_append, List.length_append, length_lines_payload]
    rfl
  · rw [filter_lines_display]
    decide

end Tool

end ConsensusEnvelope
