import ConsensusEnvelope.Proofs.Delivery

/-!
# Signing replaces an envelope as a whole

An envelope may be signed into again and again, by any keys and under any
settings, and some of the attempts may fail. The fields are written one after
another, so a failure between two writes would leave a mixture. There is none: an
attempt finds out whether it fails before its first write, when the payload is too
long or the signature primitive refuses. So there are three things an attempt can
do, and they are told apart by the attempt alone, not by the envelope that it
finds. Two of them leave the envelope as it was, and the third, with a write to
every field, leaves nothing of it.

Over a run of attempts, then, all but the last success is forgotten. The
invariant of the induction is that the envelope is either the one from the start,
if no attempt has succeeded, or what the last successful attempt makes of any
envelope.
-/

namespace ConsensusEnvelope

open Secp256k1

/-- What it takes to sign: settings, a payload, a key and random bytes. -/
structure Attempt where
  settings : Settings
  payload : Bytes
  key : SecretKey
  entropy : Bytes

namespace Attempt

/-- Tries to sign into an envelope. -/
def apply (a : Attempt) (e : Envelope) : Envelope × Except Error Unit :=
  e.sign a.settings a.payload a.key a.entropy

def Fits (a : Attempt) : Prop :=
  a.payload.length ≤ a.settings.payloadLimit.toNat

def Answered (a : Attempt) : Prop :=
  a.key.Answers a.settings a.entropy a.payload

/-- What an attempt does to the envelope that it finds: nothing if it fails for the
length of the payload or because the primitive refuses, and otherwise it writes to it. -/
theorem apply_cases (a : Attempt) (e : Envelope) :
    (¬ a.Fits ∧ a.apply e = (e, .error (.payloadTooLarge a.payload.length
      a.settings.payloadLimit.toNat))) ∨
    (a.Fits ∧ a.Answered ∧ ∃ e', a.apply e = (e', .ok ()) ∧
      Envelope.signed a.settings a.payload a.key a.entropy = .ok e') ∨
    (a.Fits ∧ ¬ a.Answered ∧ a.apply e = (e, .error .signing)) := by
  rcases Nat.lt_or_ge a.settings.payloadLimit.toNat a.payload.length with hlong | hfits
  · exact .inl ⟨Nat.not_le.mpr hlong, Envelope.sign_of_oversized hlong e⟩
  · obtain ⟨sender, -, hsender, -⟩ := Coordinate.exists_ofSecretKey a.key
    rw [Answered, SecretKey.answers_iff hsender]
    cases hsig : a.key.sign?
        ((Statement.ofSender a.settings sender a.payload).hash a.settings) a.entropy with
    | none => exact .inr (.inr ⟨hfits, nofun, Envelope.sign_of_refused hfits hsender hsig e⟩)
    | some sig =>
        have happly := Envelope.sign_of_answered hfits hsender hsig e
        exact .inr (.inl ⟨hfits, rfl, _, happly, Envelope.sign_eq_ok_iff.mp happly⟩)

/-- The verdict on an attempt does not depend on the envelope that it finds. -/
theorem outcome_apply_iff (a : Attempt) (e : Envelope) :
    (∀ size limit, (a.apply e).2 = .error (.payloadTooLarge size limit) ↔
      ¬ a.Fits ∧ size = a.payload.length ∧ limit = a.settings.payloadLimit.toNat) ∧
    ((a.apply e).2 = .error .signing ↔ a.Fits ∧ ¬ a.Answered) ∧
    ((a.apply e).2 = .ok () ↔ a.Fits ∧ a.Answered) := by
  rcases a.apply_cases e with
    ⟨hlong, h⟩ | ⟨hfits, hanswered, e', h, -⟩ | ⟨hfits, hrefused, h⟩
  · rw [h]
    refine ⟨fun size limit => ?_, ⟨nofun, fun h' => absurd h'.1 hlong⟩,
      ⟨nofun, fun h' => absurd h'.1 hlong⟩⟩
    constructor
    · intro heq
      cases heq
      exact ⟨hlong, rfl, rfl⟩
    · rintro ⟨-, rfl, rfl⟩
      rfl
  · rw [h]
    exact ⟨fun _ _ => ⟨nofun, fun h' => absurd hfits h'.1⟩,
      ⟨nofun, fun h' => absurd hanswered h'.2⟩, ⟨fun _ => ⟨hfits, hanswered⟩, fun _ => rfl⟩⟩
  · rw [h]
    exact ⟨fun _ _ => ⟨nofun, fun h' => absurd hfits h'.1⟩,
      ⟨fun _ => ⟨hfits, hrefused⟩, fun _ => rfl⟩, ⟨nofun, fun h' => absurd h'.2 hrefused⟩⟩

/-- An attempt that fails leaves all fields as they were. -/
theorem apply_unchanged {a : Attempt} {e : Envelope} (h : (a.apply e).2 ≠ .ok ()) :
    (a.apply e).1 = e := by
  rcases a.apply_cases e with ⟨-, heq⟩ | ⟨-, -, e', heq, -⟩ | ⟨-, -, heq⟩
  · rw [heq]
  · rw [heq] at h
    exact absurd rfl h
  · rw [heq]

/-- An attempt that succeeds leaves no field as it was: what it makes of one
envelope, it makes of every envelope. -/
theorem apply_forgets {a : Attempt} {e e' : Envelope} (h : a.apply e = (e', .ok ()))
    (start : Envelope) : a.apply start = (e', .ok ()) :=
  Envelope.sign_eq_ok_iff.mpr (Envelope.sign_eq_ok_iff.mp h)

/-- An attempt that was made: the envelope that it found, what came of it, and the
envelope that it left. -/
structure Step where
  attempt : Attempt
  before : Envelope
  outcome : Except Error Unit
  after : Envelope

/-- The steps of a run of attempts. Each finds the envelope that the one before it
left. -/
def steps : List Attempt → Envelope → List Step
  | [], _ => []
  | a :: rest, e => ⟨a, e, (a.apply e).2, (a.apply e).1⟩ :: steps rest (a.apply e).1

/-- The envelope that a run of attempts leaves. -/
def run (attempts : List Attempt) (e : Envelope) : Envelope :=
  attempts.foldl (fun e a => (a.apply e).1) e

theorem run_cons (a : Attempt) (rest : List Attempt) (e : Envelope) :
    run (a :: rest) e = run rest (a.apply e).1 := by
  rw [run, run, List.foldl_cons]

theorem map_attempt_steps (attempts : List Attempt) (e : Envelope) :
    (steps attempts e).map Step.attempt = attempts := by
  induction attempts generalizing e with
  | nil => rfl
  | cons a rest ih => rw [steps, List.map_cons, ih]

theorem apply_of_mem_steps {attempts : List Attempt} {e : Envelope} {step : Step}
    (h : step ∈ steps attempts e) :
    step.attempt.apply step.before = (step.after, step.outcome) := by
  induction attempts generalizing e with
  | nil => cases h
  | cons a rest ih =>
      rw [steps] at h
      -- Named, so that the kernel does not run the signer to compare the pair with its parts.
      generalize happly : a.apply e = result at h
      obtain ⟨e', outcome⟩ := result
      rcases List.mem_cons.mp h with rfl | hmem
      · exact happly
      · exact ih hmem

/-- A run leaves the envelope that it started from if no attempt succeeds, and
otherwise the one that the last successful attempt left. -/
theorem run_cases (attempts : List Attempt) (e : Envelope) :
    ((∀ step ∈ steps attempts e, step.outcome ≠ .ok ()) ∧ run attempts e = e) ∨
    ∃ earlier last later, steps attempts e = earlier ++ last :: later ∧
      last.outcome = .ok () ∧ (∀ step ∈ later, step.outcome ≠ .ok ()) ∧
      run attempts e = last.after := by
  induction attempts generalizing e with
  | nil => exact .inl ⟨fun _ hmem => absurd hmem List.not_mem_nil, rfl⟩
  | cons a rest ih =>
      rw [run_cons, steps]
      rcases ih (a.apply e).1 with
        ⟨hfail, hrest⟩ | ⟨earlier, last, later, hsteps, hok, hlater, hlast⟩
      · rw [hrest]
        by_cases hok : (a.apply e).2 = .ok ()
        · exact .inr ⟨[], _, _, rfl, hok, hfail, rfl⟩
        · refine .inl ⟨?_, ?_⟩
          · intro step hmem
            rcases List.mem_cons.mp hmem with rfl | hmem
            · exact hok
            · exact hfail step hmem
          · exact apply_unchanged hok
      · rw [hsteps]
        exact .inr ⟨_ :: earlier, last, later, rfl, hok, hlater, hlast⟩

/-- Signing is atomic. In every run of attempts on one envelope, an attempt fails
for the length of its payload exactly when the payload is above the limit of its
settings, it fails otherwise only when the primitive refuses, and it leaves the
envelope unchanged whenever it fails. The run as a whole leaves the envelope from
the start if nothing succeeded. If something did, it leaves what the last success
makes of an empty envelope: the statement of the attempt's own settings, sender
and payload, whatever the random bytes were, with a signature that verifies. -/
theorem run_atomic (attempts : List Attempt) (start : Envelope) :
    (steps attempts start).map Step.attempt = attempts ∧
    (∀ step ∈ steps attempts start,
      (∀ size limit, step.outcome = .error (.payloadTooLarge size limit) ↔
        ¬ step.attempt.Fits ∧ size = step.attempt.payload.length ∧
          limit = step.attempt.settings.payloadLimit.toNat) ∧
      (step.outcome = .error .signing ↔ step.attempt.Fits ∧ ¬ step.attempt.Answered) ∧
      (step.outcome = .ok () ↔ step.attempt.Fits ∧ step.attempt.Answered) ∧
      (step.outcome ≠ .ok () → step.after = step.before)) ∧
    (((∀ step ∈ steps attempts start, step.outcome ≠ .ok ()) ∧
        run attempts start = start) ∨
      ∃ earlier last later, steps attempts start = earlier ++ last :: later ∧
        last.outcome = .ok () ∧ (∀ step ∈ later, step.outcome ≠ .ok ()) ∧
        last.attempt.apply .empty = (run attempts start, .ok ()) ∧
        (∃ sender, Coordinate.ofSecretKey last.attempt.key = .ok sender ∧
          (run attempts start).toStatement =
            .ofSender last.attempt.settings sender last.attempt.payload) ∧
        (run attempts start).verify last.attempt.settings = .ok true) := by
  refine ⟨map_attempt_steps attempts start, ?_, ?_⟩
  · intro step hmem
    have happly := apply_of_mem_steps hmem
    have houtcome := outcome_apply_iff step.attempt step.before
    have hunchanged := apply_unchanged (a := step.attempt) (e := step.before)
    rw [happly] at houtcome hunchanged
    exact ⟨houtcome.1, houtcome.2.1, houtcome.2.2, hunchanged⟩
  · refine (run_cases attempts start).imp id ?_
    rintro ⟨earlier, last, later, hsteps, hok, hlater, hrun⟩
    refine ⟨earlier, last, later, hsteps, hok, hlater, ?_⟩
    have hmem : last ∈ steps attempts start := by
      rw [hsteps]
      exact List.mem_append_right earlier List.mem_cons_self
    have happly := apply_of_mem_steps hmem
    rw [hok, ← hrun] at happly
    have hsigned := Envelope.sign_eq_ok_iff.mp happly
    have hfits := (Envelope.signed_eq_ok_iff.mp hsigned).1
    exact ⟨apply_forgets happly .empty, Envelope.statement_of_signed hsigned,
      (Envelope.verify_of_signed hsigned rfl).mpr hfits⟩

end Attempt

end ConsensusEnvelope
