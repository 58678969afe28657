import ConsensusEnvelope.Event

/-!
# Outcomes of computations that can fail

A chain of steps succeeds exactly when every step does, and rewording an error
neither makes nor removes a success. These are the rules by which the proofs
take readers, signers and endpoints apart; the events that a traced computation
reports on its way have no part in its outcome.
-/

namespace ConsensusEnvelope

namespace Except

variable {ε δ α β : Type}

theorem ok_bind (a : α) (f : α → Except ε β) : (.ok a : Except ε α) >>= f = f a := rfl

theorem error_bind (e : ε) (f : α → Except ε β) :
    (.error e : Except ε α) >>= f = .error e := rfl

theorem mapError_ok (f : ε → δ) (a : α) : (.ok a : Except ε α).mapError f = .ok a := rfl

theorem bind_eq_ok_iff {x : Except ε α} {f : α → Except ε β} {b : β} :
    x >>= f = .ok b ↔ ∃ a, x = .ok a ∧ f a = .ok b := by
  cases x with
  | error e =>
      constructor
      · intro h; cases h
      · rintro ⟨a, h, -⟩; cases h
  | ok a =>
      constructor
      · intro h; exact ⟨a, rfl, h⟩
      · rintro ⟨a', h, h'⟩; cases h; exact h'

theorem mapError_eq_ok_iff {x : Except ε α} {f : ε → δ} {a : α} :
    x.mapError f = .ok a ↔ x = .ok a := by
  cases x with
  | error e => constructor <;> (intro h; cases h)
  | ok a' => constructor <;> (intro h; cases h; rfl)

theorem mapError_eq_error_iff {x : Except ε α} {f : ε → δ} {error : δ} :
    x.mapError f = .error error ↔ ∃ cause, x = .error cause ∧ error = f cause := by
  cases x with
  | error cause =>
      constructor
      · intro h; cases h; exact ⟨cause, rfl, rfl⟩
      · rintro ⟨cause', h, rfl⟩; cases h; rfl
  | ok a =>
      constructor
      · intro h; cases h
      · rintro ⟨cause, h, -⟩; cases h

end Except

namespace Traced

variable {ε δ α β : Type}

@[simp] theorem outcome_pure (a : α) :
    (pure a : Traced ε α).outcome = .ok a := rfl

@[simp] theorem outcome_ofExcept (x : Except ε α) :
    (Traced.ofExcept x).outcome = x := rfl

@[simp] theorem outcome_fail (error : ε) :
    (Traced.fail error : Traced ε α).outcome = .error error := rfl

@[simp] theorem outcome_report (event : Event) :
    (Traced.report event : Traced ε Unit).outcome = .ok () := rfl

@[simp] theorem outcome_mapError (f : ε → δ) (t : Traced ε α) :
    (t.mapError f).outcome = t.outcome.mapError f := rfl

@[simp] theorem outcome_bind (t : Traced ε α) (f : α → Traced ε β) :
    (t >>= f).outcome = t.outcome >>= fun a => (f a).outcome := by
  cases h : t.outcome with
  | error error => simp only [bind, h]; rfl
  | ok a => simp only [bind, h]; rfl

end Traced

end ConsensusEnvelope
