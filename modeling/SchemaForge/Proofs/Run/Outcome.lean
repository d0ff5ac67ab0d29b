import SchemaForge.Proofs.Outcome
import SchemaForge.Run.Generate

/-!
# What a run comes to

A run is a program on a file system.  On a file system whose calls are functions of its state, the
run comes to an answer, or to the cause that stopped it, and to the state it leaves.

## Main definitions

* `Run.on` — the outcome of a run.

## Main results

* `Run.on_bind_eq_ok`, `Run.on_bind_eq_error` — the outcome of a run in two parts.
-/

namespace SchemaForge.Run

variable {σ α β : Type}

/-- The outcome of a run: its answer or the cause that stopped it, and the file system as the run
leaves it. -/
def on (program : Run (StateM σ) α) (fs : σ) : Except RunError α × σ :=
  program.run fs

@[simp] theorem on_ofExcept (outcome : Except RunError α) (fs : σ) :
    (ofExcept outcome : Run (StateM σ) α).on fs = (outcome, fs) := rfl

section

variable {program : Run (StateM σ) α} {next : α → Run (StateM σ) β} {fs fs' fs'' : σ}

theorem on_bind_of_ok {a : α} (h : program.on fs = (.ok a, fs')) :
    (program >>= next).on fs = (next a).on fs' :=
  outcome_bind_of_ok h

theorem on_bind_of_error {e : RunError} (h : program.on fs = (.error e, fs')) :
    (program >>= next).on fs = (.error e, fs') :=
  outcome_bind_of_error h

/-- A run in two parts succeeds when both do. -/
theorem on_bind_eq_ok {b : β} :
    (program >>= next).on fs = (.ok b, fs'') ↔
      ∃ a fs', program.on fs = (.ok a, fs') ∧ (next a).on fs' = (.ok b, fs'') :=
  outcome_bind_eq_ok

/-- A run in two parts stops in the first or in the second. -/
theorem on_bind_eq_error {e : RunError} :
    (program >>= next).on fs = (.error e, fs'') ↔
      program.on fs = (.error e, fs'') ∨
        ∃ a fs', program.on fs = (.ok a, fs') ∧ (next a).on fs' = (.error e, fs'') :=
  outcome_bind_eq_error

end

/-! ### Calls -/

/-- A call does not stop a run. -/
theorem on_liftM {call : StateM σ α} {a : α} {fs fs' : σ} (h : call.run fs = (a, fs')) :
    (liftM call : Run (StateM σ) α).on fs = (.ok a, fs') :=
  outcome_liftM h

/-- A call that may fail stops a run if it does. -/
theorem on_orStop {cause : OsError → RunError} {call : StateM σ (Except OsError α)}
    {outcome : Except OsError α} {fs fs' : σ} (h : call.run fs = (outcome, fs')) :
    (orStop cause call).on fs = (outcome.mapError cause, fs') := by
  rw [orStop, on_bind_of_ok (on_liftM h)]
  cases outcome with
  | error e => rfl
  | ok a => rfl

end SchemaForge.Run
