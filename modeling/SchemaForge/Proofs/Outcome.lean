/-!
# What programs come to

Programs that may stop for a cause run on the state of a file system.  Such a program comes to an
answer, or to the cause that stopped it, and to the state it leaves.

## Main definitions

* `outcome` — the outcome of a program.

## Main results

* `outcome_bind_eq_ok`, `outcome_bind_eq_error` — the outcome of a program in two parts.
* `outcome_bind_invariant` — what both parts keep, the program keeps, whatever it comes to.
-/

namespace SchemaForge

variable {ε σ α β : Type}

/-- The outcome of a program: its answer or the cause that stopped it, and the state that the
program leaves. -/
def outcome (program : ExceptT ε (StateM σ) α) (s : σ) : Except ε α × σ :=
  program.run s

theorem exists_outcome_eq {program : ExceptT ε (StateM σ) α} {s : σ} {result : Except ε α}
    (h : (outcome program s).1 = result) : ∃ s', outcome program s = (result, s') :=
  ⟨(outcome program s).2, Prod.ext h rfl⟩

section

variable {program : ExceptT ε (StateM σ) α} {next : α → ExceptT ε (StateM σ) β} {s s' s'' : σ}

theorem outcome_bind_of_ok {a : α} (h : outcome program s = (.ok a, s')) :
    outcome (program >>= next) s = outcome (next a) s' := by
  unfold outcome ExceptT.run at h
  unfold outcome ExceptT.run
  show (ExceptT.bindCont next (program s).1 (program s).2) = next a s'
  rw [h]
  rfl

theorem outcome_bind_of_error {e : ε} (h : outcome program s = (.error e, s')) :
    outcome (program >>= next) s = (.error e, s') := by
  unfold outcome ExceptT.run at h
  unfold outcome ExceptT.run
  show (ExceptT.bindCont next (program s).1 (program s).2) = (.error e, s')
  rw [h]
  rfl

/-- A program in two parts succeeds when both do. -/
theorem outcome_bind_eq_ok {b : β} :
    outcome (program >>= next) s = (.ok b, s'') ↔
      ∃ a s', outcome program s = (.ok a, s') ∧ outcome (next a) s' = (.ok b, s'') := by
  constructor
  · intro h
    rcases hfirst : outcome program s with ⟨_ | a, s'⟩
    · rw [outcome_bind_of_error hfirst] at h
      cases h
    · rw [outcome_bind_of_ok hfirst] at h
      exact ⟨a, s', rfl, h⟩
  · rintro ⟨a, s', hfirst, hnext⟩
    rw [outcome_bind_of_ok hfirst, hnext]

/-- A program in two parts stops in the first or in the second. -/
theorem outcome_bind_eq_error {e : ε} :
    outcome (program >>= next) s = (.error e, s'') ↔
      outcome program s = (.error e, s'') ∨
        ∃ a s', outcome program s = (.ok a, s') ∧ outcome (next a) s' = (.error e, s'') := by
  constructor
  · intro h
    rcases hfirst : outcome program s with ⟨_ | a, s'⟩
    · rw [outcome_bind_of_error hfirst] at h
      cases h
      exact .inl rfl
    · rw [outcome_bind_of_ok hfirst] at h
      exact .inr ⟨a, s', rfl, h⟩
  · rintro (hfirst | ⟨a, s', hfirst, hnext⟩)
    · exact outcome_bind_of_error hfirst
    · rw [outcome_bind_of_ok hfirst, hnext]

/-- **What both parts keep, the program keeps**, whatever it comes to. -/
theorem outcome_bind_invariant {I : σ → Prop} (hfirst : I (outcome program s).2)
    (hnext : ∀ a s', I s' → I (outcome (next a) s').2) : I (outcome (program >>= next) s).2 := by
  rcases h : outcome program s with ⟨_ | a, s'⟩
  · rw [outcome_bind_of_error h]
    rw [h] at hfirst
    exact hfirst
  · rw [outcome_bind_of_ok h]
    rw [h] at hfirst
    exact hnext a s' hfirst

/-- A call does not stop a program. -/
theorem outcome_liftM {call : StateM σ α} {a : α} (h : call.run s = (a, s')) :
    outcome (liftM call : ExceptT ε (StateM σ) α) s = (.ok a, s') := by
  show ((Except.ok (call.run s).1, (call.run s).2) : Except ε α × σ) = _
  rw [h]

end

end SchemaForge
