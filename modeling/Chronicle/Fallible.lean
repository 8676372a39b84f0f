set_option autoImplicit false

/-!
# Steps that may fail

A step acts on a state and succeeds with a value or fails with an error. The state that it leaves
counts in either case: a failure undoes nothing by itself. Main statement: steps form a lawful
monad.
-/

namespace Chronicle

/-- A step on states `σ` that succeeds with an `α` or fails with an `ε`. -/
def Fallible (ε σ α : Type) : Type := σ → Except ε α × σ

namespace Fallible

variable {ε σ τ α β γ : Type}

/-- The step that changes nothing and answers `a`. -/
def done (a : α) : Fallible ε σ α := fun s => (.ok a, s)

/-- The step that changes nothing and fails. -/
def fail (e : ε) : Fallible ε σ α := fun s => (.error e, s)

/-- One step and then the next; a failure of the first ends both. -/
def andThen (step : Fallible ε σ α) (next : α → Fallible ε σ β) : Fallible ε σ β := fun s =>
  match step s with
  | (.ok a, s') => next a s'
  | (.error e, s') => (.error e, s')

instance : Monad (Fallible ε σ) where
  pure := done
  bind := andThen

/-- A step that only answers hands its answer on. -/
theorem done_bind (a : α) (next : α → Fallible ε σ β) : (done a >>= next) = next a := rfl

/-- What a step and the next one do to a state. -/
theorem bind_apply (step : Fallible ε σ α) (next : α → Fallible ε σ β) (s : σ) :
    (step >>= next) s =
      match step s with
      | (.ok a, s') => next a s'
      | (.error e, s') => (.error e, s') := rfl

/-- The next step goes on from where a step that succeeds ends. -/
theorem bind_of_ok {step : Fallible ε σ α} {s s' : σ} {a : α} (h : step s = (.ok a, s'))
    (next : α → Fallible ε σ β) : (step >>= next) s = next a s' := by
  rw [bind_apply, h]

/-- A step that fails is the last. -/
theorem bind_of_error {step : Fallible ε σ α} {s s' : σ} {e : ε} (h : step s = (.error e, s'))
    (next : α → Fallible ε σ β) : (step >>= next) s = (.error e, s') := by
  rw [bind_apply, h]

/-- When a step and the next one succeed, each of them does. -/
theorem ok_of_bind {step : Fallible ε σ α} {next : α → Fallible ε σ β} {s s' : σ} {b : β}
    (h : (step >>= next) s = (.ok b, s')) :
    ∃ a t, step s = (.ok a, t) ∧ next a t = (.ok b, s') := by
  rw [bind_apply] at h
  cases hstep : step s with
  | mk r t =>
      rw [hstep] at h
      cases r with
      | ok a => exact ⟨a, t, rfl, h⟩
      | error e => cases h

/-- Answering what was answered adds nothing. -/
theorem bind_done (step : Fallible ε σ α) : (step >>= done) = step := by
  funext s
  rw [bind_apply]
  cases step s with
  | mk r s' => cases r <;> rfl

/-- How steps are bracketed makes no difference. -/
theorem bind_bind (step : Fallible ε σ α) (next : α → Fallible ε σ β)
    (last : β → Fallible ε σ γ) :
    (step >>= next >>= last) = step >>= fun a => next a >>= last := by
  funext s
  simp only [bind_apply]
  cases step s with
  | mk r s' => cases r <;> rfl

instance : LawfulMonad (Fallible ε σ) :=
  .mk' _ (fun step => bind_done step) (fun a next => done_bind a next)
    (fun step next last => bind_bind step next last)

/-- What a step answers, put into other words. -/
theorem map_apply (f : α → β) (step : Fallible ε σ α) (s : σ) :
    (f <$> step) s = ((step s).1.map f, (step s).2) := by
  show (step >>= fun a => pure (f a)) s = _
  rw [bind_apply]
  rcases step s with ⟨_ | _, _⟩ <;> rfl

/-- A step whose answer is dropped leaves the same state. -/
theorem state_of_forget (step : Fallible ε σ α) (s : σ) :
    ((step >>= fun _ => pure () : Fallible ε σ Unit) s).2 = (step s).2 := by
  rw [bind_apply]
  rcases step s with ⟨_ | _, _⟩ <;> rfl

/-- The outcome of a step, which thereby cannot fail any more. -/
def outcome (step : Fallible ε σ α) : Fallible ε σ (Except ε α) := fun s =>
  match step s with
  | (r, s') => (.ok r, s')

/-- The step that answers what is read off the state. -/
def read (f : σ → α) : Fallible ε σ α := fun s => (.ok (f s), s)

/-- The step that changes the state. -/
def change (f : σ → σ) : Fallible ε σ Unit := fun s => (.ok (), f s)

/-- A step on a part of the state. -/
def within (part : σ → τ) (put : τ → σ → σ) (step : Fallible ε τ α) : Fallible ε σ α := fun s =>
  match step (part s) with
  | (r, t) => (r, put t s)

/-- A step on the first of two states. -/
def onFirst (step : Fallible ε σ α) : Fallible ε (σ × τ) α :=
  within Prod.fst (fun s p => (s, p.2)) step

/-- A step on the first of two states and then the next on both; the second state waits. -/
theorem onFirst_bind_apply (step : Fallible ε σ α) (next : α → Fallible ε (σ × τ) β) (s : σ)
    (t : τ) :
    (step.onFirst >>= next) (s, t) =
      match step s with
      | (.ok a, s') => next a (s', t)
      | (.error e, s') => (.error e, (s', t)) := by
  rw [bind_apply]
  cases hstep : step s with
  | mk r s' =>
      simp only [onFirst, within, hstep]
      cases r <;> rfl

end Fallible

end Chronicle
