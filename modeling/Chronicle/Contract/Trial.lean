import Chronicle.Registry.Basic

set_option autoImplicit false

/-!
# Trials

A trial runs a registry through a scenario and ends at the first expectation that is not met.
-/

namespace Chronicle

/-- An expectation that was not met, and the scenario that found it. -/
structure ContractFailure where
  scenario : String
  detail : String

/-- The failure in words. -/
def ContractFailure.message (f : ContractFailure) : String :=
  "[" ++ f.scenario ++ "] " ++ f.detail

/-- A step of a scenario, which fails with what was observed. -/
abbrev Trial (σ α : Type) : Type := Fallible String σ α

namespace Trial

variable {σ α : Type}

/-- What is said of a call that should not have failed. -/
def unexpected (operation : String) (e : RegistryError) : String :=
  operation ++ " operation returned unexpected error: " ++ e.message

/-- A call that should not fail. -/
def call (operation : String) (c : Call σ α) : Trial σ α := fun s =>
  match c s with
  | (.ok a, s') => (.ok a, s')
  | (.error e, s') => (.error (unexpected operation e), s')

/-- A call whose outcome is looked at. -/
def attempt (c : Call σ α) : Trial σ (Except RegistryError α) := fun s =>
  match c s with
  | (r, s') => (.ok r, s')

/-- The outcomes of calls made one after another. -/
def attemptAll : List (Call σ α) → Trial σ (List (Except RegistryError α))
  | [] => return []
  | c :: rest => do
      let r ← attempt c
      let more ← attemptAll rest
      return r :: more

/-- Ends the trial unless the condition holds. -/
def expect (condition : Bool) (detail : String) : Trial σ Unit :=
  if condition then .done () else .fail detail

end Trial

end Chronicle
