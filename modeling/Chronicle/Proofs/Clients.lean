import Chronicle.Contract.Trial
import Mathlib.Data.List.Basic

set_option autoImplicit false

/-!
# Clients of services

A trial uses a service by requests: what it asks next depends on what it was answered. Two trials
of two services are alike if equal answers make them ask the same and come to the same end. Main
statement: trials that are alike come to the same end whenever the services answer alike
(`Trial.Alike.result`), and they are put together from alike parts (`Trial.Alike.bind`).
-/

namespace Chronicle

namespace Fallible

variable {Q A ε σ : Type}

/-- What requests are answered, one after another. -/
def answers (serve : Q → Fallible ε σ A) : List Q → σ → List (Except ε A)
  | [], _ => []
  | q :: rest, s => (serve q s).1 :: answers serve rest (serve q s).2

/-- The state that requests leave. -/
def after (serve : Q → Fallible ε σ A) : List Q → σ → σ
  | [], s => s
  | q :: rest, s => after serve rest (serve q s).2

variable (serve : Q → Fallible ε σ A)

theorem length_answers (requests : List Q) (s : σ) :
    (answers serve requests s).length = requests.length := by
  induction requests generalizing s with
  | nil => rfl
  | cons q rest ih => rw [answers, List.length_cons, List.length_cons, ih]

/-- Later requests are answered from the state that the earlier ones leave. -/
theorem answers_append (earlier later : List Q) (s : σ) :
    answers serve (earlier ++ later) s =
      answers serve earlier s ++ answers serve later (after serve earlier s) := by
  induction earlier generalizing s with
  | nil => rfl
  | cons q rest ih => rw [List.cons_append, answers, answers, after, ih, List.cons_append]

theorem after_append (earlier later : List Q) (s : σ) :
    after serve (earlier ++ later) s = after serve later (after serve earlier s) := by
  induction earlier generalizing s with
  | nil => rfl
  | cons q rest ih => exact ih _

end Fallible

namespace Trial

open Fallible

variable {Q A σ τ α β : Type}

/--
From every state, the first trial has asked some requests, at most `n`; and if a state of the
second service answers these alike, the second trial ends alike and has asked the same.
-/
def Alike (serve : Q → Call σ A) (serve' : Q → Call τ A) (n : Nat) (t : Trial σ α)
    (u : Trial τ α) : Prop :=
  ∀ s, ∃ requests : List Q, requests.length ≤ n ∧ (t s).2 = after serve requests s ∧
    ∀ s', answers serve requests s = answers serve' requests s' →
      u s' = ((t s).1, after serve' requests s')

variable {serve : Q → Call σ A} {serve' : Q → Call τ A} {n k : Nat}

/-- Services that answer every request alike bring alike trials to the same end. -/
theorem Alike.result {t : Trial σ α} {u : Trial τ α} (h : Alike serve serve' n t u) {s : σ}
    {s' : τ} (hsame : ∀ requests, answers serve requests s = answers serve' requests s') :
    (t s).1 = (u s').1 := by
  obtain ⟨requests, -, -, hend⟩ := h s
  rw [hend s' (hsame requests)]

theorem Alike.mono {t : Trial σ α} {u : Trial τ α} (h : Alike serve serve' n t u) (hn : n ≤ k) :
    Alike serve serve' k t u := by
  intro s
  obtain ⟨requests, hlength, hafter, hend⟩ := h s
  exact ⟨requests, Nat.le_trans hlength hn, hafter, hend⟩

/-- Trials that ask nothing and end alike. -/
theorem alike_of_result (r : Except String α) :
    Alike serve serve' 0 (fun s => (r, s)) fun s => (r, s) :=
  fun _ => ⟨[], Nat.le_refl 0, rfl, fun _ _ => rfl⟩

theorem alike_done (a : α) :
    Alike serve serve' 0 (.done a : Trial σ α) (.done a) := alike_of_result (.ok a)

theorem alike_fail (detail : String) :
    Alike serve serve' 0 (.fail detail : Trial σ α) (.fail detail) :=
  alike_of_result (.error detail)

theorem alike_expect (condition : Bool) (detail : String) :
    Alike serve serve' 0 (expect condition detail : Trial σ Unit) (expect condition detail) := by
  unfold expect
  split
  · exact alike_done ()
  · exact alike_fail detail

/-- What is made of the outcome of one request alone. -/
theorem alike_of_outcome {q : Q} {wrap : β → A} (hwrap : Function.Injective wrap)
    {c : Call σ β} {c' : Call τ β} (hc : serve q = wrap <$> c) (hc' : serve' q = wrap <$> c')
    (judge : Except RegistryError β → Except String α) :
    Alike serve serve' 1 (fun s => (judge (c s).1, (c s).2))
      fun s => (judge (c' s).1, (c' s).2) := by
  intro s
  refine ⟨[q], Nat.le_refl 1, ?_, ?_⟩
  · show (c s).2 = (serve q s).2
    rw [hc, map_apply]
  · intro s' hanswers
    have hhead : (serve q s).1 = (serve' q s').1 := (List.cons.inj hanswers).1
    rw [hc, hc', map_apply, map_apply] at hhead
    -- the answer tells the outcome, since no two values are wrapped alike
    have houtcome : (c s).1 = (c' s').1 := by
      cases hs : (c s).1 with
      | error e =>
          cases hs' : (c' s').1 with
          | error e' => rw [hs, hs'] at hhead; exact congrArg _ (Except.error.inj hhead)
          | ok b' => rw [hs, hs'] at hhead; cases hhead
      | ok b =>
          cases hs' : (c' s').1 with
          | error e' => rw [hs, hs'] at hhead; cases hhead
          | ok b' => rw [hs, hs'] at hhead; exact congrArg _ (hwrap (Except.ok.inj hhead))
    show (judge (c' s').1, (c' s').2) = (judge (c s).1, (serve' q s').2)
    rw [houtcome, hc', map_apply]

section Requests

variable (serve serve') (q : Q) {wrap : β → A} {c : Call σ β} {c' : Call τ β}

theorem alike_call (hwrap : Function.Injective wrap) (hc : serve q = wrap <$> c)
    (hc' : serve' q = wrap <$> c') (operation : String) :
    Alike serve serve' 1 (call operation c) (call operation c') := by
  have h := alike_of_outcome hwrap hc hc' fun r => r.mapError (unexpected operation)
  have hcall : ∀ {ρ : Type} (d : Call ρ β),
      call operation d = fun s => ((d s).1.mapError (unexpected operation), (d s).2) := by
    intro ρ d
    funext s
    unfold call
    rcases d s with ⟨_ | _, _⟩ <;> rfl
  rw [hcall, hcall]
  exact h

theorem alike_attempt (hwrap : Function.Injective wrap) (hc : serve q = wrap <$> c)
    (hc' : serve' q = wrap <$> c') : Alike serve serve' 1 (attempt c) (attempt c') :=
  alike_of_outcome hwrap hc hc' .ok

end Requests

/-- What goes on alike after alike beginnings is alike. -/
theorem Alike.bind {t : Trial σ α} {u : Trial τ α} {f : α → Trial σ β} {g : α → Trial τ β}
    (h : Alike serve serve' n t u) (hnext : ∀ a, Alike serve serve' k (f a) (g a)) :
    Alike serve serve' (k + n) (t >>= f) (u >>= g) := by
  intro s
  obtain ⟨requests, hlength, hafter, hend⟩ := h s
  rcases ht : t s with ⟨detail | a, s₁⟩
  · rw [ht] at hafter hend
    refine ⟨requests, by omega, ?_, ?_⟩
    · rw [bind_of_error ht]
      exact hafter
    · intro s' hanswers
      rw [bind_of_error ht, bind_of_error (hend s' hanswers)]
  · rw [ht] at hafter hend
    -- the second part asks from where the first has left the service
    obtain ⟨more, hmore, hafter', hend'⟩ := hnext a s₁
    obtain rfl : s₁ = after serve requests s := hafter
    refine ⟨requests ++ more, by rw [List.length_append]; omega, ?_, ?_⟩
    · rw [bind_of_ok ht, after_append]
      exact hafter'
    · intro s' hanswers
      rw [answers_append, answers_append] at hanswers
      have hlengths : (answers serve requests s).length = (answers serve' requests s').length := by
        rw [length_answers, length_answers]
      obtain ⟨hbefore, hbehind⟩ := List.append_inj hanswers hlengths
      rw [bind_of_ok ht, bind_of_ok (hend s' hbefore), after_append]
      exact hend' _ hbehind

/-- Attempts of the calls that belong to given values. -/
theorem alike_attemptAll {ι : Type} (indices : List ι) {calls : ι → Call σ β}
    {calls' : ι → Call τ β}
    (h : ∀ i, Alike serve serve' 1 (attempt (calls i)) (attempt (calls' i))) :
    Alike serve serve' indices.length (attemptAll (indices.map calls))
      (attemptAll (indices.map calls')) := by
  induction indices with
  | nil => exact alike_done []
  | cons i rest ih =>
      refine (h i).bind fun r => ?_
      exact (ih.bind fun more => alike_done (r :: more)).mono (by omega)

/-- Attempts of one call over and over. -/
theorem alike_attemptAll_replicate (n : Nat) {c : Call σ β} {c' : Call τ β}
    (h : Alike serve serve' 1 (attempt c) (attempt c')) :
    Alike serve serve' n (attemptAll (List.replicate n c)) (attemptAll (List.replicate n c')) := by
  have hall := alike_attemptAll (List.replicate n ()) fun _ => h
  rwa [List.map_replicate, List.map_replicate, List.length_replicate] at hall

/-! ## Trials that succeed -/

/-- From the state, the trial comes to its end without a failure. -/
def Succeeds (t : Trial σ α) (s : σ) : Prop := (t s).1.isOk

theorem Succeeds.bind {t : Trial σ α} {next : α → Trial σ β} {s s' : σ} {a : α}
    (h : t s = (.ok a, s')) (hnext : Succeeds (next a) s') : Succeeds (t >>= next) s := by
  unfold Succeeds
  rw [bind_of_ok h]
  exact hnext

theorem Succeeds.expect {condition : Bool} (h : condition = true) (detail : String) (s : σ) :
    Succeeds (Trial.expect condition detail) s := by
  subst h
  rfl

/-- An expectation that is met changes nothing. -/
theorem Succeeds.expect_bind {condition : Bool} {detail : String} {next : Unit → Trial σ β}
    {s : σ} (h : condition = true) (hnext : Succeeds (next ()) s) :
    Succeeds (Trial.expect condition detail >>= next) s := by
  subst h
  exact hnext

end Trial

end Chronicle
