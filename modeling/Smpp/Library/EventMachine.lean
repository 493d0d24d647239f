import Mathlib.Tactic.Common

/-!
# Event-driven machines

A machine whose only nondeterminism is the next event: one partial step function
maps a state and an event to the next state and to the observations the step
makes.  Runs are finite sequences of steps; a step relation restricts the runs
one wants to speak about, so that "every run whose steps all satisfy {lit}`R`" is
a single inductive predicate.

Main results:

- Theorem {lit}`Steps.invariant`: a property of histories and states that holds
  initially and is kept by every allowed step holds at the end of every run.
- Theorems {lit}`steps_of_exec` and {lit}`steps_of_execIf`: the executable run functions produce
  runs.
-/

/-- A machine driven by events {lit}`ε` over states {lit}`σ` that shows the
observations {lit}`ω`. -/
structure EventMachine (σ ε ω : Type) where
  init : σ
  step : σ → ε → Option (σ × List ω)

namespace EventMachine

variable {σ ε ω : Type} {M : EventMachine σ ε ω} {R R' : σ → ε → σ → Prop}
variable {s s' s'' : σ} {es es' : List ε} {os os' : List ω}

/-- The step relation that forbids nothing. -/
def anyStep (_ : σ) (_ : ε) (_ : σ) : Prop := True

/-- {lit}`M.Steps R s es os s'`: the events {lit}`es` lead from {lit}`s` to {lit}`s'`
through steps that all satisfy {lit}`R`, showing the observations {lit}`os`. -/
inductive Steps (M : EventMachine σ ε ω) (R : σ → ε → σ → Prop) (s : σ) :
    List ε → List ω → σ → Prop
  | refl : Steps M R s [] [] s
  | snoc {es : List ε} {os : List ω} {s₁ s₂ : σ} {e : ε} {o : List ω}
      (before : Steps M R s es os s₁) (hstep : M.step s₁ e = some (s₂, o))
      (hR : R s₁ e s₂) : Steps M R s (es ++ [e]) (os ++ o) s₂

/-- Runs start in the initial state. -/
def Run (M : EventMachine σ ε ω) (R : σ → ε → σ → Prop) : List ε → List ω → σ → Prop :=
  M.Steps R M.init

/-- A single allowed step is a run segment. -/
theorem Steps.single {e : ε} {o : List ω} (hstep : M.step s e = some (s', o))
    (hR : R s e s') : M.Steps R s [e] o s' := by
  simpa using Steps.snoc Steps.refl hstep hR

/-- Run segments compose. -/
theorem Steps.trans (hfirst : M.Steps R s es os s') (hsecond : M.Steps R s' es' os' s'') :
    M.Steps R s (es ++ es') (os ++ os') s'' := by
  induction hsecond with
  | refl => simpa using hfirst
  | snoc _ hstep hR ih =>
      rw [← List.append_assoc, ← List.append_assoc]
      exact Steps.snoc ih hstep hR

/-- Weakening the step relation keeps a run segment. -/
theorem Steps.mono (hsteps : M.Steps R s es os s')
    (himp : ∀ a e b, R a e b → R' a e b) : M.Steps R' s es os s' := by
  induction hsteps with
  | refl => exact Steps.refl
  | snoc _ hstep hR ih => exact Steps.snoc ih hstep (himp _ _ _ hR)

/-- Every run segment is a segment of unrestricted steps. -/
theorem Steps.anyStep (hsteps : M.Steps R s es os s') :
    M.Steps EventMachine.anyStep s es os s' :=
  hsteps.mono fun _ _ _ _ => trivial

/-- Steps whose events are allowed in every state are allowed. -/
theorem Steps.restrict (hsteps : M.Steps R s es os s')
    (hallowed : ∀ e ∈ es, ∀ a b, R' a e b) : M.Steps R' s es os s' := by
  induction hsteps with
  | refl => exact Steps.refl
  | snoc _ hstep _ ih =>
      exact Steps.snoc (ih fun e hmem => hallowed e (by simp [hmem])) hstep
        (hallowed _ (by simp) _ _)

/-- Steps whose events are allowed in every state satisfy both relations. -/
theorem Steps.and (hsteps : M.Steps R s es os s') (hallowed : ∀ e ∈ es, ∀ a b, R' a e b) :
    M.Steps (fun a e b => R a e b ∧ R' a e b) s es os s' := by
  induction hsteps with
  | refl => exact Steps.refl
  | snoc _ hstep hR ih =>
      exact Steps.snoc (ih fun e hmem => hallowed e (by simp [hmem])) hstep
        ⟨hR, hallowed _ (by simp) _ _⟩

/-- Invariant rule: a property of the history and the state that holds at the
start and is kept by every allowed step holds at the end of every segment. -/
theorem Steps.invariant (I : List ε → List ω → σ → Prop) (hinit : I [] [] s)
    (hkeep : ∀ es os a e b o, I es os a → M.step a e = some (b, o) → R a e b →
      I (es ++ [e]) (os ++ o) b)
    (hsteps : M.Steps R s es os s') : I es os s' := by
  induction hsteps with
  | refl => exact hinit
  | snoc _ hstep hR ih => exact hkeep _ _ _ _ _ _ ih hstep hR

/-! ## Executing a list of events -/

/-- Run the events one after the other, failing at the first one that is not
enabled. -/
def exec (M : EventMachine σ ε ω) (s : σ) : List ε → Option (σ × List ω)
  | [] => some (s, [])
  | e :: es =>
      match M.step s e with
      | none => none
      | some (s', o) =>
          match M.exec s' es with
          | none => none
          | some (s'', os) => some (s'', o ++ os)

/-- A successful execution is a run segment. -/
theorem steps_of_exec (es : List ε) (hexec : M.exec s es = some (s', os)) :
    M.Steps anyStep s es os s' := by
  induction es generalizing s os with
  | nil =>
      simp only [exec, Option.some.injEq, Prod.mk.injEq] at hexec
      rcases hexec with ⟨rfl, rfl⟩
      exact Steps.refl
  | cons e es ih =>
      simp only [exec] at hexec
      split at hexec
      · contradiction
      · rename_i s₁ o hstep
        split at hexec
        · contradiction
        · rename_i s₂ os₂ hrest
          simp only [Option.some.injEq, Prod.mk.injEq] at hexec
          rcases hexec with ⟨rfl, rfl⟩
          exact (Steps.single hstep trivial).trans (ih hrest)

/-- Run the events one after the other, failing at the first step that does not pass the check. -/
def execIf (M : EventMachine σ ε ω) (check : σ → ε → σ → Bool) (s : σ) :
    List ε → Option (σ × List ω)
  | [] => some (s, [])
  | e :: es =>
      match M.step s e with
      | none => none
      | some (s', o) =>
          if check s e s' then
            match M.execIf check s' es with
            | none => none
            | some (s'', os) => some (s'', o ++ os)
          else none

/-- A successful checked execution is a run segment of steps that pass the check. -/
theorem steps_of_execIf (check : σ → ε → σ → Bool) (hcheck : ∀ a e b, check a e b = true → R a e b)
    (es : List ε) (hexec : M.execIf check s es = some (s', os)) : M.Steps R s es os s' := by
  induction es generalizing s os with
  | nil =>
      simp only [execIf, Option.some.injEq, Prod.mk.injEq] at hexec
      rcases hexec with ⟨rfl, rfl⟩
      exact Steps.refl
  | cons e es ih =>
      simp only [execIf] at hexec
      split at hexec
      · contradiction
      · rename_i s₁ o hstep
        split at hexec
        · rename_i hpasses
          split at hexec
          · contradiction
          · rename_i s₂ os₂ hrest
            simp only [Option.some.injEq, Prod.mk.injEq] at hexec
            rcases hexec with ⟨rfl, rfl⟩
            exact (Steps.single hstep (hcheck _ _ _ hpasses)).trans (ih hrest)
        · contradiction

end EventMachine
