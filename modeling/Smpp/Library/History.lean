import Smpp.Library.EventMachine

/-!
# Runs with their history

A run as the list of its turns: for each step the states around it, its event and what it
showed.  Properties of the past are properties of that list; {lit}`Since` is the one from
which the others are built.

Main results:

- Theorem {lit}`Steps.exists_traced`: every run segment has a history.
- Theorem {lit}`Traced.steps`: forgetting the states leaves the run segment.
- Theorem {lit}`since_concat`: how {lit}`Since` goes on with one more turn.
-/

/-- One step of a machine. -/
structure Turn (σ ε ω : Type) where
  before : σ
  event : ε
  obs : List ω
  after : σ

namespace EventMachine

variable {σ ε ω : Type} {M : EventMachine σ ε ω} {R : σ → ε → σ → Prop}
variable {s s' : σ} {es : List ε} {os : List ω} {τ : List (Turn σ ε ω)}

/-- {lit}`M.Traced R s τ s'`: the turns {lit}`τ` lead from {lit}`s` to {lit}`s'` through steps that
all satisfy {lit}`R`. -/
inductive Traced (M : EventMachine σ ε ω) (R : σ → ε → σ → Prop) (s : σ) :
    List (Turn σ ε ω) → σ → Prop
  | refl : Traced M R s [] s
  | snoc {τ : List (Turn σ ε ω)} {s₁ s₂ : σ} {e : ε} {o : List ω}
      (before : Traced M R s τ s₁) (hstep : M.step s₁ e = some (s₂, o)) (hR : R s₁ e s₂) :
      Traced M R s (τ ++ [⟨s₁, e, o, s₂⟩]) s₂

/-- What the turns showed, in order. -/
def shown (τ : List (Turn σ ε ω)) : List ω :=
  τ.flatMap Turn.obs

@[simp]
theorem shown_nil : shown ([] : List (Turn σ ε ω)) = [] :=
  rfl

@[simp]
theorem shown_append (τ τ' : List (Turn σ ε ω)) : shown (τ ++ τ') = shown τ ++ shown τ' :=
  List.flatMap_append

@[simp]
theorem shown_singleton (t : Turn σ ε ω) : shown [t] = t.obs := by
  simp [shown]

/-- Every run segment has a history. -/
theorem Steps.exists_traced (hsteps : M.Steps R s es os s') :
    ∃ τ, M.Traced R s τ s' ∧ τ.map Turn.event = es ∧ shown τ = os := by
  induction hsteps with
  | refl => exact ⟨[], .refl, rfl, rfl⟩
  | @snoc es os s₁ s₂ e o before hstep hR ih =>
      rcases ih with ⟨τ, htraced, rfl, rfl⟩
      exact ⟨_, htraced.snoc hstep hR, by simp, by simp⟩

/-- Forgetting the states leaves the run segment. -/
theorem Traced.steps (htraced : M.Traced R s τ s') :
    M.Steps R s (τ.map Turn.event) (shown τ) s' := by
  induction htraced with
  | refl => exact .refl
  | snoc before hstep hR ih => simpa using ih.snoc hstep hR

/-- Every turn of a history is a step from where the turns in front of it lead. -/
theorem Traced.turn {past later : List (Turn σ ε ω)} {t : Turn σ ε ω}
    (htraced : M.Traced R s (past ++ t :: later) s') :
    M.Traced R s past t.before ∧ M.step t.before t.event = some (t.after, t.obs) ∧
      R t.before t.event t.after := by
  generalize hτ : past ++ t :: later = τ at htraced
  induction htraced generalizing later with
  | refl => simp at hτ
  | @snoc τ s₁ s₂ e o before hstep hR ih =>
      rcases List.eq_nil_or_concat later with rfl | ⟨later', v, rfl⟩
      · rcases List.append_inj' hτ rfl with ⟨rfl, hlast⟩
        rw [List.singleton_inj] at hlast
        subst hlast
        exact ⟨before, hstep, hR⟩
      · rw [List.concat_eq_append, ← List.cons_append, ← List.append_assoc] at hτ
        exact ih (List.append_inj' hτ rfl).1

/-! ## The past -/

/-- A turn with {lit}`Q`, judged with the turns in front of it, and only turns with {lit}`P`
behind it. -/
def Since (P : Turn σ ε ω → Prop) (Q : List (Turn σ ε ω) → Turn σ ε ω → Prop)
    (τ : List (Turn σ ε ω)) : Prop :=
  ∃ past t later, τ = past ++ t :: later ∧ Q past t ∧ ∀ u ∈ later, P u

variable {P : Turn σ ε ω → Prop} {Q : List (Turn σ ε ω) → Turn σ ε ω → Prop}
variable {t : Turn σ ε ω}

/-- {lit}`Since` starts at a turn with {lit}`Q` and goes on over turns with {lit}`P`. -/
theorem since_concat : Since P Q (τ ++ [t]) ↔ Q τ t ∨ Since P Q τ ∧ P t := by
  constructor
  · rintro ⟨past, u, later, heq, hQ, hP⟩
    rcases List.eq_nil_or_concat later with rfl | ⟨later', v, rfl⟩
    · rcases List.append_inj' heq rfl with ⟨rfl, hlast⟩
      rw [List.singleton_inj] at hlast
      exact Or.inl (hlast ▸ hQ)
    · rw [List.concat_eq_append, ← List.cons_append, ← List.append_assoc] at heq
      rcases List.append_inj' heq rfl with ⟨rfl, hlast⟩
      rw [List.singleton_inj] at hlast
      refine Or.inr ⟨⟨past, u, later', rfl, hQ, fun w hw => hP w ?_⟩, hP t ?_⟩
      · simp [hw]
      · simp [hlast]
  · rintro (hQ | ⟨⟨past, u, later, rfl, hQ, hP⟩, ht⟩)
    · exact ⟨τ, t, [], rfl, hQ, by simp⟩
    · refine ⟨past, u, later ++ [t], by simp, hQ, fun w hw => ?_⟩
      rcases List.mem_append.mp hw with hw | hw
      · exact hP w hw
      · exact List.mem_singleton.mp hw ▸ ht

end EventMachine
