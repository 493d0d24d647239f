import Mathlib.Tactic.Common

/-!
# Deterministic transducers

A transducer reads a word letter by letter.  Each letter changes the state and shows a
word; the output is the concatenation of what is shown.

Main results:

- Theorem {lit}`output_append`: the output on a word goes on behind every part of it from
  the state reached there.
- Theorem {lit}`foldl_simulates`: a loop that appends what is shown computes the output.
- Theorems {lit}`output_comap` and {lit}`output_map`: letters may be left out in front of a
  transducer, and replaced by words behind it.
-/

/-- What a letter does in a state. -/
structure Transducer (σ α β : Type) where
  next : σ → α → σ
  emit : σ → α → List β

namespace Transducer

variable {σ α β γ : Type} (T : Transducer σ α β)

/-- The state behind a word. -/
def after (s : σ) (w : List α) : σ :=
  w.foldl T.next s

/-- The output on a word. -/
def output : σ → List α → List β
  | _, [] => []
  | s, a :: w => T.emit s a ++ output (T.next s a) w

@[simp]
theorem after_nil (s : σ) : T.after s [] = s :=
  rfl

@[simp]
theorem after_cons (s : σ) (a : α) (w : List α) : T.after s (a :: w) = T.after (T.next s a) w :=
  rfl

@[simp]
theorem output_nil (s : σ) : T.output s [] = [] :=
  rfl

@[simp]
theorem output_cons (s : σ) (a : α) (w : List α) :
    T.output s (a :: w) = T.emit s a ++ T.output (T.next s a) w :=
  rfl

/-- Behind a part of a word the output goes on from the state reached there. -/
theorem output_append (s : σ) (u w : List α) :
    T.output s (u ++ w) = T.output s u ++ T.output (T.after s u) w := by
  induction u generalizing s with
  | nil => rfl
  | cons a u ih =>
      rw [List.cons_append, output_cons, ih, output_cons, after_cons, List.append_assoc]

/-- A loop whose body appends what is shown computes the output. -/
theorem foldl_simulates {δ : Type} {step : δ → α → δ} (out : δ → List β) (state : δ → σ)
    (hout : ∀ d a, out (step d a) = out d ++ T.emit (state d) a)
    (hstate : ∀ d a, state (step d a) = T.next (state d) a) (d : δ) (w : List α) :
    out (w.foldl step d) = out d ++ T.output (state d) w := by
  induction w generalizing d with
  | nil => exact (List.append_nil (out d)).symm
  | cons a w ih =>
      calc
        out ((a :: w).foldl step d) = out (step d a) ++ T.output (state (step d a)) w :=
          ih (step d a)
        _ = out d ++ (T.emit (state d) a ++ T.output (T.next (state d) a) w) := by
          rw [hout, hstate, List.append_assoc]

/-! ## Letters left out and letters replaced -/

/-- Read only the letters that {lit}`f` translates. -/
def comap (f : γ → Option α) : Transducer σ γ β where
  next s c := match f c with
    | some a => T.next s a
    | none => s
  emit s c := match f c with
    | some a => T.emit s a
    | none => []

/-- Replace each letter of the output by a word. -/
def map (g : β → List γ) : Transducer σ α γ where
  next := T.next
  emit s a := (T.emit s a).flatMap g

section Comap

variable {T} {f : γ → Option α} {c : γ}

theorem next_comap_of_some {a : α} (hread : f c = some a) (s : σ) :
    (T.comap f).next s c = T.next s a := by
  simp only [comap, hread]

theorem emit_comap_of_some {a : α} (hread : f c = some a) (s : σ) :
    (T.comap f).emit s c = T.emit s a := by
  simp only [comap, hread]

theorem next_comap_of_none (hskip : f c = none) (s : σ) :
    (T.comap f).next s c = s := by
  simp only [comap, hskip]

theorem emit_comap_of_none (hskip : f c = none) (s : σ) :
    (T.comap f).emit s c = [] := by
  simp only [comap, hskip]

end Comap

/-- Leaving letters out of the word is leaving them to the transducer. -/
theorem output_comap (f : γ → Option α) (s : σ) (w : List γ) :
    (T.comap f).output s w = T.output s (w.filterMap f) := by
  induction w generalizing s with
  | nil => rfl
  | cons c w ih =>
      cases hc : f c with
      | none =>
          rw [output_cons, emit_comap_of_none hc, next_comap_of_none hc, List.nil_append, ih,
            List.filterMap_cons_none hc]
      | some a =>
          rw [output_cons, emit_comap_of_some hc, next_comap_of_some hc, ih,
            List.filterMap_cons_some hc, output_cons]

@[simp]
theorem next_map (g : β → List γ) (s : σ) (a : α) : (T.map g).next s a = T.next s a :=
  rfl

@[simp]
theorem emit_map (g : β → List γ) (s : σ) (a : α) :
    (T.map g).emit s a = (T.emit s a).flatMap g :=
  rfl

/-- The output of every step is replaced. -/
theorem output_map (g : β → List γ) (s : σ) (w : List α) :
    (T.map g).output s w = (T.output s w).flatMap g := by
  induction w generalizing s with
  | nil => rfl
  | cons a w ih =>
      rw [output_cons, output_cons, List.flatMap_append, emit_map, next_map, ih]

end Transducer
