import Mathlib.Tactic.Common

/-!
# Decoders over a checked view

A decoder advances a caller-owned view of a sequence and either returns a value
or fails; the view is left as it was at the point of failure.  Every access is
checked: reading past the end of the view, keeping more elements than there are
or subtracting sizes below zero is the fault {lit}`outOfRange`, so that "no element
outside the view is touched" means that this fault is never raised.

Main results:

- Theorem {lit}`Reads.bind`: reading one string and then another is reading their
  concatenation.
- Theorem {lit}`Reads.unique`: a view can be cut in at most one way into a string
  a decoder reads and a rest.
- Theorems {lit}`AllOrNothing.of_ok` and {lit}`allOrNothing_iff_of_error`: when a decoder
  takes a whole value or nothing.
-/

/-- Failure types with a distinguished "access outside the view". -/
class OutOfRange (ε : Type) where
  outOfRange : ε

/-- Computations that own a view of {lit}`β` elements and may fail with {lit}`ε`. -/
abbrev View (ε β α : Type) := EStateM ε (List β) α

namespace View

variable {ε β α γ : Type}

/-! ## Checked primitives -/

section Primitives

variable [OutOfRange ε]

/-- The first element of the view. -/
def front : View ε β β := fun view =>
  match view with
  | [] => .error OutOfRange.outOfRange view
  | b :: _ => .ok b view

/-- Shrink the view to its last {lit}`n` elements. -/
def last (n : Nat) : View ε β Unit := fun view =>
  if n ≤ view.length then .ok () (view.drop (view.length - n))
  else .error OutOfRange.outOfRange view

/-- The {lit}`count` elements of the view from position {lit}`offset` on. -/
def subspan (offset count : Nat) : View ε β (List β) := fun view =>
  if offset + count ≤ view.length then .ok ((view.drop offset).take count) view
  else .error OutOfRange.outOfRange view

/-- The element at position {lit}`i`. -/
def index (i : Nat) : View ε β β := fun view =>
  match view[i]? with
  | some b => .ok b view
  | none => .error OutOfRange.outOfRange view

/-- At most {lit}`count` elements of the view from position {lit}`pos` on, which must not lie
behind its end. -/
def substr (pos count : Nat) : View ε β (List β) := fun view =>
  if pos ≤ view.length then .ok ((view.drop pos).take count) view
  else .error OutOfRange.outOfRange view

/-- Shrink the view to what follows its first {lit}`n` elements. -/
def removePrefix (n : Nat) : View ε β Unit := fun view =>
  if n ≤ view.length then .ok () (view.drop n)
  else .error OutOfRange.outOfRange view

/-- Subtraction of unsigned sizes; a result below zero is a fault. -/
def sizeSub (a b : Nat) : View ε β Nat := fun view =>
  if b ≤ a then .ok (a - b) view else .error OutOfRange.outOfRange view

@[simp]
theorem run_front_cons (b : β) (rest : List β) :
    (front : View ε β β).run (b :: rest) = .ok b (b :: rest) :=
  rfl

theorem run_last {n : Nat} {view : List β} (hle : n ≤ view.length) :
    (last n : View ε β Unit).run view = .ok () (view.drop (view.length - n)) := by
  simp [EStateM.run, last, hle]

/-- Keeping all but a leading string leaves what follows it. -/
@[simp]
theorem run_last_append (dropped rest : List β) :
    (last rest.length : View ε β Unit).run (dropped ++ rest) = .ok () rest := by
  rw [run_last (by simp)]
  simp

theorem run_subspan {offset count : Nat} {view : List β}
    (hle : offset + count ≤ view.length) :
    (subspan offset count : View ε β (List β)).run view =
      .ok ((view.drop offset).take count) view := by
  simp [EStateM.run, subspan, hle]

theorem run_index {i : Nat} {view : List β} {b : β} (hget : view[i]? = some b) :
    (index i : View ε β β).run view = .ok b view := by
  simp [EStateM.run, index, hget]

theorem run_substr {pos count : Nat} {view : List β} (hle : pos ≤ view.length) :
    (substr pos count : View ε β (List β)).run view = .ok ((view.drop pos).take count) view := by
  simp [EStateM.run, substr, hle]

theorem run_removePrefix {n : Nat} {view : List β} (hle : n ≤ view.length) :
    (removePrefix n : View ε β Unit).run view = .ok () (view.drop n) := by
  simp [EStateM.run, removePrefix, hle]

theorem run_sizeSub {a b : Nat} (hle : b ≤ a) (view : List β) :
    (sizeSub a b : View ε β Nat).run view = .ok (a - b) view := by
  simp [EStateM.run, sizeSub, hle]

end Primitives

/-- Failing leaves the view as it is. -/
@[simp]
theorem run_throw (e : ε) (view : List β) :
    (throw e : View ε β α).run view = .error e view :=
  rfl

/-! ## Decoders that read a definite string -/

/-- {lit}`Reads d e a`: on any view that starts with {lit}`e`, the decoder reads
exactly {lit}`e` and returns {lit}`a`, whatever follows. -/
def Reads (d : View ε β α) (e : List β) (a : α) : Prop :=
  ∀ rest, d.run (e ++ rest) = .ok a rest

/-- Sequencing two decoders reads the concatenation of their strings. -/
theorem Reads.bind {d : View ε β α} {f : α → View ε β γ} {e e' : List β} {a : α} {c : γ}
    (hfirst : Reads d e a) (hsecond : Reads (f a) e' c) :
    Reads (d >>= f) (e ++ e') c := by
  intro rest
  rw [List.append_assoc, EStateM.run_bind, hfirst]
  exact hsecond rest

/-- On one view a decoder reads at most one string and returns at most one value. -/
theorem Reads.unique {d : View ε β α} {e e' r r' : List β} {a a' : α}
    (hreads : Reads d e a) (hreads' : Reads d e' a') (heq : e ++ r = e' ++ r') :
    e = e' ∧ a = a' ∧ r = r' := by
  have hresult : (EStateM.Result.ok a r : EStateM.Result ε (List β) α) = .ok a' r' := by
    rw [← hreads r, heq, hreads' r']
  cases hresult
  exact ⟨List.append_cancel_right heq, rfl, rfl⟩

/-! ## Decoders that take all or nothing -/

/-- {lit}`AllOrNothing d E view`: on this view the decoder fails without touching it, or takes
exactly a string that encodes, in the sense of {lit}`E`, the value it returns. -/
structure AllOrNothing (d : View ε β α) (E : α → List β → Prop) (view : List β) : Prop where
  throws : ∀ e rest, d.run view = .error e rest → rest = view
  returns : ∀ a rest, d.run view = .ok a rest → ∃ s, E a s ∧ view = s ++ rest

/-- A decoder that returns has taken the string. -/
theorem AllOrNothing.of_ok {d : View ε β α} {E : α → List β → Prop} {s rest : List β} {a : α}
    (hrun : d.run (s ++ rest) = .ok a rest) (hencodes : E a s) :
    AllOrNothing d E (s ++ rest) := by
  constructor
  · intro e rest' herror
    rw [hrun] at herror
    cases herror
  · intro a' rest' hok
    rw [hrun] at hok
    cases hok
    exact ⟨s, hencodes, rfl⟩

/-- A decoder that fails must have left the view. -/
theorem allOrNothing_iff_of_error {d : View ε β α} {E : α → List β → Prop} {view rest : List β}
    {e : ε} (hrun : d.run view = .error e rest) : AllOrNothing d E view ↔ rest = view := by
  constructor
  · intro hall
    exact hall.throws e rest hrun
  · rintro rfl
    constructor
    · intro e' rest' herror
      rw [hrun] at herror
      cases herror
      rfl
    · intro a rest' hok
      rw [hrun] at hok
      cases hok

end View
