import Mathlib.Tactic.Common

/-!
# First in, first out

A queue of elements that are appended at its end and removed from its front.

Main results:

- Theorem {lit}`append_contents`: what was appended is what was removed followed by what is
  still there, in this order.
-/

/-- What is done to a queue. -/
inductive QueueOp (α : Type) where
  | append (xs : List α)
  | drop (n : Nat)
deriving DecidableEq, Repr

namespace Fifo

variable {α : Type}

/-- Perform one operation. -/
def apply (queue : List α) : QueueOp α → List α
  | .append xs => queue ++ xs
  | .drop n => queue.drop n

/-- The queue behind a sequence of operations. -/
def contents (queue : List α) (ops : List (QueueOp α)) : List α :=
  ops.foldl apply queue

/-- The elements an operation appends. -/
def appendedBy : QueueOp α → List α
  | .append xs => xs
  | .drop _ => []

/-- All elements appended, in order. -/
def appended (ops : List (QueueOp α)) : List α :=
  ops.flatMap appendedBy

/-- The elements an operation removes. -/
def removedBy (queue : List α) : QueueOp α → List α
  | .append _ => []
  | .drop n => queue.take n

/-- All elements removed, in order. -/
def removed (queue : List α) : List (QueueOp α) → List α
  | [] => []
  | op :: ops => removedBy queue op ++ removed (apply queue op) ops

/-- One operation loses and duplicates nothing. -/
theorem append_apply (queue : List α) (op : QueueOp α) :
    queue ++ appendedBy op = removedBy queue op ++ apply queue op := by
  cases op with
  | append xs => rfl
  | drop n => simp [appendedBy, removedBy, apply]

/-- No sequence of operations loses, duplicates or reorders anything. -/
theorem append_contents (queue : List α) (ops : List (QueueOp α)) :
    queue ++ appended ops = removed queue ops ++ contents queue ops := by
  induction ops generalizing queue with
  | nil => simp [appended, removed, contents]
  | cons op ops ih =>
      calc
        queue ++ appended (op :: ops)
            = (queue ++ appendedBy op) ++ appended ops := by simp [appended]
        _ = removedBy queue op ++ (apply queue op ++ appended ops) := by
            rw [append_apply, List.append_assoc]
        _ = removed queue (op :: ops) ++ contents queue (op :: ops) := by
            rw [ih, ← List.append_assoc]
            rfl

end Fifo
