import Mathlib.Data.List.Basic
import Mathlib.Tactic.Common

/-!
# Flat memory

An address space with a value at every address.  Reading and storing are about intervals
of addresses, and a change is described by the interval it stays in.

Main results:

- Theorem {lit}`read_congr`: what is read depends on the addresses read only.
- Theorem {lit}`agreeOutside_store`: a store changes nothing outside its interval.
- Theorem {lit}`AgreeOutside.read_eq`: what lies apart from a change is read as before.
- Theorem {lit}`read_store`: an interval that holds a store is read with the stored values in
  their place.
-/

/-- A value at every address. -/
abbrev Memory (β : Type) := Nat → β

namespace Memory

variable {β : Type} {mem mem' : Memory β} {start count addr n : Nat} {xs : List β}

/-- The values at {lit}`[start, start + count)`. -/
def read (mem : Memory β) (start count : Nat) : List β :=
  (List.range count).map fun i => mem (start + i)

/-- Store values from {lit}`start` on. -/
def store (mem : Memory β) (start : Nat) (xs : List β) : Memory β := fun a =>
  if start ≤ a then (xs[a - start]?).getD (mem a) else mem a

/-- {lit}`memmove`: what is read first is stored. -/
def move (mem : Memory β) (dst src count : Nat) : Memory β :=
  mem.store dst (mem.read src count)

/-- Nothing changes outside {lit}`[start, start + count)`. -/
def AgreeOutside (start count : Nat) (mem mem' : Memory β) : Prop :=
  ∀ a, a < start ∨ start + count ≤ a → mem' a = mem a

@[simp]
theorem length_read (mem : Memory β) (start count : Nat) :
    (mem.read start count).length = count := by
  simp [read]

theorem getElem?_read (mem : Memory β) (start : Nat) {i : Nat} (hlt : i < count) :
    (mem.read start count)[i]? = some (mem (start + i)) := by
  simp [read, hlt]

/-- An interval is read in two parts. -/
theorem read_add (mem : Memory β) (start m n : Nat) :
    mem.read start (m + n) = mem.read start m ++ mem.read (start + m) n := by
  simp [read, List.range_add, Nat.add_assoc]

theorem take_read (mem : Memory β) (start : Nat) (hle : n ≤ count) :
    (mem.read start count).take n = mem.read start n := by
  rcases Nat.le.dest hle with ⟨rest, rfl⟩
  rw [read_add, List.take_left' (length_read _ _ _)]

theorem drop_read (mem : Memory β) (start : Nat) (hle : n ≤ count) :
    (mem.read start count).drop n = mem.read (start + n) (count - n) := by
  rcases Nat.le.dest hle with ⟨rest, rfl⟩
  rw [read_add, List.drop_left' (length_read _ _ _), Nat.add_sub_cancel_left]

/-- An interval that is read as before holds what it held in every part. -/
theorem read_of_read (hsame : mem'.read start count = mem.read start count) (hstart : start ≤ addr)
    (hend : addr + n ≤ start + count) : mem'.read addr n = mem.read addr n := by
  rcases Nat.le.dest hstart with ⟨k, rfl⟩
  have hpart : ∀ mem : Memory β,
      mem.read (start + k) n = ((mem.read start count).drop k).take n := by
    intro mem
    rw [drop_read _ _ (by omega), take_read _ _ (by omega)]
  rw [hpart, hpart, hsame]

/-- What is read depends on the addresses read only. -/
theorem read_congr (hsame : ∀ a, start ≤ a → a < start + count → mem' a = mem a) :
    mem'.read start count = mem.read start count := by
  apply List.map_congr_left
  intro i hmem
  have hlt := List.mem_range.mp hmem
  exact hsame (start + i) (by omega) (by omega)

theorem agreeOutside_refl (start count : Nat) (mem : Memory β) : AgreeOutside start count mem mem :=
  fun _ _ => rfl

/-- A store changes nothing outside its interval. -/
theorem agreeOutside_store (mem : Memory β) (hstart : start ≤ addr)
    (hend : addr + xs.length ≤ start + count) :
    AgreeOutside start count mem (mem.store addr xs) := by
  intro a houtside
  rw [store]
  split
  · rename_i hle
    rw [List.getElem?_eq_none (by omega), Option.getD_none]
  · rfl

/-- What lies apart from a change is read as before. -/
theorem AgreeOutside.read_eq (hagree : AgreeOutside start count mem mem')
    (hapart : addr + n ≤ start ∨ start + count ≤ addr) : mem'.read addr n = mem.read addr n := by
  apply read_congr
  intro a hle hlt
  exact hagree a (by omega)

/-- What was stored is read. -/
theorem read_store_self (mem : Memory β) (start : Nat) (xs : List β) :
    (mem.store start xs).read start xs.length = xs := by
  apply List.ext_getElem?
  intro i
  by_cases hlt : i < xs.length
  · rw [getElem?_read _ _ hlt, store, if_pos (by omega), Nat.add_sub_cancel_left,
      List.getElem?_eq_getElem hlt, Option.getD_some]
  · rw [List.getElem?_eq_none (by rw [length_read]; omega), List.getElem?_eq_none (by omega)]

/-- An interval that holds a store is read with the stored values in their place. -/
theorem read_store (mem : Memory β) (start : Nat) (hend : n + xs.length ≤ count) :
    (mem.store (start + n) xs).read start count =
      (mem.read start count).take n ++ xs ++ (mem.read start count).drop (n + xs.length) := by
  rcases Nat.le.dest hend with ⟨rest, rfl⟩
  have hagree : AgreeOutside (start + n) xs.length mem (mem.store (start + n) xs) :=
    agreeOutside_store mem (Nat.le_refl _) (Nat.le_refl _)
  have hfront : (mem.store (start + n) xs).read start n = mem.read start n :=
    hagree.read_eq (Or.inl (Nat.le_refl _))
  have hback : (mem.store (start + n) xs).read (start + (n + xs.length)) rest =
      mem.read (start + (n + xs.length)) rest :=
    hagree.read_eq (Or.inr (by omega))
  rw [take_read _ _ (by omega), drop_read _ _ (by omega), Nat.add_sub_cancel_left, read_add,
    read_add, hfront, hback, read_store_self]

end Memory
