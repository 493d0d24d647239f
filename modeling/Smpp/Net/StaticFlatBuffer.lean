import Smpp.Common.Octets
import Mathlib.Data.List.Basic
import Mathlib.Tactic.Common

/-!
# The receive buffer

{lit}`detail::static_flat_buffer<T, N>`: a fixed array with a readable window
{lit}`[in_, out_)` and a writable region {lit}`[out_, last_)`.  The pointers are offsets
into the array, and the type carries their order.

Main results:

- Theorem {lit}`StaticFlatBuffer.readable_prepare`: making room never changes the
  readable elements.
- Theorem {lit}`StaticFlatBuffer.readable_commit_fill`: committing what was stored in
  the region appends it.
- Theorem {lit}`StaticFlatBuffer.readable_consume`: consuming drops from the front.
-/

namespace Smpp

/-- {lit}`detail::static_flat_buffer<T, N>`. -/
structure StaticFlatBuffer (T : Type) (N : Nat) where
  buf : List T
  in_ : Nat
  out_ : Nat
  last_ : Nat
  length_buf : buf.length = N
  in_le : in_ ≤ out_
  out_le : out_ ≤ last_
  last_le : last_ ≤ N

namespace StaticFlatBuffer

variable {T : Type} {N : Nat}

/-! ## Observers -/

/-- {lit}`static_flat_buffer()` with value-initialized storage. -/
def new (T : Type) [Inhabited T] (N : Nat) : StaticFlatBuffer T N where
  buf := List.replicate N default
  in_ := 0
  out_ := 0
  last_ := 0
  length_buf := List.length_replicate
  in_le := Nat.le_refl 0
  out_le := Nat.le_refl 0
  last_le := Nat.zero_le N

/-- {lit}`capacity()`. -/
def capacity (_ : StaticFlatBuffer T N) : Nat := N

/-- {lit}`size()`. -/
def size (b : StaticFlatBuffer T N) : Nat := b.out_ - b.in_

/-- The elements from {lit}`begin()` to {lit}`end()`. -/
def readable (b : StaticFlatBuffer T N) : List T := (b.buf.drop b.in_).take b.size

/-- The size of the region the last {lit}`prepare` returned, less what was committed. -/
def room (b : StaticFlatBuffer T N) : Nat := b.last_ - b.out_

@[simp]
theorem readable_new [Inhabited T] : (new T N).readable = [] := by
  simp [readable, new, size]

@[simp]
theorem length_readable (b : StaticFlatBuffer T N) : b.readable.length = b.size := by
  have hlength := b.length_buf
  have hin := b.in_le
  have hout := b.out_le
  have hlast := b.last_le
  rw [readable, List.length_take, List.length_drop, size]
  omega

theorem size_le (b : StaticFlatBuffer T N) : b.size ≤ N := by
  have hout := b.out_le
  have hlast := b.last_le
  rw [size]
  omega

/-! ## Mutators -/

/-- {lit}`prepare(n)`: room behind the readable elements, which move to the front of
the array when the end is too close. -/
def prepare (b : StaticFlatBuffer T N) (n : Nat) : Except Fault (StaticFlatBuffer T N) :=
  if hfits : n ≤ N - b.out_ then
    .ok
      { b with
        last_ := b.out_ + n
        out_le := by omega
        last_le := by
          have hout := b.out_le
          have hlast := b.last_le
          omega }
  else if hroom : n > b.capacity - b.size then
    .error (.lengthError "static_flat_buffer::prepare buffer overflow")
  else
    .ok
      { buf := b.readable ++ b.buf.drop b.size
        in_ := 0
        out_ := b.size
        last_ := b.size + n
        length_buf := by
          have hsize := b.size_le
          rw [List.length_append, length_readable, List.length_drop, b.length_buf]
          omega
        in_le := by omega
        out_le := by omega
        last_le := by
          have hsize := b.size_le
          simp only [capacity] at hroom
          omega }

/-- What the transport does with the region: the elements {lit}`xs` are stored at its
start. -/
def fill (b : StaticFlatBuffer T N) (xs : List T) : StaticFlatBuffer T N :=
  { b with
    buf := b.buf.take b.out_ ++ xs.take b.room ++ b.buf.drop (b.out_ + (xs.take b.room).length)
    length_buf := by
      have hlength := b.length_buf
      have hout := b.out_le
      have hlast := b.last_le
      simp only [List.length_append, List.length_take, List.length_drop, room]
      omega }

/-- {lit}`commit(n)`. -/
def commit (b : StaticFlatBuffer T N) (n : Nat) : StaticFlatBuffer T N :=
  { b with
    out_ := b.out_ + min n (b.last_ - b.out_)
    in_le := by
      have hin := b.in_le
      omega
    out_le := by
      have hout := b.out_le
      omega }

/-- {lit}`consume(n)`. -/
def consume (b : StaticFlatBuffer T N) (n : Nat) : StaticFlatBuffer T N :=
  if hall : n ≥ b.size then
    { b with
      in_ := 0
      out_ := 0
      in_le := Nat.le_refl 0
      out_le := Nat.zero_le _ }
  else
    { b with
      in_ := b.in_ + n
      in_le := by
        have hsize : n < b.out_ - b.in_ := Nat.not_le.mp hall
        omega }

/-- {lit}`clear()`. -/
def clear (b : StaticFlatBuffer T N) : StaticFlatBuffer T N :=
  { b with
    in_ := 0
    out_ := 0
    last_ := 0
    in_le := Nat.le_refl 0
    out_le := Nat.le_refl 0
    last_le := Nat.zero_le N }

/-! ## The readable elements -/

/-- Room for as much as the array can still hold is always there. -/
theorem prepare_isOk (b : StaticFlatBuffer T N) {n : Nat} (hle : n ≤ N - b.size) :
    ∃ b', b.prepare n = .ok b' ∧ b'.readable = b.readable ∧ b'.room = n := by
  unfold prepare
  split
  · refine ⟨_, rfl, rfl, ?_⟩
    simp only [room]
    omega
  · rw [dif_neg (by simpa [capacity] using hle)]
    refine ⟨_, rfl, ?_, ?_⟩
    · have htake : (b.readable ++ b.buf.drop b.size).take b.size = b.readable := by
        rw [List.take_left' b.length_readable]
      simpa [readable, size] using htake
    · simp [room]

/-- Making room never changes the readable elements. -/
theorem readable_prepare {b b' : StaticFlatBuffer T N} {n : Nat}
    (hprepare : b.prepare n = .ok b') : b'.readable = b.readable ∧ b'.room = n := by
  have hle : n ≤ N - b.size := by
    unfold prepare at hprepare
    split at hprepare
    · have hin := b.in_le
      simp only [size]
      omega
    · split at hprepare
      · cases hprepare
      · rename_i hroom
        simpa [capacity] using hroom
  rcases b.prepare_isOk hle with ⟨b'', hprepare'', hreadable, hroom⟩
  rw [hprepare] at hprepare''
  cases hprepare''
  exact ⟨hreadable, hroom⟩

/-- Committing what was stored in the region appends it. -/
theorem readable_commit_fill (b : StaticFlatBuffer T N) {xs : List T}
    (hroom : xs.length ≤ b.room) :
    ((b.fill xs).commit xs.length).readable = b.readable ++ xs := by
  have hlength := b.length_buf
  have hin := b.in_le
  have hout := b.out_le
  have hlast := b.last_le
  have hxs : xs.take b.room = xs := List.take_of_length_le hroom
  have hcommit : min xs.length (b.last_ - b.out_) = xs.length := Nat.min_eq_left hroom
  have hsize : b.out_ + xs.length - b.in_ = b.size + xs.length := by
    rw [size]
    omega
  have hfront : b.buf.take b.out_ = b.buf.take b.in_ ++ b.readable := by
    have hcut : b.out_ = b.in_ + b.size := by
      rw [size]
      omega
    rw [hcut, List.take_add]
    rfl
  have hdrop : (b.buf.take b.out_ ++ xs ++ b.buf.drop (b.out_ + xs.length)).drop b.in_ =
      b.readable ++ xs ++ b.buf.drop (b.out_ + xs.length) := by
    rw [hfront, List.append_assoc, List.append_assoc, List.drop_left', List.append_assoc]
    rw [List.length_take]
    omega
  change ((b.buf.take b.out_ ++ xs.take b.room ++
      b.buf.drop (b.out_ + (xs.take b.room).length)).drop b.in_).take
    (b.out_ + min xs.length (b.last_ - b.out_) - b.in_) = _
  rw [hxs, hcommit, hsize, hdrop, List.take_left']
  rw [List.length_append, length_readable]

/-- Consuming drops from the front. -/
@[simp]
theorem readable_consume (b : StaticFlatBuffer T N) (n : Nat) :
    (b.consume n).readable = b.readable.drop n := by
  unfold consume
  split
  · rename_i hall
    have hlength := b.length_readable
    rw [List.drop_of_length_le (by omega)]
    simp [readable, size]
  · have hsize : b.out_ - (b.in_ + n) = b.size - n := by
      rw [size]
      omega
    simp only [readable, size, hsize]
    rw [List.drop_take, List.drop_drop]

@[simp]
theorem size_consume (b : StaticFlatBuffer T N) (n : Nat) :
    (b.consume n).size = b.size - n := by
  rw [← length_readable, readable_consume, List.length_drop, length_readable]

end StaticFlatBuffer

end Smpp
