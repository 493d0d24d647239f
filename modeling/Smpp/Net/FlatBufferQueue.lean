import Smpp.Library.EventMachine
import Smpp.Library.Fifo
import Smpp.Net.StaticFlatBuffer

/-!
# The receive buffer as a queue

Whole sequences of calls on one {lit}`static_flat_buffer<uint8_t, N>`: regions are prepared,
written to by their owner, committed and consumed.  A commit is only made while the region
of the last {lit}`prepare` is out, that is, with no {lit}`consume` or {lit}`clear` in between.

Main results:

- Theorem {lit}`FlatBufferQueue.contents_of_run`: the readable octets are what was committed
  less what was consumed.
- Theorem {lit}`FlatBufferQueue.boundedQueue_of_run`: the calls on every reachable buffer do
  what the calls on a bounded queue do.
-/

namespace Smpp

open EventMachine

namespace StaticFlatBuffer

variable {T : Type} {N : Nat}

/-! ## Octets outside the readable window -/

/-- The octets of {lit}`[start, start + count)`. -/
def bytesAt (b : StaticFlatBuffer T N) (start count : Nat) : List T :=
  (b.buf.drop start).take count

/-- The owner of a region that begins at {lit}`start` stores octets at its beginning. -/
def storeAt (b : StaticFlatBuffer T N) (start : Nat) (xs : List T) : StaticFlatBuffer T N :=
  { b with
    buf := b.buf.take start ++ xs.take (N - start) ++ b.buf.drop (start + xs.length)
    length_buf := by
      have hlength := b.length_buf
      simp only [List.length_append, List.length_take, List.length_drop]
      omega }

/-- The readable octets are determined by what lies in front of {lit}`out_`. -/
theorem readable_eq_drop_take (b : StaticFlatBuffer T N) :
    b.readable = (b.buf.take b.out_).drop b.in_ := by
  rw [readable, size, List.drop_take]

/-- A store behind the readable octets does not change them. -/
theorem readable_storeAt (b : StaticFlatBuffer T N) {start : Nat} (xs : List T)
    (hbehind : b.out_ ≤ start) : (b.storeAt start xs).readable = b.readable := by
  have hlength := b.length_buf
  have hout := b.out_le
  have hlast := b.last_le
  have hfront : (b.storeAt start xs).buf.take b.out_ = b.buf.take b.out_ := by
    have hle : b.out_ ≤ (b.buf.take start).length := by
      rw [List.length_take]
      omega
    change (b.buf.take start ++ xs.take (N - start) ++ b.buf.drop (start + xs.length)).take
      b.out_ = _
    rw [List.append_assoc, List.take_append_of_le_length hle, List.take_take,
      Nat.min_eq_left hbehind]
  rw [readable_eq_drop_take, readable_eq_drop_take]
  exact congrArg (List.drop b.in_) hfront

/-- Committing appends the first octets of the region. -/
theorem readable_commit (b : StaticFlatBuffer T N) (k : Nat) :
    (b.commit k).readable = b.readable ++ (b.bytesAt b.out_ b.room).take k := by
  have hlength := b.length_buf
  have hin := b.in_le
  have hout := b.out_le
  have hlast := b.last_le
  have hle : b.in_ ≤ (b.buf.take b.out_).length := by
    rw [List.length_take]
    omega
  have hcommit : (b.commit k).readable = (b.buf.take (b.out_ + min k b.room)).drop b.in_ :=
    readable_eq_drop_take _
  rw [hcommit, readable_eq_drop_take, bytesAt, List.take_take, List.take_add,
    List.drop_append_of_le_length hle]

/-- {lit}`prepare` throws exactly if there is not enough room. -/
theorem prepare_of_lt (b : StaticFlatBuffer T N) {n : Nat} (hlt : N - b.size < n) :
    b.prepare n = .error (.lengthError "static_flat_buffer::prepare buffer overflow") := by
  have hin := b.in_le
  have hfits : ¬n ≤ N - b.out_ := by
    rw [size] at hlt
    omega
  have hroom : n > b.capacity - b.size := hlt
  rw [prepare, dif_neg hfits, dif_pos hroom]

theorem readable_clear (b : StaticFlatBuffer T N) : b.clear.readable = [] := by
  simp [readable, size, clear]

end StaticFlatBuffer

/-! ## Sequences of calls -/

/-- A buffer and what is left of the region that the last {lit}`prepare` returned: where it
begins and how many octets it has. -/
structure FlatBufferQueue (N : Nat) where
  buffer : StaticFlatBuffer UInt8 N
  lent : Option (Nat × Nat) := none

/-- A call, or a store by the owner of the region. -/
inductive BufferEvent where
  | prepare (n : Nat)
  | store (bytes : Octets)
  | commit (k : Nat)
  | consume (m : Nat)
  | clear
deriving DecidableEq, Repr

/-- The buffer behind a call, or behind a store into the region that begins at
{lit}`out_`. -/
def StaticFlatBuffer.perform {N : Nat} (b : StaticFlatBuffer UInt8 N) :
    BufferEvent → StaticFlatBuffer UInt8 N
  | .prepare n =>
      match b.prepare n with
      | .ok b' => b'
      | .error _ => b
  | .store bytes => b.storeAt b.out_ (bytes.take b.room)
  | .commit k => b.commit k
  | .consume m => b.consume m
  | .clear => b.clear

namespace FlatBufferQueue

variable {N : Nat} {s s' : FlatBufferQueue N} {e : BufferEvent} {es : List BufferEvent}
variable {o ops : List (QueueOp UInt8)}

/-- Perform a call; shown is what it does to the queue. -/
def step (s : FlatBufferQueue N) :
    BufferEvent → Option (FlatBufferQueue N × List (QueueOp UInt8))
  | .prepare n =>
      match s.buffer.prepare n with
      -- return { out_, n };
      | .ok b => some ({ buffer := b, lent := some (b.out_, n) }, [])
      | .error _ => some (s, [])
  | .store bytes =>
      match s.lent with
      | some (start, count) =>
          some ({ s with buffer := s.buffer.storeAt start (bytes.take count) }, [])
      | none => none
  | .commit k =>
      match s.lent with
      | some (start, count) =>
          some ({ buffer := s.buffer.commit k
                  lent := some (start + min k count, count - min k count) },
            [.append ((s.buffer.bytesAt start count).take k)])
      -- no commit without the region of a prepare
      | none => none
  | .consume m => some ({ buffer := s.buffer.consume m }, [.drop m])
  | .clear => some ({ buffer := s.buffer.clear }, [.drop s.buffer.size])

/-- Sequences of calls on a new buffer. -/
def machine (N : Nat) : EventMachine (FlatBufferQueue N) BufferEvent (QueueOp UInt8) where
  init := { buffer := .new UInt8 N }
  step := step

/-- The lent region begins where the readable octets end and is what may be committed. -/
def LentRegion (s : FlatBufferQueue N) : Prop :=
  ∀ start count, s.lent = some (start, count) →
    start = s.buffer.out_ ∧ count = s.buffer.room

theorem lentRegion_none (b : StaticFlatBuffer UInt8 N) :
    LentRegion { buffer := b, lent := none } := by
  intro start count heq
  cases heq

/-- One call keeps the lent region in place and acts on the readable octets as its
operations act on a queue. -/
theorem step_contents (hlent : s.LentRegion) (hstep : s.step e = some (s', o)) :
    s'.LentRegion ∧ s'.buffer.readable = Fifo.contents s.buffer.readable o := by
  cases e with
  | prepare n =>
      simp only [step] at hstep
      split at hstep
      · rename_i b hprepare
        cases hstep
        rcases StaticFlatBuffer.readable_prepare hprepare with ⟨hreadable, hroom⟩
        refine ⟨?_, hreadable⟩
        intro start count heq
        cases heq
        exact ⟨rfl, hroom.symm⟩
      · cases hstep
        exact ⟨hlent, rfl⟩
  | store bytes =>
      simp only [step] at hstep
      split at hstep
      · rename_i start count heq
        cases hstep
        have hstart := (hlent start count heq).1
        exact ⟨hlent, StaticFlatBuffer.readable_storeAt _ _ (Nat.le_of_eq hstart.symm)⟩
      · cases hstep
  | commit k =>
      simp only [step] at hstep
      split at hstep
      · rename_i start count heq
        cases hstep
        rcases hlent start count heq with ⟨rfl, rfl⟩
        refine ⟨?_, StaticFlatBuffer.readable_commit _ _⟩
        intro start' count' heq'
        cases heq'
        refine ⟨rfl, ?_⟩
        simp only [StaticFlatBuffer.room, StaticFlatBuffer.commit]
        omega
      · cases hstep
  | consume m =>
      cases hstep
      exact ⟨lentRegion_none _, StaticFlatBuffer.readable_consume _ _⟩
  | clear =>
      cases hstep
      refine ⟨lentRegion_none _, ?_⟩
      have hall : s.buffer.readable.drop s.buffer.size = [] :=
        List.drop_of_length_le (Nat.le_of_eq s.buffer.length_readable)
      exact (StaticFlatBuffer.readable_clear _).trans hall.symm

/-- While the lent region is in place, a step on a queue is the call on its buffer. -/
theorem buffer_step (hlent : s.LentRegion) (hstep : s.step e = some (s', o)) :
    s'.buffer = s.buffer.perform e := by
  cases e with
  | prepare n =>
      simp only [step] at hstep
      split at hstep
      · rename_i b hprepare
        cases hstep
        simp only [StaticFlatBuffer.perform, hprepare]
      · rename_i fault hprepare
        cases hstep
        simp only [StaticFlatBuffer.perform, hprepare]
  | store bytes =>
      simp only [step] at hstep
      split at hstep
      · rename_i start count heq
        cases hstep
        rcases hlent start count heq with ⟨rfl, rfl⟩
        rfl
      · cases hstep
  | commit k =>
      simp only [step] at hstep
      split at hstep
      · cases hstep
        rfl
      · cases hstep
  | consume m =>
      cases hstep
      rfl
  | clear =>
      cases hstep
      rfl

/-- The readable octets are what was committed less what was consumed. -/
theorem contents_of_run (hrun : (machine N).Run anyStep es ops s) :
    s.LentRegion ∧ s.buffer.readable = Fifo.contents [] ops := by
  refine Steps.invariant (fun _ ops s => s.LentRegion ∧ s.buffer.readable = Fifo.contents [] ops)
    ⟨lentRegion_none _, StaticFlatBuffer.readable_new⟩ ?_ hrun
  rintro _ ops a e b o ⟨hlent, hcontents⟩ hstep _
  rcases step_contents hlent hstep with ⟨hlent', hstep'⟩
  refine ⟨hlent', ?_⟩
  rw [hstep', hcontents]
  simp [Fifo.contents]

/-- What a buffer of capacity {lit}`N` is as a queue, behind the operations {lit}`ops`. -/
structure BoundedQueue (s : FlatBufferQueue N) (ops : List (QueueOp UInt8)) : Prop where
  ordered : 0 ≤ s.buffer.in_ ∧ s.buffer.in_ ≤ s.buffer.out_ ∧
    s.buffer.out_ ≤ s.buffer.last_ ∧ s.buffer.last_ ≤ N
  contents : s.buffer.readable = Fifo.contents [] ops
  /-- What was committed is what was consumed followed by what is readable. -/
  conserved : Fifo.appended ops = Fifo.removed [] ops ++ s.buffer.readable
  /-- Where there is room, a region of the requested size is lent, inside the storage and
  behind the readable octets, which stay as they are. -/
  prepare : ∀ n, n ≤ s.buffer.capacity - s.buffer.size → ∃ b start,
    s.step (.prepare n) = some ({ buffer := b, lent := some (start, n) }, []) ∧
      b.readable = s.buffer.readable ∧ start + n ≤ N ∧
      ∀ i, b.in_ ≤ i → i < b.in_ + b.size → i < start
  throws : ∀ n, s.buffer.capacity - s.buffer.size < n →
    s.buffer.prepare n =
        .error (.lengthError "static_flat_buffer::prepare buffer overflow") ∧
      s.step (.prepare n) = some (s, [])
  store : ∀ (bytes : Octets) start count, s.lent = some (start, count) →
    (s.buffer.storeAt start (bytes.take count)).readable = s.buffer.readable
  commit : ∀ k start count, s.lent = some (start, count) →
    (s.buffer.commit k).readable =
      s.buffer.readable ++ (s.buffer.bytesAt start count).take (min k count)
  consume : ∀ m, (s.buffer.consume m).readable = s.buffer.readable.drop (min m s.buffer.size)
  /-- The call of {lit}`receive_op` returns. -/
  receive : ∃ b, s.buffer.prepare (s.buffer.capacity - s.buffer.size) = .ok b

/-- Behind every sequence of calls the buffer is a bounded queue. -/
theorem boundedQueue_of_run (hrun : (machine N).Run anyStep es ops s) : BoundedQueue s ops := by
  rcases contents_of_run hrun with ⟨hlent, hcontents⟩
  refine
    { ordered := ⟨Nat.zero_le _, s.buffer.in_le, s.buffer.out_le, s.buffer.last_le⟩
      contents := hcontents
      conserved := ?_, prepare := ?_, throws := ?_, store := ?_, commit := ?_, consume := ?_
      receive := ?_ }
  · rw [hcontents]
    exact Fifo.append_contents [] ops
  · intro n hroom
    rcases s.buffer.prepare_isOk hroom with ⟨b, hprepare, hreadable, hregion⟩
    have hin := b.in_le
    have hout := b.out_le
    have hlast := b.last_le
    refine ⟨b, b.out_, by simp only [step, hprepare], hreadable, ?_, ?_⟩
    · rw [StaticFlatBuffer.room] at hregion
      omega
    · intro i hle hlt
      rw [StaticFlatBuffer.size] at hlt
      omega
  · intro n hlt
    have hthrow := s.buffer.prepare_of_lt hlt
    exact ⟨hthrow, by simp only [step, hthrow]⟩
  · intro bytes start count heq
    exact StaticFlatBuffer.readable_storeAt _ _ (Nat.le_of_eq (hlent start count heq).1.symm)
  · intro k start count heq
    rcases hlent start count heq with ⟨rfl, rfl⟩
    rw [StaticFlatBuffer.readable_commit, StaticFlatBuffer.bytesAt, List.take_take,
      List.take_take, Nat.min_assoc, Nat.min_self]
  · intro m
    rw [StaticFlatBuffer.readable_consume]
    by_cases hle : m ≤ s.buffer.size
    · rw [Nat.min_eq_left hle]
    · have hlength := s.buffer.length_readable
      rw [Nat.min_eq_right (by omega), List.drop_of_length_le (by omega),
        List.drop_of_length_le (by omega)]
  · rcases s.buffer.prepare_isOk (Nat.le_refl _) with ⟨b, hprepare, _⟩
    exact ⟨b, hprepare⟩

theorem boundedQueue_of_run_three :
    ∃ s : FlatBufferQueue 4, BoundedQueue s [.append [1, 2, 3], .drop 2, .append [4, 5]] := by
  have hrun := steps_of_exec (M := machine 4) (s := (machine 4).init)
    [.prepare 3, .store [1, 2, 3], .commit 3, .consume 2, .prepare 3, .store [4, 5], .commit 2]
    rfl
  exact ⟨_, boundedQueue_of_run hrun⟩

end FlatBufferQueue

end Smpp
