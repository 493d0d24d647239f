import Smpp.Library.Memory
import Smpp.Net.FlatBufferQueue
import Mathlib.Algebra.GroupWithZero.Nat

/-!
# Receive buffers in memory

{lit}`static_flat_buffer<T, N>` as it lies in memory: an array and three pointers into it.
The class declares no copy or move members, so the implicit ones copy the array and the
three pointers member by member.

Main results:

- Theorem {lit}`FlatMemory.ownPointers_of_run`: as long as no buffer is copied or moved to
  another one, the pointers of every live buffer point into its own array, and what is
  done to one buffer leaves the others as they are; copying or moving a buffer to another
  one always breaks this.
- Theorem {lit}`FlatLayout.represents_perform`: on octets, a buffer with its own pointers behaves
  as the model with offsets.
- Theorem {lit}`FlatMemory.represents_of_run`: in a program with several buffers each of them
  behaves as its own model from its construction on.
-/

namespace Smpp

open EventMachine

/-- Sizes of a {lit}`static_flat_buffer<T, N>`: {lit}`N`, {lit}`sizeof(T)` and the size of the whole
object, which also holds three pointers. -/
structure FlatLayout where
  count : Nat
  width : Nat
  size : Nat
  width_pos : 0 < width := by decide
  storage_lt : count * width < size := by decide

/-- The three pointers of a buffer whose array begins at {lit}`base`. -/
structure FlatObject where
  base : Nat
  in_ : Nat
  out_ : Nat
  last_ : Nat
deriving DecidableEq, Repr

/-- {lit}`a - b` in {lit}`std::size_t`. -/
def subSizeT (a b : Nat) : Nat :=
  if b ≤ a then a - b else 2 ^ 64 + a - b

namespace FlatLayout

variable {L : FlatLayout} {mem mem' : Memory UInt8} {o : FlatObject} {e : BufferEvent}

/-- The octets of the array. -/
def storage (L : FlatLayout) : Nat :=
  L.count * L.width

/-- {lit}`dist(first, last)`. -/
def dist (L : FlatLayout) (first last : Nat) : Nat :=
  if first ≤ last then (last - first) / L.width else 2 ^ 64 - (first - last) / L.width

/-! ## Calls -/

/-- {lit}`prepare(n)`; {lit}`memmove` counts octets. -/
def prepare (L : FlatLayout) (mem : Memory UInt8) (o : FlatObject) (n : Nat) :
    Except Fault (Memory UInt8 × FlatObject) :=
  if n ≤ L.dist o.out_ (o.base + L.storage) then
    .ok (mem, { o with last_ := o.out_ + n * L.width })
  else
    let len := L.dist o.in_ o.out_
    if n > subSizeT L.count len then
      .error (.lengthError "static_flat_buffer::prepare buffer overflow")
    else
      .ok (if len > 0 then mem.move o.base o.in_ len else mem,
        { o with
          in_ := o.base
          out_ := o.base + len * L.width
          last_ := o.base + len * L.width + n * L.width })

/-- {lit}`commit(n)`. -/
def commit (L : FlatLayout) (o : FlatObject) (n : Nat) : FlatObject :=
  { o with out_ := o.out_ + min n (L.dist o.out_ o.last_) * L.width }

/-- {lit}`consume(n)`. -/
def consume (L : FlatLayout) (o : FlatObject) (n : Nat) : FlatObject :=
  if n ≥ L.dist o.in_ o.out_ then { o with in_ := o.base, out_ := o.base }
  else { o with in_ := o.in_ + n * L.width }

/-- {lit}`clear()`. -/
def clear (o : FlatObject) : FlatObject :=
  { o with in_ := o.base, out_ := o.base, last_ := o.base }

/-- A call, or a store into {lit}`[out_, last_)` by the owner of the region. -/
def perform (L : FlatLayout) (mem : Memory UInt8) (o : FlatObject) :
    BufferEvent → Memory UInt8 × FlatObject
  | .prepare n =>
      match L.prepare mem o n with
      | .ok result => result
      | .error _ => (mem, o)
  | .store bytes => (mem.store o.out_ (bytes.take (o.last_ - o.out_)), o)
  | .commit k => (mem, L.commit o k)
  | .consume m => (mem, L.consume o m)
  | .clear => (mem, clear o)

/-- The readable octets {lit}`[in_, out_)`. -/
def readable (mem : Memory UInt8) (o : FlatObject) : Octets :=
  mem.read o.in_ (o.out_ - o.in_)

/-! ## Own pointers -/

/-- The pointers point into the array of the buffer itself, in order. -/
def Own (L : FlatLayout) (o : FlatObject) : Prop :=
  o.base ≤ o.in_ ∧ o.in_ ≤ o.out_ ∧ o.out_ ≤ o.last_ ∧ o.last_ ≤ o.base + L.storage

instance (L : FlatLayout) (o : FlatObject) : Decidable (L.Own o) :=
  inferInstanceAs (Decidable (_ ∧ _))

/-- The pointers are those to elements number {lit}`i`, {lit}`j` and {lit}`k` of the array. -/
def Aligned (L : FlatLayout) (o : FlatObject) : Prop :=
  ∃ i j k, i ≤ j ∧ j ≤ k ∧ k ≤ L.count ∧ o.in_ = o.base + i * L.width ∧
    o.out_ = o.base + j * L.width ∧ o.last_ = o.base + k * L.width

theorem own_of_aligned (haligned : L.Aligned o) : L.Own o := by
  rcases haligned with ⟨i, j, k, hij, hjk, hk, hin, hout, hlast⟩
  have hi : i * L.width ≤ j * L.width := Nat.mul_le_mul_right _ hij
  have hj : j * L.width ≤ k * L.width := Nat.mul_le_mul_right _ hjk
  have hN : k * L.width ≤ L.storage := Nat.mul_le_mul_right _ hk
  exact ⟨by omega, by omega, by omega, by omega⟩

/-- The distance of two elements. -/
theorem dist_eq {base i j : Nat} (hle : i ≤ j) :
    L.dist (base + i * L.width) (base + j * L.width) = j - i := by
  have hmul : i * L.width ≤ j * L.width := Nat.mul_le_mul_right _ hle
  have hsub : base + j * L.width - (base + i * L.width) = (j - i) * L.width := by
    rw [Nat.sub_mul]
    omega
  rw [dist, if_pos (by omega), hsub, Nat.mul_div_cancel _ L.width_pos]

/-- What {lit}`prepare` does with a buffer whose pointers are its own. -/
theorem prepare_cases (haligned : L.Aligned o) (mem : Memory UInt8) (n : Nat) :
    (∃ what, L.prepare mem o n = .error (.lengthError what)) ∨
      ∃ mem' o', L.prepare mem o n = .ok (mem', o') ∧ o'.base = o.base ∧ L.Aligned o' ∧
        Memory.AgreeOutside o.base L.storage mem mem' := by
  rcases haligned with ⟨i, j, k, hij, hjk, hk, hin, hout, hlast⟩
  have hfree : L.dist o.out_ (o.base + L.storage) = L.count - j := by
    rw [hout, storage, dist_eq (by omega)]
  have hlen : L.dist o.in_ o.out_ = j - i := by
    rw [hin, hout, dist_eq hij]
  unfold prepare
  rw [hfree, hlen]
  by_cases hfits : n ≤ L.count - j
  · refine Or.inr ⟨_, _, if_pos hfits, rfl, ⟨i, j, j + n, hij, by omega, by omega, hin, hout, ?_⟩,
      Memory.agreeOutside_refl _ _ _⟩
    show o.out_ + n * L.width = o.base + (j + n) * L.width
    rw [hout, Nat.add_mul, Nat.add_assoc]
  · rw [if_neg hfits]
    by_cases hroom : n > subSizeT L.count (j - i)
    · exact Or.inl ⟨_, if_pos hroom⟩
    · rw [subSizeT, if_pos (by omega)] at hroom
      refine Or.inr ⟨_, _, if_neg (by rw [subSizeT, if_pos (by omega)]; exact hroom), rfl,
        ⟨0, j - i, j - i + n, by omega, by omega, by omega, by simp, rfl, ?_⟩, ?_⟩
      · show o.base + (j - i) * L.width + n * L.width = o.base + (j - i + n) * L.width
        rw [Nat.add_mul, Nat.add_assoc]
      · split
        · have hstorage : L.count ≤ L.storage := Nat.le_mul_of_pos_right _ L.width_pos
          refine Memory.agreeOutside_store _ (Nat.le_refl _) ?_
          rw [Memory.length_read]
          omega
        · exact Memory.agreeOutside_refl _ _ _

/-- A call keeps the pointers in the array and changes nothing outside it. -/
theorem perform_aligned (haligned : L.Aligned o) (mem : Memory UInt8) (e : BufferEvent) :
    (L.perform mem o e).2.base = o.base ∧ L.Aligned (L.perform mem o e).2 ∧
      Memory.AgreeOutside o.base L.storage mem (L.perform mem o e).1 := by
  have hsame := Memory.agreeOutside_refl o.base L.storage mem
  cases e with
  | prepare n =>
      rcases prepare_cases haligned mem n with ⟨what, herror⟩ | ⟨mem', o', hok, hbase, hown, hagree⟩
      · have hperform : L.perform mem o (.prepare n) = (mem, o) := by
          simp only [perform, herror]
        rw [hperform]
        exact ⟨rfl, haligned, hsame⟩
      · have hperform : L.perform mem o (.prepare n) = (mem', o') := by
          simp only [perform, hok]
        rw [hperform]
        exact ⟨hbase, hown, hagree⟩
  | store bytes =>
      rcases own_of_aligned haligned with ⟨hin, hout, hlast, hend⟩
      refine ⟨rfl, haligned, Memory.agreeOutside_store _ (by omega) ?_⟩
      rw [List.length_take]
      omega
  | commit k =>
      rcases haligned with ⟨i, j, l, hij, hjl, hl, hin, hout, hlast⟩
      have hroom : L.dist o.out_ o.last_ = l - j := by
        rw [hout, hlast, dist_eq hjl]
      refine ⟨rfl, ⟨i, j + min k (l - j), l, by omega, by omega, hl, hin, ?_, hlast⟩, hsame⟩
      show o.out_ + min k (L.dist o.out_ o.last_) * L.width =
        o.base + (j + min k (l - j)) * L.width
      rw [hroom, hout, Nat.add_mul, Nat.add_assoc]
  | consume m =>
      rcases haligned with ⟨i, j, l, hij, hjl, hl, hin, hout, hlast⟩
      have hlen : L.dist o.in_ o.out_ = j - i := by
        rw [hin, hout, dist_eq hij]
      simp only [perform, consume, hlen]
      split
      · exact ⟨rfl, ⟨0, 0, l, by omega, by omega, hl, by simp, by simp, hlast⟩, hsame⟩
      · refine ⟨rfl, ⟨i + m, j, l, by omega, hjl, hl, ?_, hout, hlast⟩, hsame⟩
        show o.in_ + m * L.width = o.base + (i + m) * L.width
        rw [hin, Nat.add_mul, Nat.add_assoc]
  | clear => exact ⟨rfl, ⟨0, 0, 0, by omega, by omega, by omega, by simp [perform, clear]⟩, hsame⟩

/-! ## Octets -/

/-- The buffer at {lit}`o` is {lit}`b`, whose pointers are offsets into the array. -/
structure Represents (L : FlatLayout) (mem : Memory UInt8) (o : FlatObject)
    (b : StaticFlatBuffer UInt8 L.count) : Prop where
  in_eq : o.in_ = o.base + b.in_
  out_eq : o.out_ = o.base + b.out_
  last_eq : o.last_ = o.base + b.last_
  buf_eq : mem.read o.base L.count = b.buf

variable {b : StaticFlatBuffer UInt8 L.count}

theorem storage_of_octets (hwidth : L.width = 1) : L.storage = L.count := by
  rw [storage, hwidth, Nat.mul_one]

theorem dist_of_octets (hwidth : L.width = 1) {base i j : Nat} (hle : i ≤ j) :
    L.dist (base + i) (base + j) = j - i := by
  have hdist : L.dist (base + i * L.width) (base + j * L.width) = j - i := dist_eq hle
  rwa [hwidth, Nat.mul_one, Nat.mul_one] at hdist

/-- A new buffer. -/
theorem represents_new (hwidth : L.width = 1) (mem : Memory UInt8) (base : Nat) :
    L.Represents (mem.store base (List.replicate L.storage 0)) ⟨base, base, base, base⟩
      (.new UInt8 L.count) where
  in_eq := rfl
  out_eq := rfl
  last_eq := rfl
  buf_eq := by
    have hstored := mem.read_store_self base (List.replicate L.count 0)
    rw [List.length_replicate] at hstored
    rw [storage_of_octets hwidth]
    exact hstored

/-- What lies between {lit}`in_` and {lit}`out_` are the octets that the model exposes. -/
theorem Represents.read_eq (hrep : L.Represents mem o b) : mem.read o.in_ b.size = b.readable := by
  have hin := b.in_le
  have hout := b.out_le
  have hlast := b.last_le
  have hsize : b.in_ + b.size ≤ L.count := by
    rw [StaticFlatBuffer.size]
    omega
  rw [hrep.in_eq, StaticFlatBuffer.readable, ← hrep.buf_eq, Memory.drop_read _ _ (by omega),
    Memory.take_read _ _ (by omega)]

/-- Both expose the same octets. -/
theorem Represents.readable_eq (hrep : L.Represents mem o b) : readable mem o = b.readable := by
  have hlength : o.out_ - o.in_ = b.size := by
    rw [hrep.in_eq, hrep.out_eq, StaticFlatBuffer.size]
    omega
  rw [readable, hlength, hrep.read_eq]

/-- Both have the same size. -/
theorem Represents.size_eq (hwidth : L.width = 1) (hrep : L.Represents mem o b) :
    L.dist o.in_ o.out_ = b.size := by
  rw [hrep.in_eq, hrep.out_eq, dist_of_octets hwidth b.in_le, StaticFlatBuffer.size]

/-- Both throw, or both move the readable octets to the front or leave them where they are. -/
theorem Represents.prepare (hwidth : L.width = 1) (hrep : L.Represents mem o b) (n : Nat) :
    (∃ what, L.prepare mem o n = .error (.lengthError what) ∧
      b.prepare n = .error (.lengthError what)) ∨
    ∃ mem' o' b', L.prepare mem o n = .ok (mem', o') ∧ b.prepare n = .ok b' ∧
      L.Represents mem' o' b' := by
  have hsize := b.size_le
  have hfree : L.dist o.out_ (o.base + L.storage) = L.count - b.out_ := by
    rw [hrep.out_eq, storage_of_octets hwidth,
      dist_of_octets hwidth (Nat.le_trans b.out_le b.last_le)]
  have hsub : subSizeT L.count b.size = b.capacity - b.size := if_pos hsize
  unfold FlatLayout.prepare StaticFlatBuffer.prepare
  rw [hfree, hrep.size_eq hwidth, hwidth]
  dsimp only
  rw [hsub]
  by_cases hfits : n ≤ L.count - b.out_
  · refine Or.inr ⟨_, _, _, if_pos hfits, dif_pos hfits, hrep.in_eq, hrep.out_eq, ?_, hrep.buf_eq⟩
    show o.out_ + n * 1 = o.base + (b.out_ + n)
    rw [hrep.out_eq, Nat.mul_one, Nat.add_assoc]
  · rw [if_neg hfits, dif_neg hfits]
    by_cases hroom : n > b.capacity - b.size
    · exact Or.inl ⟨_, if_pos hroom, dif_pos hroom⟩
    · refine Or.inr ⟨_, _, _, if_neg hroom, dif_neg hroom, rfl, ?_, ?_, ?_⟩
      · show o.base + b.size * 1 = o.base + b.size
        rw [Nat.mul_one]
      · show o.base + b.size * 1 + n * 1 = o.base + (b.size + n)
        omega
      · show Memory.read (if b.size > 0 then mem.move o.base o.in_ b.size else mem) o.base L.count =
          b.readable ++ b.buf.drop b.size
        split
        · have hstore : (mem.store (o.base + 0) b.readable).read o.base L.count =
              b.buf.take 0 ++ b.readable ++ b.buf.drop (0 + b.readable.length) := by
            rw [← hrep.buf_eq]
            exact Memory.read_store _ _ (by rw [b.length_readable]; omega)
          rw [Memory.move, hrep.read_eq]
          simpa using hstore
        · rename_i hempty
          have hzero : b.size = 0 := by omega
          have hnil : b.readable = [] :=
            List.length_eq_zero_iff.mp (by rw [b.length_readable, hzero])
          rw [hnil, hzero, List.nil_append, List.drop_zero, hrep.buf_eq]

/-- What is stored behind the readable octets is stored in the array. -/
theorem Represents.store (hrep : L.Represents mem o b) (bytes : Octets) :
    L.Represents (mem.store o.out_ (bytes.take (o.last_ - o.out_))) o
      (b.storeAt b.out_ (bytes.take b.room)) where
  in_eq := hrep.in_eq
  out_eq := hrep.out_eq
  last_eq := hrep.last_eq
  buf_eq := by
    have hout := b.out_le
    have hlast := b.last_le
    have hroom : o.last_ - o.out_ = b.room := by
      rw [hrep.last_eq, hrep.out_eq, StaticFlatBuffer.room]
      omega
    have hfits : b.out_ + (bytes.take b.room).length ≤ L.count := by
      rw [List.length_take, StaticFlatBuffer.room]
      omega
    have hall : (bytes.take b.room).take (L.count - b.out_) = bytes.take b.room :=
      List.take_of_length_le (by omega)
    show _ = b.buf.take b.out_ ++ (bytes.take b.room).take (L.count - b.out_) ++
      b.buf.drop (b.out_ + (bytes.take b.room).length)
    rw [hroom, hrep.out_eq, Memory.read_store _ _ hfits, hrep.buf_eq, hall]

/-- On octets, a buffer with its own pointers behaves as the model with offsets. -/
theorem represents_perform (hwidth : L.width = 1) (hrep : L.Represents mem o b)
    (e : BufferEvent) :
    L.Represents (L.perform mem o e).1 (L.perform mem o e).2 (b.perform e) := by
  cases e with
  | prepare n =>
      rcases hrep.prepare hwidth n with ⟨what, herror, herror'⟩ | ⟨mem', o', b', hok, hok', hrep'⟩
      · simpa only [perform, StaticFlatBuffer.perform, herror, herror'] using hrep
      · simpa only [perform, StaticFlatBuffer.perform, hok, hok'] using hrep'
  | store bytes => exact hrep.store bytes
  | commit k =>
      have hroom : L.dist o.out_ o.last_ = b.last_ - b.out_ := by
        rw [hrep.out_eq, hrep.last_eq, dist_of_octets hwidth b.out_le]
      refine ⟨hrep.in_eq, ?_, hrep.last_eq, hrep.buf_eq⟩
      show o.out_ + min k (L.dist o.out_ o.last_) * L.width =
        o.base + (b.out_ + min k (b.last_ - b.out_))
      rw [hroom, hrep.out_eq, hwidth, Nat.mul_one, Nat.add_assoc]
  | consume m =>
      simp only [perform, StaticFlatBuffer.perform, consume, StaticFlatBuffer.consume,
        hrep.size_eq hwidth]
      split
      · exact ⟨rfl, rfl, hrep.last_eq, hrep.buf_eq⟩
      · refine ⟨?_, hrep.out_eq, hrep.last_eq, hrep.buf_eq⟩
        show o.in_ + m * L.width = o.base + (b.in_ + m)
        rw [hrep.in_eq, hwidth, Nat.mul_one, Nat.add_assoc]
  | clear => exact ⟨rfl, rfl, rfl, hrep.buf_eq⟩

end FlatLayout

/-! ## Several buffers -/

/-- An address space and the buffers that live in it. -/
structure FlatMemory where
  mem : Memory UInt8
  objects : List FlatObject := []

/-- The implicit members that take another object. -/
inductive SpecialMember where
  | copy
  | move
deriving DecidableEq, Repr

/-- What can happen to the buffers of a program; a buffer is known by its address. -/
inductive ObjectEvent where
  | construct (base : Nat)
  | constructFrom (member : SpecialMember) (base source : Nat)
  | assignFrom (member : SpecialMember) (base source : Nat)
  | call (base : Nat) (e : BufferEvent)
  | destroy (base : Nat)
deriving DecidableEq, Repr

namespace FlatMemory

variable {L : FlatLayout} {σ σ' : FlatMemory} {e : ObjectEvent} {o o' : FlatObject}
variable {es : List ObjectEvent} {out os os' : List Empty}

/-- Objects at these addresses do not overlap. -/
def Apart (L : FlatLayout) (base base' : Nat) : Prop :=
  base + L.size ≤ base' ∨ base' + L.size ≤ base

instance (L : FlatLayout) (base base' : Nat) : Decidable (Apart L base base') :=
  inferInstanceAs (Decidable (_ ∨ _))

/-- There is room for an object. -/
def Free (L : FlatLayout) (σ : FlatMemory) (base : Nat) : Prop :=
  ∀ o ∈ σ.objects, Apart L base o.base

instance (L : FlatLayout) (σ : FlatMemory) (base : Nat) : Decidable (Free L σ base) :=
  inferInstanceAs (Decidable (∀ o ∈ σ.objects, Apart L base o.base))

/-- The object at an address. -/
def find (σ : FlatMemory) (base : Nat) : Option FlatObject :=
  σ.objects.find? fun o => o.base = base

/-- The object at its address has new pointers. -/
def update (objects : List FlatObject) (o' : FlatObject) : List FlatObject :=
  objects.map fun o => if o.base = o'.base then o' else o

/-- One event. The implicit copy and move members do the same: they copy the array and the
three pointers. -/
def step (L : FlatLayout) (σ : FlatMemory) : ObjectEvent → Option (FlatMemory × List Empty)
  | .construct base =>
      if Free L σ base then
        some ({ mem := σ.mem.store base (List.replicate L.storage 0)
                objects := ⟨base, base, base, base⟩ :: σ.objects }, [])
      else none
  | .constructFrom _ base source =>
      match σ.find source with
      | some src =>
          if Free L σ base then
            some ({ mem := σ.mem.move base source L.storage
                    objects := { src with base := base } :: σ.objects }, [])
          else none
      | none => none
  | .assignFrom _ base source =>
      match σ.find base, σ.find source with
      | some _, some src =>
          some ({ mem := σ.mem.move base source L.storage
                  objects := update σ.objects { src with base := base } }, [])
      | _, _ => none
  | .call base e =>
      match σ.find base with
      | some o =>
          some ({ mem := (L.perform σ.mem o e).1
                  objects := update σ.objects (L.perform σ.mem o e).2 }, [])
      | none => none
  | .destroy base => some ({ σ with objects := σ.objects.filter fun o => o.base ≠ base }, [])

/-- Programs that start without a buffer. -/
def machine (L : FlatLayout) : EventMachine FlatMemory ObjectEvent Empty where
  init := { mem := fun _ => 0 }
  step := step L

/-- The object an event is about. -/
def target : ObjectEvent → Nat
  | .construct base | .constructFrom _ base _ | .assignFrom _ base _ | .call base _
  | .destroy base => base

/-- No buffer is constructed from or assigned from another one. -/
def NoTransfer : ObjectEvent → Prop
  | .constructFrom _ _ _ => False
  | .assignFrom _ base source => base = source
  | _ => True

/-- The pointers of every live buffer point into its own array. -/
def OwnPointers (L : FlatLayout) (σ : FlatMemory) : Prop :=
  ∀ o ∈ σ.objects, L.Own o

/-! ## Invariant -/

/-- Live buffers lie apart, and their pointers are those to elements of their own array. -/
structure Consistent (L : FlatLayout) (σ : FlatMemory) : Prop where
  apart : (σ.objects.map FlatObject.base).Pairwise (Apart L)
  aligned : ∀ o ∈ σ.objects, L.Aligned o

theorem Consistent.own (hconsistent : Consistent L σ) : OwnPointers L σ :=
  fun o hmem => FlatLayout.own_of_aligned (hconsistent.aligned o hmem)

theorem apart_symm {base base' : Nat} (hapart : Apart L base base') : Apart L base' base :=
  Or.symm hapart

/-- Different live buffers lie apart. -/
theorem Consistent.apart_of_mem (hconsistent : Consistent L σ) (hmem : o ∈ σ.objects)
    (hmem' : o' ∈ σ.objects) (hne : o.base ≠ o'.base) : Apart L o.base o'.base := by
  have hapart := List.pairwise_map.mp hconsistent.apart
  have hforward : σ.objects.Pairwise fun a b => a.base ≠ b.base → Apart L a.base b.base :=
    hapart.imp fun h => fun _ => h
  have hbackward : σ.objects.Pairwise fun a b => b.base ≠ a.base → Apart L b.base a.base :=
    hapart.imp fun h => fun _ => apart_symm h
  exact hforward.forall_of_forall_of_flip (fun _ _ hself => absurd rfl hself) hbackward
    hmem hmem' hne

/-- There is one live buffer at an address. -/
theorem Consistent.eq_of_base (hconsistent : Consistent L σ) (hmem : o ∈ σ.objects)
    (hmem' : o' ∈ σ.objects) (heq : o.base = o'.base) : o = o' := by
  have hsize := L.storage_lt
  have hapart := List.pairwise_map.mp hconsistent.apart
  -- an object does not lie apart from itself
  have hself : ∀ a b : FlatObject, Apart L a.base b.base → a.base ≠ b.base := by
    rintro a b (hlt | hlt) hbase <;> omega
  have hforward : σ.objects.Pairwise fun a b => a.base = b.base → a = b :=
    hapart.imp fun h hbase => absurd hbase (hself _ _ h)
  have hbackward : σ.objects.Pairwise fun a b => b.base = a.base → b = a :=
    hapart.imp fun h hbase => absurd hbase.symm (hself _ _ h)
  exact hforward.forall_of_forall_of_flip (fun _ _ _ => rfl) hbackward hmem hmem' heq

theorem mem_of_find {base : Nat} (hfind : σ.find base = some o) : o ∈ σ.objects ∧ o.base = base :=
  ⟨List.mem_of_find?_eq_some hfind, by simpa using List.find?_some hfind⟩

theorem map_base_update (objects : List FlatObject) (o' : FlatObject) :
    (update objects o').map FlatObject.base = objects.map FlatObject.base := by
  rw [update, List.map_map]
  apply List.map_congr_left
  intro o _
  by_cases hbase : o.base = o'.base
  · simp [hbase]
  · simp [hbase]

theorem mem_update {objects : List FlatObject} (hmem : o ∈ update objects o') :
    o ∈ objects ∨ o = o' := by
  rcases List.mem_map.mp hmem with ⟨o₁, hmem₁, rfl⟩
  split
  · exact Or.inr rfl
  · exact Or.inl hmem₁

theorem mem_update_of_ne {objects : List FlatObject} (hmem : o ∈ objects)
    (hne : o.base ≠ o'.base) : o ∈ update objects o' :=
  List.mem_map.mpr ⟨o, hmem, if_neg hne⟩

theorem self_mem_update {objects : List FlatObject} (hmem : o ∈ objects)
    (heq : o.base = o'.base) : o' ∈ update objects o' :=
  List.mem_map.mpr ⟨o, hmem, if_pos heq⟩

/-- New pointers into its own array may be given to any live buffer. -/
theorem Consistent.update (hconsistent : Consistent L σ) (haligned : L.Aligned o')
    (mem : Memory UInt8) : Consistent L { mem, objects := FlatMemory.update σ.objects o' } where
  apart := by
    rw [map_base_update]
    exact hconsistent.apart
  aligned o hmem := by
    rcases mem_update hmem with hmem | rfl
    · exact hconsistent.aligned o hmem
    · exact haligned

/-- A step that is not a transfer keeps the invariant. -/
theorem Consistent.step (hconsistent : Consistent L σ) (hstep : step L σ e = some (σ', out))
    (hno : NoTransfer e) : Consistent L σ' := by
  cases e with
  | construct base =>
      simp only [FlatMemory.step] at hstep
      split at hstep
      · rename_i hfree
        cases hstep
        constructor
        · rw [List.map_cons, List.pairwise_cons]
          refine ⟨?_, hconsistent.apart⟩
          intro base' hbase
          rcases List.mem_map.mp hbase with ⟨o, hmem, rfl⟩
          exact hfree o hmem
        · intro o hmem
          rcases List.mem_cons.mp hmem with rfl | hmem
          · exact ⟨0, 0, 0, by omega, by omega, by omega, by simp⟩
          · exact hconsistent.aligned o hmem
      · cases hstep
  | constructFrom member base source => exact hno.elim
  | assignFrom member base source =>
      have hsame : base = source := hno
      subst hsame
      simp only [FlatMemory.step] at hstep
      split at hstep
      · rename_i old src hold hsrc
        rcases mem_of_find hsrc with ⟨hmem, hbase⟩
        cases hstep
        exact hconsistent.update (hbase ▸ hconsistent.aligned src hmem) _
      · cases hstep
  | call base e =>
      simp only [FlatMemory.step] at hstep
      split at hstep
      · rename_i o hfind
        cases hstep
        have haligned := hconsistent.aligned o (mem_of_find hfind).1
        exact hconsistent.update (FlatLayout.perform_aligned haligned σ.mem e).2.1 _
      · cases hstep
  | destroy base =>
      cases hstep
      exact ⟨hconsistent.apart.sublist (List.filter_sublist.map _),
        fun o hmem => hconsistent.aligned o (List.mem_filter.mp hmem).1⟩

/-! ## Other buffers -/

/-- A change in another object does not change the array of a buffer. -/
theorem read_of_agree {mem mem' : Memory UInt8} {base base' : Nat}
    (hagree : Memory.AgreeOutside base L.storage mem mem') (hapart : Apart L base base') :
    mem'.read base' L.storage = mem.read base' L.storage := by
  have hsize : L.storage < L.size := L.storage_lt
  refine hagree.read_eq ?_
  rcases hapart with hlt | hlt <;> omega

/-- What happens to one buffer leaves the arrays and the pointers of the others as they are. -/
theorem Consistent.keeps (hconsistent : Consistent L σ)
    (hstep : FlatMemory.step L σ e = some (σ', out)) (hmem : o ∈ σ.objects)
    (hne : o.base ≠ target e) :
    o ∈ σ'.objects ∧ σ'.mem.read o.base L.storage = σ.mem.read o.base L.storage := by
  have htransfer : ∀ base source, Memory.AgreeOutside base L.storage σ.mem
      (σ.mem.move base source L.storage) := fun base source =>
    Memory.agreeOutside_store _ (Nat.le_refl _) (Nat.le_of_eq (by rw [Memory.length_read]))
  cases e with
  | construct base =>
      simp only [FlatMemory.step] at hstep
      split at hstep
      · rename_i hfree
        cases hstep
        have hagree : Memory.AgreeOutside base L.storage σ.mem
            (σ.mem.store base (List.replicate L.storage 0)) :=
          Memory.agreeOutside_store _ (Nat.le_refl _) (Nat.le_of_eq (by rw [List.length_replicate]))
        exact ⟨List.mem_cons_of_mem _ hmem, read_of_agree hagree (hfree o hmem)⟩
      · cases hstep
  | constructFrom member base source =>
      simp only [FlatMemory.step] at hstep
      split at hstep
      · split at hstep
        · rename_i hfree
          cases hstep
          exact ⟨List.mem_cons_of_mem _ hmem, read_of_agree (htransfer base source) (hfree o hmem)⟩
        · cases hstep
      · cases hstep
  | assignFrom member base source =>
      simp only [FlatMemory.step] at hstep
      split at hstep
      · rename_i old src hold hsrc
        rcases mem_of_find hold with ⟨holdmem, rfl⟩
        cases hstep
        exact ⟨mem_update_of_ne hmem hne, read_of_agree (htransfer _ source)
          (hconsistent.apart_of_mem holdmem hmem (Ne.symm hne))⟩
      · cases hstep
  | call base e =>
      simp only [FlatMemory.step] at hstep
      split at hstep
      · rename_i old hfind
        rcases mem_of_find hfind with ⟨holdmem, rfl⟩
        cases hstep
        rcases FlatLayout.perform_aligned (hconsistent.aligned old holdmem) σ.mem e with
          ⟨hbase, _, hagree⟩
        exact ⟨mem_update_of_ne hmem (by rw [hbase]; exact hne), read_of_agree hagree
          (hconsistent.apart_of_mem holdmem hmem (Ne.symm hne))⟩
      · cases hstep
  | destroy base =>
      cases hstep
      have hkept : o.base ≠ base := hne
      exact ⟨List.mem_filter.mpr ⟨hmem, by simpa using hkept⟩, rfl⟩

/-- What happens to one buffer leaves the others as they are. -/
theorem Consistent.frame (hconsistent : Consistent L σ)
    (hstep : FlatMemory.step L σ e = some (σ', out)) (hmem : o ∈ σ.objects)
    (hne : o.base ≠ target e) :
    o ∈ σ'.objects ∧ FlatLayout.readable σ'.mem o = FlatLayout.readable σ.mem o := by
  rcases hconsistent.own o hmem with ⟨hin, hout, hlast, hend⟩
  rcases hconsistent.keeps hstep hmem hne with ⟨hmem', hread⟩
  exact ⟨hmem', Memory.read_of_read hread hin (by omega)⟩

/-! ## Transfers -/

/-- The pointers of another buffer are not pointers into the array of this one. -/
theorem not_own_of_apart {base : Nat} (hown : L.Own o) (hapart : Apart L base o.base) :
    ¬L.Own { o with base := base } := by
  have hsize : L.storage < L.size := L.storage_lt
  rcases hown with ⟨hin, hout, hlast, hend⟩
  rintro ⟨hin', hout', hlast', hend'⟩
  simp only at hin' hout' hlast' hend'
  rcases hapart with hlt | hlt <;> omega

/-- The next step keeps the pointers own exactly if it is not a transfer. -/
theorem Consistent.ownPointers_iff (hconsistent : Consistent L σ)
    (hstep : FlatMemory.step L σ e = some (σ', out)) : OwnPointers L σ' ↔ NoTransfer e := by
  constructor
  · intro hown'
    cases e with
    | constructFrom member base source =>
        simp only [FlatMemory.step] at hstep
        split at hstep
        · rename_i src hsrc
          split at hstep
          · rename_i hfree
            rcases mem_of_find hsrc with ⟨hmem, _⟩
            cases hstep
            exact not_own_of_apart (hconsistent.own src hmem) (hfree src hmem)
              (hown' _ List.mem_cons_self)
          · cases hstep
        · cases hstep
    | assignFrom member base source =>
        show base = source
        simp only [FlatMemory.step] at hstep
        split at hstep
        · rename_i old src hold hsrc
          rcases mem_of_find hsrc with ⟨hmem, rfl⟩
          rcases mem_of_find hold with ⟨holdmem, rfl⟩
          cases hstep
          by_cases hsame : old.base = src.base
          · exact hsame
          · exact absurd (hown' _ (self_mem_update holdmem rfl))
              (not_own_of_apart (hconsistent.own src hmem)
                (hconsistent.apart_of_mem holdmem hmem hsame))
        · cases hstep
    | construct base => trivial
    | call base e => trivial
    | destroy base => trivial
  · intro hno
    exact (hconsistent.step hstep hno).own

/-- Storing what is there changes nothing. -/
theorem move_self (mem : Memory UInt8) (base count : Nat) : mem.move base base count = mem := by
  funext a
  rw [Memory.move, Memory.store]
  split
  · by_cases hlt : a - base < count
    · have haddr : base + (a - base) = a := by omega
      rw [Memory.getElem?_read _ _ hlt, Option.getD_some, haddr]
    · rw [List.getElem?_eq_none (by rw [Memory.length_read]; omega), Option.getD_none]
  · rfl

/-- A buffer that is assigned from itself stays as it is. -/
theorem Consistent.assign_self (hconsistent : Consistent L σ) {member : SpecialMember} {base : Nat}
    (hstep : FlatMemory.step L σ (.assignFrom member base base) = some (σ', out)) : σ' = σ := by
  simp only [FlatMemory.step] at hstep
  split at hstep
  · rename_i old src hold hsrc
    rcases mem_of_find hsrc with ⟨hmem, rfl⟩
    have hobjects : FlatMemory.update σ.objects src = σ.objects := by
      have hsame : ∀ o ∈ σ.objects, (if o.base = src.base then src else o) = id o := by
        intro o homem
        split
        · rename_i hbase
          exact hconsistent.eq_of_base hmem homem hbase.symm
        · rfl
      rw [FlatMemory.update, List.map_congr_left hsame, List.map_id]
    cases hstep
    rw [move_self]
    exact congrArg (FlatMemory.mk σ.mem) hobjects
  · cases hstep

/-! ## Model buffers -/

/-- What an event does to the buffer at an address. -/
def callOn (base : Nat) : ObjectEvent → Option BufferEvent
  | .call base' e => if base' = base then some e else none
  | _ => none

theorem callOn_of_ne {base : Nat} (hne : base ≠ target e) : callOn base e = none := by
  cases e with
  | call base' e => exact if_neg (Ne.symm hne)
  | construct base' => rfl
  | constructFrom member base' source => rfl
  | assignFrom member base' source => rfl
  | destroy base' => rfl

variable {b : StaticFlatBuffer UInt8 L.count}

/-- A step acts on a buffer as the calls on it do on the model, whatever else it changes. -/
theorem Consistent.represents_step (hconsistent : Consistent L σ) (hwidth : L.width = 1)
    (hstep : FlatMemory.step L σ e = some (σ', out)) (hno : NoTransfer e) (hmem : o ∈ σ.objects)
    (hkept : e ≠ .destroy o.base) (hrep : L.Represents σ.mem o b) :
    ∃ o' ∈ σ'.objects, o'.base = o.base ∧
      L.Represents σ'.mem o' ((callOn o.base e).toList.foldl StaticFlatBuffer.perform b) := by
  by_cases hother : o.base = target e
  · cases e with
    | construct base =>
        simp only [FlatMemory.step] at hstep
        split at hstep
        · rename_i hfree
          -- an object does not lie apart from itself
          have hsize := L.storage_lt
          have hbase : o.base = base := hother
          rcases hfree o hmem with hlt | hlt <;> omega
        · cases hstep
    | constructFrom member base source => exact hno.elim
    | assignFrom member base source =>
        have hsame : base = source := hno
        subst hsame
        rw [hconsistent.assign_self hstep]
        exact ⟨o, hmem, rfl, hrep⟩
    | call base e =>
        have hbase : o.base = base := hother
        subst hbase
        simp only [FlatMemory.step] at hstep
        split at hstep
        · rename_i found hfind
          rcases mem_of_find hfind with ⟨hfound, hsame⟩
          have heq := hconsistent.eq_of_base hfound hmem hsame
          subst heq
          cases hstep
          have hbase := (FlatLayout.perform_aligned (hconsistent.aligned found hmem) σ.mem e).1
          refine ⟨_, self_mem_update hmem hbase.symm, hbase, ?_⟩
          have hrep' := FlatLayout.represents_perform hwidth hrep e
          simpa [callOn] using hrep'
        · cases hstep
    | destroy base => exact absurd (congrArg ObjectEvent.destroy (Eq.symm hother)) hkept
  · rcases hconsistent.keeps hstep hmem hother with ⟨hmem', hread⟩
    rw [FlatLayout.storage_of_octets hwidth] at hread
    rw [callOn_of_ne hother]
    exact ⟨o, hmem', rfl, hrep.in_eq, hrep.out_eq, hrep.last_eq, hread.trans hrep.buf_eq⟩

/-! ## Runs -/

/-- What a program with several buffers may rely on, in one state. -/
structure BuffersSafe (L : FlatLayout) (σ : FlatMemory) : Prop where
  own : OwnPointers L σ
  /-- The next step keeps the pointers own exactly if it is not a transfer. -/
  next : ∀ e σ' out, step L σ e = some (σ', out) → (OwnPointers L σ' ↔ NoTransfer e)
  /-- What happens to one buffer leaves the others, and what they expose, as they are. -/
  frame : ∀ e σ' out, step L σ e = some (σ', out) → ∀ o ∈ σ.objects, o.base ≠ target e →
    o ∈ σ'.objects ∧ FlatLayout.readable σ'.mem o = FlatLayout.readable σ.mem o
  /-- The transfers that are left change nothing. -/
  self : ∀ member base σ' out,
    step L σ (.assignFrom member base base) = some (σ', out) → σ' = σ

theorem consistent_of_run (hrun : (machine L).Run (fun _ e _ => NoTransfer e) es os σ) :
    Consistent L σ := by
  refine Steps.invariant (fun _ _ σ => Consistent L σ) ?_ ?_ hrun
  · exact ⟨List.Pairwise.nil, fun _ hmem => by cases hmem⟩
  · intro _ _ σ e σ' out hconsistent hstep hno
    exact hconsistent.step hstep hno

/-- Without a transfer between different buffers, a buffer of octets behaves as the model from its
construction on until it is destroyed, whatever happens to the others. -/
theorem represents_of_run (hwidth : L.width = 1) {base : Nat} {σ₁ σ₂ : FlatMemory}
    {before after : List ObjectEvent}
    (hrun : (machine L).Run (fun _ e _ => NoTransfer e) before os σ₁)
    (hconstruct : step L σ₁ (.construct base) = some (σ₂, out))
    (hafter : (machine L).Steps (fun _ e _ => NoTransfer e ∧ e ≠ .destroy base) σ₂ after os' σ) :
    ∃ o ∈ σ.objects, ∃ b : StaticFlatBuffer UInt8 L.count, o.base = base ∧
      b = (after.filterMap (callOn base)).foldl StaticFlatBuffer.perform (.new UInt8 L.count) ∧
      L.Represents σ.mem o b ∧ FlatLayout.readable σ.mem o = b.readable := by
  have hconsistent : Consistent L σ₂ := (consistent_of_run hrun).step hconstruct trivial
  have hnew : ∃ o ∈ σ₂.objects, o.base = base ∧
      L.Represents σ₂.mem o (.new UInt8 L.count) := by
    simp only [step] at hconstruct
    split at hconstruct
    · cases hconstruct
      exact ⟨_, List.mem_cons_self, rfl, FlatLayout.represents_new hwidth σ₁.mem base⟩
    · cases hconstruct
  have hinv : Consistent L σ ∧ ∃ o ∈ σ.objects, o.base = base ∧ L.Represents σ.mem o
      ((after.filterMap (callOn base)).foldl StaticFlatBuffer.perform (.new UInt8 L.count)) := by
    refine Steps.invariant (fun es _ σ => Consistent L σ ∧ ∃ o ∈ σ.objects, o.base = base ∧
      L.Represents σ.mem o ((es.filterMap (callOn base)).foldl StaticFlatBuffer.perform
        (.new UInt8 L.count))) ⟨hconsistent, hnew⟩ ?_ hafter
    rintro es _ σ e σ' out ⟨hconsistent, o, hmem, rfl, hrep⟩ hstep ⟨hno, hkept⟩
    rcases hconsistent.represents_step hwidth hstep hno hmem hkept hrep with
      ⟨o', hmem', hbase, hrep'⟩
    refine ⟨hconsistent.step hstep hno, o', hmem', hbase, ?_⟩
    rw [List.filterMap_append, List.foldl_append]
    cases hcall : callOn o.base e with
    | none => simpa [hcall] using hrep'
    | some call => simpa [hcall] using hrep'
  rcases hinv.2 with ⟨o, hmem, hbase, hrep⟩
  exact ⟨o, hmem, _, hbase, rfl, hrep, hrep.readable_eq⟩

/-- In every run without a transfer between different buffers the pointers of every live
buffer point into its own array, and other buffers do not affect it. -/
theorem ownPointers_of_run (hrun : (machine L).Run (fun _ e _ => NoTransfer e) es os σ) :
    BuffersSafe L σ := by
  have hconsistent := consistent_of_run hrun
  exact
    { own := hconsistent.own
      next := fun _ _ _ hstep => hconsistent.ownPointers_iff hstep
      frame := fun _ _ _ hstep _ hmem hne => hconsistent.frame hstep hmem hne
      self := fun _ _ _ _ hstep => hconsistent.assign_self hstep }

/-- Buffers of four octets. -/
def fourOctets : FlatLayout where
  count := 4
  width := 1
  size := 32

theorem ownPointers_of_run_two :
    ∃ σ : FlatMemory, σ.objects.length = 2 ∧ BuffersSafe fourOctets σ := by
  have hrun := steps_of_exec (M := machine fourOctets) (s := (machine fourOctets).init)
    [.construct 0, .construct 100, .call 0 (.prepare 2), .call 0 (.store [1, 2]),
      .call 0 (.commit 2), .assignFrom .move 0 0] rfl
  exact ⟨_, rfl, ownPointers_of_run (hrun.restrict (by simp [NoTransfer]))⟩

/-- A buffer is filled and moved to another place. The pointers of the new buffer point into
the old one, and what is received into the old one afterwards changes what the new one exposes. -/
theorem not_ownPointers_moved :
    ∃ σ σ' : FlatMemory, ∃ o : FlatObject,
      (machine fourOctets).Run anyStep
        [.construct 0, .call 0 (.prepare 2), .call 0 (.store [1, 2]), .call 0 (.commit 2),
          .constructFrom .move 100 0] [] σ ∧
      (machine fourOctets).Steps anyStep σ
        [.call 0 (.consume 2), .call 0 (.prepare 2), .call 0 (.store [8, 9]),
          .call 0 (.commit 2)] [] σ' ∧
      o ∈ σ.objects ∧ o ∈ σ'.objects ∧ o.base = 100 ∧ ¬fourOctets.Own o ∧
      FlatLayout.readable σ.mem o = [1, 2] ∧ FlatLayout.readable σ'.mem o = [8, 9] := by
  refine ⟨_, _, ⟨100, 0, 2, 2⟩, steps_of_exec _ rfl, steps_of_exec _ rfl, ?_⟩
  decide

end FlatMemory

end Smpp
