import Mathlib.Algebra.GroupWithZero.Nat
import Mathlib.Data.List.Induction
import Mathlib.Data.List.Basic
import Mathlib.Tactic.Common

/-!
# Big-endian octet strings

Positional notation in base 256, most significant octet first, at a fixed width.

Main results:

- Theorem {lit}`value_octets`: reading what was written gives the number back,
  reduced modulo what the width can hold.
- Theorem {lit}`octets_value`: writing what was read gives the octets back.
- Theorems {lit}`toNat_joinU16` and {lit}`toNat_joinU32`: joining octets with shifts
  and bitwise ors computes their value.
-/

namespace BigEndian

/-- The number an octet string denotes. -/
def value (bs : List UInt8) : Nat :=
  bs.foldl (fun acc b => acc * 256 + b.toNat) 0

/-- The {lit}`width` low-order octets of a number. -/
def octets : (width : Nat) → Nat → List UInt8
  | 0, _ => []
  | width + 1, v => octets width (v / 256) ++ [UInt8.ofNat v]

@[simp]
theorem value_nil : value [] = 0 :=
  rfl

@[simp]
theorem value_concat (bs : List UInt8) (b : UInt8) :
    value (bs ++ [b]) = value bs * 256 + b.toNat := by
  simp [value]

@[simp]
theorem length_octets (width v : Nat) : (octets width v).length = width := by
  induction width generalizing v with
  | zero => rfl
  | succ width ih => simp [octets, ih]

/-- Reading back a written number loses only what the width cannot hold. -/
theorem value_octets (width v : Nat) : value (octets width v) = v % 256 ^ width := by
  induction width generalizing v with
  | zero => simp [octets, Nat.mod_one]
  | succ width ih =>
      have hdigit : (UInt8.ofNat v).toNat = v % 256 := by simp
      rw [octets, value_concat, ih, hdigit, Nat.pow_succ', Nat.mod_mul]
      omega

/-- Writing back a read number restores the octets. -/
theorem octets_value (bs : List UInt8) : octets bs.length (value bs) = bs := by
  induction bs using List.reverseRecOn with
  | nil => rfl
  | append_singleton bs b ih =>
      have hb := b.toNat_lt
      have hhigh : (value bs * 256 + b.toNat) / 256 = value bs := by omega
      have hlow : UInt8.ofNat (value bs * 256 + b.toNat) = b := by
        apply UInt8.toNat_inj.mp
        rw [UInt8.toNat_ofNat']
        omega
      rw [List.length_append, List.length_singleton, octets, value_concat, hhigh, hlow, ih]

/-! ## Octets joined and split by shifts and masks -/

/-- Masking all eight bits of an octet changes nothing. -/
@[simp]
theorem and_octetMask (b : UInt8) : b &&& 0xFF = b :=
  UInt8.and_neg_one

/-- Adding a number below a power of two to a multiple of it is a bitwise or. -/
theorem mul_two_pow_or {a b i : Nat} (hlt : b < 2 ^ i) :
    a * 2 ^ i ||| b = a * 2 ^ i + b := by
  rw [Nat.mul_comm]
  exact (Nat.two_pow_add_eq_or_of_lt hlt a).symm

/-- Joining two octets with a shift and a bitwise or. -/
theorem toNat_joinU16 (b₀ b₁ : UInt8) :
    (b₀.toUInt16 <<< 8 ||| b₁.toUInt16).toNat = value [b₀, b₁] := by
  have h₀ := b₀.toNat_lt
  have h₁ := b₁.toNat_lt
  have hshift : b₀.toNat * 2 ^ 8 % 2 ^ 16 = b₀.toNat * 2 ^ 8 := by omega
  calc
    (b₀.toUInt16 <<< 8 ||| b₁.toUInt16).toNat
        = b₀.toNat * 2 ^ 8 % 2 ^ 16 ||| b₁.toNat := by simp [Nat.shiftLeft_eq]
    _ = b₀.toNat * 2 ^ 8 + b₁.toNat := by rw [hshift, mul_two_pow_or h₁]
    _ = value [b₀, b₁] := by simp [value]

/-- Joining four octets with shifts and bitwise ors. -/
theorem toNat_joinU32 (b₀ b₁ b₂ b₃ : UInt8) :
    (b₀.toUInt32 <<< 24 ||| b₁.toUInt32 <<< 16 ||| b₂.toUInt32 <<< 8 |||
      b₃.toUInt32).toNat = value [b₀, b₁, b₂, b₃] := by
  have h₀ := b₀.toNat_lt
  have h₁ := b₁.toNat_lt
  have h₂ := b₂.toNat_lt
  have h₃ := b₃.toNat_lt
  have hshift₀ : b₀.toNat * 2 ^ 24 % 2 ^ 32 = b₀.toNat * 2 ^ 24 :=
    Nat.mod_eq_of_lt (by omega)
  have hshift₁ : b₁.toNat * 2 ^ 16 % 2 ^ 32 = b₁.toNat * 2 ^ 16 :=
    Nat.mod_eq_of_lt (by omega)
  have hshift₂ : b₂.toNat * 2 ^ 8 % 2 ^ 32 = b₂.toNat * 2 ^ 8 :=
    Nat.mod_eq_of_lt (by omega)
  have hjoin₁ : b₀.toNat * 2 ^ 24 ||| b₁.toNat * 2 ^ 16 =
      (b₀.toNat * 2 ^ 8 + b₁.toNat) * 2 ^ 16 := by
    rw [mul_two_pow_or (by omega)]
    omega
  have hjoin₂ : (b₀.toNat * 2 ^ 8 + b₁.toNat) * 2 ^ 16 ||| b₂.toNat * 2 ^ 8 =
      ((b₀.toNat * 2 ^ 8 + b₁.toNat) * 2 ^ 8 + b₂.toNat) * 2 ^ 8 := by
    rw [mul_two_pow_or (by omega)]
    omega
  calc
    (b₀.toUInt32 <<< 24 ||| b₁.toUInt32 <<< 16 ||| b₂.toUInt32 <<< 8 |||
        b₃.toUInt32).toNat
        = b₀.toNat * 2 ^ 24 % 2 ^ 32 ||| b₁.toNat * 2 ^ 16 % 2 ^ 32 |||
            b₂.toNat * 2 ^ 8 % 2 ^ 32 ||| b₃.toNat := by simp [Nat.shiftLeft_eq]
    _ = ((b₀.toNat * 2 ^ 8 + b₁.toNat) * 2 ^ 8 + b₂.toNat) * 2 ^ 8 + b₃.toNat := by
        rw [hshift₀, hshift₁, hshift₂, hjoin₁, hjoin₂, mul_two_pow_or h₃]
    _ = value [b₀, b₁, b₂, b₃] := by simp [value]

end BigEndian
